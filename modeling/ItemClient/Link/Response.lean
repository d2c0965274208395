import ItemClient.Error
import ItemClient.Json.Outline
import ItemClient.Json.Printer

/-!
# Responses

The status and the bytes that the remote store answers with, and the envelope that the bytes
spell: an object with the members `data` and `errors`, or an array of the two. A response counts
as answered only when it reports no errors and its status is a success.
-/

namespace ItemClient

/-- A response. -/
structure Response where
  status : Nat
  body : List UInt8 := []

namespace Response

def ofText (status : Nat) (body : String) : Response := ⟨status, Text.encode body⟩

def ofJson (status : Nat) (body : Json) : Response := ofText status body.text

/-- Whether the status says that the request succeeded. -/
def isSuccess (r : Response) : Bool := 200 ≤ r.status && r.status < 300

/-- What was read, or that it could not be read. -/
def decoded {α : Type} : Option α → Result α
  | some a => .ok a
  | none => .error .decode

@[simp] theorem decoded_eq_ok {α : Type} {o : Option α} {a : α} :
    decoded o = .ok a ↔ o = some a := by
  cases o <;> simp [decoded]

@[simp] theorem decoded_eq_error {α : Type} {o : Option α} {e : Error} :
    decoded o = .error e ↔ o = none ∧ e = .decode := by
  cases o <;> simp [decoded, eq_comm]

end Response

/-- What wraps every answer about items. -/
structure Envelope where
  /-- What was asked for; `null` is the same as nothing. -/
  data : Option Json := none
  /-- The messages of the errors that are reported; `null` is the same as none. -/
  errors : Option (List String) := none

namespace Envelope

/-- How deep the members of an envelope may nest. -/
def memberDepth : Nat := Json.maxDepth - 1

def readData? : Json.Outline → Option (Option Json)
  | .null => some none
  | o => (o.toJson? memberDepth).map some

/-- The message of an error that is reported: empty when there is none. -/
def readMessage? (entry : Json.Outline) : Option String := do
  match (← entry.fields? ["message"]).head? with
  | none => some ""
  | some (_, .string message) => message
  | some _ => none

def readErrors? : Json.Outline → Option (Option (List String))
  | .null => some none
  | .array entries => (entries.mapM readMessage?).map some
  | _ => none

def readMember? {α : Type} (read? : Json.Outline → Option (Option α)) (name : String)
    (fields : List (String × Json.Outline)) : Option (Option α) :=
  match Members.get? name fields with
  | none => some none
  | some o => read? o

/-- The envelope that a body spells. -/
def read? (body : List UInt8) : Option Envelope := do
  let outline ← Json.Outline.read? (Text.decode body)
  let fields ← outline.fields? ["data", "errors"]
  return { data := ← readMember? readData? "data" fields,
           errors := ← readMember? readErrors? "errors" fields }

/-- The envelope of a response. Where the body spells none, a status that is no success says
more than the body. -/
def parse (r : Response) : Result Envelope :=
  match read? r.body with
  | some e => .ok e
  | none => if r.isSuccess then .error .decode else .error (.unexpectedStatus r.status)

/-- Refuse an envelope that reports errors, and one that came with a status that is no
success. -/
def check (e : Envelope) (status : Nat) : Result Envelope :=
  match e.errors.getD [] with
  | message :: _ => .error (.remote message)
  | [] =>
      if (Response.mk status []).isSuccess then .ok e else .error (.unexpectedStatus status)

/-- The envelope of a response, checked. -/
def opened (r : Response) : Result Envelope := parse r >>= fun e => e.check r.status

/-- The data of a response, `null` when there is none. -/
def unwrap (r : Response) : Result Json := do
  let e ← opened r
  return e.data.getD .null

/-- The data of a response, as what `read?` reads from it. -/
def decode {α : Type} (read? : Json → Option α) (r : Response) : Result α :=
  unwrap r >>= fun j => Response.decoded (read? j)

/-- Check a response whose data does not matter. It may then have no body at all. -/
def acknowledge (r : Response) : Result Unit :=
  if r.body = [] then
    if r.isSuccess then .ok () else .error (.unexpectedStatus r.status)
  else do
    let _ ← opened r
    return ()

end Envelope

end ItemClient
