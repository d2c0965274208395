import ItemClient.Proofs.Json.Lexeme
import ItemClient.Proofs.Json.Members

/-!
# JSON texts that are read back

The text of a value has the outline of the value (`Outline.read?_text`), whatever the value is, as
long as its doubles are read back. An outline becomes a value again when it is not nested too
deeply, and then its objects have their members in order (`Json.canon`).

**Main result** (`Json.ofText?_text`). A value is read from its text, up to the order of members.

Of the numbers only the doubles are in question (`Json.DoublesReadBack`). Their shortest decimal
stands for them, but a reader that rounds more than once may find a neighbour instead.
-/

namespace ItemClient

open Text

/-! ## The characters of a number -/

namespace Text

/-- The characters that numbers are written with. -/
def isNumeral (c : Char) : Bool := c.isDigit || c == '-' || c == '+' || c == '.' || c == 'e'

theorem isNumeral_of_isDigit {c : Char} (h : c.isDigit = true) : isNumeral c = true := by
  simp [isNumeral, h]

theorem isNumeral_of_mem_toDigits {n : Nat} {c : Char} (h : c ∈ Nat.toDigits 10 n) :
    isNumeral c = true := isNumeral_of_isDigit (isDigit_of_mem_toDigits h)

theorem mem_of_mem_dropTrailingZeros {ds : List Char} {c : Char} (h : c ∈ dropTrailingZeros ds) :
    c ∈ ds := by
  have hsub := (List.dropWhile_suffix (· == '0') (l := ds.reverse)).subset
  exact List.mem_reverse.1 (hsub (List.mem_reverse.1 h))

end Text

namespace Decimal

variable {digits : List Char} {exponent : Int}

theorem isNumeral_positional (hdigits : ∀ c ∈ digits, isNumeral c = true) :
    ∀ c ∈ positional digits exponent, isNumeral c = true := by
  have hzeros : ∀ n, ∀ c ∈ List.replicate n '0', isNumeral c = true := by
    intro n c hc
    rw [List.eq_of_mem_replicate hc]
    rfl
  intro c hc
  unfold positional at hc
  split at hc
  · simp only [List.mem_append] at hc
    rcases hc with (hpoint | hzero) | hdigit
    · exact List.all_eq_true.1 (show ['0', '.'].all isNumeral = true from rfl) c hpoint
    · exact hzeros _ c hzero
    · exact hdigits c hdigit
  · dsimp only at hc
    simp only [List.mem_append] at hc
    rcases hc with ((hbefore | hzero) | hpoint) | hafter
    · exact hdigits c (List.mem_of_mem_take hbefore)
    · exact hzeros _ c hzero
    · rw [List.mem_singleton.1 hpoint]
      rfl
    · split at hafter
      · exact hzeros 1 c hafter
      · exact hdigits c (List.mem_of_mem_drop hafter)

theorem isNumeral_exponential (hdigits : ∀ c ∈ digits, isNumeral c = true) :
    ∀ c ∈ exponential digits exponent, isNumeral c = true := by
  intro c hc
  unfold exponential at hc
  dsimp only at hc
  simp only [List.mem_append, List.mem_singleton] at hc
  rcases hc with (((hfirst | htail) | hmark) | hsign) | hexponent
  · exact hdigits c (List.mem_of_mem_take hfirst)
  · split at htail
    · cases htail
    · rcases List.mem_cons.1 htail with hpoint | hdigit
      · rw [hpoint]
        rfl
      · exact hdigits c (List.mem_of_mem_drop hdigit)
  · rw [hmark]
    rfl
  · rw [hsign]
    split <;> rfl
  · exact isNumeral_of_mem_toDigits hexponent

end Decimal

theorem Binary64.isNumeral_text (x : Binary64) : ∀ c ∈ x.text, isNumeral c = true := by
  intro c hc
  rcases List.mem_append.1 hc with hsign | hvalue
  · split at hsign
    · rw [List.mem_singleton.1 hsign]
      rfl
    · cases hsign
  · split at hvalue
    · exact List.all_eq_true.1 (show ['0', '.', '0'].all isNumeral = true from rfl) c hvalue
    · have hdigits : ∀ c ∈ x.shortest.scientific.1, isNumeral c = true := fun _ hc =>
        isNumeral_of_mem_toDigits (mem_of_mem_dropTrailingZeros hc)
      unfold Decimal.text at hvalue
      dsimp only at hvalue
      split at hvalue
      · exact Decimal.isNumeral_positional hdigits c hvalue
      · exact Decimal.isNumeral_exponential hdigits c hvalue

namespace Json

/-! ## What a text says -/

mutual

/-- The outline of a value. -/
def outline : Json → Outline
  | null => .null
  | bool b => .bool b
  | number n => .number (some n)
  | string s => .string (some s)
  | array items => .array (outlineItems items)
  | object members => .object (outlineMembers members)

/-- The outlines of several values. -/
def outlineItems : List Json → List Outline
  | [] => []
  | a :: rest => outline a :: outlineItems rest

/-- The outlines of several members. -/
def outlineMembers : List (String × Json) → List (Option String × Outline)
  | [] => []
  | (name, a) :: rest => (some name, outline a) :: outlineMembers rest

end

mutual

/-- The numbers in a value. -/
def numbers : Json → List Number
  | number n => [n]
  | array items => numbersOfItems items
  | object members => numbersOfMembers members
  | _ => []

/-- The numbers in several values. -/
def numbersOfItems : List Json → List Number
  | [] => []
  | a :: rest => numbers a ++ numbersOfItems rest

/-- The numbers in several members. -/
def numbersOfMembers : List (String × Json) → List Number
  | [] => []
  | (_, a) :: rest => numbers a ++ numbersOfMembers rest

end

/-- The value is read from its text. -/
def ReadsBack (j : Json) : Prop := ofText? j.text = some j

/-- The doubles in a value are read back. -/
def DoublesReadBack (j : Json) : Prop :=
  ∀ x hx, Number.float x hx ∈ j.numbers → ReadsBack (number (.float x hx))

/-! ## Numbers -/

variable {c : Char} {rest : List Symbol} {fuel : Nat} {n : Number}

theorem Number.isNumeral_write (n : Number) : ∀ c ∈ n.write, isNumeral c = true := by
  intro c hc
  cases n with
  | integer n h =>
    rcases List.mem_append.1 hc with hsign | hdigit
    · split at hsign
      · rw [List.mem_singleton.1 hsign]
        rfl
      · cases hsign
    · exact isNumeral_of_mem_toDigits hdigit
  | float x h => exact x.isNumeral_text c hc

namespace Outline

theorem skip_cons (hc : isSpace (some c) = false) : skip (some c :: rest) = some c :: rest := by
  unfold skip
  rw [List.dropWhile_cons_of_neg (by simp [hc])]

theorem isSpace_of_isNumeral (hc : isNumeral c = true) : isSpace (some c) = false := by
  cases hspace : isSpace (some c) with
  | false => rfl
  | true =>
    simp only [isSpace, Bool.or_eq_true, beq_iff_eq, Option.some.injEq] at hspace
    rcases hspace with ((rfl | rfl) | rfl) | rfl <;> exact absurd hc (by decide)

/-- A value that begins as a number does is a number. -/
theorem take_numeral (hc : isNumeral c = true) : take (fuel + 1) (some c :: rest) =
    (takeNumber (some c :: rest)).map fun p => (.number p.1, p.2) := by
  unfold take
  rw [skip_cons (isSpace_of_isNumeral hc)]
  split
  case h_7 => rfl
  all_goals
    rename_i heq
    cases heq
    exact absurd hc (by decide)

end Outline

theorem symbols_text (j : Json) : symbols j.text = j.write.map some := by
  show (String.ofList j.write).toList.map some = _
  rw [String.toList_ofList]

/-- The text of a number is a number, as far as one is taken from it. -/
theorem read?_write_number (n : Number) : Outline.read? (n.write.map some) =
    (takeNumber (n.write.map some)).bind fun p =>
      if Outline.skip p.2 = [] then some (.number p.1) else none := by
  have hnumerals := n.isNumeral_write
  unfold Outline.read?
  cases hwrite : n.write with
  | nil => rfl
  | cons c cs =>
    rw [hwrite] at hnumerals
    rw [List.map_cons, Outline.take_numeral (hnumerals c List.mem_cons_self)]
    cases takeNumber (some c :: cs.map some) <;> rfl

/-- No number ends in a blank. -/
theorem eq_nil_of_skip (hsuffix : rest <:+ n.write.map some) (hblank : Outline.skip rest = []) :
    rest = [] := by
  cases rest with
  | nil => rfl
  | cons d rest =>
    obtain ⟨c, hc, rfl⟩ := List.mem_map.1 (hsuffix.subset List.mem_cons_self)
    rw [Outline.skip_cons (Outline.isSpace_of_isNumeral (n.isNumeral_write c hc))] at hblank
    cases hblank

/-- A number that is read back is taken as a whole from its text. -/
theorem takeNumber_of_readsBack (h : ReadsBack (number n)) :
    takeNumber (n.write.map some) = some (some n, []) := by
  obtain ⟨o, ho, hn⟩ := Option.bind_eq_some_iff.1 h
  rw [symbols_text] at ho
  change Outline.read? (n.write.map some) = some o at ho
  rw [read?_write_number] at ho
  obtain ⟨⟨value, rest⟩, htake, ho⟩ := Option.bind_eq_some_iff.1 ho
  dsimp only at ho
  split at ho
  · rename_i hblank
    cases ho
    obtain ⟨m, rfl, hm⟩ := Option.map_eq_some_iff.1 hn
    cases hm
    rw [htake, eq_nil_of_skip (takeNumber_suffix htake) hblank]
  · cases ho

/-- **A number is taken from its text,** if it is an integer or reads back. -/
theorem takeNumber_write (h : ∀ x hx, n = .float x hx → ReadsBack (number n)) (hrest : Ends rest) :
    takeNumber (n.write.map some ++ rest) = some (some n, rest) := by
  cases n with
  | integer n hn => exact takeNumber_writeInt hn hrest
  | float x hx =>
    have halone := takeNumber_of_readsBack (h x hx rfl)
    exact takeNumber_append halone hrest

/-- A number that is taken as a whole from its text is read back. -/
theorem readsBack_of_takeNumber (h : takeNumber (n.write.map some) = some (some n, [])) :
    ReadsBack (number n) := by
  have hread : Outline.read? (n.write.map some) = some (.number (some n)) := by
    rw [read?_write_number, h]
    rfl
  unfold ReadsBack ofText? read?
  rw [symbols_text]
  exact Option.bind_eq_some_iff.2 ⟨_, hread, rfl⟩

/-- Which values have doubles that are read back can be computed. -/
theorem doublesReadBack_iff {j : Json} : j.DoublesReadBack ↔
    ∀ n ∈ j.numbers, takeNumber (n.write.map some) = some (some n, []) := by
  constructor
  · intro h n hn
    have hwrite := takeNumber_write (fun x hx heq => heq ▸ h x hx (heq ▸ hn)) (.inl rfl)
    rw [List.append_nil] at hwrite
    exact hwrite
  · intro h x hx hmem
    exact readsBack_of_takeNumber (h _ hmem)

instance (j : Json) : Decidable j.DoublesReadBack := decidable_of_iff' _ doublesReadBack_iff

/-! ## Arrays and objects, one step -/

namespace Outline

variable {o : Outline} {os : List Outline} {name : Option String}
  {members : List (Option String × Outline)} {input tail : List Symbol}

theorem take_array (hspace : isSpace (some c) = false) (hclose : c ≠ ']')
    (h : takeItems fuel (some c :: tail) = some (os, rest)) :
    take (fuel + 1) (some '[' :: some c :: tail) = some (.array os, rest) := by
  have hbracket : skip (some '[' :: some c :: tail) = some '[' :: some c :: tail := rfl
  simp only [take, hbracket, skip_cons hspace]
  split
  · rename_i heq
    cases heq
    exact absurd rfl hclose
  · rw [h, Option.map_some]

theorem takeItems_last (h : take fuel input = some (o, some ']' :: rest)) :
    takeItems (fuel + 1) input = some ([o], rest) := by
  rw [takeItems, h]
  rfl

theorem takeItems_more (h : take fuel input = some (o, some ',' :: tail))
    (hmore : takeItems fuel tail = some (os, rest)) :
    takeItems (fuel + 1) input = some (o :: os, rest) := by
  rw [takeItems, h]
  show (takeItems fuel tail).bind (fun p => some (o :: p.1, p.2)) = _
  rw [hmore, Option.bind_some]

theorem take_object (h : takeMembers fuel (some '"' :: tail) = some (members, rest)) :
    take (fuel + 1) (some '\x7b' :: some '"' :: tail) = some (.object members, rest) := by
  show (takeMembers fuel (some '"' :: tail)).map (fun p => (Outline.object p.1, p.2)) = _
  rw [h, Option.map_some]

theorem takeMembers_last (hname : takeName (skip input) = some (name, some ':' :: tail))
    (h : take fuel tail = some (o, some '\x7d' :: rest)) :
    takeMembers (fuel + 1) input = some ([(name, o)], rest) := by
  rw [takeMembers, hname]
  show (take fuel tail).bind _ = _
  rw [h]
  rfl

theorem takeMembers_more {tail' : List Symbol}
    (hname : takeName (skip input) = some (name, some ':' :: tail))
    (h : take fuel tail = some (o, some ',' :: tail'))
    (hmore : takeMembers fuel tail' = some (members, rest)) :
    takeMembers (fuel + 1) input = some ((name, o) :: members, rest) := by
  rw [takeMembers, hname]
  show (take fuel tail).bind _ = _
  rw [h]
  show (takeMembers fuel tail').bind (fun p => some ((name, o) :: p.1, p.2)) = _
  rw [hmore, Option.bind_some]

end Outline

/-! ## The text of a value -/

/-- The text of a value begins with neither a blank nor a closing bracket. -/
theorem exists_write (j : Json) (h : j.DoublesReadBack) :
    ∃ c cs, j.write = c :: cs ∧ Outline.isSpace (some c) = false ∧ c ≠ ']' := by
  cases j with
  | null => exact ⟨_, _, rfl, rfl, by decide⟩
  | bool b => cases b <;> exact ⟨_, _, rfl, rfl, by decide⟩
  | string s => exact ⟨_, _, rfl, rfl, by decide⟩
  | array items => exact ⟨_, _, rfl, rfl, by decide⟩
  | object members => exact ⟨_, _, rfl, rfl, by decide⟩
  | number n =>
    have hnumerals := n.isNumeral_write
    have hread : takeNumber (n.write.map some ++ []) = some (some n, []) :=
      takeNumber_write (fun x hx hn => hn ▸ h x hx (by simp [numbers, hn])) (.inl rfl)
    cases hwrite : n.write with
    | nil =>
      rw [hwrite] at hread
      cases hread
    | cons c cs =>
      have hc : isNumeral c = true := hnumerals c (hwrite ▸ List.mem_cons_self)
      refine ⟨c, cs, hwrite, Outline.isSpace_of_isNumeral hc, ?_⟩
      intro hclose
      rw [hclose] at hc
      cases hc

theorem numbersOfItems_eq (items : List Json) : numbersOfItems items = items.flatMap numbers := by
  induction items with
  | nil => rfl
  | cons a items ih => rw [numbersOfItems, ih, List.flatMap_cons]

theorem numbersOfMembers_eq (members : List (String × Json)) :
    numbersOfMembers members = members.flatMap fun m => m.2.numbers := by
  induction members with
  | nil => rfl
  | cons m members ih => rw [numbersOfMembers, ih, List.flatMap_cons]

theorem doublesReadBack_array {items : List Json} :
    (array items).DoublesReadBack ↔ ∀ a ∈ items, a.DoublesReadBack := by
  simp only [DoublesReadBack, numbers, numbersOfItems_eq, List.mem_flatMap]
  constructor
  · intro h a ha x hx hmem
    exact h x hx ⟨a, ha, hmem⟩
  · rintro h x hx ⟨a, ha, hmem⟩
    exact h a ha x hx hmem

theorem doublesReadBack_object {members : List (String × Json)} :
    (object members).DoublesReadBack ↔ ∀ m ∈ members, m.2.DoublesReadBack := by
  simp only [DoublesReadBack, numbers, numbersOfMembers_eq, List.mem_flatMap]
  constructor
  · intro h m hm x hx hmem
    exact h x hx ⟨m, hm, hmem⟩
  · rintro h x hx ⟨m, hm, hmem⟩
    exact h m hm x hx hmem

theorem length_writeItems_cons (a b : Json) (items : List Json) :
    (writeItems (a :: b :: items)).length =
      a.write.length + 1 + (writeItems (b :: items)).length := by
  simp [writeItems]
  omega

theorem length_writeMembers_cons (name : String) (a : Json) (m : String × Json)
    (members : List (String × Json)) :
    (writeMembers ((name, a) :: m :: members)).length =
      (writeString name).length + 1 + a.write.length + 1 + (writeMembers (m :: members)).length := by
  simp [writeMembers]
  omega

theorem exists_writeMembers (m : String × Json) (members : List (String × Json)) :
    ∃ cs, writeMembers (m :: members) = '"' :: cs := by
  obtain ⟨name, a⟩ := m
  cases members <;> exact ⟨_, by rw [writeMembers]; rfl⟩

theorem takeName_skip (name : String) (rest : List Symbol) :
    Outline.takeName (Outline.skip ((writeString name).map some ++ rest)) =
      some (some name, rest) := by
  have hskip : Outline.skip ((writeString name).map some ++ rest) =
      (writeString name).map some ++ rest := rfl
  rw [hskip, takeName_writeString]

theorem take_number {n : Number} (h : (number n).DoublesReadBack) {rest : List Symbol}
    (hrest : Ends rest) {fuel : Nat} (hfuel : 2 * n.write.length ≤ fuel) :
    Outline.take fuel (n.write.map some ++ rest) = some (.number (some n), rest) := by
  have htake := takeNumber_write (n := n) (fun x hx hn => hn ▸ h x hx (by simp [numbers, hn])) hrest
  obtain ⟨c, cs, hwrite, -, -⟩ := (number n).exists_write h
  change n.write = c :: cs at hwrite
  have hc : isNumeral c = true := n.isNumeral_write c (hwrite ▸ List.mem_cons_self)
  rw [hwrite] at htake hfuel ⊢
  obtain ⟨k, rfl⟩ : ∃ k, fuel = k + 1 := Nat.exists_eq_add_one.2 (by
    rw [List.length_cons] at hfuel
    omega)
  rw [List.map_cons, List.cons_append] at htake ⊢
  rw [Outline.take_numeral hc, htake]
  rfl

mutual

/-- **The text of a value has its outline,** whatever follows it. -/
theorem take_write (j : Json) (h : j.DoublesReadBack) {rest : List Symbol} (hrest : Ends rest)
    {fuel : Nat} (hfuel : 2 * j.write.length ≤ fuel) :
    Outline.take fuel (j.write.map some ++ rest) = some (j.outline, rest) :=
  match j, fuel with
  | number _, _ => take_number h hrest hfuel
  | null, _ + 1 => rfl
  | bool true, _ + 1 => rfl
  | bool false, _ + 1 => rfl
  | array [], _ + 1 => rfl
  | object [], _ + 1 => rfl
  | string s, fuel + 1 => by
    show (Outline.takeName ((writeString s).map some ++ rest)).map _ = _
    rw [takeName_writeString s rest]
    rfl
  | array (a :: items), fuel + 1 => by
    have hlength : (array (a :: items)).write.length = (writeItems (a :: items)).length + 2 := by
      simp [write]
    have hitems : Outline.takeItems fuel ((writeItems (a :: items)).map some ++ some ']' :: rest) =
        some (outlineItems (a :: items), rest) := takeItems_write a items h (by omega)
    obtain ⟨c, cs, hwrite, hspace, hclose⟩ :=
      a.exists_write (doublesReadBack_array.1 h a List.mem_cons_self)
    obtain ⟨cs', hwrite'⟩ : ∃ cs', writeItems (a :: items) = c :: cs' := by
      cases items with
      | nil => exact ⟨cs, hwrite⟩
      | cons b items => exact ⟨_, by rw [writeItems, hwrite]; rfl⟩
    have htext : (array (a :: items)).write.map some ++ rest =
        some '[' :: ((writeItems (a :: items)).map some ++ some ']' :: rest) := by
      simp [write]
    rw [hwrite', List.map_cons, List.cons_append] at hitems
    rw [htext, hwrite', List.map_cons, List.cons_append]
    exact Outline.take_array hspace hclose hitems
  | object (m :: members), fuel + 1 => by
    have hlength :
        (object (m :: members)).write.length = (writeMembers (m :: members)).length + 2 := by
      simp [write]
    have hmembers : Outline.takeMembers fuel
        ((writeMembers (m :: members)).map some ++ some '\x7d' :: rest) =
          some (outlineMembers (m :: members), rest) := takeMembers_write m members h (by omega)
    obtain ⟨cs, hwrite⟩ := exists_writeMembers m members
    have htext : (object (m :: members)).write.map some ++ rest =
        some '\x7b' :: ((writeMembers (m :: members)).map some ++ some '\x7d' :: rest) := by
      simp [write]
    rw [hwrite, List.map_cons, List.cons_append] at hmembers
    rw [htext, hwrite, List.map_cons, List.cons_append]
    exact Outline.take_object hmembers

/-- The items of an array, with the closing bracket. -/
theorem takeItems_write (a : Json) (items : List Json)
    (h : (array (a :: items)).DoublesReadBack) {rest : List Symbol} {fuel : Nat}
    (hfuel : 2 * (writeItems (a :: items)).length + 1 ≤ fuel) :
    Outline.takeItems fuel ((writeItems (a :: items)).map some ++ some ']' :: rest) =
      some (outlineItems (a :: items), rest) :=
  match items, fuel with
  | [], fuel + 1 => by
    have ha := doublesReadBack_array.1 h a List.mem_cons_self
    exact Outline.takeItems_last (take_write a ha (.inr ⟨_, _, rfl, .inr (.inl rfl)⟩)
      (Nat.le_of_succ_le_succ hfuel))
  | b :: items, fuel + 1 => by
    have hall := doublesReadBack_array.1 h
    have ha := hall a List.mem_cons_self
    have hmore := doublesReadBack_array.2 fun a' ha' => hall a' (List.mem_cons_of_mem _ ha')
    rw [length_writeItems_cons] at hfuel
    have hwrite : (writeItems (a :: b :: items)).map some ++ some ']' :: rest =
        a.write.map some ++ some ',' :: ((writeItems (b :: items)).map some ++ some ']' :: rest) := by
      simp [writeItems]
    rw [hwrite]
    exact Outline.takeItems_more (take_write a ha (.inr ⟨_, _, rfl, .inl rfl⟩) (by omega))
      (takeItems_write b items hmore (by omega))

/-- The members of an object, with the closing brace. -/
theorem takeMembers_write (m : String × Json) (members : List (String × Json))
    (h : (object (m :: members)).DoublesReadBack) {rest : List Symbol} {fuel : Nat}
    (hfuel : 2 * (writeMembers (m :: members)).length + 1 ≤ fuel) :
    Outline.takeMembers fuel ((writeMembers (m :: members)).map some ++ some '\x7d' :: rest) =
      some (outlineMembers (m :: members), rest) :=
  match m, members, fuel with
  | (name, a), [], fuel + 1 => by
    have ha := doublesReadBack_object.1 h (name, a) List.mem_cons_self
    have hlength : (writeMembers [(name, a)]).length =
        (writeString name).length + 1 + a.write.length := by
      simp [writeMembers]
      omega
    have hwrite : (writeMembers [(name, a)]).map some ++ some '\x7d' :: rest =
        (writeString name).map some ++ some ':' :: (a.write.map some ++ some '\x7d' :: rest) := by
      simp [writeMembers]
    rw [hwrite]
    exact Outline.takeMembers_last (takeName_skip name _)
      (take_write a ha (.inr ⟨_, _, rfl, .inr (.inr rfl)⟩) (by omega))
  | (name, a), m :: members, fuel + 1 => by
    have hall := doublesReadBack_object.1 h
    have ha := hall (name, a) List.mem_cons_self
    have hmore := doublesReadBack_object.2 fun m' hm' => hall m' (List.mem_cons_of_mem _ hm')
    rw [length_writeMembers_cons] at hfuel
    have hwrite : (writeMembers ((name, a) :: m :: members)).map some ++ some '\x7d' :: rest =
        (writeString name).map some ++ some ':' :: (a.write.map some ++
          some ',' :: ((writeMembers (m :: members)).map some ++ some '\x7d' :: rest)) := by
      simp [writeMembers]
    rw [hwrite]
    exact Outline.takeMembers_more (takeName_skip name _)
      (take_write a ha (.inr ⟨_, _, rfl, .inl rfl⟩) (by omega))
      (takeMembers_write m members hmore (by omega))

end

theorem Outline.read?_text {j : Json} (h : j.DoublesReadBack) :
    Outline.read? (symbols j.text) = some j.outline := by
  have htake : Outline.take (2 * (j.write.map some).length + 2) (j.write.map some ++ []) =
      some (j.outline, []) := by
    apply take_write j h (.inl rfl)
    rw [List.length_map]
    omega
  rw [symbols_text]
  unfold Outline.read?
  rw [List.append_nil] at htake
  rw [htake]
  rfl

/-! ## Values in order -/

/-- The objects in a value have their members in order. -/
inductive Ordered : Json → Prop
  | null : Ordered null
  | bool (b : Bool) : Ordered (bool b)
  | number (n : Number) : Ordered (number n)
  | string (s : String) : Ordered (string s)
  | array {items : List Json} : (∀ a ∈ items, Ordered a) → Ordered (array items)
  | object {members : Members Json} : members.Ascending → (∀ m ∈ members, Ordered m.2) →
      Ordered (object members)

mutual

/-- A value with the members of its objects in order. -/
def canon : Json → Json
  | array items => array (canonItems items)
  | object members => object (Members.ofList (canonMembers members))
  | j => j

/-- Several values. -/
def canonItems : List Json → List Json
  | [] => []
  | a :: rest => canon a :: canonItems rest

/-- Several members. -/
def canonMembers : List (String × Json) → List (String × Json)
  | [] => []
  | (name, a) :: rest => (name, canon a) :: canonMembers rest

end

mutual

/-- How many arrays and objects nest in a value. -/
def depth : Json → Nat
  | array items => depthOfItems items + 1
  | object members => depthOfMembers members + 1
  | _ => 0

/-- How many nest in one of several values. -/
def depthOfItems : List Json → Nat
  | [] => 0
  | a :: rest => max (depth a) (depthOfItems rest)

/-- How many nest in one of several members. -/
def depthOfMembers : List (String × Json) → Nat
  | [] => 0
  | (_, a) :: rest => max (depth a) (depthOfMembers rest)

end

theorem canonItems_eq (items : List Json) : canonItems items = items.map canon := by
  induction items with
  | nil => rfl
  | cons a items ih => rw [canonItems, ih, List.map_cons]

theorem canonMembers_eq (members : List (String × Json)) :
    canonMembers members = members.map fun m => (m.1, m.2.canon) := by
  induction members with
  | nil => rfl
  | cons m members ih => rw [canonMembers, ih, List.map_cons]

theorem depthOfMembers_le {members : List (String × Json)} {d : Nat} :
    depthOfMembers members ≤ d ↔ ∀ m ∈ members, m.2.depth ≤ d := by
  induction members with
  | nil => simp [depthOfMembers]
  | cons m members ih => rw [depthOfMembers, max_le_iff, ih, List.forall_mem_cons]

/-- **A value in order stays as it is.** -/
theorem Ordered.canon_eq {j : Json} (h : j.Ordered) : j.canon = j := by
  induction h with
  | null => rfl
  | bool b => rfl
  | number n => rfl
  | string s => rfl
  | array hitems ih =>
    rw [canon, canonItems_eq, List.map_congr_left ih, List.map_id']
  | object hascending hmembers ih =>
    rw [canon, canonMembers_eq, List.map_congr_left (g := id) fun m hm => ?_, List.map_id,
      hascending.ofList_eq]
    rw [ih m hm]
    rfl

/-! ## Outlines as values -/

mutual

/-- The outline of a value becomes the value again, in order. -/
theorem toJson?_outline (j : Json) {d : Nat} (h : j.depth ≤ d) :
    j.outline.toJson? d = some j.canon :=
  match j, d with
  | null, _ => rfl
  | bool _, _ => rfl
  | number _, _ => rfl
  | string _, _ => rfl
  | array items, d + 1 => by
    have hitems := itemsToJson?_outline items (Nat.le_of_succ_le_succ h)
    show (Outline.itemsToJson? d (outlineItems items)).map _ = _
    rw [hitems]
    rfl
  | object members, d + 1 => by
    have hmembers := membersToJson?_outline members (Nat.le_of_succ_le_succ h)
    show (Outline.membersToJson? d (outlineMembers members)).map _ = _
    rw [hmembers]
    rfl

theorem itemsToJson?_outline (items : List Json) {d : Nat} (h : depthOfItems items ≤ d) :
    Outline.itemsToJson? d (outlineItems items) = some (canonItems items) :=
  match items with
  | [] => rfl
  | a :: items => by
    obtain ⟨ha, hitems⟩ := max_le_iff.1 h
    show (a.outline.toJson? d).bind (fun b => (Outline.itemsToJson? d (outlineItems items)).bind
      fun bs => some (b :: bs)) = _
    rw [toJson?_outline a ha, itemsToJson?_outline items hitems]
    rfl

theorem membersToJson?_outline (members : List (String × Json)) {d : Nat}
    (h : depthOfMembers members ≤ d) :
    Outline.membersToJson? d (outlineMembers members) = some (canonMembers members) :=
  match members with
  | [] => rfl
  | (name, a) :: members => by
    obtain ⟨ha, hmembers⟩ := max_le_iff.1 h
    show (a.outline.toJson? d).bind (fun b =>
      (Outline.membersToJson? d (outlineMembers members)).bind fun bs =>
        some ((name, b) :: bs)) = _
    rw [toJson?_outline a ha, membersToJson?_outline members hmembers]
    rfl

end

/-- **A value is read from its text,** with the members of its objects in order. -/
theorem ofText?_text {j : Json} (h : j.DoublesReadBack) (hdepth : j.depth ≤ maxDepth) :
    ofText? j.text = some j.canon := by
  show (Outline.read? (symbols j.text)).bind _ = _
  rw [Outline.read?_text h, Option.bind_some, toJson?_outline j hdepth]

/-! ## What outlines become -/

mutual

/-- A value that is read is in order. -/
theorem ordered_of_toJson? (o : Outline) {d : Nat} {j : Json} (h : o.toJson? d = some j) :
    j.Ordered :=
  match o, d with
  | .null, _ => by
    cases h
    exact .null
  | .bool b, _ => by
    cases h
    exact .bool b
  | .number n, _ => by
    obtain ⟨n, -, rfl⟩ := Option.map_eq_some_iff.1 h
    exact .number n
  | .string s, _ => by
    obtain ⟨s, -, rfl⟩ := Option.map_eq_some_iff.1 h
    exact .string s
  | .array items, d + 1 => by
    obtain ⟨items', hitems, rfl⟩ := Option.map_eq_some_iff.1 h
    exact .array (ordered_of_itemsToJson? items hitems)
  | .object members, d + 1 => by
    obtain ⟨members', hmembers, rfl⟩ := Option.map_eq_some_iff.1 h
    exact .object (Members.ascending_ofList _) fun m hm =>
      ordered_of_membersToJson? members hmembers m (Members.mem_of_mem_ofList hm)

theorem ordered_of_itemsToJson? (os : List Outline) {d : Nat} {items : List Json}
    (h : Outline.itemsToJson? d os = some items) : ∀ a ∈ items, a.Ordered :=
  match os with
  | [] => by
    cases h
    intro a ha
    cases ha
  | o :: os => by
    obtain ⟨a, ha, h⟩ := Option.bind_eq_some_iff.1 h
    obtain ⟨items', hitems, h⟩ := Option.bind_eq_some_iff.1 h
    cases h
    exact List.forall_mem_cons.2 ⟨ordered_of_toJson? o ha, ordered_of_itemsToJson? os hitems⟩

theorem ordered_of_membersToJson? (os : List (Option String × Outline)) {d : Nat}
    {members : List (String × Json)} (h : Outline.membersToJson? d os = some members) :
    ∀ m ∈ members, m.2.Ordered :=
  match os with
  | [] => by
    cases h
    intro m hm
    cases hm
  | (name, o) :: os => by
    obtain ⟨name, -, h⟩ := Option.bind_eq_some_iff.1 h
    obtain ⟨a, ha, h⟩ := Option.bind_eq_some_iff.1 h
    obtain ⟨members', hmembers, h⟩ := Option.bind_eq_some_iff.1 h
    cases h
    exact List.forall_mem_cons.2 ⟨ordered_of_toJson? o ha, ordered_of_membersToJson? os hmembers⟩

end

end Json

end ItemClient
