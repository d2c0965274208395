import ItemClient.Link.Response
import ItemClient.Proofs.Outcomes

/-!
# What a response amounts to

A response says one of four things. It reports an error, when its body is an envelope with a list
of errors that is not empty (`Response.Reports`); this goes before everything else. If it reports
none, a status outside 200 to 299 is unexpected, whatever the body is. What remains either gives
what was asked for or cannot be decoded. A result that tells these four apart classifies the
response (`Response.Classifies`).

**Main result** (`Response.classifies`). Decoding the data, as anything that can be read from JSON,
and acknowledging a response both classify it. For an acknowledgement an empty body will do;
otherwise it comes out as decoding the data as any JSON value does.

The two share the envelope that was checked (`Envelope.opened`). It is classified once, and
classifying goes through reading further from what a result gives (`Response.Classifies.read`).
-/

namespace ItemClient

variable {α β : Type} {r : Response}

namespace Response

/-- The status is one from 200 to 299. -/
def Succeeds (r : Response) : Prop := 200 ≤ r.status ∧ r.status ≤ 299

/-- The body is an envelope that reports errors, the first of them with this message. -/
def Reports (r : Response) (message : String) : Prop :=
  ∃ e rest, Envelope.read? r.body = some e ∧ e.errors = some (message :: rest)

/-- The response reports no errors. -/
def IsSilent (r : Response) : Prop := ∀ message, ¬ r.Reports message

/-- A result tells what a response amounts to, `Gives` being what it gives when all is well. -/
structure Classifies (r : Response) (Gives : α → Prop) (result : Result α) : Prop where
  remote : ∀ message, result = .error (.remote message) ↔ r.Reports message
  status : ∀ n, result = .error (.unexpectedStatus n) ↔ r.IsSilent ∧ ¬ r.Succeeds ∧ n = r.status
  ok : ∀ a, result = .ok a ↔ r.IsSilent ∧ r.Succeeds ∧ Gives a
  decode : result = .error .decode ↔ r.IsSilent ∧ r.Succeeds ∧ ∀ a, ¬ Gives a

theorem isSuccess_iff : r.isSuccess = true ↔ r.Succeeds := by
  have hle : r.status ≤ 299 ↔ r.status < 300 := Nat.lt_succ_iff.symm
  simp [isSuccess, Succeeds, hle]

/-! ## The four answers -/

variable {Gives : α → Prop} {message : String} {a : α}

theorem Reports.unique {other : String} (h : r.Reports message) (h' : r.Reports other) :
    other = message := by
  obtain ⟨e, rest, hread, herrors⟩ := h
  obtain ⟨e', rest', hread', herrors'⟩ := h'
  obtain rfl : e = e' := Option.some.inj (hread.symm.trans hread')
  simp_all

theorem Reports.classifies_remote (h : r.Reports message) :
    r.Classifies Gives (.error (.remote message)) := by
  have hloud : ¬ r.IsSilent := fun hsilent => hsilent message h
  constructor
  · intro other
    constructor
    · intro heq
      cases heq
      exact h
    · intro hother
      rw [h.unique hother]
  · simp [hloud]
  · simp [hloud]
  · simp [hloud]

theorem IsSilent.classifies_status (h : r.IsSilent) (hfails : ¬ r.Succeeds) :
    r.Classifies Gives (.error (.unexpectedStatus r.status)) := by
  constructor
  · intro message
    simp [h message]
  · simp [h, hfails, eq_comm]
  · simp [hfails]
  · simp [hfails]

theorem IsSilent.classifies_decode (h : r.IsSilent) (hsucceeds : r.Succeeds)
    (hnone : ∀ a, ¬ Gives a) : r.Classifies Gives (.error .decode) := by
  constructor
  · intro message
    simp [h message]
  · simp [hsucceeds]
  · simp [hnone]
  · simp [h, hsucceeds, hnone]

theorem IsSilent.classifies_ok (h : r.IsSilent) (hsucceeds : r.Succeeds) (ha : Gives a)
    (hunique : ∀ b, Gives b → a = b) : r.Classifies Gives (.ok a) := by
  constructor
  · intro message
    simp [h message]
  · simp [hsucceeds]
  · intro b
    constructor
    · intro heq
      cases heq
      exact ⟨h, hsucceeds, ha⟩
    · intro hb
      rw [hunique b hb.2.2]
  · have hsome : ¬ ∀ b, ¬ Gives b := fun hnone => hnone a ha
    simp [hsome]

/-- Reading further from what a result gives. That something cannot be read is the only failure
that this adds. -/
theorem Classifies.read {x : Result α} (h : r.Classifies Gives x) (f : α → Option β) :
    r.Classifies (fun b => ∃ a, Gives a ∧ f a = some b) (x >>= fun a => decoded (f a)) := by
  constructor
  · intro message
    rw [Result.bind_eq_error, ← h.remote]
    simp
  · intro n
    rw [Result.bind_eq_error, ← h.status]
    simp
  · intro b
    rw [Result.bind_eq_ok]
    simp only [decoded_eq_ok, h.ok]
    constructor
    · rintro ⟨a, ⟨hsilent, hsucceeds, ha⟩, hb⟩
      exact ⟨hsilent, hsucceeds, a, ha, hb⟩
    · rintro ⟨hsilent, hsucceeds, a, ha, hb⟩
      exact ⟨a, ⟨hsilent, hsucceeds, ha⟩, hb⟩
  · rw [Result.bind_eq_error, h.decode]
    simp only [decoded_eq_error, and_true, h.ok]
    constructor
    · rintro (⟨hsilent, hsucceeds, hnone⟩ | ⟨a, ⟨hsilent, hsucceeds, ha⟩, hf⟩)
      · refine ⟨hsilent, hsucceeds, ?_⟩
        rintro b ⟨a, ha, -⟩
        exact hnone a ha
      · refine ⟨hsilent, hsucceeds, ?_⟩
        rintro b ⟨a', ha', hb⟩
        -- A result gives no more than one thing.
        have hx : x = .ok a := (h.ok a).2 ⟨hsilent, hsucceeds, ha⟩
        have hx' : x = .ok a' := (h.ok a').2 ⟨hsilent, hsucceeds, ha'⟩
        obtain rfl : a = a' := Except.ok.inj (hx.symm.trans hx')
        rw [hf] at hb
        cases hb
    · rintro ⟨hsilent, hsucceeds, hnone⟩
      by_cases hsome : ∃ a, Gives a
      · obtain ⟨a, ha⟩ := hsome
        right
        refine ⟨a, ⟨hsilent, hsucceeds, ha⟩, ?_⟩
        cases hf : f a with
        | none => rfl
        | some b => exact absurd ⟨a, ha, hf⟩ (hnone b)
      · exact .inl ⟨hsilent, hsucceeds, fun a ha => hsome ⟨a, ha⟩⟩

/-- What counts is what is given. -/
theorem Classifies.congr {x : Result α} {Gives' : α → Prop} (h : r.Classifies Gives x)
    (hgives : ∀ a, Gives a ↔ Gives' a) : r.Classifies Gives' x := by
  have heq : Gives = Gives' := funext fun a => propext (hgives a)
  exact heq ▸ h

end Response

/-! ## Envelopes -/

namespace Envelope

theorem decode_eq (read? : Json → Option α) (r : Response) :
    decode read? r = opened r >>= fun e => Response.decoded (read? (e.data.getD .null)) := by
  unfold decode unwrap
  cases opened r <;> rfl

theorem decode_eq_ok {read? : Json → Option α} {a : α} :
    decode read? r = .ok a ↔ ∃ data, unwrap r = .ok data ∧ read? data = some a := by
  rw [decode, Result.bind_eq_ok]
  simp only [Response.decoded_eq_ok]

theorem acknowledge_eq (r : Response) :
    acknowledge r =
      if r.body = [] then
        if r.isSuccess then .ok () else .error (.unexpectedStatus r.status)
      else opened r >>= fun _ => Response.decoded (some ()) := by
  unfold acknowledge
  cases opened r <;> rfl

/-- **The checked envelope classifies a response.** -/
theorem classifies_opened (r : Response) :
    r.Classifies (fun e => read? r.body = some e) (opened r) := by
  unfold opened parse
  cases hread : read? r.body with
  | none =>
    have hsilent : r.IsSilent := by
      rintro message ⟨e, rest, he, -⟩
      rw [hread] at he
      cases he
    by_cases hsuccess : r.isSuccess = true
    · rw [if_pos hsuccess]
      exact hsilent.classifies_decode (Response.isSuccess_iff.1 hsuccess) (by simp)
    · rw [if_neg hsuccess]
      exact hsilent.classifies_status fun h => hsuccess (Response.isSuccess_iff.2 h)
  | some e =>
    show r.Classifies _ (e.check r.status)
    unfold check
    cases herrors : e.errors.getD [] with
    | cons message rest =>
      have hreports : r.Reports message := by
        refine ⟨e, rest, hread, ?_⟩
        cases he : e.errors <;> simp_all
      exact hreports.classifies_remote
    | nil =>
      have hsilent : r.IsSilent := by
        rintro message ⟨e', rest, he', hreported⟩
        obtain rfl : e = e' := Option.some.inj (hread.symm.trans he')
        simp [hreported] at herrors
      have hstatus : (Response.mk r.status []).isSuccess = r.isSuccess := rfl
      dsimp only
      rw [hstatus]
      by_cases hsuccess : r.isSuccess = true
      · rw [if_pos hsuccess]
        exact hsilent.classifies_ok (Response.isSuccess_iff.1 hsuccess) rfl (by simp)
      · rw [if_neg hsuccess]
        exact hsilent.classifies_status fun h => hsuccess (Response.isSuccess_iff.2 h)

end Envelope

/-! ## Classification -/

namespace Response

/-- No envelope is spelled by nothing. -/
theorem silent_of_body_eq_nil (h : r.body = []) : r.IsSilent := by
  rintro message ⟨e, rest, hread, -⟩
  rw [h] at hread
  cases hread

/-- **What a response amounts to**, when its data are decoded and when it is acknowledged. -/
theorem classifies (r : Response) (read? : Json → Option α) :
    r.Classifies
      (fun a => ∃ e, Envelope.read? r.body = some e ∧ read? (e.data.getD .null) = some a)
      (Envelope.decode read? r) ∧
    r.Classifies (fun _ => r.body = [] ∨ ∃ e, Envelope.read? r.body = some e)
      (Envelope.acknowledge r) ∧
    Envelope.acknowledge r =
      if r.body = [] ∧ r.isSuccess then .ok ()
      else (Envelope.decode some r).map fun _ => () := by
  have hopened := Envelope.classifies_opened r
  refine ⟨?_, ?_, ?_⟩
  · rw [Envelope.decode_eq]
    exact hopened.read _
  · rw [Envelope.acknowledge_eq]
    by_cases hbody : r.body = []
    · rw [if_pos hbody]
      have hsilent := silent_of_body_eq_nil hbody
      by_cases hsuccess : r.isSuccess = true
      · rw [if_pos hsuccess]
        exact hsilent.classifies_ok (isSuccess_iff.1 hsuccess) (.inl hbody) fun _ _ => rfl
      · rw [if_neg hsuccess]
        exact hsilent.classifies_status fun h => hsuccess (isSuccess_iff.2 h)
    · rw [if_neg hbody]
      apply (hopened.read fun _ => some ()).congr
      intro a
      simp [hbody]
  · rw [Envelope.acknowledge_eq, Envelope.decode_eq]
    by_cases hbody : r.body = []
    · rw [if_pos hbody]
      have hread : Envelope.read? r.body = none := by
        rw [hbody]
        rfl
      by_cases hsuccess : r.isSuccess = true
      · rw [if_pos hsuccess, if_pos ⟨hbody, hsuccess⟩]
      · rw [if_neg hsuccess, if_neg fun h => hsuccess h.2]
        simp [Envelope.opened, Envelope.parse, hread, hsuccess, bind, Except.bind, Except.map]
    · rw [if_neg hbody, if_neg fun h => hbody h.1]
      cases Envelope.opened r <;> rfl

end Response

end ItemClient
