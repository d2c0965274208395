import ItemClient.Proofs.Json.Text
import ItemClient.Proofs.Link.Classification

/-!
# Answers that wrap a value

A response wraps a value when its body spells an object with the value as its data and nothing
else (`Response.Wraps`). Such a response gives the value, with the members of its objects in order
(`Response.Wraps.unwrap`).
-/

namespace ItemClient

variable {r : Response} {j : Json}

/-- A response succeeds, and its body is the text of an envelope around a value. -/
structure Response.Wraps (r : Response) (j : Json) : Prop where
  succeeds : r.isSuccess = true
  body : Text.decode r.body = Text.symbols (Json.object [("data", j)]).text
  doubles : j.DoublesReadBack
  depth : j.depth ≤ Envelope.memberDepth

namespace Envelope

/-- As data, no value is the same as `null`. -/
theorem exists_readData?_outline (h : j.depth ≤ memberDepth) :
    ∃ data, readData? j.outline = some data ∧ data.getD .null = j.canon := by
  have hread := Json.toJson?_outline j h
  cases j with
  | null => exact ⟨none, rfl, rfl⟩
  | _ => exact ⟨_, congrArg (Option.map some) hread, rfl⟩

end Envelope

namespace Response.Wraps

theorem exists_envelope (h : r.Wraps j) :
    ∃ data, Envelope.read? r.body = some { data } ∧ data.getD .null = j.canon := by
  have hdoubles : (Json.object [("data", j)]).DoublesReadBack :=
    Json.doublesReadBack_object.2 (by simpa using h.doubles)
  have houtline := Json.Outline.read?_text hdoubles
  obtain ⟨data, hdata, hcanon⟩ := Envelope.exists_readData?_outline h.depth
  have hmember : Envelope.readMember? Envelope.readData? "data" [("data", j.outline)] =
      some data := hdata
  refine ⟨data, ?_, hcanon⟩
  rw [Envelope.read?, h.body, houtline]
  show (Envelope.readMember? Envelope.readData? "data" [("data", j.outline)]).bind _ = _
  rw [hmember]
  rfl

/-- **What is wrapped is what the response gives.** -/
theorem unwrap (h : r.Wraps j) : Envelope.unwrap r = .ok j.canon := by
  obtain ⟨data, hread, hcanon⟩ := h.exists_envelope
  have hopened : Envelope.opened r = .ok { data } := by
    rw [Envelope.opened, Envelope.parse, hread]
    exact if_pos h.succeeds
  rw [Envelope.unwrap, hopened, ← hcanon]
  rfl

end Response.Wraps

end ItemClient
