import ItemClient.Proofs.Session.Script

/-!
# Snapshots are what the remote rows hold

In every session the key and the scalars of a snapshot are those that the remote store is believed
to hold, which is decided by the acknowledged PATCHes alone; and whatever is sent or listed as
pending is addressed with the believed key, however the live key was edited.

Main result: `Session.Reachable.truthful`.
-/

namespace ItemClient.Session

/-- Snapshots agree with what is believed, and rows are addressed by the believed keys. -/
structure Truthful (s : Session) : Prop where
  /-- The key and the scalars of a snapshot serialise to the believed row. -/
  snapshots : ∀ t ∈ s.tracker.records,
    Json.sameMembers t.original.row (s.believed t.entity).row = true
  /-- What waits to be sent for an entity bears the believed key. -/
  entries : ∀ t ∈ s.tracker.records, ∀ p, t.pending? s.heap = .ok (some p) →
    (s.believed t.entity).segment? = some p.identity
  /-- All that is listed as pending waits for some entity. -/
  listed : ∀ ps, s.tracker.pending s.heap = .ok ps → ∀ p ∈ ps,
    ∃ t ∈ s.tracker.records, t.pending? s.heap = .ok (some p)
  /-- Each PATCH of a commit goes to the believed row, whatever happens before its turn. -/
  patches : ∀ {σ : Type} (g : Gateway σ) (far : σ),
    ∀ x ∈ Sweep.patches g s.tracker.records (s.world far), x.tracked ∈ s.tracker.records ∧
      (s.believed x.tracked.entity).segment? = some x.pending.identity

variable {s : Session}

/-- What is listed as pending comes from the tracked entities. -/
theorem exists_of_mem_pending {u : UnitOfWork} {heap : Heap} {ps : List Pending} {p : Pending}
    (h : u.pending heap = .ok ps) (hp : p ∈ ps) :
    ∃ t ∈ u.records, t.pending? heap = .ok (some p) := by
  obtain ⟨os, hos, rfl⟩ := Result.map_eq_ok.1 h
  exact Result.exists_of_mem_mapM hos (List.reduceOption_mem_iff.1 hp)

/-- What a faithful entity has to send bears the believed key. -/
theorem segment?_of_pending {t : Tracked} {heap heap' : Heap} {b : Belief} {p : Pending}
    (hfaithful : t.Faithful heap b) (h : t.pending? heap' = .ok (some p)) :
    b.segment? = some p.identity := by
  obtain ⟨live, changes, -, hsome⟩ := Tracked.pending?_eq_ok.1 h
  obtain ⟨-, hidentity, -⟩ := Tracked.pendingOf_eq_some hsome.symm
  rw [hidentity]
  exact Belief.segment?_of_same hfaithful.row

/-- A PATCH goes to the row with the believed key. -/
theorem Inv.segment?_of_mem_patches (inv : s.Inv) {σ : Type} {g : Gateway σ} {far : σ} {x : Patch}
    (hx : x ∈ Sweep.patches g s.tracker.records (s.world far)) :
    (s.believed x.tracked.entity).segment? = some x.pending.identity := by
  have hmem := Sweep.mem_of_mem_patches hx
  obtain ⟨turn, -, htracked, hp⟩ := Sweep.exists_turn_of_mem_patches hx
  have hpending := Tracked.pending?_of_turn hp
  rw [htracked] at hpending
  exact segment?_of_pending (inv.faithful _ hmem) hpending

/-- **In every session snapshots are what the remote rows are believed to hold.** -/
theorem Reachable.truthful (h : s.Reachable) : s.Truthful := by
  have inv := h.inv
  constructor
  case snapshots => exact fun t ht => (inv.faithful t ht).row
  case entries => exact fun t ht p hp => segment?_of_pending (inv.faithful t ht) hp
  case listed => exact fun ps hps p hp => exists_of_mem_pending hps hp
  case patches =>
    intro σ g far x hx
    exact ⟨Sweep.mem_of_mem_patches hx, inv.segment?_of_mem_patches hx⟩

/-- The store takes the new key of the first tag, which is edited again meanwhile, and then
breaks. -/
def renamed : Session :=
  edited.commit Script.gateway
    { answers := [((.patch, "items/tag/a"), .response ⟨200, []⟩),
        ((.patch, "items/tag/b"), .broken "down")]
      edits := [⟨"items/tag/a", 0, .key (.text "y")⟩] }

theorem truthful_renamed :
    renamed.Truthful ∧ renamed.heap.identity 0 = .ok "y" ∧
      renamed.tracker.records.map (·.original.key.identity) = ["x", "b"] :=
  ⟨Reachable.truthful (reachable_edited.commit Script.orderly _), rfl, rfl⟩

end ItemClient.Session
