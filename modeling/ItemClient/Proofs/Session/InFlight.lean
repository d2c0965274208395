import ItemClient.Proofs.Session.Script

/-!
# Edits while a commit is under way

What a live entity holds is accounted for (`Session.Accounts`) when each value is one that the
remote store is believed to hold or is still reported as a change. A sweep computes the changes
of an entity at its turn, and a commit that goes through then stops all tracking. So an edit that
arrives before the turn of its entity is sent, and one that arrives after it is neither sent nor
reported any more.

**Exactly then** (`Reachable.commit_accounts_iff`). After a commit that went through, an entity is
accounted for just when it holds what it held at its turn. This takes that the entities its
snapshot referred to still had the keys by which the store knows them; otherwise what it refers to
at the end has to be what was acknowledged.

`not_accounts_late` is a commit that loses an edit.
-/

namespace ItemClient

/-- Two beliefs hold the same values. -/
structure Belief.Same (b b' : Belief) : Prop where
  row : Json.sameMembers b.row b'.row = true
  references : Json.sameMembers b.references b'.references = true

namespace Session

variable {s : Session} {id : EntityId}

/-- A change of the entity to this value is reported as pending. -/
def Reports (s : Session) (id : EntityId) (wire : String) (j : Json) : Prop :=
  ∃ t ∈ s.tracker.records, t.entity = id ∧ ∃ p, t.pending? s.heap = .ok (some p) ∧
    ∃ j', p.changes.get? wire = some j' ∧ j.same j' = true

/-- Each value that the live entity holds is believed of the remote store or reported. -/
structure Accounts (s : Session) (id : EntityId) : Prop where
  row : ∀ wire j, (wire, j) ∈ (Belief.of s.heap id).row →
    (∃ j', (wire, j') ∈ (s.believed id).row ∧ j.same j' = true) ∨ s.Reports id wire j
  references : ∀ wire j, (wire, j) ∈ (Belief.of s.heap id).references →
    (∃ j', (wire, j') ∈ (s.believed id).references ∧ j.same j' = true) ∨ s.Reports id wire j

/-- Where nothing is tracked nothing is reported, so all has to be believed. -/
theorem accounts_iff_of_nil {t : Tracked} (hentity : t.entity = id) (hheap : s.heap.WellFormed)
    (hfaithful : t.Faithful s.heap (s.believed id)) (hnil : s.tracker.records = []) :
    s.Accounts id ↔ (Belief.of s.heap id).Same (s.believed id) := by
  subst hentity
  have hfits := hfaithful.fits
  obtain ⟨r, hr, hschema⟩ := hfits.exists_record
  have hwf := (hheap _ _ hr).1
  have hreports : ∀ wire j, ¬ s.Reports t.entity wire j := by
    rintro wire j ⟨t', ht', -⟩
    rw [hnil] at ht'
    cases ht'
  have hrow : r.row.map Prod.fst = (s.believed t.entity).row.map Prod.fst :=
    (Record.names_row hwf hfits.wellFormed hschema).trans
      (Json.names_of_sameMembers hfaithful.row)
  have hreferences : (r.references s.heap.keyOf).map Prod.fst =
      (s.believed t.entity).references.map Prod.fst :=
    (Record.names_references _ _ hwf hfits.wellFormed hschema).trans
      (hfaithful.names s.heap.keyOf)
  have hiff := Json.sameMembers_iff hrow hwf.nodup_row
  have hiff' := Json.sameMembers_iff hreferences (hwf.nodup_references _)
  constructor
  · rintro ⟨haccrow, haccreferences⟩
    rw [Belief.of_record? hr] at haccrow haccreferences ⊢
    exact ⟨hiff.2 fun wire j hj => (haccrow wire j hj).resolve_right (hreports wire j),
      hiff'.2 fun wire j hj => (haccreferences wire j hj).resolve_right (hreports wire j)⟩
  · rintro ⟨hsame, hsame'⟩
    constructor <;> rw [Belief.of_record? hr] at *
    · exact fun wire j hj => .inl (hiff.1 hsame wire j hj)
    · exact fun wire j hj => .inl (hiff'.1 hsame' wire j hj)

variable {σ : Type} {g : Gateway σ} {far : σ} {report : CommitReport} {t : Tracked}

theorem run_ok_of_commit_ok {u : UnitOfWork} {world : World σ}
    (hok : (u.commit g world).result = .ok report) :
    ∃ n, (Sweep.run g u.records world).result = .ok n := by
  cases hresult : (Sweep.run g u.records world).result with
  | ok n => exact ⟨n, rfl⟩
  | error e =>
    rw [UnitOfWork.commit_of_error hresult] at hok
    cases hok

/-- A commit that goes through ends with nothing tracked and every entity faithful to what is
believed of it then. -/
theorem Inv.faithful_of_commit_ok (inv : s.Inv) (hg : g.Orderly)
    (hok : (s.tracker.commit g (s.world far)).result = .ok report)
    (ht : t ∈ s.tracker.records) :
    (s.commit g far).tracker.records = [] ∧ ∃ t' : Tracked, t'.entity = t.entity ∧
      t'.Faithful (s.commit g far).heap ((s.commit g far).believed t.entity) := by
  obtain ⟨n, hrun⟩ := run_ok_of_commit_ok hok
  have hentity : t.entity ∈
      (Sweep.run g s.tracker.records (s.world far)).records.map Tracked.entity := by
    rw [Sweep.entities_run]
    exact List.mem_map_of_mem ht
  obtain ⟨t', ht', hentity⟩ := List.mem_map.1 hentity
  have hfaithful := Sweep.faithful_run hg inv.heap inv.nodup inv.faithful t' ht'
  rw [hentity] at hfaithful
  unfold Session.commit
  rw [UnitOfWork.commit_of_ok hrun]
  exact ⟨rfl, t', hentity, hfaithful⟩

/-- **What a commit that goes through accounts for.** -/
theorem Reachable.commit_accounts_iff (h : s.Reachable) (hg : g.Orderly)
    (hok : (s.tracker.commit g (s.world far)).result = .ok report)
    (ht : t ∈ s.tracker.records) :
    ∃ turn ∈ Sweep.turns g s.tracker.records (s.world far), turn.tracked = t ∧
      let s' := s.commit g far
      let final := Belief.of s'.heap t.entity
      let atTurn := Belief.of turn.world.heap t.entity
      (s'.Accounts t.entity ↔ Json.sameMembers final.row atTurn.row = true ∧
        Json.sameMembers final.references (s'.believed t.entity).references = true) ∧
      (Json.sameMembers (t.original.references turn.world.heap.keyOf)
          (s.believed t.entity).references = true →
        (s'.Accounts t.entity ↔ final.Same atTurn)) := by
  have inv := h.inv
  obtain ⟨n, hrun⟩ := run_ok_of_commit_ok hok
  obtain ⟨turn, hturn, rfl⟩ := List.mem_map.1 ((Sweep.tracked_turns_of_ok hrun).symm ▸ ht)
  obtain ⟨live, changes, hdiffers, hheard⟩ :=
    Sweep.hear_turn s.believed inv.nodup hrun hturn
  have hchanges := Sweep.changes_turns hg hturn
  have hheap := hchanges.keeps.wellFormed inv.heap
  have hfaithful := (inv.faithful _ ht).mono hchanges
  have hrecord := Heap.record?_of_read hdiffers.read
  obtain ⟨hnil, t', hentity, hfaithful'⟩ := inv.faithful_of_commit_ok hg hok ht
  have hheap' : (s.commit g far).heap.WellFormed := (inv.commit hg far).heap
  have haccounts := accounts_iff_of_nil hentity hheap' hfaithful' hnil
  -- What is believed of the row at the end is the row at the turn.
  have hrow : Json.sameMembers (Belief.of turn.world.heap turn.tracked.entity).row
      ((s.commit g far).believed turn.tracked.entity).row = true := by
    rw [Belief.of_record? hrecord]
    show Json.sameMembers live.row (s.believed.hear _ turn.tracked.entity).row = true
    rw [hheard]
    exact hfaithful.row_overwrite hheap hdiffers
  refine ⟨turn, hturn, rfl, haccounts.trans ?_, fun hheld => haccounts.trans ?_⟩
  · exact ⟨fun hs => ⟨(Json.sameMembers_congr hrow).2 hs.row, hs.references⟩,
      fun hs => ⟨(Json.sameMembers_congr hrow).1 hs.1, hs.2⟩⟩
  -- So are the references, if those of the snapshot were still the believed ones.
  have hreferences : Json.sameMembers (Belief.of turn.world.heap turn.tracked.entity).references
      ((s.commit g far).believed turn.tracked.entity).references = true := by
    rw [Belief.of_record? hrecord]
    show Json.sameMembers (live.references _)
      (s.believed.hear _ turn.tracked.entity).references = true
    rw [hheard]
    exact Record.references_overwrite (fun i j => Heap.keyOf_of_reference)
      (hheap _ _ hrecord).1 hfaithful.fits.wellFormed hdiffers.schema_eq hdiffers.diff hheld
  exact ⟨fun hs => ⟨(Json.sameMembers_congr hrow).2 hs.row,
      (Json.sameMembers_congr hreferences).2 hs.references⟩,
    fun hs => ⟨(Json.sameMembers_congr hrow).1 hs.row,
      (Json.sameMembers_congr hreferences).1 hs.references⟩⟩

/-- While the changes of the first tag are under way, both tags get another name. -/
def late : Script :=
  { answers := [((.patch, "items/tag/a"), .response ⟨200, []⟩),
      ((.patch, "items/tag/b"), .response ⟨200, []⟩)]
    edits := [⟨"items/tag/a", 0, .scalar "name" (.text "late")⟩,
      ⟨"items/tag/a", 1, .scalar "name" (.text "timely")⟩] }

/-- The second tag is edited before its turn. -/
theorem commit_accounts_late :
    ∃ turn ∈ Sweep.turns Script.gateway edited.tracker.records (edited.world late),
      turn.tracked.entity = 1 ∧ ((edited.commit Script.gateway late).Accounts 1 ↔
        (Belief.of (edited.commit Script.gateway late).heap 1).Same
          (Belief.of turn.world.heap 1)) := by
  have hok : (edited.tracker.commit Script.gateway (edited.world late)).result = .ok ⟨2, 2⟩ := rfl
  have ht : edited.tracker.records[1] ∈ edited.tracker.records := List.getElem_mem (by decide)
  obtain ⟨turn, hturn, htracked, -, hiff⟩ :=
    Reachable.commit_accounts_iff reachable_edited Script.orderly hok ht
  exact ⟨turn, hturn, by rw [htracked]; rfl, hiff rfl⟩

/-- **An edit can be lost**: the first tag is edited after its turn. -/
theorem not_accounts_late :
    ¬ ∀ (σ : Type) (g : Gateway σ) (far : σ) (s : Session) (report : CommitReport),
      s.Reachable → g.Orderly → (s.tracker.commit g (s.world far)).result = .ok report →
        ∀ t ∈ s.tracker.records, (s.commit g far).Accounts t.entity := by
  intro hall
  have ht : edited.tracker.records[0] ∈ edited.tracker.records := List.getElem_mem (by decide)
  have haccounts := hall Script Script.gateway late edited ⟨2, 2⟩ reachable_edited Script.orderly
    rfl _ ht
  have hlive : ("name", Json.string "late") ∈
      (Belief.of (edited.commit Script.gateway late).heap 0).row :=
    List.mem_cons_of_mem _ List.mem_cons_self
  have hrow : ((edited.commit Script.gateway late).believed 0).row =
      [("id", .string "x"), ("name", .string "first")] := rfl
  rcases haccounts.row "name" (.string "late") hlive with ⟨j, hj, hsame⟩ | ⟨t, ht, -⟩
  · have hj : ("name", j) ∈ [("id", Json.string "x"), ("name", .string "first")] := hrow ▸ hj
    simp only [List.mem_cons, Prod.mk.injEq, List.not_mem_nil] at hj
    obtain rfl : j = .string "first" := by simpa using hj
    simp [Json.same] at hsame
  · cases ht

end Session

end ItemClient
