import ItemClient.Proofs.Commit.Prepare
import ItemClient.Proofs.Session.Belief

/-!
# Sweeps and beliefs

A tracked entity is faithful (`Tracked.Faithful`) when its snapshot is one of the entity and has
the row that the remote store is believed to hold. A sweep keeps all tracked entities faithful
(`Sweep.faithful_run`), whatever is answered and whatever happens to the live entities meanwhile:
a snapshot advances exactly when its changes are acknowledged, and to the very record that they
were computed from.
-/

namespace ItemClient

/-- While the changes of a row are under way the live entities may change, but not otherwise than
by the program that holds them. -/
def Gateway.Orderly {σ : Type} (g : Gateway σ) : Prop :=
  ∀ (a : Accessor) (id : String) (changes : ChangeSet) (world : World σ),
    world.heap.Changes (g.patch a id changes world).2.heap

/-- A snapshot is one of the entity, has the row that is believed, and refers to other records
under the names that are believed. -/
structure Tracked.Faithful (heap : Heap) (b : Belief) (t : Tracked) : Prop where
  fits : t.Fits heap
  row : Json.sameMembers t.original.row b.row = true
  names : ∀ key, (t.original.references key).map Prod.fst = b.references.map Prod.fst

namespace Tracked

variable {heap heap' : Heap} {b : Belief} {t : Tracked} {live : Record EntityId}
  {changes : ChangeSet}

theorem Faithful.mono (hchanges : heap.Changes heap') (h : t.Faithful heap b) :
    t.Faithful heap' b :=
  ⟨h.fits.mono hchanges.keeps, h.row, h.names⟩

theorem Differs.schema_eq (h : t.Differs heap live changes) :
    t.original.schema = live.schema :=
  Option.some.inj (h.schema.symm.trans (Heap.schema?_of_read h.read))

/-- The live record has the row that is believed once its changes are acknowledged. -/
theorem Faithful.row_overwrite (hheap : heap.WellFormed) (hdiffers : t.Differs heap live changes)
    (h : t.Faithful heap b) : Json.sameMembers live.row (b.overwrite changes).row = true := by
  have hlive := (hheap _ _ (Heap.record?_of_read hdiffers.read)).1
  exact Record.row_overwrite hlive h.fits.wellFormed hdiffers.schema_eq hdiffers.diff h.row

/-- **An acknowledged turn keeps a tracked entity faithful.** -/
theorem Faithful.advance (hheap : heap.WellFormed) (hdiffers : t.Differs heap live changes)
    (h : t.Faithful heap b) :
    ({ t with original := live } : Tracked).Faithful heap (b.overwrite changes) where
  fits := h.fits.advance hheap hdiffers.read
  row := h.row_overwrite hheap hdiffers
  names := by
    have hlive := (hheap _ _ (Heap.record?_of_read hdiffers.read)).1
    intro key
    show (live.references key).map Prod.fst = (changes.overwrite b.references).map Prod.fst
    rw [ChangeSet.names_overwrite, ← h.names key,
      Record.names_references key key hlive h.fits.wellFormed hdiffers.schema_eq.symm]

end Tracked

namespace Sweep

variable {σ : Type} {g : Gateway σ} {ts : List Tracked} {world : World σ} {believed : Beliefs}

theorem changes_patch (hg : g.Orderly) {t : Tracked} {p : Pending} {answer : Result Unit}
    {world' : World σ} (hp : g.patch t.owner p.identity p.changes world = (answer, world')) :
    world.heap.Changes world'.heap := by
  have h := hg t.owner p.identity p.changes world
  rwa [hp] at h

/-- During a sweep the live entities change as they do at any time. -/
theorem changes_run (hg : g.Orderly) (ts : List Tracked) (world : World σ) :
    world.heap.Changes (run g ts world).world.heap := by
  induction ts, world using run.induct g with
  | case1 world => exact .refl
  | case2 t ts world e h =>
    rw [run_of_failed h]
    exact .refl
  | case3 t ts world h ih =>
    rw [run_of_clean h]
    exact ih
  | case4 t ts world p candidate h a world' hp ih =>
    rw [run_of_acknowledged h hp]
    exact (changes_patch hg hp).trans ih
  | case5 t ts world p candidate h e world' hp =>
    rw [run_of_refused h hp]
    exact changes_patch hg hp

/-- At each turn the live entities have changed as they do at any time. -/
theorem changes_turns (hg : g.Orderly) {turn : Turn σ} (hturn : turn ∈ turns g ts world) :
    world.heap.Changes turn.world.heap := by
  induction ts, world using run.induct g with
  | case1 world => cases hturn
  | case2 t ts world e h =>
    rw [turns_of_failed h, List.mem_singleton] at hturn
    rw [hturn]
    exact .refl
  | case3 t ts world h ih =>
    rw [turns_of_clean h] at hturn
    rcases List.mem_cons.1 hturn with rfl | hturn
    · exact .refl
    · exact ih hturn
  | case4 t ts world p candidate h a world' hp ih =>
    rw [turns_of_acknowledged h hp] at hturn
    rcases List.mem_cons.1 hturn with rfl | hturn
    · exact .refl
    · exact (changes_patch hg hp).trans (ih hturn)
  | case5 t ts world p candidate h e world' hp =>
    rw [turns_of_refused h hp, List.mem_singleton] at hturn
    rw [hturn]
    exact .refl

/-- **A sweep keeps tracked entities faithful.** The induction runs over the turns; what is
acknowledged at one turn is about no other entity, as each is tracked once. -/
theorem faithful_run (hg : g.Orderly) (hheap : world.heap.WellFormed)
    (hnodup : (ts.map Tracked.entity).Nodup)
    (hts : ∀ t ∈ ts, t.Faithful world.heap (believed t.entity)) :
    ∀ t ∈ (run g ts world).records,
      t.Faithful (run g ts world).world.heap
        (believed.hear (acknowledged g ts world) t.entity) := by
  induction ts, world using run.induct g generalizing believed with
  | case1 world => simp [run]
  | case2 t ts world e h =>
    rw [run_of_failed h, acknowledged_of_failed h]
    exact hts
  | case3 t ts world h ih =>
    rw [List.map_cons, List.nodup_cons] at hnodup
    rw [run_of_clean h, acknowledged_of_clean h]
    intro t' ht'
    rcases List.mem_cons.1 ht' with rfl | ht'
    · -- Nothing is heard of an entity after its turn.
      rw [Beliefs.hear_of_notMem fun hmem => hnodup.1 (mem_of_mem_acknowledged hmem)]
      exact (hts _ List.mem_cons_self).mono (changes_run hg ts world)
    · exact ih hheap hnodup.2 (fun t ht => hts t (List.mem_cons_of_mem _ ht)) t' ht'
  | case4 t ts world p candidate h a world' hp ih =>
    rw [List.map_cons, List.nodup_cons] at hnodup
    rw [run_of_acknowledged h hp, acknowledged_of_acknowledged h hp]
    have hchanges := changes_patch hg hp
    intro t' ht'
    rcases List.mem_cons.1 ht' with rfl | ht'
    · have hadvance := (hts t List.mem_cons_self).advance hheap (Tracked.prepare_eq_some h).1
      rw [Beliefs.hear_cons_self fun hmem => hnodup.1 (mem_of_mem_acknowledged hmem)]
      exact hadvance.mono (hchanges.trans (changes_run hg ts world'))
    · refine ih (hchanges.keeps.wellFormed hheap) hnodup.2 (fun t₁ ht₁ => ?_) t' ht'
      have hne : t₁.entity ≠ t.entity := fun he => hnodup.1 (he ▸ List.mem_map_of_mem ht₁)
      rw [Function.update_of_ne hne]
      exact (hts t₁ (List.mem_cons_of_mem _ ht₁)).mono hchanges
  | case5 t ts world p candidate h e world' hp =>
    rw [run_of_refused h hp, acknowledged_of_refused h hp]
    exact fun t' ht' => (hts t' ht').mono (changes_patch hg hp)

/-- When a sweep goes through, all that is heard of an entity is what its turn sent. -/
theorem hear_turn (believed : Beliefs) (hnodup : (ts.map Tracked.entity).Nodup) {n : Nat}
    (hok : (run g ts world).result = .ok n) {turn : Turn σ} (hturn : turn ∈ turns g ts world) :
    ∃ live changes, turn.tracked.Differs turn.world.heap live changes ∧
      believed.hear (acknowledged g ts world) turn.tracked.entity =
        (believed turn.tracked.entity).overwrite changes := by
  induction ts, world using run.induct g generalizing believed n with
  | case1 world => cases hturn
  | case2 t ts world e h =>
    rw [run_of_failed h] at hok
    cases hok
  | case3 t ts world h ih =>
    rw [List.map_cons, List.nodup_cons] at hnodup
    rw [run_of_clean h] at hok
    rw [turns_of_clean h] at hturn
    rw [acknowledged_of_clean h]
    rcases List.mem_cons.1 hturn with rfl | hturn
    · obtain ⟨live, changes, hdiffers, hempty⟩ := Tracked.prepare_eq_none.1 h
      refine ⟨live, changes, hdiffers, ?_⟩
      rw [Beliefs.hear_of_notMem fun hmem => hnodup.1 (mem_of_mem_acknowledged hmem),
        Belief.overwrite_of_isEmpty hempty]
    · exact ih believed hnodup.2 hok hturn
  | case4 t ts world p candidate h a world' hp ih =>
    rw [List.map_cons, List.nodup_cons] at hnodup
    rw [run_of_acknowledged h hp] at hok
    rw [turns_of_acknowledged h hp] at hturn
    rw [acknowledged_of_acknowledged h hp]
    obtain ⟨m, hm, -⟩ := Result.map_eq_ok.1 hok
    rcases List.mem_cons.1 hturn with rfl | hturn
    · refine ⟨candidate, p.changes, (Tracked.prepare_eq_some h).1, ?_⟩
      rw [Beliefs.hear_cons_self fun hmem => hnodup.1 (mem_of_mem_acknowledged hmem)]
    · have hmem := mem_of_mem_turns hturn
      have hne : turn.tracked.entity ≠ t.entity := fun he =>
        hnodup.1 (he ▸ List.mem_map_of_mem hmem)
      have hrest := ih (Function.update believed t.entity
        ((believed t.entity).overwrite p.changes)) hnodup.2 hm hturn
      rwa [Function.update_of_ne hne] at hrest
  | case5 t ts world p candidate h e world' hp =>
    rw [run_of_refused h hp] at hok
    cases hok

end Sweep

end ItemClient
