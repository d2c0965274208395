import ItemClient.Proofs.Commit.Turns
import ItemClient.Proofs.Link.Listing

/-!
# The requests of a sweep

The request that a PATCH makes (`Patch.request?`): where the owner of the tracked entity is an
accessor over the link, a PATCH of `items/<collection>/<key>` whose body is the object of the
changes; none where the changes are handed over.

A sweep over a listing gateway is the sweep itself, with the requests of its PATCHes added to the
list in order (`Sweep.run_listed`), and so is a commit (`UnitOfWork.commit_listed`). This needs that
a PATCH is for the collection of its owner.
-/

namespace ItemClient

variable {σ : Type} {g : Gateway σ}

namespace Patch

/-- The request that a PATCH makes, if it goes over the link. -/
def request? (x : Patch) : Option Request :=
  if x.tracked.owner.isLinked then
    some
      { method := .patch
        segments := ["items", x.pending.collection, x.pending.identity]
        body := some (.object x.pending.changes.fields) }
  else none

/-- A PATCH goes to the row of its key. -/
structure GoesOut (g : Gateway σ) (x : Patch) : Prop where
  /-- Over the link it is its request, which is acknowledged or not. -/
  linked : ∀ r, x.request? = some r → ∀ world : World σ,
    g.patch x.tracked.owner x.pending.identity x.pending.changes world =
      ((g.send r world).1.bind Envelope.acknowledge, (g.send r world).2)
  /-- Otherwise the changes are handed to the accessor of the collection. -/
  handed : x.request? = none →
    g.patch x.tracked.owner x.pending.identity x.pending.changes =
      g.handOver x.pending.collection x.pending.identity x.pending.changes
  /-- It sends its request, if it has one, and nothing else. -/
  listed : ∀ listed : World (List Request × σ),
    (g.listing.patch x.tracked.owner x.pending.identity x.pending.changes listed).2.far.1 =
      listed.far.1 ++ x.request?.toList

/-- PATCHes are for the collections of their owners. -/
def AreOwned (xs : List Patch) : Prop :=
  ∀ x ∈ xs, x.tracked.owner.collection = x.pending.collection

variable {x : Patch} (h : x.tracked.owner.collection = x.pending.collection)

include h

theorem toList_request? :
    x.request?.toList = if x.tracked.owner.isLinked then
      [.change x.tracked.owner.collection x.pending.identity x.pending.changes.toJson] else [] := by
  rw [request?, h]
  cases x.tracked.owner.isLinked <;> rfl

theorem goesOut (g : Gateway σ) : x.GoesOut g where
  linked r hr world := by
    obtain ⟨hlinked, hrequest⟩ := Option.ite_none_right_eq_some.1 hr
    cases hrequest
    rw [g.patch_of_linked hlinked, h, g.patchRow_eq]
    rfl
  handed hnone := by
    have hlinked : x.tracked.owner.isLinked = false := by simpa [request?] using hnone
    rw [g.patch_of_not_linked hlinked, h]
  listed listed := by rw [g.listed_patch, toList_request? h]

theorem listing_patch (g : Gateway σ) (world : World σ) (requests : List Request) :
    g.listing.patch x.tracked.owner x.pending.identity x.pending.changes (world.listed requests) =
      ((g.patch x.tracked.owner x.pending.identity x.pending.changes world).1,
        (g.patch x.tracked.owner x.pending.identity x.pending.changes world).2.listed
          (requests ++ x.request?.toList)) := by
  rw [g.listing_patch, toList_request? h]

end Patch

namespace Sweep

/-- A sweep together with a list of requests. -/
def listed (s : Sweep σ) (requests : List Request) : Sweep (List Request × σ) :=
  { result := s.result, records := s.records, notices := s.notices,
    world := s.world.listed requests }

/-- **A sweep that is listed** is the sweep, and the requests of its PATCHes in order. -/
theorem run_listed {ts : List Tracked} {world : World σ}
    (howned : Patch.AreOwned (patches g ts world)) (requests : List Request) :
    run g.listing ts (world.listed requests) =
      (run g ts world).listed (requests ++ (patches g ts world).filterMap Patch.request?) := by
  induction ts, world using run.induct g generalizing requests with
  | case1 world =>
    show _ = listed _ (requests ++ [])
    rw [List.append_nil]
    rfl
  | case2 t ts world e h =>
    rw [run_of_failed h, patches_of_failed h, List.filterMap_nil, List.append_nil]
    exact run_of_failed h
  | case3 t ts world h ih =>
    rw [patches_of_clean h] at howned ⊢
    have hclean : prepare (world.listed requests).heap t = .ok none := h
    rw [run_of_clean h, run_of_clean hclean, ih howned]
    rfl
  | case4 t ts world p candidate h a world' hp ih =>
    rw [patches_of_acknowledged h hp] at howned ⊢
    obtain ⟨hx, howned⟩ := List.forall_mem_cons.1 howned
    have hready : prepare (world.listed requests).heap t = .ok (some (p, candidate)) := h
    have hlisted := Patch.listing_patch hx g world requests
    rw [hp] at hlisted
    rw [run_of_acknowledged h hp, run_of_acknowledged hready hlisted, ih howned, List.append_assoc,
      List.filterMap_cons]
    cases Patch.request? ⟨t, p, .ok a⟩ <;> rfl
  | case5 t ts world p candidate h e world' hp =>
    rw [patches_of_refused h hp] at howned ⊢
    obtain ⟨hx, -⟩ := List.forall_mem_cons.1 howned
    have hready : prepare (world.listed requests).heap t = .ok (some (p, candidate)) := h
    have hlisted := Patch.listing_patch hx g world requests
    rw [hp] at hlisted
    rw [run_of_refused h hp, run_of_refused hready hlisted, List.filterMap_cons]
    cases Patch.request? ⟨t, p, .error e⟩ <;> rfl

end Sweep

/-- **A commit that is listed** is the commit, and the requests of its PATCHes in order. -/
theorem UnitOfWork.commit_listed {u : UnitOfWork} {world : World σ}
    (howned : Patch.AreOwned (Sweep.patches g u.records world)) (requests : List Request) :
    u.commit g.listing (world.listed requests) =
      { result := (u.commit g world).result
        tracker := (u.commit g world).tracker
        notices := (u.commit g world).notices
        world := (u.commit g world).world.listed
          (requests ++ (Sweep.patches g u.records world).filterMap Patch.request?) } := by
  have hlisted := Sweep.run_listed howned requests
  cases hresult : (Sweep.run g u.records world).result with
  | ok n =>
    have hgoes : (Sweep.run g.listing u.records (world.listed requests)).result = .ok n := by
      rw [hlisted]
      exact hresult
    rw [commit_of_ok hresult, commit_of_ok hgoes, hlisted]
    rfl
  | error e =>
    have hstops : (Sweep.run g.listing u.records (world.listed requests)).result = .error e := by
      rw [hlisted]
      exact hresult
    rw [commit_of_error hresult, commit_of_error hstops, hlisted]
    rfl

end ItemClient
