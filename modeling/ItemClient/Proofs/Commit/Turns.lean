import ItemClient.Proofs.Outcomes
import ItemClient.UnitOfWork.Commit

/-!
# The turns of a sweep

A sweep taken apart. The tracked entities get their turns in order, each in the world that the
turns before it left (`Sweep.turns`), up to the first that cannot be read or whose changes are
refused. At its turn an entity is sent a PATCH or none (`Turn.patch?`); `Sweep.patches` lists
them with their answers and `Sweep.acknowledged` those among them that were acknowledged.

Nothing but these PATCHes, in this order, touches the world (`world_run`). A sweep that goes
through gives every tracked entity a turn (`tracked_turns_of_ok`).
-/

namespace ItemClient

/-- A PATCH for a tracked entity, and what came of it. -/
structure Patch where
  /-- The tracked entity. -/
  tracked : Tracked
  /-- What was sent. -/
  pending : Pending
  /-- The answer. -/
  answer : Result Unit

/-- Send PATCHes one after the other, whatever is answered. -/
def Gateway.patchAll {σ : Type} (g : Gateway σ) :
    List (Tracked × Pending) → World σ → List (Result Unit) × World σ
  | [], world => ([], world)
  | (t, p) :: rest, world =>
      let (answer, world) := g.patch t.owner p.identity p.changes world
      let (answers, world) := g.patchAll rest world
      (answer :: answers, world)

namespace Sweep

variable {σ : Type}

/-- The turn of a tracked entity. -/
structure Turn (σ : Type) where
  /-- The tracked entity. -/
  tracked : Tracked
  /-- The world when its turn comes. -/
  world : World σ

namespace Turn

/-- What there is to send at a turn. -/
def pending? (turn : Turn σ) : Option Pending :=
  (prepare turn.world.heap turn.tracked).toOption.join.map Prod.fst

/-- The PATCH that is sent at a turn. -/
def patch? (g : Gateway σ) (turn : Turn σ) : Option Patch :=
  turn.pending?.map fun p =>
    { tracked := turn.tracked, pending := p,
      answer := (g.patch turn.tracked.owner p.identity p.changes turn.world).1 }

end Turn

/-- The turns that the tracked entities get. -/
def turns (g : Gateway σ) : List Tracked → World σ → List (Turn σ)
  | [], _ => []
  | t :: ts, world =>
      ⟨t, world⟩ ::
        match prepare world.heap t with
        | .error _ => []
        | .ok none => turns g ts world
        | .ok (some (p, _)) =>
            match g.patch t.owner p.identity p.changes world with
            | (.ok _, world) => turns g ts world
            | (.error _, _) => []

/-- The PATCHes of a sweep, in order. -/
def patches (g : Gateway σ) (ts : List Tracked) (world : World σ) : List Patch :=
  (turns g ts world).filterMap (Turn.patch? g)

/-- The changes that were acknowledged, by entity, in order. -/
def acknowledged (g : Gateway σ) (ts : List Tracked) (world : World σ) :
    List (EntityId × ChangeSet) :=
  (patches g ts world).filterMap fun p =>
    match p.answer with
    | .ok _ => some (p.tracked.entity, p.pending.changes)
    | .error _ => none

variable {g : Gateway σ} {t : Tracked} {ts : List Tracked} {world world' : World σ}
  {p : Pending} {candidate : Snapshot} {e : Error}

/-! ## What becomes of a turn -/

section Cases

theorem run_of_failed (h : prepare world.heap t = .error e) :
    run g (t :: ts) world = stopped e (t :: ts) world := by
  simp only [run, h]

theorem run_of_clean (h : prepare world.heap t = .ok none) :
    run g (t :: ts) world = (run g ts world).keep t := by
  simp only [run, h]

theorem run_of_acknowledged {a : Unit} (h : prepare world.heap t = .ok (some (p, candidate)))
    (hp : g.patch t.owner p.identity p.changes world = (.ok a, world')) :
    run g (t :: ts) world = (run g ts world').advance { t with original := candidate } p := by
  simp only [run, h, hp]

theorem run_of_refused (h : prepare world.heap t = .ok (some (p, candidate)))
    (hp : g.patch t.owner p.identity p.changes world = (.error e, world')) :
    run g (t :: ts) world =
      { stopped (.persistence p.collection p.identity e) (t :: ts) world' with
        notices := [.failed p.collection p.identity e] } := by
  simp only [run, h, hp]

theorem turns_of_failed (h : prepare world.heap t = .error e) :
    turns g (t :: ts) world = [⟨t, world⟩] := by
  simp only [turns, h]

theorem turns_of_clean (h : prepare world.heap t = .ok none) :
    turns g (t :: ts) world = ⟨t, world⟩ :: turns g ts world := by
  simp only [turns, h]

theorem turns_of_acknowledged {a : Unit} (h : prepare world.heap t = .ok (some (p, candidate)))
    (hp : g.patch t.owner p.identity p.changes world = (.ok a, world')) :
    turns g (t :: ts) world = ⟨t, world⟩ :: turns g ts world' := by
  simp only [turns, h, hp]

theorem turns_of_refused (h : prepare world.heap t = .ok (some (p, candidate)))
    (hp : g.patch t.owner p.identity p.changes world = (.error e, world')) :
    turns g (t :: ts) world = [⟨t, world⟩] := by
  simp only [turns, h, hp]

theorem patches_of_failed (h : prepare world.heap t = .error e) :
    patches g (t :: ts) world = [] := by
  simp [patches, turns_of_failed h, Turn.patch?, Turn.pending?, h, Except.toOption]

theorem patches_of_clean (h : prepare world.heap t = .ok none) :
    patches g (t :: ts) world = patches g ts world := by
  simp [patches, turns_of_clean h, Turn.patch?, Turn.pending?, h, Except.toOption]

theorem patches_of_acknowledged {a : Unit} (h : prepare world.heap t = .ok (some (p, candidate)))
    (hp : g.patch t.owner p.identity p.changes world = (.ok a, world')) :
    patches g (t :: ts) world = ⟨t, p, .ok a⟩ :: patches g ts world' := by
  simp [patches, turns_of_acknowledged h hp, Turn.patch?, Turn.pending?, h, hp, Except.toOption]

theorem patches_of_refused (h : prepare world.heap t = .ok (some (p, candidate)))
    (hp : g.patch t.owner p.identity p.changes world = (.error e, world')) :
    patches g (t :: ts) world = [⟨t, p, .error e⟩] := by
  simp [patches, turns_of_refused h hp, Turn.patch?, Turn.pending?, h, hp, Except.toOption]

theorem acknowledged_of_failed (h : prepare world.heap t = .error e) :
    acknowledged g (t :: ts) world = [] := by
  rw [acknowledged, patches_of_failed h]
  rfl

theorem acknowledged_of_clean (h : prepare world.heap t = .ok none) :
    acknowledged g (t :: ts) world = acknowledged g ts world := by
  rw [acknowledged, patches_of_clean h, acknowledged]

theorem acknowledged_of_acknowledged {a : Unit}
    (h : prepare world.heap t = .ok (some (p, candidate)))
    (hp : g.patch t.owner p.identity p.changes world = (.ok a, world')) :
    acknowledged g (t :: ts) world = (t.entity, p.changes) :: acknowledged g ts world' := by
  rw [acknowledged, patches_of_acknowledged h hp, List.filterMap_cons, acknowledged]

theorem acknowledged_of_refused (h : prepare world.heap t = .ok (some (p, candidate)))
    (hp : g.patch t.owner p.identity p.changes world = (.error e, world')) :
    acknowledged g (t :: ts) world = [] := by
  rw [acknowledged, patches_of_refused h hp]
  rfl

end Cases

/-! ## Whole sweeps -/

/-- Turns are given in the order of the tracked entities. -/
theorem isPrefix_turns (g : Gateway σ) (ts : List Tracked) (world : World σ) :
    (turns g ts world).map Turn.tracked <+: ts := by
  induction ts, world using run.induct g with
  | case1 world => exact List.nil_prefix
  | case2 t ts world e h =>
    rw [turns_of_failed h]
    exact List.cons_prefix_cons.2 ⟨rfl, List.nil_prefix⟩
  | case3 t ts world h ih =>
    rw [turns_of_clean h]
    exact List.cons_prefix_cons.2 ⟨rfl, ih⟩
  | case4 t ts world p candidate h a world' hp ih =>
    rw [turns_of_acknowledged h hp]
    exact List.cons_prefix_cons.2 ⟨rfl, ih⟩
  | case5 t ts world p candidate h e world' hp =>
    rw [turns_of_refused h hp]
    exact List.cons_prefix_cons.2 ⟨rfl, List.nil_prefix⟩

theorem mem_of_mem_turns {turn : Turn σ} (h : turn ∈ turns g ts world) : turn.tracked ∈ ts :=
  (isPrefix_turns g ts world).subset (List.mem_map_of_mem h)

theorem exists_turn_of_mem_patches {x : Patch} (h : x ∈ patches g ts world) :
    ∃ turn ∈ turns g ts world, turn.tracked = x.tracked ∧ turn.pending? = some x.pending := by
  obtain ⟨turn, hturn, hx⟩ := List.mem_filterMap.1 h
  obtain ⟨p, hp, rfl⟩ := Option.map_eq_some_iff.1 hx
  exact ⟨turn, hturn, rfl, hp⟩

theorem mem_of_mem_patches {x : Patch} (h : x ∈ patches g ts world) : x.tracked ∈ ts := by
  obtain ⟨turn, hturn, htracked, -⟩ := exists_turn_of_mem_patches h
  exact htracked ▸ mem_of_mem_turns hturn

/-- Only tracked entities have changes acknowledged. -/
theorem mem_of_mem_acknowledged {id : EntityId}
    (h : id ∈ (acknowledged g ts world).map Prod.fst) : id ∈ ts.map Tracked.entity := by
  obtain ⟨⟨i, changes⟩, hmem, rfl⟩ := List.mem_map.1 h
  obtain ⟨x, hx, hsome⟩ := List.mem_filterMap.1 hmem
  split at hsome
  · cases hsome
    exact List.mem_map_of_mem (mem_of_mem_patches hx)
  · cases hsome

/-- In a sweep that goes through every tracked entity gets its turn. -/
theorem tracked_turns_of_ok {n : Nat} (hok : (run g ts world).result = .ok n) :
    (turns g ts world).map Turn.tracked = ts := by
  induction ts, world using run.induct g generalizing n with
  | case1 world => rfl
  | case2 t ts world e h =>
    rw [run_of_failed h] at hok
    cases hok
  | case3 t ts world h ih =>
    rw [run_of_clean h] at hok
    rw [turns_of_clean h, List.map_cons, ih hok]
  | case4 t ts world p candidate h a world' hp ih =>
    rw [run_of_acknowledged h hp] at hok
    obtain ⟨m, hm, -⟩ := Result.map_eq_ok.1 hok
    rw [turns_of_acknowledged h hp, List.map_cons, ih hm]
  | case5 t ts world p candidate h e world' hp =>
    rw [run_of_refused h hp] at hok
    cases hok

/-- In a sweep that goes through all can be compared. -/
theorem prepared_of_ok {n : Nat} (hok : (run g ts world).result = .ok n) :
    ∀ turn ∈ turns g ts world, ∃ o, prepare turn.world.heap turn.tracked = .ok o := by
  induction ts, world using run.induct g generalizing n with
  | case1 world => simp [turns]
  | case2 t ts world e h =>
    rw [run_of_failed h] at hok
    cases hok
  | case3 t ts world h ih =>
    rw [run_of_clean h] at hok
    rw [turns_of_clean h]
    exact List.forall_mem_cons.2 ⟨⟨_, h⟩, ih hok⟩
  | case4 t ts world p candidate h a world' hp ih =>
    rw [run_of_acknowledged h hp] at hok
    obtain ⟨m, hm, -⟩ := Result.map_eq_ok.1 hok
    rw [turns_of_acknowledged h hp]
    exact List.forall_mem_cons.2 ⟨⟨_, h⟩, ih hm⟩
  | case5 t ts world p candidate h e world' hp =>
    rw [run_of_refused h hp] at hok
    cases hok

/-- A sweep keeps the tracked entities and their order. -/
theorem entities_run (g : Gateway σ) (ts : List Tracked) (world : World σ) :
    (run g ts world).records.map Tracked.entity = ts.map Tracked.entity := by
  induction ts, world using run.induct g with
  | case1 world => rfl
  | case2 t ts world e h => rw [run_of_failed h, stopped]
  | case3 t ts world h ih => rw [run_of_clean h, keep, List.map_cons, ih, List.map_cons]
  | case4 t ts world p candidate h a world' hp ih =>
    rw [run_of_acknowledged h hp, advance, List.map_cons, ih, List.map_cons]
  | case5 t ts world p candidate h e world' hp => rw [run_of_refused h hp, stopped]

/-- **The world after a sweep is what its PATCHes make of it**, and they get the answers that
are listed. -/
theorem world_run (g : Gateway σ) (ts : List Tracked) (world : World σ) :
    g.patchAll ((patches g ts world).map fun p => (p.tracked, p.pending)) world =
      ((patches g ts world).map Patch.answer, (run g ts world).world) := by
  induction ts, world using run.induct g with
  | case1 world => rfl
  | case2 t ts world e h =>
    rw [patches_of_failed h, run_of_failed h]
    rfl
  | case3 t ts world h ih =>
    rw [patches_of_clean h, run_of_clean h]
    exact ih
  | case4 t ts world p candidate h a world' hp ih =>
    rw [patches_of_acknowledged h hp, run_of_acknowledged h hp]
    simp only [List.map_cons, Gateway.patchAll, hp, ih, advance]
  | case5 t ts world p candidate h e world' hp =>
    rw [patches_of_refused h hp, run_of_refused h hp]
    simp only [List.map_cons, List.map_nil, Gateway.patchAll, hp, stopped]

end Sweep

/-! ## Commits -/

namespace UnitOfWork

variable {σ : Type} {u : UnitOfWork} {g : Gateway σ} {world : World σ} {n : Nat} {e : Error}

/-- The outcome of a commit whose sweep goes through. -/
def finished (u : UnitOfWork) (s : Sweep σ) (n : Nat) : Outcome (World σ) CommitReport :=
  { result := .ok { inspected := u.size, patched := n }
    tracker := { u with records := [] }
    notices := s.notices ++ [.finished { inspected := u.size, patched := n }]
    world := s.world }

/-- The outcome of a commit whose sweep does not. -/
def aborted (u : UnitOfWork) (s : Sweep σ) (e : Error) : Outcome (World σ) CommitReport :=
  { result := .error e, tracker := { u with records := s.records }, notices := s.notices,
    world := s.world }

theorem commit_of_ok (h : (Sweep.run g u.records world).result = .ok n) :
    u.commit g world = u.finished (Sweep.run g u.records world) n := by
  simp only [commit, h, finished]

theorem commit_of_error (h : (Sweep.run g u.records world).result = .error e) :
    u.commit g world = u.aborted (Sweep.run g u.records world) e := by
  simp only [commit, h, aborted]

theorem world_commit (u : UnitOfWork) (g : Gateway σ) (world : World σ) :
    (u.commit g world).world = (Sweep.run g u.records world).world := by
  cases h : (Sweep.run g u.records world).result with
  | ok n =>
    rw [commit_of_ok h]
    rfl
  | error e =>
    rw [commit_of_error h]
    rfl

end UnitOfWork

end ItemClient
