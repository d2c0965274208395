import ItemClient.Filter.Basic
import ItemClient.Proofs.Json.Members
import ItemClient.Proofs.Outcomes

/-!
# Merging clauses

`Filter.compile` as a law over lists of clauses.

**Clauses.** A `Clause` is an expression together with the comparison that it spells, so it has a
field. A list of expressions is either all clauses, or some clauses up to the first expression that
is none (`clauses_or_fault`); in the second case nothing but the error of that expression comes out.

**The invariant.** `Merges cs f warned` says what the filter `f` and the warnings hold after the
clauses `cs`: under each field the last clause on it, and one warning for each clause that came
after another on its field. A push adds its clause to the list (`Merges.push`), and so does every
run of pushes (`Merges.pushAll`).

Members in order are known by what they say, so the filter depends on nothing but the order of the
clauses that share a field.
-/

namespace ItemClient.Filter

variable {es : List String} {cs before : List Clause} {f : Filter} {warned : List String}

/-! ## Clauses -/

theorem takePath_ne_nil {ts rest : List Token} {names : List String}
    (h : takePath ts = .ok (names, rest)) : names ≠ [] := by
  unfold takePath at h
  split at h
  · obtain ⟨⟨path, rest'⟩, -, h⟩ := Result.bind_eq_ok.1 h
    cases h
    exact List.cons_ne_nil _ _
  · cases h
    exact List.cons_ne_nil _ _
  · cases h
  · cases h

theorem Comparison.path_ne_nil {e : String} {c : Comparison} (h : Comparison.parse e = .ok c) :
    c.path ≠ [] := by
  unfold Comparison.parse at h
  split at h
  · rename_i c' hread
    cases h
    obtain ⟨ts, -, h⟩ := Result.bind_eq_ok.1 hread
    obtain ⟨⟨names, ts₁⟩, hpath, h⟩ := Result.bind_eq_ok.1 h
    obtain ⟨⟨op, ts₂⟩, -, h⟩ := Result.bind_eq_ok.1 h
    obtain ⟨⟨value, ts₃⟩, -, h⟩ := Result.bind_eq_ok.1 h
    cases ts₃ with
    | nil =>
      cases h
      exact takePath_ne_nil hpath
    | cons t ts => cases h
  · cases h

/-- An expression with the comparison that it spells. -/
structure Clause where
  expression : String
  comparison : Comparison
  reads : Comparison.parse expression = .ok comparison

namespace Clause

/-- The field that a clause is on: the first name of its path. -/
def field (c : Clause) : String := c.comparison.path.head (Comparison.path_ne_nil c.reads)

/-- What stands under the field: the comparison, in the names below the field. -/
def value (c : Clause) : Json := (fold c.comparison).2

theorem fold_fst (c : Clause) : (fold c.comparison).1 = c.field := by
  show c.comparison.path.headD "" = c.field
  rw [List.headD_eq_head?_getD, List.head?_eq_some_head (Comparison.path_ne_nil c.reads)]
  rfl

end Clause

/-- Expressions are all clauses, or there is a first that is none. -/
theorem clauses_or_fault (es : List String) :
    (∃ cs : List Clause, es = cs.map Clause.expression) ∨
      ∃ (cs : List Clause) (e : String) (after : List String) (err : Error),
        es = cs.map Clause.expression ++ e :: after ∧ Comparison.parse e = .error err := by
  induction es with
  | nil => exact .inl ⟨[], rfl⟩
  | cons e es ih =>
    cases hparse : Comparison.parse e with
    | error err => exact .inr ⟨[], e, es, err, rfl, hparse⟩
    | ok c =>
      obtain ⟨cs, rfl⟩ | ⟨cs, e', after, err, rfl, hfault⟩ := ih
      · exact .inl ⟨⟨e, c, hparse⟩ :: cs, rfl⟩
      · exact .inr ⟨⟨e, c, hparse⟩ :: cs, e', after, err, rfl, hfault⟩

theorem exists_clauses_iff :
    (∃ cs : List Clause, es = cs.map Clause.expression) ↔
      ∀ e ∈ es, ∃ c, Comparison.parse e = .ok c := by
  constructor
  · rintro ⟨cs, rfl⟩ e he
    obtain ⟨c, -, rfl⟩ := List.mem_map.1 he
    exact ⟨c.comparison, c.reads⟩
  · intro hes
    obtain h | ⟨cs, e, after, err, rfl, hfault⟩ := clauses_or_fault es
    · exact h
    · obtain ⟨c, hc⟩ := hes e (by simp)
      rw [hfault] at hc
      cases hc

/-! ## One push -/

theorem push_clause (f : Filter) (c : Clause) :
    f.push c.expression = .ok ({ clauses := f.clauses.put c.field c.value },
      if f.clauses.has c.field then some (replacementWarning c.expression c.field) else none) := by
  rw [← c.fold_fst, Filter.push, pushInPlace, c.reads]
  rfl

/-- A push that fails leaves the filter as it was. -/
theorem pushInPlace_fault {e : String} {err : Error} (h : Comparison.parse e = .error err)
    (f : Filter) : (pushInPlace e).run f = (.error err, f) := by
  rw [pushInPlace, h]
  rfl

theorem push_fault {e : String} {err : Error} (h : Comparison.parse e = .error err) (f : Filter) :
    f.push e = .error err := by
  rw [Filter.push, pushInPlace_fault h]

/-! ## What a filter holds -/

/-- The warnings of clauses: one for each that comes after another on its field, in order. -/
def replacements (cs : List Clause) : List String :=
  (cs.zipIdx.filter fun (c, i) => (cs.take i).any (·.field = c.field)).map
    fun (c, _) => replacementWarning c.expression c.field

theorem replacements_concat (cs : List Clause) (c : Clause) :
    replacements (cs ++ [c]) = replacements cs ++
      if cs.any (·.field = c.field) then [replacementWarning c.expression c.field] else [] := by
  have hbefore : ∀ p ∈ cs.zipIdx,
      ((cs ++ [c]).take p.2).any (·.field = p.1.field) =
        (cs.take p.2).any (·.field = p.1.field) := by
    intro p hp
    have hlt : p.2 < cs.length := by simpa using (List.mem_zipIdx hp).2.1
    rw [List.take_append_of_le_length hlt.le]
  rw [replacements, List.zipIdx_append, List.filter_append, List.map_append,
    List.filter_congr hbefore]
  congr 1
  by_cases h : cs.any (·.field = c.field) = true <;> simp [h]

/-- What a filter and the warnings hold after clauses. -/
structure Merges (cs : List Clause) (f : Filter) (warned : List String) : Prop where
  /-- The fields stand in order, each once. -/
  ascending : f.clauses.Ascending
  /-- They are the fields of the clauses. -/
  fields : ∀ field, field ∈ f.clauses.names ↔ ∃ c ∈ cs, c.field = field
  /-- Under a field stands the last clause on it. -/
  last : ∀ field, f.get? field = ((cs.filter (·.field = field)).getLast?).map Clause.value
  /-- Each clause on a field that an earlier clause is on has its warning. -/
  warns : warned = replacements cs
  /-- A clause adds a field or a warning. -/
  counts : f.size + warned.length = cs.length

theorem Merges.empty : Merges [] {} [] where
  ascending := .nil
  fields := by simp [Members.names]
  last _ := rfl
  warns := rfl
  counts := rfl

/-- **A push.** The clause that is pushed is the last on its field, and is warned of when there was
one on it before. -/
theorem Merges.push (h : Merges cs f warned) (c : Clause) :
    ∃ next warning, f.push c.expression = .ok (next, warning) ∧
      Merges (cs ++ [c]) next (warned ++ warning.toList) := by
  have hhas : f.clauses.has c.field = cs.any (·.field = c.field) := by
    rw [Bool.eq_iff_iff, Members.has_iff, h.fields]
    simp
  refine ⟨_, _, push_clause f c, ?_, ?_, ?_, ?_, ?_⟩
  · exact h.ascending.put _ _
  · intro field
    rw [Members.mem_names_put, h.fields]
    simp only [List.mem_append, List.mem_singleton, or_and_right, exists_or, exists_eq_left]
    rw [or_comm, eq_comm]
  · intro field
    rw [List.filter_append]
    by_cases hfield : c.field = field
    · subst hfield
      simp [Filter.get?]
    · have hget : f.clauses.get? field = _ := h.last field
      simp [Filter.get?, Members.get?_put_of_ne hfield, hfield, hget]
  · rw [replacements_concat, h.warns, hhas]
    split <;> rfl
  · rw [List.length_append, List.length_append, List.length_singleton, ← h.counts, Filter.size,
      h.ascending.length_put, Filter.size]
    split <;> simp <;> omega

/-- **A run of pushes.** -/
theorem Merges.pushAll (h : Merges before f warned) (cs : List Clause) :
    ∃ next warned', f.pushAll (cs.map Clause.expression) = (.ok next, warned') ∧
      Merges (before ++ cs) next (warned ++ warned') := by
  induction cs generalizing before f warned with
  | nil => exact ⟨f, [], rfl, by simpa using h⟩
  | cons c cs ih =>
    obtain ⟨f₁, warning, hpush, h₁⟩ := h.push c
    obtain ⟨f₂, warned₂, hrun, h₂⟩ := ih h₁
    refine ⟨f₂, warning.toList ++ warned₂, ?_, by simpa using h₂⟩
    rw [List.map_cons, Filter.pushAll, hpush]
    simp only [hrun]

theorem pushAll_fault {e : String} {err : Error} (hfault : Comparison.parse e = .error err)
    (f : Filter) (cs : List Clause) (after : List String) :
    (f.pushAll (cs.map Clause.expression ++ e :: after)).1 = .error err := by
  induction cs generalizing f with
  | nil => rw [List.map_nil, List.nil_append, Filter.pushAll, push_fault hfault]
  | cons c cs ih =>
    rw [List.map_cons, List.cons_append, Filter.pushAll, push_clause]
    exact ih _

/-! ## Compiling -/

theorem compile_clauses (cs : List Clause) :
    ∃ f, compile (cs.map Clause.expression) = .ok f ∧
      Merges cs f (warnings (cs.map Clause.expression)) := by
  obtain ⟨f, warned, hrun, h⟩ := Merges.empty.pushAll cs
  refine ⟨f, ?_, ?_⟩
  · rw [compile, hrun]
  · rw [warnings, hrun]
    exact h

theorem compile_fault {e : String} {err : Error} (hfault : Comparison.parse e = .error err)
    (cs : List Clause) (after : List String) :
    compile (cs.map Clause.expression ++ e :: after) = .error err :=
  pushAll_fault hfault {} cs after

/-- Expressions are compiled to a filter when all are comparisons. -/
theorem compile_eq_ok_iff :
    (∃ f, compile es = .ok f) ↔ ∀ e ∈ es, ∃ c, Comparison.parse e = .ok c := by
  rw [← exists_clauses_iff]
  constructor
  · rintro ⟨f, hf⟩
    obtain h | ⟨cs, e, after, err, rfl, hfault⟩ := clauses_or_fault es
    · exact h
    · rw [compile_fault hfault] at hf
      cases hf
  · rintro ⟨cs, rfl⟩
    obtain ⟨f, hf, -⟩ := compile_clauses cs
    exact ⟨f, hf⟩

/-- Otherwise the first that is none says what is wrong. -/
theorem compile_eq_error_iff {err : Error} :
    compile es = .error err ↔
      ∃ before e after, es = before ++ e :: after ∧
        (∀ b ∈ before, ∃ c, Comparison.parse b = .ok c) ∧ Comparison.parse e = .error err := by
  constructor
  · intro h
    obtain ⟨cs, rfl⟩ | ⟨cs, e, after, err', rfl, hfault⟩ := clauses_or_fault es
    · obtain ⟨f, hf, -⟩ := compile_clauses cs
      rw [hf] at h
      cases h
    · rw [compile_fault hfault] at h
      cases h
      exact ⟨_, e, after, rfl, exists_clauses_iff.1 ⟨cs, rfl⟩, hfault⟩
  · rintro ⟨before, e, after, rfl, hbefore, hfault⟩
    obtain ⟨cs, rfl⟩ := exists_clauses_iff.2 hbefore
    exact compile_fault hfault cs after

/-- The error names it. -/
theorem compile_eq_error {err : Error} (h : compile es = .error err) :
    ∃ e ∈ es, ∃ reason, err = .compile e reason := by
  obtain ⟨before, e, after, rfl, -, hfault⟩ := compile_eq_error_iff.1 h
  unfold Comparison.parse at hfault
  split at hfault <;> cases hfault
  exact ⟨e, by simp, _, rfl⟩

theorem Merges.isEmpty_iff (h : Merges cs f warned) : f.isEmpty = true ↔ cs = [] := by
  rw [Filter.isEmpty, List.isEmpty_iff]
  constructor
  · intro hnone
    rw [List.eq_nil_iff_forall_not_mem]
    intro c hc
    have hmem := (h.fields c.field).2 ⟨c, hc, rfl⟩
    rw [hnone] at hmem
    cases hmem
  · rintro rfl
    rw [List.eq_nil_iff_forall_not_mem]
    intro entry hentry
    obtain ⟨c, hc, -⟩ := (h.fields entry.1).1 (List.mem_map_of_mem hentry)
    cases hc

/-- Only the order of the clauses that share a field matters. -/
theorem Merges.eq_of_filter {cs' : List Clause} {f' : Filter} {warned' : List String}
    (h : Merges cs f warned) (h' : Merges cs' f' warned')
    (horder : ∀ field, cs'.filter (·.field = field) = cs.filter (·.field = field)) : f' = f := by
  obtain ⟨clauses⟩ := f
  obtain ⟨clauses'⟩ := f'
  congr 1
  refine h'.ascending.ext h.ascending fun field => ?_
  exact (h'.last field).trans (by rw [horder, ← h.last field]; rfl)

/-- **Compiling is a merge in which the last clause on a field wins.** A push that fails leaves the
filter that it was made on. Expressions are compiled exactly when each is a comparison, and
otherwise the error is that of the first that is none. The filter then holds under the fields of the
clauses, and under no others, the last clause on each; a warning was given for each clause that
came after another on its field; no clause is lost from the count; and every permutation of the
clauses that keeps those on one field in their order, which is to say has the same clauses on each
field, gives the same filter with the same text. -/
theorem compile_lastWins (es : List String) :
    (∀ (f : Filter) (e : String) (err : Error), Comparison.parse e = .error err →
      (pushInPlace e).run f = (.error err, f)) ∧
    ((∃ f, compile es = .ok f) ↔ ∀ e ∈ es, ∃ c, Comparison.parse e = .ok c) ∧
    (∀ err, compile es = .error err ↔
      ∃ before e after, es = before ++ e :: after ∧
        (∀ b ∈ before, ∃ c, Comparison.parse b = .ok c) ∧ Comparison.parse e = .error err) ∧
    ∀ f, compile es = .ok f →
      ∃ cs : List Clause, es = cs.map Clause.expression ∧ Merges cs f (warnings es) ∧
        (f.isEmpty = true ↔ es = []) ∧
        ∀ cs' : List Clause,
          (∀ field, cs'.filter (·.field = field) = cs.filter (·.field = field)) →
          ∃ f', compile (cs'.map Clause.expression) = .ok f' ∧ f' = f ∧ f'.text = f.text := by
  refine ⟨fun f e err hfault => pushInPlace_fault hfault f, compile_eq_ok_iff,
    fun err => compile_eq_error_iff, ?_⟩
  intro f hf
  obtain ⟨cs, rfl⟩ := exists_clauses_iff.2 (compile_eq_ok_iff.1 ⟨f, hf⟩)
  obtain ⟨f', hf', h⟩ := compile_clauses cs
  obtain rfl : f' = f := by
    rw [hf'] at hf
    cases hf
    rfl
  refine ⟨cs, rfl, h, ?_, fun cs' horder => ?_⟩
  · rw [h.isEmpty_iff, List.map_eq_nil_iff]
  · obtain ⟨f'', hf'', h'⟩ := compile_clauses cs'
    obtain rfl := h.eq_of_filter h' horder
    exact ⟨_, hf'', rfl, rfl⟩

example :
    (compile ["user.name == 'bob'", "price > 10", "user.age > 30"]).toOption.map text =
        some "\x7b\"price\":\x7b\"_gt\":10\x7d,\"user\":\x7b\"age\":\x7b\"_gt\":30\x7d\x7d\x7d" ∧
      warnings ["user.name == 'bob'", "price > 10", "user.age > 30"] =
        ["filter clause 'user.age > 30' replaces an earlier clause on 'user'"] := by
  decide +kernel

end ItemClient.Filter
