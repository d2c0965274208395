import ItemClient.Proofs.Filter.Merge
import ItemClient.Proofs.Filter.Numerals
import ItemClient.Proofs.Json.Text

/-!
# A clause says which comparison it is

A comparison is folded to a chain of objects with one member each, from the first name of its path
down to its operator, with the value at the end (`chain_fold`). A value that is no object shows
where a chain ends, so the names of the chain and the value are read off it again; the last name is
the operator, whatever the names before it are (`Comparison.ofClause?_fold`).

The text of a chain determines it as well. The braces around it fall away, then its first name with
the colon, and what is left is the text of the rest. At the end stands a string or a number, which
the first character tells apart from each other and from a brace. The text of a string determines it
as strings are read back, that of a number as numbers are their own literals.

Main result: `fold_determines`.
-/

namespace ItemClient.Filter

open Grammar

variable {names names' : List String} {value value' inner inner' j : Json} {text text' : List Char}
  {c c' : Comparison} {e : String}

/-! ## Chains -/

/-- Objects with one member each, one in the other: their names from the top, and what the last of
them holds. -/
inductive Chain : List String → Json → Json → Prop
  | nil (value : Json) : Chain [] value value
  | cons (name : String) {names : List String} {value inner : Json} :
      Chain names value inner → Chain (name :: names) value (.object [(name, inner)])

theorem Chain.nest (h : Chain names value inner) (above : List String) :
    Chain (above ++ names) value (nest above inner) := by
  induction above with
  | nil => exact h
  | cons name above ih => exact .cons name ih

/-- **A comparison is folded to a chain**: its path from the top, its operator and its value. -/
theorem chain_fold (hpath : c.path ≠ []) :
    Chain (c.path ++ [c.op.operator]) c.value (.object [fold c]) := by
  obtain ⟨path, op, value⟩ := c
  obtain ⟨field, below, rfl⟩ := List.exists_cons_of_ne_nil hpath
  exact .cons field ((Chain.cons op.operator (.nil value)).nest below)

/-! ## Reading a clause -/

/-- The names of a chain and what stands at its end. -/
def unchain : Json → List String × Json
  | .object [(name, inner)] =>
      let (names, value) := unchain inner
      (name :: names, value)
  | value => ([], value)

/-- The operator of a name of the remote store. -/
def CompareOp.ofOperator? (name : String) : Option CompareOp :=
  [eq, notEq, lt, ltEq, gt, gtEq].find? (·.operator = name)

/-- The comparison that a clause under a field says. The last name is its operator. -/
def Comparison.ofClause? (clause : String × Json) : Option Comparison :=
  let (names, value) := unchain (.object [clause])
  (names.getLast?.bind CompareOp.ofOperator?).map fun op => { path := names.dropLast, op, value }

theorem CompareOp.ofOperator?_operator (op : CompareOp) : ofOperator? op.operator = some op := by
  cases op <;> decide

theorem CompareOp.operator_inj {op op' : CompareOp} (h : op.operator = op'.operator) : op = op' := by
  have hop := ofOperator?_operator op
  rw [h, ofOperator?_operator] at hop
  exact (Option.some.inj hop).symm

/-- **A chain is known by its end**, which is no object. -/
theorem Chain.unchain_eq (h : Chain names value j) (hvalue : value.isObject = false) :
    unchain j = (names, value) := by
  induction h with
  | nil value =>
    rw [unchain]
    rintro name inner rfl
    cases hvalue
  | cons name _ ih => rw [unchain, ih hvalue]

theorem Comparison.ofClause?_fold (hpath : c.path ≠ []) (hvalue : c.value.isObject = false) :
    Comparison.ofClause? (fold c) = some c := by
  simp only [Comparison.ofClause?, (chain_fold hpath).unchain_eq hvalue, List.getLast?_concat,
    List.dropLast_concat, Option.bind_some, CompareOp.ofOperator?_operator, Option.map_some]

/-! ## The text of a value -/

/-- A literal is a string or a number. -/
theorem Grammar.Literal.scalar (h : Literal text value) :
    (∃ s, value = .string s) ∨ ∃ n, value = .number n := by
  cases h with
  | string => exact .inl ⟨_, rfl⟩
  | placeholder => exact .inl ⟨_, rfl⟩
  | floating => exact .inr ⟨_, rfl⟩
  | integer _ hrange =>
    exact .inr ⟨_, Json.ofInt_of_inRange ⟨by omega, by omega⟩⟩

theorem Grammar.Literal.isObject (h : Literal text value) : value.isObject = false := by
  obtain ⟨s, rfl⟩ | ⟨n, rfl⟩ := h.scalar <;> rfl

theorem write_number_ne {n : Json.Number} {first : Char} {rest : List Char}
    (hfirst : Text.isNumeral first = false) : (Json.number n).write ≠ first :: rest := by
  intro h
  rw [Json.write] at h
  have hmem := Json.Number.isNumeral_write n first (h ▸ List.mem_cons_self)
  rw [hfirst] at hmem
  cases hmem

/-- **The text of the value of a literal determines it.** -/
theorem Grammar.Literal.write_inj (h : Literal text value) (h' : Literal text' value')
    (heq : value.write = value'.write) : value = value' := by
  obtain ⟨s, rfl⟩ | ⟨n, rfl⟩ := h.scalar <;> obtain ⟨s', rfl⟩ | ⟨n', rfl⟩ := h'.scalar
  · have hstrings : Json.writeString s ++ [] = Json.writeString s' ++ [] := by
      simpa [Json.write] using heq
    rw [(Json.writeString_append_inj hstrings).1]
  · exact absurd heq.symm (write_number_ne rfl)
  · exact absurd heq (write_number_ne rfl)
  · have hnumeral : Literal n'.write (.number n) := by
      have hwrite : n.write = n'.write := by simpa [Json.write] using heq
      exact hwrite ▸ h.numeral
    exact hnumeral.value_unique h'.numeral

/-- It has no brace in front, as the text of an object has. -/
theorem Grammar.Literal.write_ne_object (h : Literal text value) (name : String) (inner : Json) :
    value.write ≠ (Json.object [(name, inner)]).write := by
  obtain ⟨s, rfl⟩ | ⟨n, rfl⟩ := h.scalar
  · simp [Json.write, Json.writeString]
  · exact write_number_ne rfl

/-! ## The text of a chain -/

/-- One object of a chain: its name and the text of what it holds. -/
theorem write_object_inj {name name' : String}
    (h : (Json.object [(name, inner)]).write = (Json.object [(name', inner')]).write) :
    name = name' ∧ inner.write = inner'.write := by
  have hbody : Json.writeString name ++ (':' :: inner.write ++ ['\x7d']) =
      Json.writeString name' ++ (':' :: inner'.write ++ ['\x7d']) := by
    simpa [Json.write, Json.writeMembers] using h
  obtain ⟨rfl, hrest⟩ := Json.writeString_append_inj hbody
  exact ⟨rfl, (List.cons.inj (List.append_cancel_right hrest)).2⟩

/-- **The text of a chain determines its names and the value at its end**, by induction on the
chain, one object of each at a time. -/
theorem Chain.eq_of_write {j' : Json} (h : Chain names value j) (h' : Chain names' value' j')
    (hvalue : Literal text value) (hvalue' : Literal text' value') (heq : j.write = j'.write) :
    names = names' ∧ value = value' := by
  induction h generalizing names' j' with
  | nil value =>
    cases h' with
    | nil => exact ⟨rfl, hvalue.write_inj hvalue' heq⟩
    | cons name => exact absurd heq (hvalue.write_ne_object name _)
  | cons name _ ih =>
    cases h' with
    | nil => exact absurd heq.symm (hvalue'.write_ne_object name _)
    | cons name' h' =>
      obtain ⟨rfl, hinner⟩ := write_object_inj heq
      obtain ⟨rfl, hend⟩ := ih h' hvalue hinner
      exact ⟨rfl, hend⟩

/-! ## Compiled clauses -/

theorem exists_literal_of_parse (h : Comparison.parse e = .ok c) :
    ∃ text, Literal text c.value := by
  have hexpression := (Comparison.parse_eq_ok_iff e c).1 h
  generalize e.toList = cs at hexpression
  cases hexpression with
  | mk _ _ _ _ hliteral => exact ⟨_, hliteral⟩

theorem compile_singleton (h : Comparison.parse e = .ok c) :
    compile [e] = .ok { clauses := [fold c] } := by
  rw [compile, pushAll, Filter.push, pushInPlace, h]
  rfl

/-- **The folded filter determines the clause.** A comparison with a path and a value that is no
object is folded to the chain of its path, its operator and its value, and is read off it again. So
is every comparison that is parsed; its expression compiles to the filter that is this chain, and
another expression compiles to a filter with the same text only if it is the same comparison. -/
theorem fold_determines :
    (∀ c : Comparison, c.path ≠ [] → c.value.isObject = false →
      Chain (c.path ++ [c.op.operator]) c.value (.object [fold c]) ∧
        Comparison.ofClause? (fold c) = some c) ∧
    (∀ (e : String) (c : Comparison), Comparison.parse e = .ok c →
      Comparison.ofClause? (fold c) = some c ∧
        ∃ f, compile [e] = .ok f ∧ f.toJson = .object [fold c]) ∧
    ∀ (e e' : String) (c c' : Comparison) (f f' : Filter),
      Comparison.parse e = .ok c → Comparison.parse e' = .ok c' →
      compile [e] = .ok f → compile [e'] = .ok f' → f.text = f'.text → c = c' := by
  refine ⟨fun c hpath hvalue => ⟨chain_fold hpath, Comparison.ofClause?_fold hpath hvalue⟩,
    fun e c hparse => ?_, fun e e' c c' f f' hparse hparse' hf hf' htext => ?_⟩
  · obtain ⟨text, hliteral⟩ := exists_literal_of_parse hparse
    exact ⟨Comparison.ofClause?_fold (Comparison.path_ne_nil hparse) hliteral.isObject, _,
      compile_singleton hparse, rfl⟩
  · obtain ⟨text, hliteral⟩ := exists_literal_of_parse hparse
    obtain ⟨text', hliteral'⟩ := exists_literal_of_parse hparse'
    rw [compile_singleton hparse] at hf
    rw [compile_singleton hparse'] at hf'
    cases hf
    cases hf'
    have hwrite := String.ofList_injective htext
    obtain ⟨hnames, hvalue⟩ := (chain_fold (Comparison.path_ne_nil hparse)).eq_of_write
      (chain_fold (Comparison.path_ne_nil hparse')) hliteral hliteral' hwrite
    obtain ⟨hpath, hop⟩ := List.append_inj' hnames rfl
    obtain ⟨path, op, value⟩ := c
    obtain rfl : path = c'.path := hpath
    obtain rfl : op = c'.op := CompareOp.operator_inj (List.cons.inj hop).1
    obtain rfl : value = c'.value := hvalue
    rfl

/-- A path of two names that are spelled like an operator, written in two ways. -/
theorem fold_determines_operatorNames :
    ∃ c c' f f', Comparison.parse "_eq._eq == 1" = .ok c ∧
      Comparison.parse "_eq . _eq==01" = .ok c' ∧ compile ["_eq._eq == 1"] = .ok f ∧
      compile ["_eq . _eq==01"] = .ok f' ∧ f.text = f'.text ∧ c = c' ∧
      Chain ["_eq", "_eq", "_eq"] (.ofInt 1) (.object [fold c]) ∧
      Comparison.ofClause? (fold c) = some c := by
  have hparse : Comparison.parse "_eq._eq == 1" =
      .ok { path := ["_eq", "_eq"], op := .eq, value := .ofInt 1 } := by rfl
  have hparse' : Comparison.parse "_eq . _eq==01" =
      .ok { path := ["_eq", "_eq"], op := .eq, value := .ofInt 1 } := by rfl
  obtain ⟨hchain, -⟩ := fold_determines.1 ⟨["_eq", "_eq"], .eq, .ofInt 1⟩ (by decide) rfl
  obtain ⟨hclause, -⟩ := fold_determines.2.1 _ _ hparse
  have hf := compile_singleton hparse
  have hf' := compile_singleton hparse'
  exact ⟨_, _, _, _, hparse, hparse', hf, hf', rfl,
    fold_determines.2.2 _ _ _ _ _ _ hparse hparse' hf hf' rfl, hchain, hclause⟩

/-- An integer, a double and a string that look alike are told apart. -/
example : (["a == 1", "a == 1.0", "a == '1'"].map fun e => (compile [e]).toOption.map (·.text)) =
    [some "\x7b\"a\":\x7b\"_eq\":1\x7d\x7d", some "\x7b\"a\":\x7b\"_eq\":1.0\x7d\x7d",
      some "\x7b\"a\":\x7b\"_eq\":\"1\"\x7d\x7d"] := by
  decide +kernel

end ItemClient.Filter
