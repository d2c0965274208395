import ItemClient.Proofs.Http.Path
import ItemClient.Proofs.Session.Reading

/-!
# Selectors, and queries built call by call

**Selectors** (`IsSelector`). What a text lists are selectors: they are not empty, and have neither
commas nor spaces. A comma between two texts is as good as giving them one after the other
(`splitSelectors_append`), and a list of selectors comes back from its own text
(`splitSelectors_intercalate`). Nothing is listed just where there are only commas and spaces.

**Calls** (`Call`). A query is built by calls of five kinds. Each kind has a part of the query to
itself, so a query is known by what the calls of each kind left there (`calls_eq`): calls of
different kinds may change places, and calls of one kind may not.

Main result: `Query.normalises`.
-/

namespace ItemClient

/-! ## Pieces of a text -/

namespace Text

variable {separator : Char} {cs piece : List Char}

theorem split_append_cons (separator : Char) (as bs : List Char) :
    split separator (as ++ separator :: bs) = split separator as ++ split separator bs := by
  induction as with
  | nil =>
    obtain ⟨piece, pieces, hbs⟩ := split_eq_cons separator bs
    simp [split, hbs]
  | cons c as ih =>
    obtain ⟨piece, pieces, has⟩ := split_eq_cons separator as
    rw [List.cons_append, split, ih, has, List.cons_append, split, has]
    by_cases hc : c = separator <;> simp [hc]

theorem split_of_notMem (h : separator ∉ cs) : split separator cs = [cs] := by
  have hnil : split separator [] = [[]] := rfl
  simpa using split_append h hnil

theorem mem_of_mem_split {c : Char} (hpiece : piece ∈ split separator cs) (hc : c ∈ piece) :
    c ∈ cs := by
  induction cs generalizing piece with
  | nil =>
    rw [split, List.mem_singleton] at hpiece
    exact hpiece ▸ hc
  | cons d cs ih =>
    obtain ⟨first, others, heq⟩ := split_eq_cons separator cs
    rw [heq] at ih
    simp only [split, heq] at hpiece
    by_cases hd : d = separator
    · rw [if_pos hd] at hpiece
      rcases List.mem_cons.1 hpiece with rfl | hpiece
      · cases hc
      · exact List.mem_cons_of_mem _ (ih hpiece hc)
    · rw [if_neg hd] at hpiece
      rcases List.mem_cons.1 hpiece with rfl | hpiece
      · rcases List.mem_cons.1 hc with rfl | hc
        · exact List.mem_cons_self
        · exact List.mem_cons_of_mem _ (ih List.mem_cons_self hc)
      · exact List.mem_cons_of_mem _ (ih (List.mem_cons_of_mem _ hpiece) hc)

/-- All pieces are empty just where there are only separators. -/
theorem forall_split_eq_nil_iff :
    (∀ piece ∈ split separator cs, piece = []) ↔ ∀ c ∈ cs, c = separator := by
  induction cs with
  | nil => simp [split]
  | cons c cs ih =>
    obtain ⟨first, others, heq⟩ := split_eq_cons separator cs
    rw [heq] at ih
    by_cases hc : c = separator
    · simpa [split, heq, hc] using ih
    · simp [split, heq, hc]

end Text

namespace Query

/-! ## Selectors -/

/-- A text that names one field or relation. -/
def IsSelector (s : String) : Prop := s ≠ "" ∧ ',' ∉ s.toList ∧ ' ' ∉ s.toList

theorem isSelector_of_mem {text s : String} (h : s ∈ splitSelectors text) : IsSelector s := by
  simp only [splitSelectors, List.mem_map, List.mem_filter, decide_eq_true_eq] at h
  obtain ⟨piece, ⟨hpiece, hne⟩, rfl⟩ := h
  refine ⟨?_, ?_, ?_⟩
  · simpa [← String.toList_inj] using hne
  · rw [String.toList_ofList]
    exact Text.separator_not_mem_of_mem_split hpiece
  · rw [String.toList_ofList]
    intro hspace
    simpa using Text.mem_of_mem_split hpiece hspace

theorem splitSelectors_append (a b : String) :
    splitSelectors (a ++ "," ++ b) = splitSelectors a ++ splitSelectors b := by
  have hcomma : ",".toList = [','] := rfl
  simp [splitSelectors, String.toList_append, hcomma, Text.split_append_cons]

theorem splitSelectors_of_isSelector {s : String} (h : IsSelector s) : splitSelectors s = [s] := by
  obtain ⟨hne, hcomma, hspace⟩ := h
  have hkept : s.toList.filter (· ≠ ' ') = s.toList := by
    rw [List.filter_eq_self]
    intro c hc
    have hother : c ≠ ' ' := fun heq => hspace (heq ▸ hc)
    simpa using hother
  have hpiece : s.toList ≠ [] := by simpa using hne
  rw [splitSelectors, hkept, Text.split_of_notMem hcomma]
  simp [hpiece]

/-- **Selectors come back from their text.** -/
theorem splitSelectors_intercalate {selectors : List String} (h : ∀ s ∈ selectors, IsSelector s) :
    splitSelectors (",".intercalate selectors) = selectors := by
  induction selectors with
  | nil => decide
  | cons s rest ih =>
    have hs := splitSelectors_of_isSelector (h s List.mem_cons_self)
    have hrest := ih fun t ht => h t (List.mem_cons_of_mem _ ht)
    cases rest with
    | nil => rw [String.intercalate_singleton, hs]
    | cons t rest => rw [String.intercalate_cons_cons, splitSelectors_append, hs, hrest]; rfl

theorem splitSelectors_eq_nil_iff {text : String} :
    splitSelectors text = [] ↔ ∀ c ∈ text.toList, c = ',' ∨ c = ' ' := by
  have hkept : (∀ c ∈ text.toList.filter (· ≠ ' '), c = ',') ↔
      ∀ c ∈ text.toList, c = ',' ∨ c = ' ' := by
    simp only [List.mem_filter, decide_eq_true_eq, and_imp]
    exact forall₂_congr fun c _ => (or_comm.trans Classical.or_iff_not_imp_left).symm
  rw [← hkept, ← Text.forall_split_eq_nil_iff, splitSelectors, List.map_eq_nil_iff,
    List.filter_eq_nil_iff]
  simp

/-! ## Calls -/

/-- A call that adds to a query. -/
inductive Call where
  | filter (expression : String)
  | includeFields (text : String)
  | withHeader (name value : String)
  | withLimit (limit : Nat)
  | withTimeout (timeout : Nat)

/-- The kinds of calls. -/
inductive Call.Kind where
  | filter
  | includeFields
  | withHeader
  | withLimit
  | withTimeout
  deriving DecidableEq

namespace Call

/-- The kind of a call. -/
def kind : Call → Kind
  | filter _ => .filter
  | includeFields _ => .includeFields
  | withHeader _ _ => .withHeader
  | withLimit _ => .withLimit
  | withTimeout _ => .withTimeout

/-- The comparison that a call adds. -/
def expression? : Call → Option String
  | filter expression => some expression
  | _ => none

/-- The text that a call lists selectors with. -/
def text? : Call → Option String
  | includeFields text => some text
  | _ => none

/-- The header that a call adds. -/
def header? : Call → Option (String × String)
  | withHeader name value => some (name, value)
  | _ => none

/-- The limit that a call sets. -/
def limit? : Call → Option Nat
  | withLimit limit => some limit
  | _ => none

/-- The timeout that a call sets. -/
def timeout? : Call → Option Nat
  | withTimeout timeout => some timeout
  | _ => none

end Call

/-- Make a call. -/
def call (q : Query) : Call → Query
  | .filter expression => q.filter expression
  | .includeFields text => q.includeFields text
  | .withHeader name value => q.withHeader name value
  | .withLimit limit => q.withLimit limit
  | .withTimeout timeout => q.withTimeout timeout

/-- Make calls one after the other. -/
def calls (q : Query) (cs : List Call) : Query := cs.foldl call q

section Calls

variable {q : Query} {cs ds : List Call}

theorem or_getLast?_cons {α : Type} (a : α) (as : List α) (o : Option α) :
    (a :: as).getLast?.or o = as.getLast?.or (some a) := by
  cases as with
  | nil => rfl
  | cons b bs => rw [List.getLast?_cons_cons, List.getLast?_cons]; rfl

/-- **What calls make of a query**: comparisons, selectors and headers are added in order, and of
limits and timeouts the last one counts. -/
theorem calls_eq (q : Query) (cs : List Call) : q.calls cs =
    { collection := q.collection
      expressions := q.expressions ++ cs.filterMap Call.expression?
      selectors := q.selectors ++ (cs.filterMap Call.text?).flatMap splitSelectors
      headers := q.headers ++ cs.filterMap Call.header?
      limit := (cs.filterMap Call.limit?).getLast?.or q.limit
      timeout := (cs.filterMap Call.timeout?).getLast?.or q.timeout } := by
  induction cs generalizing q with
  | nil => simp [calls]
  | cons c cs ih =>
    have hstep : q.calls (c :: cs) = (q.call c).calls cs := rfl
    rw [hstep, ih]
    cases c <;> simp [call, Query.filter, Query.includeFields, Query.withHeader, Query.withLimit,
      Query.withTimeout, List.filterMap_cons, Call.expression?, Call.text?, Call.header?,
      Call.limit?, Call.timeout?, or_getLast?_cons]

/-- What a kind of calls leaves can be read off the calls of that kind. -/
theorem filterMap_of_kind {α : Type} {f : Call → Option α} {k : Call.Kind}
    (h : ∀ c : Call, c.kind ≠ k → f c = none) (cs : List Call) :
    (cs.filter (·.kind = k)).filterMap f = cs.filterMap f := by
  rw [List.filterMap_filter]
  congr 1
  funext c
  by_cases hc : c.kind = k
  · simp [hc]
  · simp [hc, h c hc]

/-- **Calls of different kinds may change places**: only the order within each kind counts. -/
theorem calls_congr (q : Query)
    (h : ∀ k : Call.Kind, cs.filter (·.kind = k) = ds.filter (·.kind = k)) :
    q.calls cs = q.calls ds := by
  have hsame : ∀ {α : Type} {f : Call → Option α} (k : Call.Kind),
      (∀ c : Call, c.kind ≠ k → f c = none) → cs.filterMap f = ds.filterMap f := by
    intro α f k hf
    rw [← filterMap_of_kind hf cs, ← filterMap_of_kind hf ds, h k]
  rw [calls_eq, calls_eq, hsame .filter fun c => ?_, hsame .includeFields fun c => ?_,
    hsame .withHeader fun c => ?_, hsame .withLimit fun c => ?_, hsame .withTimeout fun c => ?_]
  -- A call of another kind leaves nothing here.
  all_goals
    intro hother
    cases c <;> first | rfl | exact absurd rfl hother

theorem mem_text?_iff {text : String} :
    text ∈ cs.filterMap Call.text? ↔ Call.includeFields text ∈ cs := by
  rw [List.mem_filterMap]
  constructor
  · rintro ⟨c, hc, htext⟩
    cases c <;> cases htext
    exact hc
  · intro h
    exact ⟨_, h, rfl⟩

end Calls

/-! ## What is sent -/

/-- The values of a query parameter of a request. -/
def sentUnder (key : String) (r : Request) : List String :=
  (r.query.filter (·.1 = key)).map Prod.snd

theorem fields_of_params {q : Query} {p : ReadParams} (h : q.params = .ok p) :
    p.fields = fieldsText? q.selectors := by
  obtain ⟨f, -, hf⟩ := Result.bind_eq_ok.1 h
  cases hf
  rfl

/-- A query has requests when its comparisons compile. -/
theorem exists_request_iff {q : Query} {read : Read} (hread : read = .all q ∨ read = .first q) :
    (∃ r, read.request = .ok r) ↔ ∃ f, Filter.compile q.expressions = .ok f := by
  have hparams : (∃ p, q.params = .ok p) ↔ ∃ f, Filter.compile q.expressions = .ok f := by
    simp only [params, Result.bind_eq_ok, Result.pure_eq_ok]
    exact ⟨fun ⟨_, f, hf, _⟩ => ⟨f, hf⟩, fun ⟨f, hf⟩ => ⟨_, f, hf, rfl⟩⟩
  rw [← hparams]
  rcases hread with rfl | rfl <;> simp [Read.request, Result.map_eq_ok]

theorem sentUnder_fields (c : Collection) (p : ReadParams) :
    sentUnder "fields" (c.rowsRequest p) = p.fields.toList := by
  cases hfilter : p.filter <;> cases hfields : p.fields <;> cases hlimit : p.limit <;>
    simp [sentUnder, Collection.rowsRequest, ReadParams.apply, ReadParams.query, Request.rows,
      hfilter, hfields, hlimit]

/-- The selectors of a query are sent with commas between them, if there are any. -/
theorem fields_of_request {q : Query} {read : Read} {r : Request}
    (hread : read = .all q ∨ read = .first q) (hr : read.request = .ok r) :
    sentUnder "fields" r = (fieldsText? q.selectors).toList := by
  rcases hread with rfl | rfl
  all_goals
    obtain ⟨p, hp, rfl⟩ := Result.map_eq_ok.1 hr
    rw [sentUnder_fields, ← fields_of_params hp]

/-- What is known of a query that is built by calls, `c` being its collection. -/
structure Normalises (c : Collection) (cs : List Call) : Prop where
  /-- Its selectors are not empty, and have neither commas nor spaces. -/
  clean : ∀ s ∈ (Query.calls { collection := c } cs).selectors, IsSelector s
  /-- Texts may be given one after the other, or as one with a comma between them. -/
  joined : ∀ (q : Query) (a b : String),
    (q.includeFields a).includeFields b = q.includeFields (a ++ "," ++ b)
  /-- It has requests when its comparisons compile. -/
  built : ∀ read, read = .all (Query.calls { collection := c } cs) ∨
      read = .first (Query.calls { collection := c } cs) →
    ((∃ r, Read.request read = .ok r) ↔
      ∃ f, Filter.compile (cs.filterMap Call.expression?) = .ok f)
  /-- A request lists the selectors once, if there are any. From what it lists any other query has
  the same selectors. -/
  reread : ∀ read r, read = .all (Query.calls { collection := c } cs) ∨
      read = .first (Query.calls { collection := c } cs) → Read.request read = .ok r →
    (sentUnder "fields" r).length ≤ 1 ∧ ∀ text ∈ sentUnder "fields" r, ∀ other : Collection,
      (Query.includeFields { collection := other } text).selectors =
        (Query.calls { collection := c } cs).selectors
  /-- It lists none just when only commas and spaces were given. -/
  absent : ∀ read r, read = .all (Query.calls { collection := c } cs) ∨
      read = .first (Query.calls { collection := c } cs) → Read.request read = .ok r →
    (sentUnder "fields" r = [] ↔
      ∀ text, .includeFields text ∈ cs → ∀ ch ∈ text.toList, ch = ',' ∨ ch = ' ')
  /-- Two calls of different kinds may change places, … -/
  swaps : ∀ (q : Query) (a b : Call), a.kind ≠ b.kind → (q.call a).call b = (q.call b).call a
  /-- … so the query and its requests depend on the calls of each kind only. -/
  kinds : ∀ ds : List Call,
    (∀ k : Call.Kind, cs.filter (·.kind = k) = ds.filter (·.kind = k)) →
      Query.calls { collection := c } cs = Query.calls { collection := c } ds

theorem selectors_calls (c : Collection) (cs : List Call) :
    (Query.calls { collection := c } cs).selectors =
      (cs.filterMap Call.text?).flatMap splitSelectors := by
  rw [calls_eq]
  rfl

/-- **Selectors are normalised, and calls of different kinds are independent.** -/
theorem normalises (c : Collection) (cs : List Call) : Normalises c cs := by
  have hclean : ∀ s ∈ (Query.calls { collection := c } cs).selectors, IsSelector s := by
    intro s hs
    rw [selectors_calls, List.mem_flatMap] at hs
    obtain ⟨text, -, hs⟩ := hs
    exact isSelector_of_mem hs
  constructor
  case clean => exact hclean
  case built =>
    intro read hread
    rw [exists_request_iff hread, calls_eq]
    rfl
  case joined =>
    intro q a b
    simp [Query.includeFields, splitSelectors_append]
  case reread =>
    intro read r hread hr
    rw [fields_of_request hread hr]
    refine ⟨Option.length_toList_le, fun text htext other => ?_⟩
    have hfields := Option.mem_toList.1 htext
    unfold fieldsText? at hfields
    split at hfields <;> cases hfields
    exact splitSelectors_intercalate hclean
  case absent =>
    intro read r hread hr
    rw [fields_of_request hread hr, Option.toList_eq_nil_iff, fieldsText?, ite_eq_left_iff]
    have hnone : (Query.calls { collection := c } cs).selectors = [] ↔
        ∀ text, .includeFields text ∈ cs → ∀ ch ∈ text.toList, ch = ',' ∨ ch = ' ' := by
      rw [selectors_calls, List.flatMap_eq_nil_iff]
      exact forall_congr' fun text => by rw [mem_text?_iff, splitSelectors_eq_nil_iff]
    simpa using hnone
  case swaps =>
    intro q a b hab
    show q.calls [a, b] = q.calls [b, a]
    apply calls_congr
    intro k
    by_cases ha : a.kind = k
    · have hb : b.kind ≠ k := fun hb => hab (ha.trans hb.symm)
      simp [ha, hb]
    · by_cases hb : b.kind = k <;> simp [ha, hb]
  case kinds => exact fun ds => calls_congr _

end Query

end ItemClient
