import ItemClient.CommandLine.Run
import ItemClient.Models
import ItemClient.Proofs.Http.Unsent
import ItemClient.Proofs.Query.Selectors
import ItemClient.Proofs.Session.FirstRow

/-!
# Listing rows from the command line

The command that lists rows puts its request together on its own. It is the request of the query
with the same comparisons, selectors and limit, whoever makes it: the same method, path, query
parameters in the same order, headers and body (`ListsAlike`). When a comparison does not compile
both fail with the same error, and nothing is sent.

**What a network is asked** (`Network.Asks`). A program asks for a request when what comes of the
program hangs on the answer to it. A program that goes by the answer to one request over an endpoint
asks for what the endpoint makes of this request, and for nothing else (`Endpoint.asks_iff`).

Main result: `CommandLine.lists_alike`.
-/

namespace ItemClient

open Http

/-! ## What a network is asked -/

namespace Http

/-- What comes of a program hangs on the answer to a request. -/
def Network.Asks {α : Type} (program : Network → α) (o : Outgoing) : Prop :=
  ∃ network network' : Network, (∀ other, other ≠ o → network other = network' other) ∧
    program network ≠ program network'

theorem Network.not_asks_of_const {α : Type} {program : Network → α} {a : α}
    (h : ∀ network, program network = a) (o : Outgoing) : ¬Network.Asks program o := by
  rintro ⟨network, network', -, hne⟩
  exact hne ((h network).trans (h network').symm)

/-- **A program that goes by the answer to one request asks for this request only.** -/
theorem Endpoint.asks_iff {α : Type} {e : Endpoint} {r : Request} {program : Network → α}
    {f : Result Response → α} (hprogram : ∀ network, program network = f (e.send network r))
    (hf : ∀ err err', f (.error err) = f (.error err') → err = err') (o : Outgoing) :
    Network.Asks program o ↔
      ∃ built, Outgoing.prepare e r = .ok built ∧ o = built.withDefaults e := by
  constructor
  · rintro ⟨network, network', hsame, hne⟩
    rw [hprogram, hprogram] at hne
    cases hprepare : Outgoing.prepare e r with
    | error reason =>
      simp [send, hprepare] at hne
    | ok built =>
      refine ⟨built, rfl, ?_⟩
      by_contra ho
      apply hne
      simp only [send, hprepare, deliver, hsame _ (Ne.symm ho)]
  · rintro ⟨built, hprepare, rfl⟩
    -- Two networks that fail, one of them in another way where the request is sent.
    classical
    refine ⟨fun _ => .error "", fun other =>
      .error (if other = built.withDefaults e then "?" else ""), fun other hother => ?_, ?_⟩
    · simp [hother]
    · rw [hprogram, hprogram]
      intro heq
      have herr := hf _ _ (by simpa [send, hprepare, deliver, Except.mapError] using heq)
      simp at herr

end Http

/-! ## A query asks for its request -/

section Query

variable {σ : Type} {u : UnitOfWork} {q : Query} {world : World σ} {r : Request}

/-- A gateway with one answer to everything. -/
def Gateway.answering (answer : Result Response) : Gateway σ where
  send _ world := (answer, world)
  handOver _ _ _ world := (answer.map fun _ => (), world)

/-- A query looks at the answer to its request and at no other. -/
theorem UnitOfWork.toList_congr {g g' : Gateway σ} (hr : (Read.all q).request = .ok r)
    (hsend : g.send r world = g'.send r world) : u.toList q g world = u.toList q g' world := by
  obtain ⟨params, hparams, rfl⟩ := Result.map_eq_ok.1 hr
  have hfetch : q.collection.fetchMany g params world = q.collection.fetchMany g' params world := by
    unfold Collection.fetchMany Collection.read
    rw [hsend]
  simp only [toList, hparams, hfetch]

/-- An error in the answer to a query is the outcome of the query. -/
theorem UnitOfWork.toList_answering_error (hr : (Read.all q).request = .ok r) (err : Error) :
    u.toList q (.answering (.error err)) world = u.failed err world := by
  have hrun : (Read.all q).run u (.answering (.error err)) world = _ :=
    Read.run_of_send_error hr rfl
  exact hrun

theorem UnitOfWork.asks_toList_iff {world : World Unit} {e : Endpoint}
    (hr : (Read.all q).request = .ok r) (o : Outgoing) :
    Network.Asks (fun network => u.toList q (e.gateway network) world) o ↔
      ∃ built, Outgoing.prepare e r = .ok built ∧ o = built.withDefaults e := by
  apply Endpoint.asks_iff
  case f => exact fun answer => u.toList q (.answering answer) world
  case hprogram => exact fun network => toList_congr hr rfl
  case hf =>
    intro err err' heq
    rw [toList_answering_error hr, toList_answering_error hr] at heq
    exact Except.error.inj (congrArg Outcome.result heq)

/-- Without a filter a query asks for nothing. -/
theorem UnitOfWork.toList_of_compile_error {g : Gateway σ} {err : Error}
    (h : Filter.compile q.expressions = .error err) : u.toList q g world = u.failed err world := by
  have hparams : q.params = .error err := Result.bind_eq_error.2 (.inl h)
  rw [toList, hparams]

/-- With a filter it asks for the rows that match. -/
theorem Query.request_all {f : Filter} (hf : Filter.compile q.expressions = .ok f) :
    (Read.all q).request = .ok
      (({ filter := filterText? f, fields := fieldsText? q.selectors, limit := q.limit,
          headers := q.headers, timeout := q.timeout } : ReadParams).apply
        (.rows q.collection.name)) :=
  Result.map_eq_ok.2 ⟨_, Result.bind_eq_ok.2 ⟨f, hf, rfl⟩, rfl⟩

end Query

/-! ## The command asks for its request -/

namespace CommandLine

variable {env : Environment} {a : Arguments} {s : Settings} {e : Endpoint} {r : Request}
  {c : Collection} {es selectors : List String} {limit : Option Nat} {f : Filter}

theorem connect_eq_ok (hsettings : settings env a = .ok s)
    (hendpoint : Endpoint.ofSettings s = .ok e) : connect env a = .ok e := by
  unfold connect
  rw [hsettings]
  show whileDoing _ (Endpoint.ofSettings s) = _
  rw [hendpoint]
  rfl

theorem execute_list {fields : Option String} (hconnect : connect env a = .ok e)
    (hcommand : a.command = .list c.name es fields limit) (network : Network) :
    execute network env a = (plainly (listRequest c.name es fields limit)).bind fun r =>
      printed r (e.send network r) := by
  unfold execute
  simp only [hcommand, hconnect]
  rfl

/-- The command asks for what it prints the answer to. -/
theorem asks_execute_iff
    (hexecute : ∀ network, execute network env a = printed r (e.send network r)) (o : Outgoing) :
    Network.Asks (fun network => execute network env a) o ↔
      ∃ built, Outgoing.prepare e r = .ok built ∧ o = built.withDefaults e := by
  refine Endpoint.asks_iff hexecute (fun err err' heq => ?_) o
  have hfailure := Except.error.inj heq
  exact congrArg Failure.error hfailure

/-! ## The two requests -/

/-- The calls that build the query of a command: comparisons, selectors and a limit. -/
def listingCalls (es selectors : List String) (limit : Option Nat) : List Query.Call :=
  es.map .filter ++ selectors.map .includeFields ++ (limit.map .withLimit).toList

/-- The query that these calls build. -/
def listing (c : Collection) (es selectors : List String) (limit : Option Nat) : Query :=
  { collection := c, expressions := es, selectors, limit }

theorem calls_listingCalls (hselectors : ∀ x ∈ selectors, Query.IsSelector x) :
    Query.calls { collection := c } (listingCalls es selectors limit) =
      listing c es selectors limit := by
  have hsplit : selectors.flatMap Query.splitSelectors = selectors := by
    rw [List.flatMap_congr fun x hx => Query.splitSelectors_of_isSelector (hselectors x hx)]
    exact List.flatMap_singleton' selectors
  rw [Query.calls_eq]
  cases limit <;>
    simp [listingCalls, listing, Function.comp_def, Query.Call.expression?, Query.Call.text?,
      Query.Call.header?, Query.Call.limit?, Query.Call.timeout?, hsplit]

/-- Parameters are left out when there is nothing to say. -/
theorem apply_rows (f : Filter) (collection : String) (selectors : List String)
    (limit : Option Nat) :
    ({ filter := Query.filterText? f, fields := Query.fieldsText? selectors, limit } :
      ReadParams).apply (.rows collection) =
      { method := .get
        segments := ["items", collection]
        query :=
          (if f.isEmpty then [] else [("filter", f.text)]) ++
            (if selectors = [] then [] else [("fields", ",".intercalate selectors)]) ++
            (limit.map fun n => ("limit", toString n)).toList } := by
  by_cases hf : f.isEmpty = true <;> by_cases hselectors : selectors = [] <;>
    simp [ReadParams.apply, ReadParams.query, Request.rows, Query.filterText?, Query.fieldsText?,
      hf, hselectors]

/-- The command and the query put the same request together. -/
theorem listRequest_eq (hf : Filter.compile es = .ok f) :
    listRequest c.name es (Query.fieldsText? selectors) limit =
      (Read.all (listing c es selectors limit)).request := by
  rw [Query.request_all (q := listing c es selectors limit) hf]
  unfold listRequest
  rw [hf]
  rfl

/-- A command and a query list rows in the same way. -/
structure ListsAlike (env : Environment) (a : Arguments) (e : Endpoint) (q : Query) : Prop where
  /-- When the comparisons can be read both make the same request, and no other. -/
  sent : (∀ x ∈ q.expressions, ∃ comparison, Filter.Comparison.parse x = .ok comparison) →
    ∃ (f : Filter) (r : Request), Filter.compile q.expressions = .ok f ∧
      r = { method := .get
            segments := ["items", q.collection.name]
            query :=
              (if f.isEmpty then [] else [("filter", f.text)]) ++
                (if q.selectors = [] then [] else [("fields", ",".intercalate q.selectors)]) ++
                (q.limit.map fun n => ("limit", toString n)).toList } ∧
      (∀ network, execute network env a = printed r (e.send network r)) ∧
      ∀ (σ : Type) (u : UnitOfWork) (g : Gateway σ) (listed : World (List Request × σ)),
        (u.toList q g.listing listed).world.far.1 = listed.far.1 ++ [r]
  /-- When one cannot both fail with the same error, and ask for nothing. -/
  refused : ∀ x ∈ q.expressions, (∀ comparison, Filter.Comparison.parse x ≠ .ok comparison) →
    ∃ expression reason, expression ∈ q.expressions ∧
      (∀ network, execute network env a = .error { error := .compile expression reason }) ∧
      (∀ o, ¬Network.Asks (fun network => execute network env a) o) ∧
      ∀ (σ : Type) (u : UnitOfWork) (g : Gateway σ) (world : World σ),
        u.toList q g world = u.failed (.compile expression reason) world
  /-- Over the same endpoint both ask a network for the same. -/
  network : ∀ (u : UnitOfWork) (world : World Unit) (o : Outgoing),
    Network.Asks (fun network => execute network env a) o ↔
      Network.Asks (fun network => u.toList q (e.gateway network) world) o

section

variable (hconnect : connect env a = .ok e)
  (hcommand : a.command = .list c.name es (Query.fieldsText? selectors) limit)

include hconnect hcommand

/-- The command prints the answer to the request of the query. -/
theorem execute_of_compile_ok (hf : Filter.compile es = .ok f) :
    ∃ r, (Read.all (listing c es selectors limit)).request = .ok r ∧
      ∀ network, execute network env a = printed r (e.send network r) := by
  have hrequest := Query.request_all (q := listing c es selectors limit) hf
  refine ⟨_, hrequest, fun network => ?_⟩
  rw [execute_list hconnect hcommand, listRequest_eq hf, hrequest]
  rfl

theorem execute_of_compile_error {err : Error} (h : Filter.compile es = .error err)
    (network : Network) : execute network env a = .error { error := err } := by
  rw [execute_list hconnect hcommand, listRequest, h]
  rfl

theorem listsAlike_listing : ListsAlike env a e (listing c es selectors limit) := by
  constructor
  case sent =>
    intro hreads
    obtain ⟨f, hf⟩ := Filter.compile_eq_ok_iff.2 hreads
    obtain ⟨r, hr, hprinted⟩ := execute_of_compile_ok hconnect hcommand hf
    refine ⟨f, r, hf, ?_, hprinted, fun σ u g listed => ?_⟩
    · rw [Query.request_all (q := listing c es selectors limit) hf] at hr
      cases hr
      exact apply_rows f c.name selectors limit
    · have hlisted : _ = listed.far.1 ++ _ :=
        (Read.all (listing c es selectors limit)).listed_run u g listed
      rw [hr] at hlisted
      exact hlisted
  case refused =>
    intro x hx hfault
    cases hcompile : Filter.compile es with
    | ok f =>
      obtain ⟨comparison, hreads⟩ := Filter.compile_eq_ok_iff.1 ⟨f, hcompile⟩ x hx
      exact absurd hreads (hfault comparison)
    | error err =>
      obtain ⟨expression, hexpression, reason, rfl⟩ := Filter.compile_eq_error hcompile
      have hexecute := execute_of_compile_error hconnect hcommand hcompile
      exact ⟨expression, reason, hexpression, hexecute, Network.not_asks_of_const hexecute,
        fun σ u g world => UnitOfWork.toList_of_compile_error hcompile⟩
  case network =>
    intro u world o
    cases hcompile : Filter.compile es with
    | ok f =>
      obtain ⟨r, hr, hprinted⟩ := execute_of_compile_ok hconnect hcommand hcompile
      rw [asks_execute_iff hprinted, UnitOfWork.asks_toList_iff hr]
    | error err =>
      have hexecute := execute_of_compile_error hconnect hcommand hcompile
      apply iff_of_false
      · exact Network.not_asks_of_const hexecute o
      · exact Network.not_asks_of_const
          (fun network => UnitOfWork.toList_of_compile_error hcompile) o

end

/-- **A command lists rows as a query does**, whatever the order in which the calls of the query
stand. The selectors are given to the command with commas between them, if there are any. -/
theorem lists_alike {cs : List Query.Call} (hsettings : settings env a = .ok s)
    (hendpoint : Endpoint.ofSettings s = .ok e)
    (hcommand : a.command = .list c.name es
      (if selectors = [] then none else some (",".intercalate selectors)) limit)
    (hselectors : ∀ x ∈ selectors, Query.IsSelector x)
    (hcalls : ∀ k : Query.Call.Kind,
      cs.filter (·.kind = k) = (listingCalls es selectors limit).filter (·.kind = k)) :
    ListsAlike env a e (Query.calls { collection := c } cs) := by
  rw [Query.calls_congr _ hcalls, calls_listingCalls hselectors]
  exact listsAlike_listing (connect_eq_ok hsettings hendpoint) hcommand

/-! Some products are listed, and the calls of the query stand in another order. -/

/-- The words of a command. -/
def productWords : List String :=
  ["list", "product", "--filter", "price > 10", "--fields=id,location.*", "--filter",
    "location.code == 'de'", "--limit", "2"]

/-- What the words mean. -/
def productArguments : Arguments :=
  { url := none, token := none
    command := .list "product" ["price > 10", "location.code == 'de'"] (some "id,location.*")
      (some 2) }

/-- The products of the bundled record types. -/
def products : Collection := { catalog := .bundled, schema := Models.product }

/-- The calls of the same query, in another order. -/
def productCalls : List Query.Call :=
  [.includeFields "id", .withLimit 2, .filter "price > 10", .includeFields "location.*",
    .filter "location.code == 'de'"]

/-- The filter of the request. -/
def productFilter : String :=
  "\x7b\"location\":\x7b\"code\":\x7b\"_eq\":\"de\"\x7d\x7d,\"price\":\x7b\"_gt\":10\x7d\x7d"

theorem lists_alike_products :
    parse productWords = .run productArguments ∧
    ∃ e r, connect (fun _ => none) productArguments = .ok e ∧
      r.query = [("filter", productFilter), ("fields", "id,location.*"), ("limit", "2")] ∧
      (∀ network, execute network (fun _ => none) productArguments =
        printed r (e.send network r)) ∧
      ∀ (u : UnitOfWork) (g : Gateway Unit),
        (u.toList (Query.calls { collection := products } productCalls) g.listing
          ⟨⟨[]⟩, ([], ())⟩).world.far.1 = [r] := by
  have hparse : parse productWords = .run productArguments := by decide +kernel
  have hsettings : settings (fun _ => none) productArguments = .ok {} := by decide +kernel
  have hendpoint : (Endpoint.ofSettings {}).toOption.isSome = true := by decide +kernel
  obtain ⟨e, he⟩ := Option.isSome_iff_exists.1 hendpoint
  have hselectors : ∀ x ∈ ["id", "location.*"], Query.IsSelector x := by
    unfold Query.IsSelector
    decide
  have hcalls : ∀ k : Query.Call.Kind, productCalls.filter (·.kind = k) =
      (listingCalls ["price > 10", "location.code == 'de'"] ["id", "location.*"] (some 2)).filter
        (·.kind = k) := by
    intro k
    cases k <;> rfl
  have halike := lists_alike (c := products) hsettings (Result.toOption_eq_some.1 he) rfl
    hselectors hcalls
  have hcompile : (Filter.compile ["price > 10", "location.code == 'de'"]).toOption.map
      (fun f => (f.isEmpty, f.text)) = some (false, productFilter) := by decide +kernel
  obtain ⟨f, hf, htext⟩ := Option.map_eq_some_iff.1 hcompile
  have hreads := Filter.compile_eq_ok_iff.1 ⟨f, Result.toOption_eq_some.1 hf⟩
  obtain ⟨f', r, hf', hr, hexecute, hlisted⟩ := halike.sent hreads
  obtain rfl : f' = f := Except.ok.inj (hf'.symm.trans (Result.toOption_eq_some.1 hf))
  refine ⟨hparse, e, r, connect_eq_ok hsettings (Result.toOption_eq_some.1 he), ?_, hexecute,
    fun u g => hlisted Unit u g _⟩
  rw [hr, (Prod.mk.inj htext).1, (Prod.mk.inj htext).2]
  decide +kernel

end CommandLine

end ItemClient
