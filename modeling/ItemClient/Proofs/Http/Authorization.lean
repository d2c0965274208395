import ItemClient.Proofs.Http.Unsent

/-!
# One source of authorization

A request is authorized by its caller or with the token, and never with both (`Authorizes`). What
the caller gives under `authorization`, in whatever case, is sent as it stands, and then the token
has no part in the request: any other token, also one that no header can hold, leaves all that is
sent as it is. A health check never has a part of the token. All other headers of the caller are
sent, each as often as it was given.

The headers of a request are those of the endpoint and those of the caller one after the other, and
checking them changes their names to lower case only (`Header.checkHeaders_eq_ok`). So what stands
under a name can be read off the lists before they are checked (`Outgoing.valuesOf_of_prepare`).

Main result: `Endpoint.authorizes_once`.
-/

namespace ItemClient.Http

/-! ## Values under a name -/

/-- The values that a list of headers gives under a name, in order. Their names may be in any
case. -/
def valuesUnder (name : String) (headers : List (String × String)) : List String :=
  (headers.filter fun h => Text.lowerAscii h.1 = name).map Prod.snd

/-- The values of a request under a name, in order. -/
def Outgoing.valuesOf (o : Outgoing) (name : String) : List String :=
  (o.headers.filter (·.name = name)).map Header.value

section Values

variable {name : String} {headers : List (String × String)} {hs : List Header}

theorem valuesUnder_append (name : String) (as bs : List (String × String)) :
    valuesUnder name (as ++ bs) = valuesUnder name as ++ valuesUnder name bs := by
  simp [valuesUnder]

theorem valuesUnder_eq_nil_iff :
    valuesUnder name headers = [] ↔ ∀ h ∈ headers, Text.lowerAscii h.1 ≠ name := by
  simp [valuesUnder]

/-- Headers that can be sent are sent as they are, their names in lower case. -/
theorem Header.checkHeaders_eq_ok (h : Outgoing.checkHeaders headers = .ok hs) :
    hs = headers.map fun h => ⟨Text.lowerAscii h.1, h.2⟩ := by
  have hmake : ∀ {name value : String} {made : Header}, make name value = .ok made →
      made = ⟨Text.lowerAscii name, value⟩ := by
    intro name value made hmade
    unfold make at hmade
    split at hmade
    · cases hmade
    · split at hmade <;> cases hmade
      rfl
  have hall := Result.mapM_eq_ok.1 h
  clear h
  induction hall with
  | nil => rfl
  | cons hmade _ ih => rw [List.map_cons, ← ih, hmake hmade]

theorem valuesOf_checkHeaders (h : Outgoing.checkHeaders headers = .ok hs) :
    (hs.filter (·.name = name)).map Header.value = valuesUnder name headers := by
  rw [Header.checkHeaders_eq_ok h, valuesUnder, List.filter_map, List.map_map]
  rfl

end Values

/-! ## Requests -/

namespace Endpoint

open Header (authorization)

variable {s : Settings} {e : Endpoint} {r : Request} {o : Outgoing}

/-- The base URL carries no user info. -/
def IsBare (e : Endpoint) : Prop := e.baseUrl.username = [] ∧ e.baseUrl.password = none

theorem isAuthorized_eq_false_iff :
    Outgoing.isAuthorized r = false ↔ valuesUnder authorization r.headers = [] := by
  simp [Outgoing.isAuthorized, Header.isAuthorization, valuesUnder_eq_nil_iff]

theorem isAuthorized_iff :
    Outgoing.isAuthorized r = true ↔ valuesUnder authorization r.headers ≠ [] := by
  rw [ne_eq, ← isAuthorized_eq_false_iff, Bool.not_eq_false]

/-- Without user info in the base URL there is none in any other. -/
theorem IsBare.address_push (h : e.IsBare) (segments : List String) :
    Outgoing.address (e.baseUrl.push segments) = (e.baseUrl.push segments, []) := by
  have hpush : (e.baseUrl.push segments).username = [] ∧
      (e.baseUrl.push segments).password = none := by
    unfold Url.push
    split <;> exact h
  have hnone : Outgoing.credentials? (e.baseUrl.push segments) = none := by
    unfold Outgoing.credentials?
    rw [hpush.1, hpush.2]
    decide
  rw [Outgoing.address, hnone]

theorem headers_of_prepare (h : Outgoing.prepare e r = .ok o) :
    Outgoing.checkHeaders (e.headers r) = .ok o.headers := by
  rw [prepare_eq, Result.map_eq_ok] at h
  obtain ⟨hs, hok, rfl⟩ := h
  exact hok

/-- What a request is sent with under a name: what the endpoint adds, and then what the caller
gives. -/
theorem valuesOf_of_prepare (hbare : e.IsBare) (h : Outgoing.prepare e r = .ok o) (name : String) :
    o.valuesOf name = valuesUnder name [("content-type", "application/json")] ++
      valuesUnder name (Outgoing.bearerHeader e r) ++ valuesUnder name r.headers := by
  rw [Outgoing.valuesOf, valuesOf_checkHeaders (headers_of_prepare h), headers,
    hbare.address_push, List.nil_append, valuesUnder_append, valuesUnder_append]

/-- The token is sent when the caller does not authorize the request. -/
theorem valuesUnder_bearerHeader (e : Endpoint) (r : Request) :
    valuesUnder authorization (Outgoing.bearerHeader e r) =
      if valuesUnder authorization r.headers = [] then (e.token.map ("Bearer " ++ ·)).toList
      else [] := by
  have hname : Text.lowerAscii "authorization" = authorization := by decide
  by_cases hown : valuesUnder authorization r.headers = []
  · rw [if_pos hown, Outgoing.bearerHeader, isAuthorized_eq_false_iff.2 hown,
      if_neg Bool.false_ne_true]
    cases e.token <;> simp [valuesUnder, hname]
  · rw [if_neg hown, Outgoing.bearerHeader, if_pos (isAuthorized_iff.2 hown)]
    rfl

/-- Under no other name the token is sent. -/
theorem valuesUnder_bearerHeader_of_ne {name : String} (h : name ≠ authorization) (e : Endpoint)
    (r : Request) : valuesUnder name (Outgoing.bearerHeader e r) = [] := by
  have hname : Text.lowerAscii "authorization" = authorization := by decide
  unfold Outgoing.bearerHeader
  split
  · rfl
  · cases e.token <;> simp [valuesUnder, hname, Ne.symm h]

theorem valuesUnder_contentType (name : String) :
    valuesUnder name [("content-type", "application/json")] =
      if name = "content-type" then ["application/json"] else [] := by
  have hname : Text.lowerAscii "content-type" = "content-type" := by decide
  by_cases h : name = "content-type" <;> simp [valuesUnder, hname, h, eq_comm]

/-- What is added to every request does not authorize it. -/
theorem authorization_withDefaults (e : Endpoint) (o : Outgoing) :
    (o.withDefaults e).valuesOf authorization = o.valuesOf authorization := by
  have hdefaults : ∀ d ∈ Outgoing.defaults e, d.name ≠ authorization := by
    intro d hd
    simp only [Outgoing.defaults, List.mem_cons, List.not_mem_nil, or_false] at hd
    rcases hd with rfl | rfl
    · exact (by decide : "accept" ≠ authorization)
    · exact (by decide : "user-agent" ≠ authorization)
  have hnone : ((Outgoing.defaults e).filter fun d => !o.headers.any (·.name = d.name)).filter
      (·.name = authorization) = [] :=
    List.filter_eq_nil_iff.2 fun d hd => by simpa using hdefaults d (List.mem_of_mem_filter hd)
  rw [Outgoing.valuesOf, Outgoing.valuesOf, Outgoing.withDefaults, List.filter_append, hnone,
    List.append_nil]

/-! ## Another token -/

/-- A token does not have to be valid for an endpoint to be made with it. -/
theorem ofSettings_withToken (h : ofSettings s = .ok e) (token : Option String) :
    ofSettings { s with token } = .ok { e with token } := by
  unfold ofSettings at h ⊢
  split at h
  · cases h
  · split at h
    · cases h
    · split at h <;> cases h
      simp_all

/-- A request that the caller authorizes has no part of the token. -/
theorem prepare_withToken (h : Outgoing.isAuthorized r = true) (token : Option String) :
    Outgoing.prepare { e with token } r = Outgoing.prepare e r := by
  unfold Outgoing.prepare Outgoing.bearerHeader
  rw [if_pos h, if_pos h]

theorem recorder_withToken (h : Outgoing.isAuthorized r = true) (token : Option String)
    (network : Network) :
    (recorder { e with token } network).send r = (e.recorder network).send r := by
  funext world
  simp only [recorder, send, prepare_withToken h]
  rfl

/-- A health check can always be built, and nobody authorizes it. -/
theorem IsBare.ping (h : e.IsBare) :
    ∃ o, Outgoing.ping e = .ok o ∧ o.valuesOf authorization = [] := by
  unfold Outgoing.ping
  rw [h.address_push]
  exact ⟨_, rfl, rfl⟩

/-! ## Authorization -/

/-- What is known of the authorization of a request over the endpoint of some settings, and of the
other headers. -/
structure Authorizes (s : Settings) (e : Endpoint) (r : Request) : Prop where
  /-- The request can be built, unless it takes a token that cannot be sent. -/
  built : (∃ o, Outgoing.prepare e r = .ok o) ↔
    (valuesUnder authorization r.headers = [] → ∀ token, s.token = some token →
      Header.isValue token = true)
  /-- Its authorization is the one of the caller if there is any … -/
  own : ∀ o, Outgoing.prepare e r = .ok o → valuesUnder authorization r.headers ≠ [] →
    o.valuesOf authorization = valuesUnder authorization r.headers
  /-- … and otherwise the one by the token if there is one; … -/
  bearer : ∀ o, Outgoing.prepare e r = .ok o → valuesUnder authorization r.headers = [] →
    o.valuesOf authorization = (s.token.map ("Bearer " ++ ·)).toList
  /-- … nothing is added to it on the way. -/
  delivered : ∀ o, Outgoing.prepare e r = .ok o →
    (o.withDefaults e).valuesOf authorization = o.valuesOf authorization
  /-- All other headers of the caller are there, behind the type of the content. -/
  others : ∀ o, Outgoing.prepare e r = .ok o → ∀ name, name ≠ authorization →
    o.valuesOf name =
      (if name = "content-type" then ["application/json"] else []) ++ valuesUnder name r.headers
  /-- There is an endpoint for any other token. -/
  accepted : ∀ token, ofSettings { s with token } = .ok { e with token }
  /-- It sends a request that the caller authorizes in the same way. -/
  overridden : valuesUnder authorization r.headers ≠ [] → ∃ o, ∀ token,
    Outgoing.prepare { e with token } r = .ok o ∧
      ∀ network, (recorder { e with token } network).send r = (e.recorder network).send r
  /-- It makes the same health check, which nobody authorizes. -/
  ping : ∃ o, o.valuesOf authorization = [] ∧ ∀ token, Outgoing.ping { e with token } = .ok o ∧
    ∀ network, Endpoint.ping { e with token } network = e.ping network
  /-- Which token it is does not show. -/
  shown : ∀ token other, Settings.shown { s with token := some token } =
    Settings.shown { s with token := some other }

/-- **A request has one source of authorization**: its caller, or else the token. -/
theorem authorizes_once (hsettings : ofSettings s = .ok e) (hbare : e.IsBare)
    (hvalid : ∀ h ∈ r.headers, Header.isName h.1 = true ∧ Header.isValue h.2 = true) :
    Authorizes s e r := by
  have htoken : e.token = s.token := by
    have hsame := ofSettings_withToken hsettings s.token
    rw [hsettings] at hsame
    exact congrArg Endpoint.token (Except.ok.inj hsame)
  have hbuilt : (∃ o, Outgoing.prepare e r = .ok o) ↔
      (valuesUnder authorization r.headers = [] → ∀ token, s.token = some token →
        Header.isValue token = true) := by
    rw [← builds_iff, ← htoken, ← isAuthorized_eq_false_iff]
    exact ⟨Builds.token, fun h => ⟨hvalid, h⟩⟩
  constructor
  case built => exact hbuilt
  case own =>
    intro o ho hown
    rw [valuesOf_of_prepare hbare ho, valuesUnder_contentType, valuesUnder_bearerHeader,
      if_neg hown]
    rfl
  case bearer =>
    intro o ho hown
    rw [valuesOf_of_prepare hbare ho, valuesUnder_contentType, valuesUnder_bearerHeader,
      if_pos hown, hown, htoken, List.append_nil]
    rfl
  case delivered => exact fun o _ => authorization_withDefaults e o
  case others =>
    intro o ho name hname
    rw [valuesOf_of_prepare hbare ho, valuesUnder_contentType, valuesUnder_bearerHeader_of_ne hname,
      List.append_nil]
  case accepted => exact ofSettings_withToken hsettings
  case overridden =>
    intro hown
    obtain ⟨o, ho⟩ := hbuilt.2 fun hnone => absurd hnone hown
    have hauthorized := isAuthorized_iff.2 hown
    exact ⟨o, fun token => ⟨(prepare_withToken hauthorized token).trans ho,
      recorder_withToken hauthorized token⟩⟩
  case ping =>
    obtain ⟨o, ho, hnone⟩ := hbare.ping
    exact ⟨o, hnone, fun token => ⟨ho, fun network => rfl⟩⟩
  case shown => exact fun token other => rfl

/-! A caller authorizes a request twice, the token has a line break. -/

/-- A request with two authorizations and two tags, their names in various cases. -/
def doubled : Request :=
  { Request.rows "product" with
    headers := [("AUTHORIZATION", "Basic YQ=="), ("X-Tag", "1"), ("authorization", "Bearer b"),
      ("x-tag", "2")] }

theorem authorizes_once_doubled :
    ∃ e o, ofSettings torn = .ok e ∧ e.IsBare ∧
      (∀ h ∈ doubled.headers, Header.isName h.1 = true ∧ Header.isValue h.2 = true) ∧
      Outgoing.prepare e doubled = .ok o ∧
      o.valuesOf authorization = ["Basic YQ==", "Bearer b"] ∧ o.valuesOf "x-tag" = ["1", "2"] := by
  have hendpoint : ((ofSettings torn).toOption.map fun e =>
      (e.baseUrl.username, e.baseUrl.password)) = some ([], none) := by decide +kernel
  obtain ⟨e, he, hinfo⟩ := Option.map_eq_some_iff.1 hendpoint
  have hsettings := Result.toOption_eq_some.1 he
  have hbare : e.IsBare := Prod.mk.inj hinfo
  have hvalid : ∀ h ∈ doubled.headers, Header.isName h.1 = true ∧ Header.isValue h.2 = true := by
    decide
  have hauthorizes := authorizes_once hsettings hbare hvalid
  have hown : valuesUnder authorization doubled.headers = ["Basic YQ==", "Bearer b"] := by decide
  have htags : valuesUnder "x-tag" doubled.headers = ["1", "2"] := by decide
  have hne : valuesUnder authorization doubled.headers ≠ [] := by
    rw [hown]
    exact List.cons_ne_nil _ _
  obtain ⟨o, ho⟩ := hauthorizes.built.2 fun hnone => absurd hnone hne
  refine ⟨e, o, hsettings, hbare, hvalid, ho, ?_, ?_⟩
  · rw [hauthorizes.own o ho hne, hown]
  · rw [hauthorizes.others o ho "x-tag" (by decide), htags]
    decide

end Endpoint

end ItemClient.Http
