import ItemClient.Http.Link
import ItemClient.Proofs.Http.Path

/-!
# Which resource a request goes to

The path of an outgoing request, given the URL that all paths are below and the segments of the
request.

**One component for each segment.** `Addresses base path segments` says that the path goes on after
the base with one component for each segment, which decodes to that segment. Pushing plain segments
appends what is written for each (`pushes_plain`). Conversely no segment makes a path longer by more
than one name, so where the path has one component for each segment every push appended one
(`exists_appends`), and a component that decodes to its segment shows that the segment is plain
(`Appends.plain`).

**The result.** A request for an item or a collection goes to the path of its segments exactly when
the segments are plain and the base is no path of two slashes (`Endpoint.prepare_addresses_iff`).
The segment of one dot is skipped, so a change of the item with that key goes to the collection
(`Endpoint.not_addresses_dot`).
-/

namespace ItemClient.Http

/-- A path goes on after a base, less a slash at the end, with one component for each segment. -/
def Addresses (base path : List Char) (segments : List String) : Prop :=
  ∃ components : List (List Char),
    path = (if base.getLast? = some '/' then base.dropLast else base) ++ namesText components ∧
    List.Forall₂ (fun name segment => '/' ∉ name ∧ percentDecode name = Text.encode segment)
      components segments

namespace Url

variable {kind : SchemeKind} {path names : List (List Char)} {name : List Char}
  {segments rest : List String} {segment : String}

/-! ## One push -/

/-- The names that a push goes on from: the empty one of the root is filled. -/
def filled (path : List (List Char)) : List (List Char) := if path = [[]] then [] else path

theorem pushEncoded_eq (path : List (List Char)) (name : List Char) :
    pushEncoded path name =
      if isUpperLevel name then (filled path).dropLast ++ [[]]
      else if isSameLevel name then filled path ++ [[]]
      else filled path ++ [name] := rfl

theorem Plain.not_isUpperLevel (h : Plain segment) (kind : SchemeKind) :
    ¬isUpperLevel (written kind segment) = true := fun hlevel =>
  h.2.1 (Text.encode_inj ((h.decodes kind).symm.trans (decode_of_isUpperLevel hlevel)))

theorem Plain.not_isSameLevel (h : Plain segment) (kind : SchemeKind) :
    ¬isSameLevel (written kind segment) = true := fun hlevel =>
  h.1 (Text.encode_inj ((h.decodes kind).symm.trans (decode_of_isSameLevel hlevel)))

/-- A plain segment is appended. -/
theorem Plain.push (h : Plain segment) (kind : SchemeKind) (path : List (List Char)) :
    pushSegment kind path segment = filled path ++ [written kind segment] := by
  rw [pushSegment_eq, if_neg (not_or.2 ⟨h.1, h.2.1⟩), pushEncoded_eq,
    if_neg (h.not_isUpperLevel kind), if_neg (h.not_isSameLevel kind)]

/-- A name that a push may append for a segment. -/
structure Appends (kind : SchemeKind) (name : List Char) (segment : String) : Prop where
  isPushed : segment ≠ "." ∧ segment ≠ ".."
  isWritten : name = written kind segment ∨
    name = [] ∧ (isUpperLevel (written kind segment) = true ∨
      isSameLevel (written kind segment) = true)

/-- A name that is appended and decodes to its segment shows that the segment is plain. -/
theorem Appends.plain (h : Appends kind name segment)
    (hdecode : percentDecode name = Text.encode segment) : Plain segment := by
  refine ⟨h.isPushed.1, h.isPushed.2, kept_eq_iff.1 ?_⟩
  rcases h.isWritten with rfl | ⟨rfl, hlevel⟩
  · rw [percentDecode_written] at hdecode
    exact Text.utf8_inj hdecode
  · obtain rfl : segment = "" := Text.encode_inj hdecode.symm
    rfl

theorem length_filled_le (path : List (List Char)) : (filled path).length ≤ path.length := by
  unfold filled
  split <;> simp

theorem length_push_le (kind : SchemeKind) (path : List (List Char)) (segment : String) :
    (pushSegment kind path segment).length ≤ path.length + 1 := by
  have hfilled := length_filled_le path
  rw [pushSegment_eq, pushEncoded_eq]
  split_ifs <;> simp <;> omega

theorem appends_of_length (h : (pushSegment kind path segment).length = path.length + 1) :
    ∃ name, pushSegment kind path segment = path ++ [name] ∧ Appends kind name segment := by
  have hpushed : ¬(segment = "." ∨ segment = "..") := fun hdots => by
    rw [pushSegment_eq, if_pos hdots] at h
    omega
  have hfilled : filled path = path := by
    unfold filled
    refine if_neg ?_
    rintro rfl
    rw [pushSegment_eq, if_neg hpushed, pushEncoded_eq] at h
    split_ifs at h <;> simp [filled] at h
  rw [pushSegment_eq, if_neg hpushed, pushEncoded_eq, hfilled] at h ⊢
  split_ifs at h ⊢ with hupper hsame
  · have hnil : path = [] := by
      rw [← List.length_eq_zero_iff]
      simp at h
      omega
    exact ⟨[], by rw [hnil]; rfl, not_or.1 hpushed, .inr ⟨rfl, .inl hupper⟩⟩
  · exact ⟨[], rfl, not_or.1 hpushed, .inr ⟨rfl, .inr hsame⟩⟩
  · exact ⟨_, rfl, not_or.1 hpushed, .inl rfl⟩

theorem filled_slashFree (h : SlashFree path) : SlashFree (filled path) := by
  unfold filled
  split
  · exact fun name hname => absurd hname List.not_mem_nil
  · exact h

theorem push_slashFree (h : SlashFree path) (kind : SchemeKind) (segment : String) :
    SlashFree (pushSegment kind path segment) := by
  have hfilled := filled_slashFree h
  rw [pushSegment_eq, pushEncoded_eq]
  split_ifs
  · exact h
  · exact hfilled.dropLast.append .singleton_nil
  · exact hfilled.append .singleton_nil
  · exact hfilled.append (.singleton (slash_not_mem_written kind segment))

/-! ## All pushes -/

theorem pushes_slashFree (h : SlashFree path) (kind : SchemeKind) (segments : List String) :
    SlashFree (segments.foldl (pushSegment kind) path) := by
  induction segments generalizing path with
  | nil => exact h
  | cons segment rest ih => exact ih (push_slashFree h kind segment)

theorem length_pushes_le (kind : SchemeKind) (path : List (List Char)) (segments : List String) :
    (segments.foldl (pushSegment kind) path).length ≤ path.length + segments.length := by
  induction segments generalizing path with
  | nil => exact Nat.le_refl _
  | cons segment rest ih =>
    have hpush := length_push_le kind path segment
    have hrest := ih (pushSegment kind path segment)
    rw [List.foldl_cons, List.length_cons]
    omega

/-- Where the path has become longer by one name for each segment, each push appended one. -/
theorem exists_appends
    (h : (segments.foldl (pushSegment kind) path).length = path.length + segments.length) :
    ∃ names, segments.foldl (pushSegment kind) path = path ++ names ∧
      List.Forall₂ (Appends kind) names segments := by
  induction segments generalizing path with
  | nil => exact ⟨[], (List.append_nil _).symm, .nil⟩
  | cons segment rest ih =>
    have hpush := length_push_le kind path segment
    have hrest := length_pushes_le kind (pushSegment kind path segment) rest
    rw [List.foldl_cons, List.length_cons] at h
    obtain ⟨name, heq, happends⟩ := appends_of_length
      (by omega : (pushSegment kind path segment).length = path.length + 1)
    obtain ⟨names, hnames, hall⟩ := ih (by rw [h, heq]; simp; omega)
    exact ⟨name :: names, by rw [List.foldl_cons, hnames, heq]; simp, .cons happends hall⟩

/-- Plain segments are appended to a path that is not the root. -/
theorem pushes_plain (hnil : path ≠ []) (hroot : path ≠ [[]]) (h : ∀ s ∈ segments, Plain s) :
    segments.foldl (pushSegment kind) path = path ++ segments.map (written kind) := by
  induction segments generalizing path with
  | nil => exact (List.append_nil _).symm
  | cons segment rest ih =>
    have hfilled : filled path = path := if_neg hroot
    have hroot' : path ++ [written kind segment] ≠ [[]] := fun heq => by
      have hlength := congrArg List.length heq
      rw [List.length_append, List.length_singleton, List.length_singleton] at hlength
      exact hnil (List.length_eq_zero_iff.1 (by omega))
    rw [List.foldl_cons, (h segment List.mem_cons_self).push kind path, hfilled,
      ih (by simp) hroot' fun s hs => h s (List.mem_cons_of_mem _ hs)]
    simp

/-! ## The path that is pushed onto -/

/-- The names below which the first segment is put. -/
def below (names : List (List Char)) : List (List Char) := filled (dropEmptyEnd names)

theorem below_slashFree (h : SlashFree names) : SlashFree (below names) := by
  refine filled_slashFree ?_
  unfold dropEmptyEnd
  split
  · exact h.dropLast
  · exact h

/-- They are the names of the base less a slash at the end, unless the base is two slashes. -/
theorem namesText_below (h : SlashFree names) (hne : names ≠ [[], []]) :
    namesText (below names) =
      if (namesText names).getLast? = some '/' then (namesText names).dropLast
      else namesText names := by
  rcases List.eq_nil_or_concat' names with rfl | ⟨before, last, rfl⟩
  · rfl
  · rcases List.eq_nil_or_concat' last with rfl | ⟨name, c, rfl⟩
    · have htext : namesText (before ++ [[]]) = namesText before ++ ['/'] := by simp [namesText]
      rw [htext, List.getLast?_concat, if_pos rfl, List.dropLast_concat]
      by_cases hbefore : before = []
      · subst hbefore
        rfl
      · have hlength : 1 < (before ++ [([] : List Char)]).length := by
          have hpos := List.length_pos_iff.2 hbefore
          simp only [List.length_append, List.length_singleton]
          omega
        have hroot : before ≠ [[]] := fun heq => hne (by rw [heq]; rfl)
        rw [below, dropEmptyEnd, List.getLast?_concat, if_pos ⟨rfl, hlength⟩, List.dropLast_concat,
          filled, if_neg hroot]
    · have hc : c ≠ '/' := fun heq =>
        h (name ++ [c]) (by simp) (by simp [heq])
      have htext : namesText (before ++ [name ++ [c]]) =
          (namesText before ++ '/' :: name) ++ [c] := by simp [namesText]
      have hend : ¬((before ++ [name ++ [c]]).getLast? = some [] ∧
          1 < (before ++ [name ++ [c]]).length) := by simp
      have hroot : before ++ [name ++ [c]] ≠ [[]] := fun heq => by
        have hlast := congrArg List.getLast? heq
        simp at hlast
      rw [htext, List.getLast?_concat, if_neg (by simpa using hc), ← htext, below, dropEmptyEnd,
        if_neg hend, filled, if_neg hroot]

/-- The path of every request begins below the base with the name that all items are under. -/
theorem push_items (kind : SchemeKind) (names : List (List Char)) :
    pushSegment kind (dropEmptyEnd names) "items" = below names ++ ["items".toList] := by
  have hitems : written kind "items" = "items".toList := by cases kind <;> decide
  rw [Plain.push (by decide), hitems, below]

/-! ## One component for each segment -/

theorem plain_of_appends (happends : List.Forall₂ (Appends kind) names segments)
    (hdecodes : List.Forall₂
      (fun name segment => '/' ∉ name ∧ percentDecode name = Text.encode segment) names segments) :
    ∀ s ∈ segments, Plain s := by
  induction happends with
  | nil => exact fun s hs => absurd hs List.not_mem_nil
  | cons happend _ ih =>
    obtain ⟨hdecode, hrest⟩ := List.forall₂_cons.1 hdecodes
    intro s hs
    rcases List.mem_cons.1 hs with rfl | hs
    · exact happend.plain hdecode.2
    · exact ih hrest s hs

/-- The path below a base for the items of plain segments. -/
theorem pushes_items (h : ∀ s ∈ rest, Plain s) (kind : SchemeKind) (names : List (List Char)) :
    ("items" :: rest).foldl (pushSegment kind) (dropEmptyEnd names) =
      below names ++ ["items".toList] ++ rest.map (written kind) := by
  rw [List.foldl_cons, push_items]
  refine pushes_plain (by simp) (fun heq => ?_) h
  have hlast := congrArg List.getLast? heq
  simp at hlast

/-- The path for an item or a collection has one component for each segment exactly when the
segments are plain and the base is not two slashes. -/
theorem addresses_iff (h : SlashFree names) (kind : SchemeKind) (rest : List String) :
    Addresses (namesText names)
        (namesText (("items" :: rest).foldl (pushSegment kind) (dropEmptyEnd names)))
        ("items" :: rest) ↔
      names ≠ [[], []] ∧ ∀ s ∈ rest, Plain s := by
  have hbelow : SlashFree (below names) := below_slashFree h
  constructor
  · rintro ⟨components, htext, hall⟩
    have hlength : components.length = rest.length + 1 := hall.length_eq
    have hcomponents : SlashFree components := fun name hname => by
      obtain ⟨segment, -, hname⟩ := hall.exists_right hname
      exact hname.1
    rw [List.foldl_cons, push_items] at htext
    have hfinal : SlashFree (rest.foldl (pushSegment kind) (below names ++ ["items".toList])) :=
      pushes_slashFree (hbelow.append (.singleton (by decide))) kind rest
    have hne : names ≠ [[], []] := by
      rintro rfl
      have hpath := namesText_inj hfinal (SlashFree.singleton_nil.append hcomponents) htext
      have hbound := length_pushes_le kind (below [[], []] ++ ["items".toList]) rest
      rw [hpath, List.length_append, List.length_append, hlength] at hbound
      have hroot : (below [[], []]).length = 0 := rfl
      simp only [List.length_singleton] at hbound
      omega
    rw [← namesText_below h hne, ← namesText_append] at htext
    have hpath := namesText_inj hfinal (hbelow.append hcomponents) htext
    have hgrown : (rest.foldl (pushSegment kind) (below names ++ ["items".toList])).length =
        (below names ++ ["items".toList]).length + rest.length := by
      rw [hpath, List.length_append, List.length_append, hlength, List.length_singleton]
      omega
    obtain ⟨appended, happended, happends⟩ := exists_appends hgrown
    rw [happended, List.append_assoc] at hpath
    obtain rfl : "items".toList :: appended = components := List.append_cancel_left hpath
    exact ⟨hne, plain_of_appends happends (List.forall₂_cons.1 hall).2⟩
  · rintro ⟨hne, hplain⟩
    refine ⟨"items".toList :: rest.map (written kind), ?_, .cons (by decide) ?_⟩
    · rw [pushes_items hplain, ← namesText_below h hne, ← namesText_append, List.append_assoc]
      rfl
    · rw [List.forall₂_map_left_iff, List.forall₂_same]
      exact fun s hs => ⟨slash_not_mem_written kind s, (hplain s hs).decodes kind⟩

/-- Different plain segments have different paths below one base. -/
theorem pushes_inj {rest' : List String} (hnames : SlashFree names) (h : ∀ s ∈ rest, Plain s)
    (h' : ∀ s ∈ rest', Plain s)
    (heq : namesText (("items" :: rest).foldl (pushSegment kind) (dropEmptyEnd names)) =
      namesText (("items" :: rest').foldl (pushSegment kind) (dropEmptyEnd names))) :
    rest = rest' := by
  have hdecoded : ∀ {segments : List String}, (∀ s ∈ segments, Plain s) →
      (segments.map (written kind)).map percentDecode = segments.map Text.encode := by
    intro segments hsegments
    rw [List.map_map]
    exact List.map_congr_left fun s hs => (hsegments s hs).decodes kind
  have hfinal : ∀ segments : List String,
      SlashFree (("items" :: segments).foldl (pushSegment kind) (dropEmptyEnd names)) := by
    intro segments
    rw [List.foldl_cons, push_items]
    exact pushes_slashFree ((below_slashFree hnames).append (.singleton (by decide))) kind segments
  have hpath := namesText_inj (hfinal rest) (hfinal rest') heq
  rw [pushes_items h, pushes_items h'] at hpath
  have hwritten := congrArg (List.map percentDecode) (List.append_cancel_left hpath)
  rw [hdecoded h, hdecoded h'] at hwritten
  exact List.map_injective_iff.2 (fun _ _ => Text.encode_inj) hwritten

/-! ## URLs -/

/-- The path of a URL as text. -/
def pathText (u : Url) : List Char :=
  match u.path with
  | .rootless text => text
  | .segments names => namesText names

theorem pathText_of_segments {u : Url} (h : u.path = .segments names) :
    u.pathText = namesText names := by
  rw [pathText, h]

theorem push_path {u : Url} (h : u.path = .segments names) (segments : List String) :
    (u.push segments).path =
      .segments (segments.foldl (pushSegment (schemeKind u.scheme)) (dropEmptyEnd names)) := by
  unfold push
  rw [h]

theorem addQuery_path (u : Url) (pairs : List (String × String)) :
    (u.addQuery pairs).path = u.path := by
  unfold addQuery
  split <;> rfl

end Url

namespace Outgoing

theorem address_path (u : Url) : (address u).1.path = u.path := by
  unfold address
  split <;> rfl

theorem prepare_path {e : Endpoint} {r : Request} {o : Outgoing} (h : prepare e r = .ok o) :
    o.url.path = (e.baseUrl.push r.segments).path := by
  obtain ⟨headers, -, h⟩ := Result.bind_eq_ok.1 h
  cases h
  exact (Url.addQuery_path _ _).trans (address_path _)

end Outgoing

namespace Endpoint

variable {settings : Settings} {e : Endpoint}

/-- The URL that all paths are below has names without slashes. -/
theorem exists_names (h : ofSettings settings = .ok e) :
    ∃ names, e.baseUrl.path = .segments names ∧ SlashFree names := by
  unfold ofSettings at h
  split at h
  · cases h
  · rename_i baseUrl hread
    split_ifs at h with hrootless
    cases h
    cases hpath : baseUrl.path with
    | rootless text => simp [Url.hasPath, hpath] at hrootless
    | segments names => exact ⟨names, rfl, Url.read_proper hread names hpath⟩

/-- **Which resource a request goes to.** For every base URL that is accepted and every request for
items, whatever the collection and the key, the path of the target is the path of the base, less a
slash at its end, and one component for each segment, which decodes to that segment, exactly when no
segment is a dot or two dots or has tabs or line breaks in it, and the path of the base is not two
slashes. Requests whose segments are such go to different targets when their segments differ. -/
theorem prepare_addresses_iff (he : ofSettings settings = .ok e) {r : Request} {rest : List String}
    (hr : r.segments = "items" :: rest) {o : Outgoing} (ho : Outgoing.prepare e r = .ok o) :
    (Addresses e.baseUrl.pathText o.url.pathText r.segments ↔
      e.baseUrl.pathText ≠ ['/', '/'] ∧ ∀ s ∈ rest, Url.Plain s) ∧
    ((∀ s ∈ rest, Url.Plain s) →
      ∀ (r' : Request) (rest' : List String) (o' : Outgoing), r'.segments = "items" :: rest' →
        Outgoing.prepare e r' = .ok o' → (∀ s ∈ rest', Url.Plain s) →
        o'.url.pathText = o.url.pathText → rest' = rest) := by
  obtain ⟨names, hnames, hfree⟩ := exists_names he
  have hpath : ∀ {r : Request} {o : Outgoing}, Outgoing.prepare e r = .ok o → o.url.pathText =
      namesText (r.segments.foldl (Url.pushSegment (Url.schemeKind e.baseUrl.scheme))
        (Url.dropEmptyEnd names)) := fun ho =>
    Url.pathText_of_segments ((Outgoing.prepare_path ho).trans (Url.push_path hnames _))
  have hslashes : e.baseUrl.pathText ≠ ['/', '/'] ↔ names ≠ [[], []] := by
    rw [Url.pathText_of_segments hnames]
    refine not_congr ⟨fun htext => ?_, fun heq => heq ▸ rfl⟩
    exact namesText_inj hfree (SlashFree.singleton_nil.append .singleton_nil) htext
  constructor
  · rw [hslashes, hpath ho, hr, Url.pathText_of_segments hnames]
    exact Url.addresses_iff hfree _ rest
  · intro hrest r' rest' o' hr' ho' hrest' heq
    rw [hpath ho, hpath ho', hr, hr'] at heq
    exact Url.pushes_inj hfree hrest' hrest heq

/-! ## A request for an item -/

/-- The paths of the base URL that settings describe and of the target of a request. -/
def paths? (settings : Settings) (r : Request) : Option (List Char × List Char) := do
  let e ← (ofSettings settings).toOption
  let o ← (Outgoing.prepare e r).toOption
  return (e.baseUrl.pathText, o.url.pathText)

theorem exists_of_paths {r : Request} {base target : List Char}
    (h : paths? settings r = some (base, target)) :
    ∃ e o, ofSettings settings = .ok e ∧ Outgoing.prepare e r = .ok o ∧
      e.baseUrl.pathText = base ∧ o.url.pathText = target := by
  unfold paths? at h
  obtain ⟨e, he, h⟩ := Option.bind_eq_some_iff.1 h
  obtain ⟨o, ho, h⟩ := Option.bind_eq_some_iff.1 h
  cases h
  exact ⟨e, o, Result.toOption_eq_some.1 he, Result.toOption_eq_some.1 ho, rfl, rfl⟩

/-- Settings with a base URL that has a path. -/
def cms : Settings := { baseUrl := "http://cms.local:8055/api/" }

/-- A key with a space and a slash in it goes to a resource of its own. -/
theorem prepare_addresses_row :
    ∃ e o, ofSettings cms = .ok e ∧ Outgoing.prepare e (.row "product" "a b/c") = .ok o ∧
      o.url.pathText = "/api/items/product/a%20b%2Fc".toList ∧
      Addresses e.baseUrl.pathText o.url.pathText ["items", "product", "a b/c"] := by
  obtain ⟨e, o, he, ho, hbase, htarget⟩ := exists_of_paths
    (by decide +kernel : paths? cms (.row "product" "a b/c") =
      some ("/api/".toList, "/api/items/product/a%20b%2Fc".toList))
  refine ⟨e, o, he, ho, htarget, (prepare_addresses_iff he rfl ho).1.2 ⟨?_, by decide⟩⟩
  rw [hbase]
  decide

/-- A change of the item with the key of one dot goes where the collection is read. -/
theorem not_addresses_dot :
    ∃ e o o', ofSettings cms = .ok e ∧
      Outgoing.prepare e (.change "product" "." (.object [("price", .ofInt 12)])) = .ok o ∧
      ¬Addresses e.baseUrl.pathText o.url.pathText ["items", "product", "."] ∧
      Outgoing.prepare e (.rows "product") = .ok o' ∧ o.url.pathText = o'.url.pathText := by
  obtain ⟨e, o, he, ho, hbase, htarget⟩ := exists_of_paths
    (by decide +kernel :
      paths? cms (.change "product" "." (.object [("price", .ofInt 12)])) =
        some ("/api/".toList, "/api/items/product".toList))
  obtain ⟨e', o', he', ho', -, htarget'⟩ := exists_of_paths
    (by decide +kernel :
      paths? cms (.rows "product") = some ("/api/".toList, "/api/items/product".toList))
  obtain rfl : e' = e := Except.ok.inj (he'.symm.trans he)
  have hfree : SlashFree ["api".toList, []] := by decide
  have hplain : ¬(["api".toList, []] ≠ [[], []] ∧ ∀ s ∈ ["product", "."], Url.Plain s) := by
    decide +kernel
  refine ⟨e', o, o', he, ho, ?_, ho', htarget.trans htarget'.symm⟩
  rw [hbase, htarget]
  exact mt (Url.addresses_iff hfree .special ["product", "."]).1 hplain

end Endpoint

end ItemClient.Http
