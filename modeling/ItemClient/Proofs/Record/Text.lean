import ItemClient.Proofs.Record.Scalar

/-!
# Records that are read back

A record is written with all it is related to: as an object with its members in the order of its
type, a related record as an object in its turn, none as `null`. Reading takes the text apart in
another order, since the objects below the first have their members sorted by then, and puts the
record together from the members of its type.

**Main results** (`Tree.IsLegible.read?_text`, `Tree.IsLegible.readRelation?_text`). The text of a
record is read as the record, with all it is related to, straight and as a related record. It has to
be one of its type (`Tree.Fits`), its scalars must be told by what is written of them
(`Tree.IsRegular`), its doubles must be read back, and the text must not be nested too deeply.

A record that was read is one of its type, and what is written of its scalars tells them
(`Tree.Decodes.fits`, `Tree.Decodes.isRegular`). So nothing is asked of it but its doubles and the
nesting (`Tree.IsRead.isLegible`).
-/

namespace ItemClient

/-! ## Records of their type -/

/-- A value is one that the member may hold: a scalar of the kind, a relation of the form. -/
def MemberType.Admits {ρ : Type} : MemberType → Value ρ → Prop
  | .scalar kind, .scalar a => Scalar.hasKind kind a = true
  | .one _, .one _ => True
  | .many _, .many _ => True
  | _, _ => False

/-- The relations of all record types lead to record types of the program. -/
def Catalog.IsClosed (catalog : Catalog) : Prop :=
  ∀ s ∈ catalog, ∀ m ∈ s.members, ∀ target ∈ m.type.target?, (catalog.schema? target).isSome

theorem Catalog.IsClosed.exists_schema {catalog : Catalog} (h : catalog.IsClosed) {s : Schema}
    (hs : s ∈ catalog) {m : Member} (hm : m ∈ s.members) {target : String}
    (htarget : m.type.target? = some target) : ∃ s', catalog.schema? target = some s' :=
  Option.isSome_iff_exists.1 (h s hs m hm target htarget)

/-- What is written of the scalars of a record tells them. -/
def Record.IsRegular {ρ : Type} (r : Record ρ) : Prop :=
  ∀ a, Value.scalar a ∈ r.values → a.IsRegular

namespace Tree

/-- A record is one of its type, and so is all it is related to. -/
inductive Fits (catalog : Catalog) : Schema → Tree → Prop
  | node {s : Schema} {t : Tree} : t.record.schema = s → t.record.IsKeyed →
      List.Forall₂ (fun m v => m.type.Admits v) s.members t.record.values →
      (∀ m v, (m, v) ∈ s.members.zip t.record.values → ∀ target s', m.type.target? = some target →
        catalog.schema? target = some s' → ∀ t' ∈ v.related, Fits catalog s' t') →
      Fits catalog s t

/-- What is written of the scalars tells them, all through the tree. -/
def IsRegular (t : Tree) : Prop := ∀ t' ∈ t.nodes, t'.record.IsRegular

variable {catalog : Catalog} {s : Schema} {type : MemberType} {t t' : Tree} {v : Value Tree}
  {fields : List (String × Json)} {j : Json}

theorem IsRegular.record (h : t.IsRegular) : t.record.IsRegular :=
  h t (mem_nodes_iff.2 (.inr rfl))

theorem IsRegular.related (h : t.IsRegular) (ht' : t' ∈ t.record.related) : t'.IsRegular :=
  fun t'' ht'' => h t'' (mem_nodes_iff.2 (.inl ⟨t', ht', ht''⟩))

/-! ## What is written -/

/-- The members that are written of a record, the key first. -/
def entries (t : Tree) : List (String × Json) :=
  (t.record.schema.keyWire, t.record.key.toJson) ::
    membersToJson t.record.schema.members t.record.values

/-- These members as they are read, each with its value in order. -/
def written (t : Tree) : List (String × Json) :=
  (t.record.schema.keyWire, t.record.key.toJson) ::
    (t.record.schema.members.zip t.record.values).map fun (m, v) => (m.wire, (valueToJson v).canon)

theorem toJson_eq (t : Tree) : t.toJson = .object t.entries := by
  obtain ⟨s, key, vs⟩ := t
  rw [toJson]
  rfl

theorem membersToJson_eq (ms : List Member) (vs : List (Value Tree)) :
    membersToJson ms vs = (ms.zip vs).map fun (m, v) => (m.wire, valueToJson v) := by
  induction ms generalizing vs with
  | nil => simp [membersToJson]
  | cons m ms ih =>
    cases vs with
    | nil => simp [membersToJson]
    | cons v vs => rw [membersToJson, ih, List.zip_cons_cons, List.map_cons]

theorem relatedToJson_eq (ts : List Tree) : relatedToJson ts = ts.map toJson := by
  induction ts with
  | nil => rfl
  | cons t ts ih => rw [relatedToJson, ih, List.map_cons]

theorem canon_key (k : Key) : k.toJson.canon = k.toJson := by
  cases k <;> rfl

theorem canonMembers_entries (t : Tree) : Json.canonMembers t.entries = t.written := by
  rw [entries, Json.canonMembers, canon_key, Json.canonMembers_eq, membersToJson_eq, List.map_map]
  rfl

theorem canon_toJson (t : Tree) : t.toJson.canon = .object (Members.ofList t.written) := by
  rw [toJson_eq, Json.canon, canonMembers_entries]

theorem names_entries (t : Tree) : t.entries.map Prod.fst = t.written.map Prod.fst := by
  rw [← canonMembers_entries, Json.canonMembers_eq, List.map_map]
  rfl

/-! ## One record -/

theorem readRelated?_eq (items : List Json) :
    readRelated? catalog s items = items.mapM (ofRelation? catalog s) := by
  induction items with
  | nil => rfl
  | cons j items ih =>
    rw [List.mapM_cons, ← ih]
    cases j with
    | object fields =>
      show (do
        let t := assemble s (← readKey? s fields) (← readMembers? catalog s fields)
        return t :: (← readRelated? catalog s items)) = _
      simp [ofRelation?, ofFields?, Option.bind_assoc]
    | _ => rfl

theorem readValue?_one_object {target : String} {s' : Schema}
    (hs' : catalog.schema? target = some s') (h : ofFields? catalog s' fields = some t) :
    readValue? catalog (.one target) (.object fields) = some (.one (some t)) := by
  obtain ⟨key, given, hkey, hgiven, rfl⟩ := ofFields?_eq_some h
  simp [readValue?, hs', hkey, hgiven]

/-- What a member holds is read from what is written of it, if the records that it leads to are
read from what is written of them. -/
theorem readValue?_written (hadmits : type.Admits v) (hregular : ∀ a, v = .scalar a → a.IsRegular)
    (hclosed : ∀ target, type.target? = some target → ∃ s', catalog.schema? target = some s')
    (hrelated : ∀ target s', type.target? = some target → catalog.schema? target = some s' →
      ∀ t' ∈ v.related, ofRelation? catalog s' t'.toJson.canon = some t') :
    readValue? catalog type (valueToJson v).canon = some v := by
  cases type with
  | scalar kind =>
    cases v with
    | scalar a =>
      rw [valueToJson, readValue?, Scalar.ofJson?_toJson hadmits (hregular a rfl), Option.map_some]
    | _ => exact hadmits.elim
  | one target =>
    obtain ⟨s', hs'⟩ := hclosed target rfl
    cases v with
    | one related =>
      cases related with
      | none =>
        rw [valueToJson, Json.canon, readValue?, hs']
        · rfl
        all_goals simp
      | some t' =>
        have ht' := hrelated target s' rfl hs' t' (by simp [Value.related])
        rw [canon_toJson] at ht'
        rw [valueToJson, canon_toJson]
        exact readValue?_one_object hs' ht'
    | _ => exact hadmits.elim
  | many target =>
    obtain ⟨s', hs'⟩ := hclosed target rfl
    cases v with
    | many ts =>
      have hread : readRelated? catalog s' (ts.map fun t' => t'.toJson.canon) = some ts := by
        rw [readRelated?_eq]
        apply Optional.mapM_eq_some.2
        apply List.forall₂_map_left_iff.2
        exact List.forall₂_same.2 fun t' ht' => hrelated target s' rfl hs' t' ht'
      rw [valueToJson, Json.canon, Json.canonItems_eq, relatedToJson_eq, List.map_map, readValue?,
        hs']
      show (readRelated? catalog s' (ts.map fun t' => t'.toJson.canon)).bind _ = _
      rw [hread]
      rfl
    | _ => exact hadmits.elim

/-! ## Reading what was written -/

theorem names_written (h : t.record.schema.members.length = t.record.values.length) :
    t.written.map Prod.fst = t.record.schema.wires := by
  have hzip : (t.record.schema.members.zip t.record.values).map Prod.fst =
      t.record.schema.members := List.map_fst_zip (Nat.le_of_eq h)
  have hwire : ((t.record.schema.members.zip t.record.values).map fun p => p.1.wire) =
      t.record.schema.members.map Member.wire := by
    rw [← hzip, List.map_map]
    rw [hzip]
    rfl
  unfold written Schema.wires
  rw [List.map_cons, List.map_map]
  exact congrArg _ hwire

/-- Each declared member is read, so all named values are. -/
theorem exists_readMembers? (h : ∀ name j m, (name, j) ∈ fields → s.member? name = some m →
    ∃ v, readValue? catalog m.type j = some v) :
    ∃ given, readMembers? catalog s fields = some given := by
  induction fields with
  | nil => exact ⟨[], rfl⟩
  | cons entry fields ih =>
    obtain ⟨name, j⟩ := entry
    obtain ⟨given, hgiven⟩ := ih fun name' j' m hmem => h name' j' m (List.mem_cons_of_mem _ hmem)
    rw [readMembers?]
    cases hname : s.member? name with
    | none => exact ⟨given, hgiven⟩
    | some m =>
      obtain ⟨v, hv⟩ := h name j m List.mem_cons_self hname
      refine ⟨(name, v) :: given, ?_⟩
      simp [hv, hgiven]

/-- **A record is put together** from named values that hold its key and give its members. -/
theorem ofFields?_of_values {key : Key} {vs : List (Value Tree)} (hwires : s.wires.Nodup)
    (hkey : readKey? s fields = some key)
    (hread : ∀ name j m, (name, j) ∈ fields → s.member? name = some m →
      ∃ v, readValue? catalog m.type j = some v)
    (hvalues : List.Forall₂ (fun m v =>
      readGiven? catalog m.type (Members.get? m.wire fields) = some v) s.members vs) :
    ofFields? catalog s fields = some (node s key vs) := by
  obtain ⟨given, hgiven⟩ := exists_readMembers? hread
  obtain ⟨hlength, hvalue⟩ := List.forall₂_iff_zip.1 hvalues
  have hmap : List.Forall₂ (· = ·)
      (s.members.map fun m => (given.get? m.wire).getD (.default m.type)) vs := by
    apply List.forall₂_map_left_iff.2
    apply List.forall₂_iff_zip.2
    refine ⟨hlength, ?_⟩
    intro m v hmem
    have hm := Schema.member?_of_mem hwires (List.of_mem_zip hmem).1
    exact Option.some.inj ((get?_readMembers? hgiven hm).symm.trans (hvalue hmem))
  rw [List.forall₂_eq_eq_eq] at hmap
  show (readKey? s fields).bind (fun key => (readMembers? catalog s fields).bind fun given =>
    some (assemble s key given)) = _
  rw [hkey, Option.bind_some, hgiven, Option.bind_some, assemble, hmap]

/-- Named values that are written of a record, each under a name of its own. -/
structure Holds (t : Tree) (fields : List (String × Json)) : Prop where
  subset : ∀ entry ∈ fields, entry ∈ t.written
  get? : ∀ wire, Members.get? wire fields = Members.get? wire t.written

theorem Holds.written (t : Tree) : t.Holds t.written := ⟨fun _ h => h, fun _ => rfl⟩

theorem Holds.ofList (h : (t.written.map Prod.fst).Nodup) :
    t.Holds (Members.ofList t.written) :=
  ⟨fun _ => Members.mem_of_mem_ofList, fun _ => Members.get?_ofList h⟩

theorem member_of_written {name : String} (hwires : t.record.schema.wires.Nodup) {m : Member}
    (h : (name, j) ∈ t.written) (hm : t.record.schema.member? name = some m) :
    ∃ v, (m, v) ∈ t.record.schema.members.zip t.record.values ∧ j = (valueToJson v).canon := by
  rcases List.mem_cons.1 h with heq | hmem
  · cases heq
    rw [Schema.member?_eq_none (List.nodup_cons.1 hwires).1] at hm
    cases hm
  · obtain ⟨⟨m', v⟩, hzip, heq⟩ := List.mem_map.1 hmem
    cases heq
    rw [Schema.member?_of_mem hwires (List.of_mem_zip hzip).1] at hm
    cases hm
    exact ⟨v, hzip, rfl⟩

theorem Fits.schema_eq (h : t.Fits catalog s) : t.record.schema = s := by
  cases h
  assumption

theorem get?_written_keyWire (t : Tree) :
    Members.get? t.record.schema.keyWire t.written = some t.record.key.toJson := by
  rw [written, Members.get?, if_pos rfl]

theorem readKey?_written (hkeyed : t.record.IsKeyed) (hfields : t.Holds fields) :
    readKey? t.record.schema fields = some t.record.key := by
  have hkind : t.record.key.kind = t.record.schema.keyKind := hkeyed
  unfold readKey?
  rw [hfields.get?, get?_written_keyWire]
  show Key.ofJson? t.record.schema.keyKind t.record.key.toJson = _
  rw [← hkind, Key.ofJson?_toJson]

theorem get?_written {m : Member} (hwires : t.record.schema.wires.Nodup)
    (hlength : t.record.schema.members.length = t.record.values.length)
    (h : (m, v) ∈ t.record.schema.members.zip t.record.values) :
    Members.get? m.wire t.written = some (valueToJson v).canon := by
  have hnodup : (t.written.map Prod.fst).Nodup := by
    rw [names_written hlength]
    exact hwires
  apply (Members.get?_eq_some_iff hnodup).2
  exact List.mem_cons_of_mem _ (List.mem_map.2 ⟨(m, v), h, rfl⟩)

/-- **A record is read from what is written of it,** if those that it is related to are. -/
theorem ofFields?_written (hcatalog : catalog.IsClosed) (hs : s ∈ catalog)
    (hwires : s.wires.Nodup) (hfits : t.Fits catalog s) (hregular : t.record.IsRegular)
    (hfields : t.Holds fields)
    (hrelated : ∀ m v, (m, v) ∈ s.members.zip t.record.values → ∀ target s',
      m.type.target? = some target → catalog.schema? target = some s' →
        ∀ t' ∈ v.related, ofRelation? catalog s' t'.toJson.canon = some t') :
    ofFields? catalog s fields = some t := by
  cases hfits with
  | node hschema hkeyed hadmits hsub =>
    subst hschema
    obtain ⟨hlength, hadmits⟩ := List.forall₂_iff_zip.1 hadmits
    have hread : ∀ m v, (m, v) ∈ t.record.schema.members.zip t.record.values →
        readValue? catalog m.type (valueToJson v).canon = some v := by
      intro m v hmem
      obtain ⟨hm, hv⟩ := List.of_mem_zip hmem
      apply readValue?_written (hadmits hmem)
      · intro a ha
        exact hregular a (ha ▸ hv)
      · intro target
        exact hcatalog.exists_schema hs hm
      · exact hrelated m v hmem
    have hnode : node t.record.schema t.record.key t.record.values = t := by
      cases t
      rfl
    rw [← hnode]
    apply ofFields?_of_values hwires (readKey?_written hkeyed hfields)
    · intro name j m hmem hm
      obtain ⟨v, hzip, rfl⟩ := member_of_written hwires (hfields.subset _ hmem) hm
      exact ⟨v, hread m v hzip⟩
    · apply List.forall₂_iff_zip.2
      refine ⟨hlength, ?_⟩
      intro m v hmem
      rw [hfields.get?, get?_written hwires hlength hmem]
      exact hread m v hmem

theorem Fits.length_eq (h : t.Fits catalog s) :
    t.record.schema.members.length = t.record.values.length := by
  cases h with
  | node hschema _ hadmits _ =>
    rw [hschema]
    exact hadmits.length_eq

theorem Fits.nodup_written (h : t.Fits catalog s) (hwires : s.wires.Nodup) :
    (t.written.map Prod.fst).Nodup := by
  rw [names_written h.length_eq, h.schema_eq]
  exact hwires

/-- All that a record of its type is related to is of the type that the relation leads to. -/
theorem Fits.related {m : Member} {target : String} {s' : Schema} (h : t.Fits catalog s)
    (hmem : (m, v) ∈ s.members.zip t.record.values) (htarget : m.type.target? = some target)
    (hs' : catalog.schema? target = some s') (ht' : t' ∈ v.related) : t'.Fits catalog s' := by
  cases h with
  | node _ _ _ hsub => exact hsub m v hmem target s' htarget hs' t' ht'

/-- **A record is read from what is written of it,** with all it is related to. -/
theorem ofFields?_of_holds {s : Schema} {t : Tree} {fields : List (String × Json)}
    (hcatalog : catalog.IsClosed) (hwellFormed : catalog.WellFormed) (hs : s ∈ catalog)
    (hfits : t.Fits catalog s) (hregular : t.IsRegular) (hfields : t.Holds fields) :
    ofFields? catalog s fields = some t := by
  apply ofFields?_written hcatalog hs (hwellFormed s hs) hfits hregular.record hfields
  intro m v hmem target s' htarget hs' t' ht'
  have hrelated : t' ∈ t.record.related :=
    Record.mem_related_iff.2 ⟨v, (List.of_mem_zip hmem).2, ht'⟩
  have hs'' : s' ∈ catalog := List.mem_of_find?_eq_some hs'
  have hfits' := hfits.related hmem htarget hs' ht'
  -- Its object has been through a value, which sorts the members.
  rw [canon_toJson]
  exact ofFields?_of_holds hcatalog hwellFormed hs'' hfits' (hregular.related hrelated)
    (.ofList (hfits'.nodup_written (hwellFormed s' hs'')))
termination_by sizeOf t
decreasing_by exact sizeOf_lt_of_mem_related hrelated

theorem ofRelation?_toJson (hcatalog : catalog.IsClosed) (hwellFormed : catalog.WellFormed)
    (hs : s ∈ catalog) (hfits : t.Fits catalog s) (hregular : t.IsRegular) :
    ofRelation? catalog s t.toJson.canon = some t := by
  rw [canon_toJson]
  exact ofFields?_of_holds hcatalog hwellFormed hs hfits hregular
    (.ofList (hfits.nodup_written (hwellFormed s hs)))

/-! ## Texts -/

theorem pick?_outlineMembers {known : List String} {members : List (String × Json)}
    (hnodup : (members.map Prod.fst).Nodup) (hknown : ∀ m ∈ members, m.1 ∈ known) :
    Json.Outline.pick? known (Json.outlineMembers members) =
      some (members.map fun m => (m.1, m.2.outline)) := by
  induction members with
  | nil => rfl
  | cons m members ih =>
    obtain ⟨name, a⟩ := m
    obtain ⟨hfresh, hnodup⟩ := List.nodup_cons.1 hnodup
    obtain ⟨hname, hothers⟩ := List.forall_mem_cons.1 hknown
    have hnew : (members.map fun m => (m.1, m.2.outline)).any (·.1 = name) = false := by
      apply List.any_eq_false.2
      intro entry hentry heq
      obtain ⟨m, hm, rfl⟩ := List.mem_map.1 hentry
      exact hfresh (List.mem_map.2 ⟨m, hm, of_decide_eq_true heq⟩)
    rw [Json.outlineMembers, Json.Outline.pick?, ih hnodup hothers]
    simp [hname, hnew]

theorem mapM_toJson? {members : List (String × Json)} {d : Nat}
    (h : ∀ m ∈ members, m.2.depth ≤ d) :
    (members.map fun m => (m.1, m.2.outline)).mapM
      (fun (name, value) => do return (name, ← value.toJson? d)) =
        some (Json.canonMembers members) := by
  rw [Json.canonMembers_eq]
  apply Optional.mapM_eq_some.2
  apply List.forall₂_map_left_iff.2
  apply List.forall₂_map_right_iff.2
  apply List.forall₂_same.2
  intro m hm
  show (m.2.outline.toJson? d).bind _ = _
  rw [Json.toJson?_outline m.2 (h m hm)]
  rfl

/-- What is written of a record is read from its text: the record is one of its type, its scalars
are told by what is written of them, its doubles are read back, and it is not nested too deeply. -/
structure IsLegible (catalog : Catalog) (s : Schema) (t : Tree) : Prop where
  fits : t.Fits catalog s
  isRegular : t.IsRegular
  doubles : t.toJson.DoublesReadBack
  depth : t.toJson.depth ≤ Json.maxDepth

/-- **The text of a record is read as the record.** -/
theorem IsLegible.read?_text (hcatalog : catalog.IsClosed) (hwellFormed : catalog.WellFormed)
    (hs : s ∈ catalog) (h : t.IsLegible catalog s) :
    read? catalog s (Text.symbols t.toJson.text) = some t := by
  have hwires := hwellFormed s hs
  have hnames : t.entries.map Prod.fst = s.wires := by
    rw [names_entries, names_written h.fits.length_eq, h.fits.schema_eq]
  -- Straight from the text the members come in the order of the type, with their outlines.
  have hfields : t.toJson.outline.fields? s.wires =
      some (t.entries.map fun m => (m.1, m.2.outline)) := by
    rw [toJson_eq]
    apply pick?_outlineMembers
    · rw [hnames]
      exact hwires
    · intro m hm
      exact hnames ▸ List.mem_map_of_mem hm
  have hdepth : ∀ m ∈ t.entries, m.2.depth ≤ Json.maxDepth - 1 := by
    have hle := h.depth
    rw [toJson_eq, Json.depth] at hle
    exact Json.depthOfMembers_le.1 (Nat.le_sub_one_of_lt hle)
  have hvalues := mapM_toJson? hdepth
  rw [canonMembers_entries] at hvalues
  have hread := ofFields?_of_holds hcatalog hwellFormed hs h.fits h.isRegular (.written t)
  unfold read?
  exact Option.bind_eq_some_iff.2 ⟨_, Json.Outline.read?_text h.doubles,
    Option.bind_eq_some_iff.2 ⟨_, hfields, Option.bind_eq_some_iff.2 ⟨_, hvalues, hread⟩⟩⟩

/-- **The text of a record is read as a related record.** -/
theorem IsLegible.readRelation?_text (hcatalog : catalog.IsClosed)
    (hwellFormed : catalog.WellFormed) (hs : s ∈ catalog) (h : t.IsLegible catalog s) :
    readRelation? catalog s (Text.symbols t.toJson.text) = some t := by
  have hread : Json.read? (Text.symbols t.toJson.text) = some t.toJson.canon :=
    Json.ofText?_text h.doubles h.depth
  unfold readRelation?
  rw [hread, Option.bind_some, ofRelation?_toJson hcatalog hwellFormed hs h.fits h.isRegular]

end Tree

/-! ## What was read -/

theorem Key.kind_of_ofJson? {kind : KeyKind} {j : Json} {k : Key} (h : ofJson? kind j = some k) :
    k.kind = kind := by
  cases kind with
  | uuid =>
    cases j with
    | string s =>
      obtain ⟨u, -, rfl⟩ := Option.map_eq_some_iff.1 h
      rfl
    | _ => cases h
  | text =>
    cases j with
    | string s =>
      cases h
      rfl
    | _ => cases h
  | integer =>
    obtain ⟨n, -, rfl⟩ : ∃ n, Long.ofJson? j = some n ∧ integer n = k := by
      simpa [ofJson?] using h
    rfl

/-- What a JSON value gives for the members of a record is in order. -/
def Schema.GivesOrdered (s : Schema) (j : Json) : Prop :=
  ∀ wire j', s.given? j wire = some j' → j'.Ordered

theorem Json.Ordered.givesOrdered {j : Json} (h : j.Ordered) (s : Schema) : s.GivesOrdered j := by
  intro wire j' hgiven
  cases h with
  | array hitems => exact hitems j' (List.of_mem_zip (Members.mem_of_get? hgiven)).2
  | object _ hmembers => exact hmembers _ (Members.mem_of_get? hgiven)
  | _ => cases hgiven

theorem MemberType.ordered_of_mem_standing {type : MemberType} {j j' : Json} (h : j.Ordered)
    (hj' : j' ∈ type.standing j) : j'.Ordered := by
  cases type with
  | scalar kind => cases hj'
  | one target =>
    have hself : j' = j ∨ j' ∈ ([] : List Json) := by
      cases j <;> simp_all [standing]
    rcases hself with rfl | hnil
    · exact h
    · cases hnil
  | many target =>
    cases h with
    | array hitems => exact hitems j' hj'
    | _ => cases hj'

namespace Tree

variable {catalog : Catalog} {s : Schema} {type : MemberType} {t t' : Tree} {v : Value Tree}
  {j : Json}

theorem Decodes.isKeyed (h : Decodes catalog s j t) : t.record.IsKeyed := by
  have hkey := h.key
  unfold Schema.keyOf? at hkey
  show t.record.key.kind = t.record.schema.keyKind
  rw [h.schema]
  split at hkey
  · exact Key.kind_of_ofJson? hkey
  · rw [← Option.some.inj hkey]
    cases s.keyKind <;> rfl

/-- What a member holds that was read is what it may hold, and is told by what is written of it. -/
theorem admits_of_readGiven? {given : Option Json} (hgiven : ∀ j, given = some j → j.Ordered)
    (h : readGiven? catalog type given = some v) :
    type.Admits v ∧ ∀ a, v = .scalar a → a.IsRegular := by
  have hholds := (readGiven?_eq_some h).1
  cases type with
  | scalar kind =>
    cases given with
    | none =>
      cases h
      obtain ⟨hkind, hregular⟩ := Scalar.isRead_default kind
      refine ⟨hkind, ?_⟩
      intro a ha
      cases ha
      exact hregular
    | some j =>
      change readValue? catalog (.scalar kind) j = some v at h
      rw [readValue?] at h
      obtain ⟨a, ha, rfl⟩ := Option.map_eq_some_iff.1 h
      have hread := Scalar.isRead_of_ofJson? (hgiven j rfl) ha
      refine ⟨hread.hasKind, ?_⟩
      intro a' ha'
      cases ha'
      exact hread.isRegular
  | one target =>
    cases v with
    | one related => exact ⟨trivial, fun a ha => by cases ha⟩
    | _ => exact hholds.elim
  | many target =>
    cases v with
    | many related => exact ⟨trivial, fun a ha => by cases ha⟩
    | _ => exact hholds.elim

/-- What a record that was read leads to was read in the same way. -/
theorem Decodes.exists_of_zip (hcatalog : catalog.WellFormed) (h : Decodes catalog s j t)
    (hordered : s.GivesOrdered j) {m : Member} (hmem : (m, v) ∈ s.members.zip t.record.values)
    (ht' : t' ∈ v.related) : ∃ target s' j', m.type.target? = some target ∧
      catalog.schema? target = some s' ∧ Decodes catalog s' j' t' ∧ s'.GivesOrdered j' := by
  have hread := (List.forall₂_iff_zip.1 h.values).2 hmem
  rcases (readGiven?_eq_some hread).2 with hnone | ⟨target, s', htarget, hs', hall⟩
  · rw [hnone] at ht'
    cases ht'
  · obtain ⟨j', hzip, hj'⟩ := hall.exists_left ht'
    obtain ⟨given, hgiven, hstanding⟩ := List.mem_flatMap.1 (List.of_mem_zip hzip).1
    have hgiven := hordered _ _ (Option.mem_toList.1 hgiven)
    have hj := MemberType.ordered_of_mem_standing hgiven hstanding
    exact ⟨target, s', j', htarget, hs', decodes_of_ofRelation? (hcatalog.wires hs') hj',
      hj.givesOrdered s'⟩

/-- **A record that was read is one of its type.** -/
theorem Decodes.fits {s : Schema} {j : Json} {t : Tree} (hcatalog : catalog.WellFormed)
    (h : Decodes catalog s j t) (hordered : s.GivesOrdered j) : t.Fits catalog s := by
  refine .node h.schema h.isKeyed ?_ ?_
  · apply List.forall₂_iff_zip.2
    refine ⟨h.values.length_eq, ?_⟩
    intro m v hmem
    have hread := (List.forall₂_iff_zip.1 h.values).2 hmem
    exact (admits_of_readGiven? (hordered m.wire) hread).1
  · intro m v hmem target s' htarget hs' t' ht'
    obtain ⟨target', s'', j', htarget', hs'', h', hordered'⟩ :=
      h.exists_of_zip hcatalog hordered hmem ht'
    obtain rfl : target' = target := Option.some.inj (htarget'.symm.trans htarget)
    obtain rfl : s'' = s' := Option.some.inj (hs''.symm.trans hs')
    have hrelated : t' ∈ t.record.related :=
      Record.mem_related_iff.2 ⟨v, (List.of_mem_zip hmem).2, ht'⟩
    exact h'.fits hcatalog hordered'
termination_by sizeOf t
decreasing_by exact sizeOf_lt_of_mem_related hrelated

/-- **What is written of a record that was read tells its scalars.** -/
theorem Decodes.isRegular {s : Schema} {j : Json} {t : Tree} (hcatalog : catalog.WellFormed)
    (h : Decodes catalog s j t) (hordered : s.GivesOrdered j) : t.IsRegular := by
  intro t'' ht''
  rcases mem_nodes_iff.1 ht'' with ⟨t', hrelated, ht''⟩ | rfl
  · obtain ⟨v, hv, ht'⟩ := Record.mem_related_iff.1 hrelated
    obtain ⟨m, hmem, -⟩ := h.values.exists_left hv
    obtain ⟨_, s', j', -, -, h', hordered'⟩ := h.exists_of_zip hcatalog hordered hmem ht'
    exact h'.isRegular hcatalog hordered' t'' ht''
  · intro a ha
    obtain ⟨m, -, hread⟩ := h.values.exists_left ha
    exact (admits_of_readGiven? (hordered m.wire) hread).2 a rfl
termination_by sizeOf t
decreasing_by exact sizeOf_lt_of_mem_related hrelated

/-! ## What was read from a text -/

variable {input : List Text.Symbol}

/-- A text is read as a record, straight or as a related record. -/
def IsRead (catalog : Catalog) (s : Schema) (input : List Text.Symbol) (t : Tree) : Prop :=
  read? catalog s input = some t ∨ readRelation? catalog s input = some t

theorem exists_decodes_of_read? (hwires : s.wires.Nodup) (h : read? catalog s input = some t) :
    ∃ j, Decodes catalog s j t ∧ s.GivesOrdered j := by
  unfold read? at h
  obtain ⟨outline, -, h⟩ := Option.bind_eq_some_iff.1 h
  obtain ⟨fields, -, h⟩ := Option.bind_eq_some_iff.1 h
  obtain ⟨values, hvalues, h⟩ := Option.bind_eq_some_iff.1 h
  refine ⟨.object values, decodes_of_ofFields? hwires rfl (fun _ => rfl) h, ?_⟩
  intro wire j hj
  obtain ⟨⟨name, o⟩, -, hentry⟩ :=
    (Optional.mapM_eq_some.1 hvalues).exists_left (Members.mem_of_get? hj)
  obtain ⟨j', hread, heq⟩ := Option.bind_eq_some_iff.1 hentry
  cases heq
  exact Json.ordered_of_toJson? o hread

theorem exists_decodes_of_readRelation? (hwires : s.wires.Nodup)
    (h : readRelation? catalog s input = some t) :
    ∃ j, Decodes catalog s j t ∧ s.GivesOrdered j := by
  unfold readRelation? at h
  obtain ⟨j, hj, h⟩ := Option.bind_eq_some_iff.1 h
  obtain ⟨outline, -, hread⟩ := Option.bind_eq_some_iff.1 hj
  exact ⟨j, decodes_of_ofRelation? hwires h, (Json.ordered_of_toJson? outline hread).givesOrdered s⟩

/-- **A record that was read is read again,** if its doubles are and it is not nested too deeply. -/
theorem IsRead.isLegible (hcatalog : catalog.WellFormed) (hs : s ∈ catalog)
    (h : t.IsRead catalog s input) (hdoubles : t.toJson.DoublesReadBack)
    (hdepth : t.toJson.depth ≤ Json.maxDepth) : t.IsLegible catalog s := by
  obtain ⟨j, hdecodes, hordered⟩ : ∃ j, Decodes catalog s j t ∧ s.GivesOrdered j :=
    h.elim (exists_decodes_of_read? (hcatalog s hs))
      (exists_decodes_of_readRelation? (hcatalog s hs))
  exact ⟨hdecodes.fits hcatalog hordered, hdecodes.isRegular hcatalog hordered, hdoubles, hdepth⟩

end Tree

end ItemClient
