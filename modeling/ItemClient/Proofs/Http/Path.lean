import Mathlib.Data.List.Forall2
import ItemClient.Http.Url
import ItemClient.Proofs.Http.Percent
import ItemClient.Proofs.Outcomes

/-!
# Paths and their segments

**Paths as text.** The names of a path have no slash in them (`SlashFree`), in every URL that was
read (`Url.read_proper`). Such names are known by their text (`namesText_inj`).

**Segments.** What is written for a segment has no slash either, and decodes to the segment without
its tabs and line breaks. A text that stands for the same or the upper level decodes to the dots
that it stands for, so a segment that is `Plain` is never written as one.
-/

namespace ItemClient

/-! ## Splitting a text -/

namespace Text

variable {separator : Char} {cs piece : List Char} {pieces : List (List Char)}

theorem split_eq_cons (separator : Char) (cs : List Char) :
    ∃ piece pieces, split separator cs = piece :: pieces := by
  cases cs with
  | nil => exact ⟨_, _, rfl⟩
  | cons c cs =>
    rw [split]
    split
    · exact ⟨_, _, rfl⟩
    · split <;> exact ⟨_, _, rfl⟩

theorem separator_not_mem_of_mem_split (h : piece ∈ split separator cs) : separator ∉ piece := by
  induction cs generalizing piece with
  | nil =>
    rw [split, List.mem_singleton] at h
    exact h ▸ List.not_mem_nil
  | cons c cs ih =>
    obtain ⟨first, others, heq⟩ := split_eq_cons separator cs
    simp only [split, heq] at h
    rw [heq] at ih
    split at h
    · rcases List.mem_cons.1 h with rfl | h
      · exact List.not_mem_nil
      · exact ih h
    · rename_i hc
      rcases List.mem_cons.1 h with rfl | h
      · intro hmem
        rcases List.mem_cons.1 hmem with rfl | hmem
        · exact hc rfl
        · exact ih List.mem_cons_self hmem
      · exact ih (List.mem_cons_of_mem _ h)

theorem split_append (hcs : separator ∉ cs) {rest : List Char}
    (h : split separator rest = piece :: pieces) :
    split separator (cs ++ rest) = (cs ++ piece) :: pieces := by
  induction cs with
  | nil => exact h
  | cons c cs ih =>
    rw [List.mem_cons, not_or] at hcs
    rw [List.cons_append, split, ih hcs.2]
    exact if_neg (Ne.symm hcs.1)

end Text

namespace Http

/-! ## Names without slashes -/

/-- No name has a slash in it. -/
def SlashFree (names : List (List Char)) : Prop := ∀ name ∈ names, '/' ∉ name

instance (names : List (List Char)) : Decidable (SlashFree names) :=
  inferInstanceAs (Decidable (∀ name ∈ names, '/' ∉ name))

/-- Names as text, with a slash before each. -/
def namesText (names : List (List Char)) : List Char := names.flatMap ('/' :: ·)

@[simp] theorem namesText_append (as bs : List (List Char)) :
    namesText (as ++ bs) = namesText as ++ namesText bs := List.flatMap_append

namespace SlashFree

variable {as bs : List (List Char)}

theorem append (ha : SlashFree as) (hb : SlashFree bs) : SlashFree (as ++ bs) := fun name h =>
  (List.mem_append.1 h).elim (ha name) (hb name)

theorem of_subset (h : as ⊆ bs) (hb : SlashFree bs) : SlashFree as := fun name hname =>
  hb name (h hname)

theorem singleton {name : List Char} (h : '/' ∉ name) : SlashFree [name] := fun n hn => by
  rwa [List.mem_singleton.1 hn]

theorem singleton_nil : SlashFree [[]] := singleton List.not_mem_nil

theorem dropLast (h : SlashFree as) : SlashFree as.dropLast := h.of_subset (List.dropLast_subset as)

end SlashFree

theorem split_namesText {names : List (List Char)} (h : SlashFree names) :
    Text.split '/' (namesText names) = [] :: names := by
  induction names with
  | nil => rfl
  | cons name names ih =>
    have hname : '/' ∉ name := h name List.mem_cons_self
    have hrest : Text.split '/' (name ++ namesText names) = (name ++ []) :: names :=
      Text.split_append hname (ih fun n hn => h n (List.mem_cons_of_mem _ hn))
    show Text.split '/' ('/' :: (name ++ namesText names)) = _
    rw [Text.split, hrest, List.append_nil]
    rfl

/-- Names without slashes are known by their text. -/
theorem namesText_inj {as bs : List (List Char)} (ha : SlashFree as) (hb : SlashFree bs)
    (h : namesText as = namesText bs) : as = bs := by
  have hsplit := split_namesText ha
  rw [h, split_namesText hb] at hsplit
  exact (List.cons.inj hsplit).2.symm

namespace Url

variable {kind : SchemeKind} {path names : List (List Char)} {cs : List Char} {u : Url}

/-! ## The path of a URL that was read -/

theorem resolve_slashFree {segments : List (List Char)} (hpath : SlashFree path)
    (h : SlashFree segments) : SlashFree (resolve path segments) := by
  induction segments generalizing path with
  | nil => exact hpath
  | cons segment rest ih =>
    have hrest : SlashFree rest := h.of_subset (List.subset_cons_self _ _)
    have hend : SlashFree (if rest.isEmpty = true then [[]] else []) := by
      split
      · exact .singleton_nil
      · exact fun name hname => absurd hname List.not_mem_nil
    rw [resolve]
    split
    · exact ih (hpath.dropLast.append hend) hrest
    · split
      · exact ih (hpath.append hend) hrest
      · exact ih (hpath.append (.singleton (h segment List.mem_cons_self))) hrest

theorem rawSegments_slashFree (kind : SchemeKind) (cs : List Char) :
    SlashFree (rawSegments kind cs) := fun _ h => Text.separator_not_mem_of_mem_split h

theorem readPath_slashFree (kind : SchemeKind) (cs : List Char) : SlashFree (readPath kind cs) := by
  have hraw := rawSegments_slashFree kind cs
  have hencoded : ∀ {segments : List (List Char)}, SlashFree segments →
      SlashFree (resolve [] (segments.map (percentEncode inPath))) := by
    intro segments h
    refine resolve_slashFree (fun name hname => absurd hname List.not_mem_nil) ?_
    intro name hname
    obtain ⟨segment, hsegment, rfl⟩ := List.mem_map.1 hname
    exact slash_not_mem_percentEncode fun hmem => absurd hmem (h segment hsegment)
  unfold readPath
  split
  · split
    · exact fun name hname => absurd hname List.not_mem_nil
    · exact .singleton_nil
  · rename_i heq
    exact hencoded (hraw.of_subset (heq ▸ List.subset_cons_self _ _))
  · exact hencoded hraw

theorem dropLeadingEmpty_subset (names : List (List Char)) : dropLeadingEmpty names ⊆ names := by
  induction names using dropLeadingEmpty.induct with
  | case1 segment rest ih =>
    rw [dropLeadingEmpty]
    exact List.Subset.trans ih (List.subset_cons_self _ _)
  | case2 path h =>
    rw [dropLeadingEmpty]
    · exact List.Subset.refl _
    · exact h

/-- The names of the path of a URL have no slashes in them. -/
def Proper (u : Url) : Prop := ∀ names, u.path = .segments names → SlashFree names

theorem proper_segments (h : SlashFree names) (hpath : u.path = .segments names) : u.Proper := by
  intro names' heq
  rw [hpath] at heq
  cases heq
  exact h

theorem readWithAuthority_proper {scheme : List Char}
    (h : readWithAuthority kind scheme cs = .ok u) : u.Proper := by
  obtain ⟨a, -, h⟩ := Result.bind_eq_ok.1 h
  cases h
  exact proper_segments (readPath_slashFree _ _) rfl

theorem readFile_proper {scheme : List Char} (h : readFile scheme cs = .ok u) : u.Proper := by
  have hnames (rest : List Char) : SlashFree (dropLeadingEmpty (readPath .file rest)) :=
    (readPath_slashFree _ _).of_subset (dropLeadingEmpty_subset _)
  simp only [readFile] at h
  split at h
  · split at h
    · obtain ⟨host, -, h⟩ := Result.bind_eq_ok.1 h
      cases h
      exact proper_segments (hnames _) rfl
    · cases h
      exact proper_segments (hnames _) rfl
  · cases h
    exact proper_segments (hnames _) rfl

theorem readHierarchy_proper {scheme : List Char} (h : readHierarchy scheme cs = .ok u) :
    u.Proper := by
  unfold readHierarchy at h
  split at h
  · exact readWithAuthority_proper h
  · exact readFile_proper h
  · exact readWithAuthority_proper h
  · cases h
    exact proper_segments (readPath_slashFree _ _) rfl
  · cases h
    intro names heq
    cases heq

/-- A URL that was read has no slashes in the names of its path. -/
theorem read_proper {s : String} (h : read s = .ok u) : u.Proper := by
  unfold read at h
  split at h
  · cases h
  · obtain ⟨v, hv, h⟩ := Result.bind_eq_ok.1 h
    cases h
    show v.Proper
    exact readHierarchy_proper hv

/-! ## Segments and what is written for them -/

/-- What is encoded in a segment that is pushed. -/
def pushedSet (kind : SchemeKind) : Char → Bool :=
  if kind = .other then inSegment else inSpecialSegment

/-- A segment without tabs and line breaks. -/
def kept (segment : String) : List Char :=
  segment.toList.filter fun c => c ≠ '\t' ∧ c ≠ '\n' ∧ c ≠ '\r'

/-- What is written for a segment. -/
def written (kind : SchemeKind) (segment : String) : List Char :=
  percentEncode (pushedSet kind) (kept segment)

theorem pushSegment_eq (kind : SchemeKind) (path : List (List Char)) (segment : String) :
    pushSegment kind path segment =
      if segment = "." ∨ segment = ".." then path else pushEncoded path (written kind segment) :=
  rfl

/-- A segment that is taken as it is: it stands for no level and has no tabs and line breaks. -/
def Plain (segment : String) : Prop :=
  segment ≠ "." ∧ segment ≠ ".." ∧ ∀ c ∈ segment.toList, c ≠ '\t' ∧ c ≠ '\n' ∧ c ≠ '\r'

theorem kept_eq_iff {segment : String} :
    kept segment = segment.toList ↔ ∀ c ∈ segment.toList, c ≠ '\t' ∧ c ≠ '\n' ∧ c ≠ '\r' := by
  rw [kept, List.filter_eq_self]
  simp only [decide_eq_true_eq]

instance (segment : String) : Decidable (Plain segment) :=
  decidable_of_iff (segment ≠ "." ∧ segment ≠ ".." ∧ kept segment = segment.toList)
    (by rw [Plain, kept_eq_iff])

theorem percentDecode_written (kind : SchemeKind) (segment : String) :
    percentDecode (written kind segment) = (kept segment).flatMap String.utf8EncodeChar := by
  refine percentDecode_percentEncode ?_ _
  cases kind <;> rfl

theorem slash_not_mem_written (kind : SchemeKind) (segment : String) :
    '/' ∉ written kind segment := by
  refine slash_not_mem_percentEncode fun _ => ?_
  cases kind <;> rfl

theorem Plain.decodes {segment : String} (h : Plain segment) (kind : SchemeKind) :
    percentDecode (written kind segment) = Text.encode segment := by
  rw [percentDecode_written, kept_eq_iff.2 h.2.2, Text.encode]

/-! ## Segments that stand for a level -/

theorem eq_toLower_or_eq_toUpper (c : Char) : c = c.toLower ∨ c = c.toLower.toUpper := by
  by_cases hc : c.val ≥ 'A'.val ∧ c.val ≤ 'Z'.val
  · have hfirst : 65 ≤ c.toNat := UInt32.le_iff_toNat_le.1 hc.1
    have hlast : c.toNat ≤ 90 := UInt32.le_iff_toNat_le.1 hc.2
    have hlower : c.toLower.val = c.val + 32 := congrArg Char.val (dif_pos hc : c.toLower = _)
    have hsum : (c.val + 32).toNat = c.toNat + 32 := by
      rw [UInt32.toNat_add]
      exact Nat.mod_eq_of_lt (by omega : c.toNat + 32 < 2 ^ 32)
    have hrange : 'a'.val ≤ c.toLower.val ∧ c.toLower.val ≤ 'z'.val := by
      rw [hlower, UInt32.le_iff_toNat_le, UInt32.le_iff_toNat_le, hsum]
      exact ⟨Nat.add_le_add_right hfirst 32, Nat.add_le_add_right hlast 32⟩
    have hupper : c.toLower.toUpper.val = c.toLower.val + ('A'.val - 'a'.val) := by
      delta Char.toUpper
      rw [dif_pos hrange]
    refine .inr (Char.ext ?_)
    rw [hupper, hlower, UInt32.add_assoc]
    exact (UInt32.add_zero _).symm
  · exact .inl (dif_neg hc : c.toLower = c).symm

/-- The texts that are a text in lower case. -/
def spellings : List Char → List (List Char)
  | [] => [[]]
  | c :: cs => (spellings cs).flatMap fun rest => [c :: rest, c.toUpper :: rest]

theorem mem_spellings {name : List Char} (h : name.map Char.toLower = cs) :
    name ∈ spellings cs := by
  induction name generalizing cs with
  | nil =>
    subst h
    exact List.mem_singleton_self _
  | cons c name ih =>
    subst h
    refine List.mem_flatMap.2 ⟨name, ih rfl, ?_⟩
    rcases eq_toLower_or_eq_toUpper c with hc | hc
    · rw [← hc]
      exact List.mem_cons_self
    · rw [← hc]
      exact List.mem_cons_of_mem _ List.mem_cons_self

theorem exists_spelling {name : List Char} {texts : List String}
    (h : texts.contains (Text.lowerAscii (String.ofList name)) = true) :
    ∃ text ∈ texts, name ∈ spellings text.toList := by
  refine ⟨_, List.contains_iff_mem.1 h, mem_spellings ?_⟩
  rw [Text.lowerAscii, String.toList_ofList, String.toList_ofList]

theorem decode_of_isSameLevel {name : List Char} (h : isSameLevel name = true) :
    percentDecode name = Text.encode "." := by
  obtain ⟨text, htext, hname⟩ := exists_spelling h
  have hall : ∀ text ∈ [".", "%2e"], ∀ name ∈ spellings text.toList,
      percentDecode name = Text.encode "." := by decide
  exact hall text htext name hname

theorem decode_of_isUpperLevel {name : List Char} (h : isUpperLevel name = true) :
    percentDecode name = Text.encode ".." := by
  obtain ⟨text, htext, hname⟩ := exists_spelling h
  have hall : ∀ text ∈ ["..", "%2e.", ".%2e", "%2e%2e"], ∀ name ∈ spellings text.toList,
      percentDecode name = Text.encode ".." := by decide
  exact hall text htext name hname

end Url

end Http

end ItemClient
