import ItemClient.Http.Percent

/-!
# Percent encoding read back

What `percentEncode` writes is read back by `percentDecode`, as the UTF-8 form of the text, whenever
the percent sign is among the characters that are encoded (`percentDecode_percentEncode`). A
character of the encoded set does not occur in what is written, unless the encoding itself is
written with it (`not_mem_percentEncode`), and a text is known by its UTF-8 form
(`Text.encode_inj`).
-/

namespace ItemClient

/-! ## The bytes of a text -/

namespace Text

theorem utf8_inj {cs ds : List Char}
    (h : cs.flatMap String.utf8EncodeChar = ds.flatMap String.utf8EncodeChar) : cs = ds := by
  have hbytes : (String.ofList cs).toByteArray = (String.ofList ds).toByteArray := by
    rw [String.toByteArray_ofList, String.toByteArray_ofList, List.utf8Encode, List.utf8Encode, h]
  exact String.ofList_injective (String.toByteArray_inj.1 hbytes)

theorem encode_inj {s t : String} (h : encode s = encode t) : s = t :=
  String.toList_inj.1 (utf8_inj h)

end Text

namespace Http

variable {set : Char → Bool} {c : Char}

/-! ## Reading back -/

theorem percentDecode_cons (h : c ≠ '%') (rest : List Char) :
    percentDecode (c :: rest) = String.utf8EncodeChar c ++ percentDecode rest := by
  rw [percentDecode]
  rintro a b rest' rfl
  exact absurd rfl h

theorem hexValue?_upperHexDigit {n : Nat} (h : n < 16) :
    Text.hexValue? (upperHexDigit n) = some n := by
  have hall : ∀ n : Fin 16, Text.hexValue? (upperHexDigit n) = some n.val := by decide
  exact hall ⟨n, h⟩

theorem percentDecode_percentByte (b : UInt8) (rest : List Char) :
    percentDecode (percentByte b ++ rest) = b :: percentDecode rest := by
  have hb : b.toNat < 256 := b.toNat_lt
  have hbyte : hexByte? (upperHexDigit (b.toNat / 16)) (upperHexDigit (b.toNat % 16)) = some b := by
    have hsum : 16 * (b.toNat / 16) + b.toNat % 16 = b.toNat := by omega
    rw [hexByte?, hexValue?_upperHexDigit (by omega), hexValue?_upperHexDigit (by omega)]
    show some (UInt8.ofNat (16 * (b.toNat / 16) + b.toNat % 16)) = some b
    rw [hsum, UInt8.ofNat_toNat]
  rw [percentByte, List.cons_append, List.cons_append, List.cons_append, List.nil_append,
    percentDecode, hbyte]

theorem percentDecode_percentBytes (bytes : List UInt8) (rest : List Char) :
    percentDecode (bytes.flatMap percentByte ++ rest) = bytes ++ percentDecode rest := by
  induction bytes with
  | nil => rfl
  | cons b bytes ih =>
    rw [List.flatMap_cons, List.append_assoc, percentDecode_percentByte, ih, List.cons_append]

/-- What is encoded is read back, when the percent sign is encoded too. -/
theorem percentDecode_percentEncode (h : set '%' = true) (cs : List Char) :
    percentDecode (percentEncode set cs) = cs.flatMap String.utf8EncodeChar := by
  induction cs with
  | nil => rfl
  | cons c cs ih =>
    rw [percentEncode, List.flatMap_cons, ← percentEncode, List.flatMap_cons, ← ih]
    by_cases hc : set c = true
    · rw [if_pos hc, percentChar, percentDecode_percentBytes]
    · have hne : c ≠ '%' := fun heq => hc (heq ▸ h)
      rw [if_neg hc, List.singleton_append, percentDecode_cons hne]

/-! ## What is not written -/

theorem not_mem_percentByte (hc : c ≠ '%') (hdigit : ∀ n < 16, c ≠ upperHexDigit n)
    (b : UInt8) : c ∉ percentByte b := by
  have hb : b.toNat < 256 := b.toNat_lt
  simp only [percentByte, List.mem_cons, List.not_mem_nil, or_false, not_or]
  exact ⟨hc, hdigit _ (by omega), hdigit _ (by omega)⟩

/-- A character that would be encoded does not occur in what is written, if the encoding itself is
written without it. -/
theorem not_mem_percentEncode {cs : List Char} (hset : c ∈ cs → set c = true) (hc : c ≠ '%')
    (hdigit : ∀ n < 16, c ≠ upperHexDigit n) : c ∉ percentEncode set cs := by
  intro hmem
  obtain ⟨d, hd, hdc⟩ := List.mem_flatMap.1 hmem
  split at hdc
  · obtain ⟨b, -, hb⟩ := List.mem_flatMap.1 hdc
    exact not_mem_percentByte hc hdigit b hb
  · rename_i hnot
    obtain rfl := List.mem_singleton.1 hdc
    exact hnot (hset hd)

theorem slash_not_mem_percentEncode {cs : List Char} (h : '/' ∈ cs → set '/' = true) :
    '/' ∉ percentEncode set cs :=
  not_mem_percentEncode h (by decide) (by decide)

end Http

end ItemClient
