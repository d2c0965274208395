/-!
# Bytes as characters

A body arrives as bytes. `decode` reads them as UTF-8 without losing its place: each maximal
well-formed sequence becomes its character, and a byte that begins no character becomes a gap.
The lead byte fixes how many tails follow and which range the first of them has, so overlong
forms, surrogates and values above U+10FFFF are gaps.
-/

namespace ItemClient.Text

/-- A position of a decoded body: a character, or a gap where the bytes spell none. -/
abbrev Symbol := Option Char

/-- A character whose first bytes have been read. -/
structure Unfinished where
  value : Nat
  /-- How many more bytes it needs, less one. -/
  more : Nat
  /-- The least byte that may come next. -/
  low : Nat
  /-- The greatest byte that may come next. -/
  high : Nat

/-- What the first byte of a character says: the character itself, a gap, or what to expect. -/
def leadByte (b : Nat) : Symbol ⊕ Unfinished :=
  if b < 0x80 then .inl (some (Char.ofNat b))
  else if b < 0xC2 then .inl none
  else if b < 0xE0 then .inr ⟨b - 0xC0, 0, 0x80, 0xBF⟩
  else if b < 0xF0 then
    .inr ⟨b - 0xE0, 1, if b = 0xE0 then 0xA0 else 0x80, if b = 0xED then 0x9F else 0xBF⟩
  else if b < 0xF5 then
    .inr ⟨b - 0xF0, 2, if b = 0xF0 then 0x90 else 0x80, if b = 0xF4 then 0x8F else 0xBF⟩
  else .inl none

/-- Decode the rest of a body, `pending` being the character under way. A byte that does not
continue it leaves a gap and is read afresh. -/
def decodeFrom : Option Unfinished → List UInt8 → List Symbol
  | none, [] => []
  | some _, [] => [none]
  | pending, b :: rest =>
      let fresh : Unit → List Symbol := fun _ =>
        match leadByte b.toNat with
        | .inl symbol => symbol :: decodeFrom none rest
        | .inr expected => decodeFrom (some expected) rest
      match pending with
      | none => fresh ()
      | some u =>
          if u.low ≤ b.toNat ∧ b.toNat ≤ u.high then
            let value := 64 * u.value + (b.toNat - 0x80)
            match u.more with
            | 0 => some (Char.ofNat value) :: decodeFrom none rest
            | more + 1 => decodeFrom (some ⟨value, more, 0x80, 0xBF⟩) rest
          else none :: fresh ()

def decode (bytes : List UInt8) : List Symbol := decodeFrom none bytes

/-- The symbols of a text, which has no gaps. -/
def symbols (s : String) : List Symbol := s.toList.map some

def encode (s : String) : List UInt8 := s.toList.flatMap String.utf8EncodeChar

/-- The text that bytes spell, if all of them do. -/
def decodeText? (bytes : List UInt8) : Option String :=
  ((decode bytes).mapM id).map String.ofList

end ItemClient.Text
