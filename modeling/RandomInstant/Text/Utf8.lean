/-!
# Bytes and texts

A text is written as bytes in UTF-8. Not all bytes are a text: `ofUtf8?` reads those that are and
refuses the others, and `ofUtf8Lossy` reads anything, with a replacement character in place of
what is no text. Each replacement character stands for one ill-formed stretch that is as long as
it can be while it still begins a character, so a character that breaks off is replaced once.
-/

namespace RandomInstant.Text

/-- A sequence of bytes. -/
abbrev Bytes := List UInt8

/-- The bytes of a text. -/
def utf8 (s : String) : Bytes := s.toByteArray.data.toList

/-- The text of bytes, if they are one. -/
def ofUtf8? (bs : Bytes) : Option String := String.fromUTF8? bs.toByteArray

/-- The bytes of a string, as an array. -/
theorem toByteArray_utf8 (s : String) : (utf8 s).toByteArray = s.toByteArray :=
  ByteArray.ext (by rw [utf8, List.data_toByteArray, Array.toArray_toList])

/-- What was written as bytes reads back. -/
theorem ofUtf8?_utf8 (s : String) : ofUtf8? (utf8 s) = some s := by
  rw [ofUtf8?, toByteArray_utf8, String.fromUTF8?, dif_pos s.isValidUTF8]
  rfl

/-- Bytes that are read as a text are what that text is written as. -/
theorem utf8_of_ofUtf8? {bs : Bytes} {s : String} (h : ofUtf8? bs = some s) : utf8 s = bs := by
  rw [ofUtf8?, String.fromUTF8?] at h
  split at h
  · cases h
    exact List.toList_data_toByteArray
  · cases h

/-- A string is read from its own bytes and from no others. -/
theorem ofUtf8?_eq_some_iff {bs : Bytes} {s : String} : ofUtf8? bs = some s ↔ bs = utf8 s :=
  ⟨fun h => (utf8_of_ofUtf8? h).symm, fun h => h ▸ ofUtf8?_utf8 s⟩

/-! ## Forgiving reading -/

/-- The character that stands for what is no text. -/
def replacement : Char := Char.ofNat 0xfffd

/-- A character of which some bytes have been read. -/
structure Begun where
  /-- The bits read so far. -/
  bits : Nat
  /-- How many bytes are to follow. -/
  more : Nat
  /-- The least byte that can follow. -/
  least : UInt8 := 0x80
  /-- The greatest byte that can follow. -/
  greatest : UInt8 := 0xbf

/-- What a byte is where no character is begun: a whole character, the beginning of one, or no
part of any. The bounds on the second byte keep out overlong forms, surrogates and numbers beyond
the last code point. -/
def leadByte (b : UInt8) : Option (Char ⊕ Begun) :=
  let n := b.toNat
  if n < 0x80 then some (.inl (Char.ofNat n))
  else if n < 0xc2 then none
  else if n < 0xe0 then some (.inr { bits := n - 0xc0, more := 1 })
  else if n = 0xe0 then some (.inr { bits := 0, more := 2, least := 0xa0 })
  else if n = 0xed then some (.inr { bits := 0xd, more := 2, greatest := 0x9f })
  else if n < 0xf0 then some (.inr { bits := n - 0xe0, more := 2 })
  else if n = 0xf0 then some (.inr { bits := 0, more := 3, least := 0x90 })
  else if n < 0xf4 then some (.inr { bits := n - 0xf0, more := 3 })
  else if n = 0xf4 then some (.inr { bits := 4, more := 3, greatest := 0x8f })
  else none

/-- The characters of bytes, of which those that begin a character may have been read. -/
def charsLossy : Option Begun → Bytes → List Char
  | none, [] => []
  | some _, [] => [replacement]
  | begun, b :: rest =>
    let afresh : List Char := match leadByte b with
      | none => replacement :: charsLossy none rest
      | some (.inl c) => c :: charsLossy none rest
      | some (.inr begun) => charsLossy (some begun) rest
    match begun with
    | none => afresh
    | some p =>
      if p.least ≤ b && b ≤ p.greatest then
        let bits := p.bits * 64 + (b.toNat - 0x80)
        if p.more ≤ 1 then Char.ofNat bits :: charsLossy none rest
        else charsLossy (some { bits, more := p.more - 1 }) rest
      else replacement :: afresh

/-- The text of any bytes, with replacement characters for what is no text. -/
def ofUtf8Lossy (bs : Bytes) : String := String.ofList (charsLossy none bs)

end RandomInstant.Text
