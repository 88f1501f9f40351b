/-
  HouseLease.Text.Utf8 — texts as bytes.

  `bytes` is the UTF-8 form of a text and `ofBytes?` reads it back, refusing what is not
  UTF-8 (`ofBytes?_bytes`, `bytes_of_ofBytes?`). `lossy` never refuses: every longest run
  of bytes that begins a character without completing it, and every byte that begins none,
  becomes one replacement character U+FFFD.
-/

import HouseLease.Text.Digits

namespace HouseLease.Text

abbrev Bytes := List UInt8

def bytes (s : String) : Bytes := s.toByteArray.data.toList

/-- The text with these bytes, if they are UTF-8. -/
def ofBytes? (bs : Bytes) : Option String := String.fromUTF8? ⟨bs.toArray⟩

/-- A byte after the first of a character. -/
def isTail (b : UInt8) : Bool := 0x80 ≤ b && b ≤ 0xBF

/-- The second bytes that may follow the first byte of a character of three or four bytes. -/
def isSecond (first b : UInt8) : Bool :=
  if first == 0xE0 then 0xA0 ≤ b && b ≤ 0xBF
  else if first == 0xED then 0x80 ≤ b && b ≤ 0x9F
  else if first == 0xF0 then 0x90 ≤ b && b ≤ 0xBF
  else if first == 0xF4 then 0x80 ≤ b && b ≤ 0x8F
  else isTail b

def replacement : Char := '\uFFFD'

/-- What a byte carries below its mark. -/
def low (mark : Nat) (b : UInt8) : Nat := b.toNat % mark

/-- The character that begins with `first`, or its replacement, and the bytes after it. -/
def lossyChar (first : UInt8) (rest : Bytes) : Char × Bytes :=
  if first ≤ 0x7F then (Char.ofNat first.toNat, rest)
  else if 0xC2 ≤ first && first ≤ 0xDF then
    match rest with
    | b :: r => if isTail b then (Char.ofNat (64 * low 32 first + low 64 b), r) else (replacement, rest)
    | [] => (replacement, rest)
  else if 0xE0 ≤ first && first ≤ 0xEF then
    match rest with
    | b :: c :: r =>
      if !isSecond first b then (replacement, rest)
      else if !isTail c then (replacement, c :: r)
      else (Char.ofNat (64 * (64 * low 16 first + low 64 b) + low 64 c), r)
    | [b] => if isSecond first b then (replacement, []) else (replacement, rest)
    | [] => (replacement, rest)
  else if 0xF0 ≤ first && first ≤ 0xF4 then
    match rest with
    | b :: c :: d :: r =>
      if !isSecond first b then (replacement, rest)
      else if !isTail c then (replacement, c :: d :: r)
      else if !isTail d then (replacement, d :: r)
      else (Char.ofNat (64 * (64 * (64 * low 8 first + low 64 b) + low 64 c) + low 64 d), r)
    | [b, c] =>
      if !isSecond first b then (replacement, rest)
      else if isTail c then (replacement, []) else (replacement, [c])
    | [b] => if isSecond first b then (replacement, []) else (replacement, rest)
    | [] => (replacement, rest)
  else (replacement, rest)

theorem lossyChar_length (first : UInt8) (rest : Bytes) : (lossyChar first rest).2.length ≤ rest.length := by
  unfold lossyChar
  repeat' split
  all_goals simp <;> omega

def lossyChars : Bytes → List Char
  | [] => []
  | b :: r => (lossyChar b r).1 :: lossyChars (lossyChar b r).2
termination_by bs => bs.length
decreasing_by
  have := lossyChar_length b r
  simp only [List.length_cons]
  omega

/-- UTF-8 as it is, other bytes with replacements. -/
def lossy (bs : Bytes) : String :=
  match ofBytes? bs with
  | some s => s
  | none => String.ofList (lossyChars bs)

@[simp]
theorem ofBytes?_bytes (s : String) : ofBytes? (bytes s) = some s := by
  have h : (⟨(bytes s).toArray⟩ : ByteArray) = s.toByteArray := by simp [bytes]
  simp [ofBytes?, h, String.fromUTF8?, String.fromUTF8, s.isValidUTF8]

theorem bytes_of_ofBytes? {bs : Bytes} {s : String} (h : ofBytes? bs = some s) : bytes s = bs := by
  simp only [ofBytes?, String.fromUTF8?] at h
  split at h
  · cases h
    simp [bytes, String.fromUTF8]
  · cases h

theorem bytes_injective {s t : String} (h : bytes s = bytes t) : s = t := by
  have := ofBytes?_bytes s
  rw [h, ofBytes?_bytes] at this
  exact (Option.some.inj this).symm

theorem bytes_append (s t : String) : bytes (s ++ t) = bytes s ++ bytes t := by
  simp [bytes, String.toByteArray_append]

@[simp]
theorem lossy_bytes (s : String) : lossy (bytes s) = s := by simp [lossy]

end HouseLease.Text
