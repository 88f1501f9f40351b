/-
  HouseLease.Record.Block — bytes behind their length, which takes eight bytes with the
  lowest first. A block can be told from what follows it (`takeBlock?_block`).
-/

import HouseLease.Text.Utf8

namespace HouseLease

open Text (Bytes)

/-- The `width` lowest base-256 digits of `n`, lowest first. -/
def littleEndian : Nat → Nat → Bytes
  | 0, _ => []
  | width + 1, n => UInt8.ofNat (n % 256) :: littleEndian width (n / 256)

def ofLittleEndian : Bytes → Nat
  | [] => 0
  | b :: bs => b.toNat + 256 * ofLittleEndian bs

theorem ofLittleEndian_littleEndian (width n : Nat) :
    ofLittleEndian (littleEndian width n) = n % Nat.pow 256 width := by
  induction width generalizing n with
  | zero => simp [littleEndian, ofLittleEndian, Nat.mod_one]
  | succ w ih =>
    have h : (UInt8.ofNat (n % 256)).toNat = n % 256 := by simp
    have hpow : Nat.pow 256 (w + 1) = 256 * Nat.pow 256 w := Nat.pow_succ'
    rw [littleEndian, ofLittleEndian, ih, h, hpow, Nat.mod_mul]

@[simp]
theorem length_littleEndian (width n : Nat) : (littleEndian width n).length = width := by
  induction width generalizing n with
  | zero => rfl
  | succ w ih => simp [littleEndian, ih]

/-- The block of `bs`, if eight bytes are enough for its length. -/
def block? (bs : Bytes) : Option Bytes :=
  if bs.length < UInt64.size then some (littleEndian 8 bs.length ++ bs) else none

/-- The content of the block in front, and the bytes after the block. -/
def takeBlock? (bs : Bytes) : Option (Bytes × Bytes) :=
  if 8 ≤ bs.length ∧ ofLittleEndian (bs.take 8) ≤ (bs.drop 8).length then
    some ((bs.drop 8).take (ofLittleEndian (bs.take 8)), (bs.drop 8).drop (ofLittleEndian (bs.take 8)))
  else none

theorem takeBlock?_block {bs block : Bytes} (h : block? bs = some block) (rest : Bytes) :
    takeBlock? (block ++ rest) = some (bs, rest) := by
  simp only [block?] at h
  split at h
  · rename_i hl
    cases h
    have h8 : ofLittleEndian (littleEndian 8 bs.length) = bs.length := by
      rw [ofLittleEndian_littleEndian]
      exact Nat.mod_eq_of_lt hl
    simp [takeBlock?, List.append_assoc, h8]
  · cases h

theorem takeBlock?_length {bs content rest : Bytes} (h : takeBlock? bs = some (content, rest)) :
    rest.length < bs.length := by
  simp only [takeBlock?] at h
  split at h
  · cases h
    simp only [List.length_drop]
    omega
  · cases h

end HouseLease
