/-
  HouseLease.Checked — arithmetic on money and timestamps: signed 64-bit integers, computed
  exactly, an operation whose result leaves the range being told apart.

  `int64?`, `int32?` and `uint32?` are the one way from unbounded integers into the ranges
  of the domain; `int64?_eq_some`, `int32?_eq_some` and `uint32?_eq_some` say that they
  change no value.
-/

namespace HouseLease

/-- The operation whose result left its range. -/
inductive Overflow where
  | add
  | subtract
  | multiply
  deriving DecidableEq, Repr

def Overflow.message : Overflow → String
  | .add => "attempt to add with overflow"
  | .subtract => "attempt to subtract with overflow"
  | .multiply => "attempt to multiply with overflow"

def int64? (n : Int) : Option Int64 :=
  if h : Int64.minValue.toInt ≤ n ∧ n ≤ Int64.maxValue.toInt then some (Int64.ofIntLE n h.1 h.2) else none

def int32? (n : Int) : Option Int32 :=
  if h : Int32.minValue.toInt ≤ n ∧ n ≤ Int32.maxValue.toInt then some (Int32.ofIntLE n h.1 h.2) else none

def uint32? (n : Int) : Option UInt32 :=
  if 0 ≤ n then (if h : n.toNat < UInt32.size then some (UInt32.ofNatLT n.toNat h) else none) else none

/-- The result `n` of `op`, if it is in range. -/
def checked (op : Overflow) (n : Int) : Except Overflow Int64 :=
  match int64? n with
  | some r => .ok r
  | none => .error op

/-- Seconds in a day of fees. -/
def daySeconds : Int := 86400

/-- `days` days after `t`. -/
def addDays (t : Int64) (days : UInt32) : Except Overflow Int64 :=
  checked .add (t.toInt + daySeconds * days.toNat)

theorem int64?_eq_some {n : Int} {r : Int64} : int64? n = some r ↔ r.toInt = n := by
  simp only [int64?]
  split
  · rename_i h
    constructor
    · intro he
      cases he
      exact Int64.toInt_ofIntLE
    · intro he
      subst he
      simp
  · rename_i h
    constructor
    · intro he
      cases he
    · intro he
      exact absurd ⟨he ▸ r.minValue_le_toInt, he ▸ r.toInt_le⟩ h

theorem int32?_eq_some {n : Int} {r : Int32} : int32? n = some r ↔ r.toInt = n := by
  simp only [int32?]
  split
  · constructor
    · intro he
      cases he
      exact Int32.toInt_ofIntLE
    · intro he
      subst he
      simp
  · rename_i h
    constructor
    · intro he
      cases he
    · intro he
      exact absurd ⟨he ▸ r.minValue_le_toInt, he ▸ r.toInt_le⟩ h

theorem uint32?_eq_some {n : Int} {r : UInt32} : uint32? n = some r ↔ (r.toNat : Int) = n := by
  have hr := r.toNat_lt
  unfold uint32?
  constructor
  · intro h
    split at h
    · split at h
      · cases h
        rw [UInt32.toNat_ofNatLT]
        omega
      · cases h
    · cases h
  · rintro rfl
    simp [UInt32.size, hr]

theorem int64?_eq_none {n : Int} :
    int64? n = none ↔ n < Int64.minValue.toInt ∨ Int64.maxValue.toInt < n := by
  unfold int64?
  split
  · rename_i h
    simp only [reduceCtorEq, false_iff, not_or, Int.not_lt]
    exact h
  · rename_i h
    simp only [true_iff]
    omega

theorem checked_eq_ok {op : Overflow} {n : Int} {r : Int64} : checked op n = .ok r ↔ r.toInt = n := by
  rw [← int64?_eq_some, checked]
  split <;> simp_all

theorem checked_eq_error {op op' : Overflow} {n : Int} : checked op n = .error op' ↔ op' = op ∧ int64? n = none := by
  unfold checked
  split <;> simp_all [eq_comm]

end HouseLease
