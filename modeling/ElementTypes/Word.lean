/-! # Machine words

Sizes, offsets, alignments and dimensions are unsigned 64-bit words, and the numbers of a temporal
interval are signed 32-bit words. Arithmetic that could leave its range is done on exact integers
and gives nothing when the result does not fit.
-/

namespace ElementTypes

abbrev Size := UInt64

namespace Size

def largest : Size := 18446744073709551615

def ofNat? (n : Nat) : Option Size :=
  if n ≤ largest.toNat then some (UInt64.ofNat n) else none

def add? (a b : Size) : Option Size := ofNat? (a.toNat + b.toNat)

def mul? (a b : Size) : Option Size := ofNat? (a.toNat * b.toNat)

def mulSaturating (a b : Size) : Size := (mul? a b).getD largest

/-- The least multiple of `unit` that is not below `n`. It is absent as soon as `n + (unit - 1)`
does not fit, even where the multiple itself would. -/
def roundUp? (n unit : Size) : Option Size :=
  (ofNat? (n.toNat + (unit.toNat - 1))).map fun padded => padded / unit * unit

theorem ofNat?_eq_some {n : Nat} {s : Size} : ofNat? n = some s ↔ s.toNat = n := by
  have bound := UInt64.toNat_lt s
  have top : largest.toNat = 18446744073709551615 := rfl
  simp only [ofNat?, top]
  split
  · simp only [Option.some.injEq]
    constructor
    · rintro rfl
      exact UInt64.toNat_ofNat_of_lt' (by show n < 2 ^ 64; omega)
    · rintro rfl
      simp
  · simp only [reduceCtorEq, false_iff]
    omega

theorem ofNat?_isSome {n : Nat} : (ofNat? n).isSome = true ↔ n < UInt64.size := by
  have top : largest.toNat = UInt64.size - 1 := rfl
  have limit : UInt64.size = 18446744073709551616 := rfl
  rw [ofNat?, top]
  split <;> simp <;> omega

theorem add?_eq_some {a b c : Size} : add? a b = some c ↔ c.toNat = a.toNat + b.toNat :=
  ofNat?_eq_some

theorem mul?_eq_some {a b c : Size} : mul? a b = some c ↔ c.toNat = a.toNat * b.toNat :=
  ofNat?_eq_some

theorem toNat_roundUp {n unit m : Size} (h : roundUp? n unit = some m) :
    m.toNat = (n.toNat + (unit.toNat - 1)) / unit.toNat * unit.toNat := by
  obtain ⟨padded, fits, rfl⟩ := Option.map_eq_some_iff.1 h
  rw [ofNat?_eq_some] at fits
  have small : padded.toNat / unit.toNat * unit.toNat < 2 ^ 64 :=
    Nat.lt_of_le_of_lt (Nat.div_mul_le_self ..) (UInt64.toNat_lt padded)
  rw [UInt64.toNat_mul, UInt64.toNat_div, Nat.mod_eq_of_lt small, fits]

theorem max_comm (a b : Size) : max a b = max b a := by
  show (if a ≤ b then b else a) = if b ≤ a then a else b
  by_cases below : a ≤ b <;> by_cases above : b ≤ a
  · rw [if_pos below, if_pos above, UInt64.le_antisymm below above]
  · rw [if_pos below, if_neg above]
  · rw [if_neg below, if_pos above]
  · exact absurd (UInt64.le_total a b) (not_or.2 ⟨below, above⟩)

theorem toNat_max (a b : Size) : (max a b).toNat = max a.toNat b.toNat := by
  show (if a ≤ b then b else a).toNat = _
  split
  · rename_i below
    exact (Nat.max_eq_right (UInt64.le_iff_toNat_le.1 below)).symm
  · rename_i above
    have above := mt UInt64.le_iff_toNat_le.2 above
    omega

theorem toNat_mulSaturating {a b : Size} (fits : a.toNat * b.toNat < UInt64.size) :
    (mulSaturating a b).toNat = a.toNat * b.toNat := by
  have product : mul? a b = some (UInt64.ofNat (a.toNat * b.toNat)) :=
    mul?_eq_some.2 (UInt64.toNat_ofNat_of_lt' fits)
  rw [mulSaturating, product]
  exact UInt64.toNat_ofNat_of_lt' fits

theorem toNat_mulSaturating_of_le {a b : Size} (large : UInt64.size ≤ a.toNat * b.toNat) :
    (mulSaturating a b).toNat = UInt64.size - 1 := by
  have absent : mul? a b = none :=
    Option.not_isSome_iff_eq_none.1 (mt ofNat?_isSome.1 (Nat.not_lt.2 large))
  rw [mulSaturating, absent]
  rfl

end Size

abbrev Count := Int32

namespace Count

def ofInt? (n : Int) : Option Count :=
  if Int32.minValue.toInt ≤ n ∧ n ≤ Int32.maxValue.toInt then some (Int32.ofInt n) else none

theorem ofInt?_eq_some {n : Int} {c : Count} : ofInt? n = some c ↔ c.toInt = n := by
  have low := Int32.minValue_le_toInt c
  have high := Int32.toInt_le c
  have top : Int32.maxValue.toInt = 2147483647 := rfl
  simp only [ofInt?]
  split
  · rename_i inside
    simp only [Option.some.injEq]
    constructor
    · rintro rfl
      exact Int32.toInt_ofInt_of_le inside.1 (by omega)
    · rintro rfl
      simp
  · rename_i outside
    simp only [reduceCtorEq, false_iff]
    rintro rfl
    exact outside ⟨low, high⟩

theorem toInt_eq_one {c : Count} : c.toInt = 1 ↔ c = 1 := by
  rw [← Int32.toInt_inj]
  rfl

end Count

end ElementTypes
