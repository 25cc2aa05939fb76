import ElementTypes.Word
import Mathlib.Algebra.BigOperators.Group.List.Basic
import Mathlib.Algebra.GroupWithZero.Nat
import Mathlib.Order.Bounds.Basic

/-! # Slots of a record

The fields of a record in exact numbers. A slot begins at an offset of its own or at the least
multiple of its alignment that is not below the end of the slot before.
-/

namespace ElementTypes

def alignUp (n unit : Nat) : Nat := (n + (unit - 1)) / unit * unit

section AlignUp

variable {n unit : Nat}

theorem dvd_alignUp (n unit : Nat) : unit ∣ alignUp n unit := Dvd.intro_left _ rfl

theorem le_alignUp (positive : 0 < unit) (n : Nat) : n ≤ alignUp n unit := by
  have split := Nat.div_add_mod' (n + (unit - 1)) unit
  have rest := Nat.mod_lt (n + (unit - 1)) positive
  unfold alignUp
  omega

theorem alignUp_le_of_dvd (positive : 0 < unit) {m : Nat} (multiple : unit ∣ m) (above : n ≤ m) :
    alignUp n unit ≤ m := by
  obtain ⟨k, rfl⟩ := multiple
  have below : (n + (unit - 1)) / unit < k + 1 := by
    rw [Nat.div_lt_iff_lt_mul positive, Nat.add_mul, Nat.mul_comm k, Nat.one_mul]
    omega
  calc alignUp n unit
      ≤ k * unit := Nat.mul_le_mul_right unit (Nat.le_of_lt_succ below)
    _ = unit * k := Nat.mul_comm k unit

theorem alignUp_isLeast (positive : 0 < unit) (n : Nat) :
    IsLeast {m | unit ∣ m ∧ n ≤ m} (alignUp n unit) :=
  ⟨⟨dvd_alignUp n unit, le_alignUp positive n⟩, fun _ above =>
    alignUp_le_of_dvd positive above.1 above.2⟩

theorem alignUp_one (n : Nat) : alignUp n 1 = n := by simp [alignUp]

end AlignUp

namespace Size

theorem roundUp?_isSome {n unit : Size} : (roundUp? n unit).isSome = true ↔
    n.toNat + (unit.toNat - 1) < UInt64.size := by
  rw [roundUp?, Option.isSome_map, ofNat?_isSome]

theorem roundUp?_eq_some {n unit m : Size} : roundUp? n unit = some m ↔
    n.toNat + (unit.toNat - 1) < UInt64.size ∧ m.toNat = alignUp n.toNat unit.toNat := by
  constructor
  · intro rounded
    refine ⟨roundUp?_isSome.1 ?_, toNat_roundUp rounded⟩
    rw [rounded]
    rfl
  · rintro ⟨fits, same⟩
    obtain ⟨m', rounded⟩ := Option.isSome_iff_exists.1 (roundUp?_isSome.2 fits)
    rw [rounded, Option.some.injEq, ← UInt64.toNat_inj, same]
    exact toNat_roundUp rounded

end Size

theorem foldl_max_le_iff {numbers : List Nat} {start bound : Nat} :
    numbers.foldl max start ≤ bound ↔ start ≤ bound ∧ ∀ n ∈ numbers, n ≤ bound := by
  induction numbers generalizing start with
  | nil => simp
  | cons n numbers ih => simp [ih, and_assoc]

theorem foldl_max_eq_or (numbers : List Nat) (start : Nat) :
    numbers.foldl max start = start ∨ numbers.foldl max start ∈ numbers := by
  induction numbers generalizing start with
  | nil => exact .inl rfl
  | cons n numbers ih =>
      rw [List.foldl_cons]
      rcases ih (max start n) with kept | later
      · rw [kept]
        rcases Nat.le_total start n with below | above
        · rw [Nat.max_eq_right below]
          exact .inr (List.mem_cons_self ..)
        · exact .inl (Nat.max_eq_left above)
      · exact .inr (List.mem_cons_of_mem _ later)

structure Slot where
  own : Option Nat
  behind : Nat
  size : Nat
  alignment : Nat

namespace Slot

def start (slot : Slot) : Nat := slot.own.getD (alignUp slot.behind slot.alignment)

def stop (slot : Slot) : Nat := slot.start + slot.size

structure Fits (slot : Slot) : Prop where
  rounding : slot.own = none → slot.behind + (slot.alignment - 1) < UInt64.size
  stop : slot.stop < UInt64.size

theorem start_isLeast {slot : Slot} (free : slot.own = none) (positive : 0 < slot.alignment) :
    IsLeast {n | slot.alignment ∣ n ∧ slot.behind ≤ n} slot.start := by
  rw [start, free]
  exact alignUp_isLeast positive slot.behind

end Slot

def Chained : Nat → List Slot → Prop
  | _, [] => True
  | behind, slot :: slots => slot.behind = behind ∧ Chained slot.stop slots

def extent (slots : List Slot) : Nat := (slots.map (·.stop)).foldl max 0

def strictest (slots : List Slot) : Nat := (slots.map (·.alignment)).foldl max 1

theorem extent_le_iff {slots : List Slot} {n : Nat} :
    extent slots ≤ n ↔ ∀ slot ∈ slots, slot.stop ≤ n := by
  simp [extent, foldl_max_le_iff]

theorem strictest_isGreatest (slots : List Slot) :
    IsGreatest {n | n = 1 ∨ ∃ slot ∈ slots, slot.alignment = n} (strictest slots) := by
  constructor
  · rcases foldl_max_eq_or (slots.map (·.alignment)) 1 with one | member
    · exact .inl one
    · exact .inr (List.mem_map.1 member)
  · have bounds := foldl_max_le_iff.1 (Nat.le_refl (strictest slots))
    rintro n (rfl | ⟨slot, member, rfl⟩)
    · exact bounds.1
    · exact bounds.2 _ (List.mem_map_of_mem member)

theorem strictest_of_packed {slots : List Slot} (packed : ∀ slot ∈ slots, slot.alignment = 1) :
    strictest slots = 1 := by
  rcases (strictest_isGreatest slots).1 with one | ⟨slot, member, same⟩
  · exact one
  · rw [← same]
    exact packed slot member

theorem strictest_pos (slots : List Slot) : 0 < strictest slots :=
  (strictest_isGreatest slots).2 (.inl rfl)

theorem size_isLeast (slots : List Slot) :
    IsLeast {n | strictest slots ∣ n ∧ ∀ slot ∈ slots, slot.stop ≤ n}
      (alignUp (extent slots) (strictest slots)) := by
  have least := alignUp_isLeast (strictest_pos slots) (extent slots)
  simpa only [extent_le_iff] using least

section Implicit

variable {behind : Nat} {slots : List Slot} (chained : Chained behind slots)
  (free : ∀ slot ∈ slots, slot.own = none)
include chained free

theorem pairwise_of_chained (positive : ∀ slot ∈ slots, 0 < slot.alignment) :
    (∀ slot ∈ slots, behind ≤ slot.start) ∧
      slots.Pairwise fun before after => before.stop ≤ after.start := by
  induction slots generalizing behind with
  | nil => exact ⟨List.forall_mem_nil _, .nil⟩
  | cons slot slots ih =>
      obtain ⟨rfl, chained⟩ := chained
      obtain ⟨here, later⟩ := List.forall_mem_cons.1 free
      obtain ⟨positive, positive'⟩ := List.forall_mem_cons.1 positive
      obtain ⟨after, apart⟩ := ih chained later positive'
      have first : slot.behind ≤ slot.start := (Slot.start_isLeast here positive).1.2
      refine ⟨List.forall_mem_cons.2 ⟨first, fun other member => ?_⟩, .cons after apart⟩
      exact Nat.le_trans first (Nat.le_trans (Nat.le_add_right _ _) (after other member))

theorem extent_of_packed (packed : ∀ slot ∈ slots, slot.alignment = 1) :
    (slots.map (·.stop)).foldl max behind = behind + (slots.map (·.size)).sum := by
  induction slots generalizing behind with
  | nil => rfl
  | cons slot slots ih =>
      obtain ⟨rfl, chained⟩ := chained
      obtain ⟨here, later⟩ := List.forall_mem_cons.1 free
      obtain ⟨one, packed⟩ := List.forall_mem_cons.1 packed
      have stop : slot.stop = slot.behind + slot.size := by
        rw [Slot.stop, Slot.start, here, one, Option.getD_none, alignUp_one]
      have above : max slot.behind slot.stop = slot.stop := by
        rw [stop]
        exact Nat.max_eq_right (Nat.le_add_right _ _)
      rw [List.map_cons, List.foldl_cons, above, ih chained later packed, List.map_cons,
        List.sum_cons, stop, Nat.add_assoc]

end Implicit

theorem dvd_strictest {slots : List Slot} (powers : ∀ slot ∈ slots, ∃ k, slot.alignment = 2 ^ k)
    {slot : Slot} (member : slot ∈ slots) : slot.alignment ∣ strictest slots := by
  obtain ⟨among, bound⟩ := strictest_isGreatest slots
  have power : ∃ k, strictest slots = 2 ^ k := by
    rcases among with one | ⟨widest, listed, same⟩
    · exact ⟨0, one⟩
    · rw [← same]
      exact powers widest listed
  obtain ⟨k, same⟩ := powers slot member
  obtain ⟨m, same'⟩ := power
  have below : slot.alignment ≤ strictest slots := bound (.inr ⟨slot, member, rfl⟩)
  rw [same, same'] at below ⊢
  exact Nat.pow_dvd_pow 2 ((Nat.pow_le_pow_iff_right (by decide)).1 below)

end ElementTypes
