import ElementTypes.Store.Registry

/-! # Numbers of registered types

The counter and the types are kept apart, and `Numbered` is what links them.
-/

namespace ElementTypes.Registry

structure Numbered (registry : Registry) : Prop where
  taken : ∀ n : UInt16, (∃ ref, registry.find? n = some ref) ↔
    Code.firstUser ≤ n.toNat ∧ n < registry.next
  count : Code.firstUser + registry.count = registry.next.toNat

def enter (registry : Registry) (ref : Ref) : Registry :=
  { registry with next := registry.next + 1 }.insert registry.next ref

theorem numbered_empty : empty.Numbered where
  taken n := by
    constructor
    · rintro ⟨ref, found⟩
      cases found
    · rintro ⟨low, high⟩
      exact absurd (UInt16.lt_iff_toNat_lt.1 high) (Nat.not_lt.2 low)
  count := rfl

variable {registry : Registry}

theorem find?_enter_self (registry : Registry) (ref : Ref) :
    (registry.enter ref).find? registry.next = some ref :=
  find?_insert_self ..

theorem find?_enter_of_ne (registry : Registry) (ref : Ref) {n : UInt16} (h : n ≠ registry.next) :
    (registry.enter ref).find? n = registry.find? n :=
  find?_insert_of_ne _ _ h

theorem mem_cells_enter {ref cell : Ref} (member : cell ∈ (registry.enter ref).cells) :
    cell = ref ∨ cell ∈ registry.cells :=
  mem_cells_insert member

theorem toNat_next_enter (room : registry.next ≠ 65535) (ref : Ref) :
    (registry.enter ref).next.toNat = registry.next.toNat + 1 := by
  have bound := registry.next.toNat_lt
  have below : registry.next.toNat ≠ 65535 := fun same => room (UInt16.toNat_inj.1 same)
  change (registry.next + 1).toNat = _
  rw [UInt16.toNat_add]
  exact Nat.mod_eq_of_lt (by simp; omega)

namespace Numbered

variable (numbered : registry.Numbered)
include numbered

theorem find?_next : registry.find? registry.next = none := by
  rw [Option.eq_none_iff_forall_ne_some]
  intro ref found
  exact UInt16.lt_irrefl _ ((numbered.taken _).1 ⟨ref, found⟩).2

theorem ne_next {n : UInt16} {ref : Ref} (found : registry.find? n = some ref) :
    n ≠ registry.next := by
  rintro rfl
  rw [numbered.find?_next] at found
  cases found

theorem first_le : Code.firstUser ≤ registry.next.toNat :=
  numbered.count ▸ Nat.le_add_right ..

theorem enter (room : registry.next ≠ 65535) (ref : Ref) : (registry.enter ref).Numbered where
  taken n := by
    rw [UInt16.lt_iff_toNat_lt, toNat_next_enter room, Nat.lt_succ_iff_lt_or_eq]
    by_cases same : n = registry.next
    · rw [same, find?_enter_self]
      exact ⟨fun _ => ⟨numbered.first_le, .inr rfl⟩, fun _ => ⟨ref, rfl⟩⟩
    · have other : n.toNat ≠ registry.next.toNat := fun h => same (UInt16.toNat_inj.1 h)
      rw [find?_enter_of_ne registry ref same, numbered.taken, UInt16.lt_iff_toNat_lt,
        or_iff_left other]
  count := by
    rw [toNat_next_enter room, ← numbered.count, Nat.add_assoc]
    have new : { registry with next := registry.next + 1 }.find? registry.next = none :=
      numbered.find?_next
    exact congrArg _ (count_insert new ref)

end Numbered

end ElementTypes.Registry
