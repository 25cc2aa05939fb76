import ElementTypes.Proofs.Heap.Objects
import ElementTypes.Proofs.Store.Growth
import ElementTypes.Store.Private

/-! # The codes in a store -/

namespace ElementTypes

def Code.Proper (code : Code) : Prop := code.isBuiltin = true ∨ Code.firstUser ≤ code.number

theorem Code.eq_of_number_eq {a b : Code} (left : a.Proper) (right : b.Proper)
    (same : a.number = b.number) : a = b := by
  have low : ∀ {code : Code}, code.isBuiltin = true → code.number < Code.firstUser := fun builtin =>
    Nat.lt_of_lt_of_le (number_lt builtin) (by decide)
  rcases left with left | left <;> rcases right with right | right
  · have found := Code.getElem?_builtin left
    rw [same, Code.getElem?_builtin right] at found
    exact (Option.some.inj found).symm
  · exact absurd (low left) (by rw [same]; exact Nat.not_lt.2 right)
  · exact absurd (low right) (by rw [← same]; exact Nat.not_lt.2 left)
  · cases a with
    | user m =>
        cases b with
        | user n => rw [UInt16.toNat_inj.1 same]
        | _ => exact absurd right (by decide)
    | _ => exact absurd left (by decide)

theorem Heap.code_set {heap : Heap} {ref : Ref} {d : Descriptor}
    (same : d.code = (heap.get ref).code) (cell : Ref) :
    ((heap.set ref d).get cell).code = (heap.get cell).code := by
  by_cases here : cell = ref
  · subst here
    by_cases inside : cell < heap.size
    · rw [get_set_self d inside, same]
    · have outside := Nat.le_of_not_lt inside
      rw [get_of_size_le outside, get_of_size_le (by rw [size_set]; exact outside)]
  · rw [get_set_of_ne heap d here]

namespace Store

structure Coded (store : Store) : Prop where
  cells : ∀ ref, (store.heap.get ref).code.Proper
  users : ∀ n ref, store.cellOf? (.user n) = some ref →
    ref < store.heap.size ∧ (store.heap.get ref).code = .user n

namespace Coded

variable {store : Store} (coded : store.Coded)
include coded

theorem alloc {d : Descriptor} (proper : d.code.Proper) :
    Coded { store with heap := (store.heap.alloc d).2 } where
  cells := Heap.forall_get_alloc (P := fun x => x.code.Proper) coded.cells proper
  users n ref cell := by
    obtain ⟨inside, code⟩ := coded.users n ref cell
    rw [Heap.get_alloc_of_lt d inside, Heap.size_alloc]
    exact ⟨Nat.lt_succ_of_lt inside, code⟩

theorem entered (numbered : store.registry.Numbered) (d : Descriptor) :
    (store.entered d).Coded := by
  have proper : (Code.user store.registry.next).Proper := .inr numbered.first_le
  refine ⟨(coded.alloc proper).cells, fun n ref cell => ?_⟩
  by_cases last : n = store.registry.next
  · subst last
    obtain rfl := Option.some.inj ((Registry.find?_enter_self ..).symm.trans cell)
    rw [Store.entered, Heap.get_alloc_self, Heap.size_alloc]
    exact ⟨Nat.lt_succ_self _, rfl⟩
  · exact (coded.alloc proper).users n ref ((Registry.find?_enter_of_ne _ _ last).symm.trans cell)

theorem of_codes {heap : Heap} (size : heap.size = store.heap.size)
    (codes : ∀ ref, (heap.get ref).code = (store.heap.get ref).code) :
    Coded { store with heap } where
  cells ref := by
    rw [codes]
    exact coded.cells ref
  users n ref cell := by
    rw [codes, size]
    exact coded.users n ref cell

end Coded

theorem coded_initial : Store.initial.Coded where
  cells ref := by
    obtain ⟨code, builtin, canonical⟩ := exists_get_initial ref
    rw [canonical]
    exact .inl builtin
  users n ref none := nomatch none

end Store

theorem register_found {store t : Store} {d : Descriptor} {code : Code}
    (h : (register d).run store = (.ok code, t)) : ∃ n cell, code = .user n ∧
      t.cellOf? code = some cell ∧ t.heap.get cell = { d with code } := by
  obtain ⟨-, rfl, rfl⟩ := register_eq_ok h
  exact ⟨_, store.heap.size, rfl, Registry.find?_enter_self .., Heap.get_alloc_self ..⟩

end ElementTypes
