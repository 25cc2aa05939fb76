import ElementTypes.Record.Table
import ElementTypes.Scalar.Code

/-! # The registry

Registered types lie under numbers, the highest first. Which number is given out next is counted
apart from the types.
-/

namespace ElementTypes

structure Registry where
  types : List (UInt16 × Ref)
  sorted : types.Pairwise fun later earlier => earlier.1 < later.1
  next : UInt16

namespace Registry

def empty : Registry := ⟨[], .nil, UInt16.ofNat Code.firstUser⟩

def find? (registry : Registry) (n : UInt16) : Option Ref :=
  (registry.types.find? fun (number, _) => number = n).map (·.2)

def cells (registry : Registry) : List Ref := registry.types.map (·.2)

def count (registry : Registry) : Nat := registry.types.length

def place (n : UInt16) (ref : Ref) : List (UInt16 × Ref) → List (UInt16 × Ref)
  | [] => [(n, ref)]
  | (number, old) :: rest =>
    if n < number then (number, old) :: place n ref rest
    else if number < n then (n, ref) :: (number, old) :: rest
    else (n, ref) :: rest

theorem mem_place {n : UInt16} {ref : Ref} {types : List (UInt16 × Ref)} {pair : UInt16 × Ref}
    (member : pair ∈ place n ref types) : pair = (n, ref) ∨ pair ∈ types := by
  induction types with
  | nil => exact .inl (List.mem_singleton.1 member)
  | cons first rest ih =>
    unfold place at member
    split at member
    · rcases List.mem_cons.1 member with same | later
      · exact .inr (same ▸ List.mem_cons_self)
      · exact (ih later).imp_right (List.mem_cons_of_mem _)
    · split at member
      · exact List.mem_cons.1 member
      · exact (List.mem_cons.1 member).imp_right (List.mem_cons_of_mem _)

theorem sorted_place (n : UInt16) (ref : Ref) {types : List (UInt16 × Ref)}
    (sorted : types.Pairwise fun later earlier => earlier.1 < later.1) :
    (place n ref types).Pairwise fun later earlier => earlier.1 < later.1 := by
  induction sorted with
  | nil => exact List.pairwise_singleton ..
  | @cons first rest below sorted ih =>
    unfold place
    split
    · rename_i under
      refine .cons (fun pair member => ?_) ih
      rcases mem_place member with rfl | old
      · exact under
      · exact below pair old
    · rename_i notUnder
      split
      · rename_i above
        refine .cons (fun pair member => ?_) (.cons below sorted)
        rcases List.mem_cons.1 member with rfl | old
        · exact above
        · exact UInt16.lt_trans (below pair old) above
      · rename_i notOver
        have same : first.1 = n := UInt16.le_antisymm (UInt16.not_lt.1 notUnder)
          (UInt16.not_lt.1 notOver)
        exact .cons (fun pair member => same ▸ below pair member) sorted

def insert (registry : Registry) (n : UInt16) (ref : Ref) : Registry where
  types := place n ref registry.types
  sorted := sorted_place n ref registry.sorted
  next := registry.next

theorem find?_eq_none {registry : Registry} {n : UInt16} :
    registry.find? n = none ↔ ∀ pair ∈ registry.types, pair.1 ≠ n := by
  simp [find?]

theorem mem_cells_of_find? {registry : Registry} {n : UInt16} {ref : Ref}
    (found : registry.find? n = some ref) : ref ∈ registry.cells := by
  obtain ⟨pair, here, rfl⟩ := Option.map_eq_some_iff.1 found
  exact List.mem_map_of_mem (List.mem_of_find?_eq_some here)

theorem mem_cells_insert {registry : Registry} {n : UInt16} {ref cell : Ref}
    (member : cell ∈ (registry.insert n ref).cells) : cell = ref ∨ cell ∈ registry.cells := by
  obtain ⟨pair, here, rfl⟩ := List.mem_map.1 member
  exact (mem_place here).imp (congrArg Prod.snd) List.mem_map_of_mem

theorem find?_insert_self (registry : Registry) (n : UInt16) (ref : Ref) :
    (registry.insert n ref).find? n = some ref := by
  have placed : ∀ types, (place n ref types).find? (fun (number, _) => number = n) = (n, ref) := by
    intro types
    induction types with
    | nil => simp [place]
    | cons first rest ih =>
      unfold place
      split
      · rename_i under
        have other : first.1 ≠ n := fun same => UInt16.lt_irrefl n (same ▸ under)
        rw [List.find?_cons_of_neg (by simpa using other), ih]
      · split <;> simp
  rw [find?, insert, placed]
  rfl

theorem find?_insert_of_ne (registry : Registry) {n m : UInt16} (ref : Ref) (h : m ≠ n) :
    (registry.insert n ref).find? m = registry.find? m := by
  have placed : ∀ types, (place n ref types).find? (fun (number, _) => number = m) =
      types.find? fun (number, _) => number = m := by
    intro types
    induction types with
    | nil => simp [place, Ne.symm h]
    | cons first rest ih =>
      unfold place
      split
      · rw [List.find?_cons, List.find?_cons, ih]
      · rename_i notUnder
        split
        · rw [List.find?_cons_of_neg (by simpa using Ne.symm h)]
        · rename_i notOver
          have same : first.1 = n :=
            UInt16.le_antisymm (UInt16.not_lt.1 notUnder) (UInt16.not_lt.1 notOver)
          rw [List.find?_cons_of_neg (by simpa using Ne.symm h),
            List.find?_cons_of_neg (by simpa [same] using Ne.symm h)]
  rw [find?, find?, insert, placed]

theorem count_insert {registry : Registry} {n : UInt16} (new : registry.find? n = none)
    (ref : Ref) : (registry.insert n ref).count = registry.count + 1 := by
  have placed : ∀ types : List (UInt16 × Ref), (∀ pair ∈ types, pair.1 ≠ n) →
      (place n ref types).length = types.length + 1 := by
    intro types absent
    induction types with
    | nil => rfl
    | cons first rest ih =>
      obtain ⟨here, later⟩ := List.forall_mem_cons.1 absent
      unfold place
      split
      · rw [List.length_cons, ih later, List.length_cons]
      · rename_i notUnder
        rw [if_pos (UInt16.lt_of_le_of_ne (UInt16.not_lt.1 notUnder) here)]
        rfl
  exact placed registry.types (find?_eq_none.1 new)

end Registry

end ElementTypes
