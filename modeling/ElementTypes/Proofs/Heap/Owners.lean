import ElementTypes.Heap.Owners
import ElementTypes.Proofs.Heap.Reach
import Mathlib.Algebra.BigOperators.Fin

/-! # What an owner count of one means

Marking visits every cell that the roots reach, so a cell that is held by a root and has one owner
is neither held twice nor pointed at from any live cell.
-/

namespace ElementTypes.Heap

def unseen (heap : Heap) (seen : Array Bool) : Nat :=
  ∑ ref ∈ Finset.range heap.size, if seen[ref]? = some false then (heap.get ref).links.length else 0

theorem unseen_set {heap : Heap} {seen : Array Bool} {ref : Ref} (inside : ref < heap.size)
    (unmarked : seen[ref]? = some false) :
    heap.unseen (seen.setIfInBounds ref true) + (heap.get ref).links.length = heap.unseen seen := by
  have member : ref ∈ Finset.range heap.size := Finset.mem_range.2 inside
  obtain ⟨bound, -⟩ := Array.getElem?_eq_some_iff.1 unmarked
  unfold unseen
  rw [← Finset.sum_erase_add _ _ member, ← Finset.sum_erase_add _ _ member, if_pos unmarked]
  have here : (seen.setIfInBounds ref true)[ref]? = some true := by simp [bound]
  rw [here, if_neg (by simp), Nat.add_zero]
  congr 1
  apply Finset.sum_congr rfl
  intro other others
  rw [Array.getElem?_setIfInBounds_ne (Finset.ne_of_mem_erase others).symm]

theorem foldl_add_eq_sum {α : Type} (size : α → Nat) (list : List α) (start : Nat) :
    list.foldl (fun count a => count + size a) start = start + (list.map size).sum := by
  induction list generalizing start with
  | nil => simp
  | cons a list ih => rw [List.foldl_cons, ih, List.map_cons, List.sum_cons, Nat.add_assoc]

theorem linkCount_eq (heap : Heap) :
    heap.linkCount = ∑ ref ∈ Finset.range heap.size, (heap.get ref).links.length := by
  rw [linkCount, ← Array.foldl_toList, foldl_add_eq_sum, Nat.zero_add, Finset.sum_range,
    ← List.sum_ofFn]
  congr 1
  apply List.ext_getElem
  · simp [size]
  · intro i bound _
    have inside : i < heap.cells.size := by simpa using bound
    simp [get, inside]

theorem unseen_replicate (heap : Heap) :
    heap.unseen (.replicate heap.size false) = heap.linkCount := by
  rw [linkCount_eq, unseen]
  apply Finset.sum_congr rfl
  intro ref member
  have inside : ref < heap.size := Finset.mem_range.1 member
  rw [if_pos (by simp [inside])]

structure Marking (heap : Heap) (seen : Array Bool) (pending : List Ref) : Prop where
  size : seen.size = heap.size
  links : ∀ ref, seen[ref]? = some true → ∀ next ∈ (heap.get ref).links,
    seen[next]? = some true ∨ next ∈ pending

theorem Marking.visit {heap : Heap} {seen : Array Bool} {ref : Ref} {pending : List Ref}
    (marking : heap.Marking seen (ref :: pending)) (inside : ref < heap.size) :
    heap.Marking (seen.setIfInBounds ref true) ((heap.get ref).links ++ pending) where
  size := by simpa using marking.size
  links other marked next link := by
    have bound : ref < seen.size := marking.size ▸ inside
    by_cases same : other = ref
    · subst same
      exact .inr (by simp [link])
    · rw [Array.getElem?_setIfInBounds_ne (Ne.symm same)] at marked
      rcases marking.links other marked next link with done | waiting
      · refine .inl ?_
        by_cases here : ref = next
        · simp [← here, bound]
        · rw [Array.getElem?_setIfInBounds_ne here]
          exact done
      · rcases List.mem_cons.1 waiting with rfl | waiting
        · exact .inl (by simp [bound])
        · exact .inr (by simp [waiting])

theorem Marking.skip {heap : Heap} {seen : Array Bool} {ref : Ref} {pending : List Ref}
    (marking : heap.Marking seen (ref :: pending)) (marked : seen[ref]? = some true) :
    heap.Marking seen pending where
  size := marking.size
  links other here next link := by
    rcases marking.links other here next link with done | waiting
    · exact .inl done
    · rcases List.mem_cons.1 waiting with rfl | waiting
      · exact .inl marked
      · exact .inr waiting

theorem marked_of_set {seen : Array Bool} {ref other : Ref} (marked : seen[other]? = some true) :
    (seen.setIfInBounds ref true)[other]? = some true := by
  obtain ⟨bound, -⟩ := Array.getElem?_eq_some_iff.1 marked
  by_cases same : ref = other
  · subst same
    simp [bound]
  · rw [Array.getElem?_setIfInBounds_ne same]
    exact marked

theorem mark_spec {heap : Heap} (closed : heap.Closed) {steps : Nat} {seen : Array Bool}
    {pending : List Ref} (marking : heap.Marking seen pending)
    (inside : ∀ ref ∈ pending, ref < heap.size)
    (enough : pending.length + heap.unseen seen ≤ steps) :
    heap.Marking (heap.mark steps seen pending) [] ∧
      (∀ ref : Ref, seen[ref]? = some true →
        (heap.mark steps seen pending)[ref]? = some true) ∧
      ∀ ref ∈ pending, (heap.mark steps seen pending)[ref]? = some true := by
  induction steps generalizing seen pending with
  | zero =>
      have none : pending = [] := List.eq_nil_of_length_eq_zero (by omega)
      subst none
      exact ⟨marking, fun _ => id, by simp⟩
  | succ steps ih =>
      cases pending with
      | nil => exact ⟨marking, fun _ => id, by simp⟩
      | cons ref pending =>
          have bound : ref < heap.size := inside ref (by simp)
          rw [List.length_cons] at enough
          by_cases unmarked : seen[ref]? = some false
          · simp only [mark, if_pos unmarked]
            have visited := unseen_set bound unmarked
            obtain ⟨final, kept, reached⟩ := ih (marking.visit bound)
              (fun next member => (List.mem_append.1 member).elim (closed ref next)
                fun old => inside next (by simp [old]))
              (by rw [List.length_append]; omega)
            refine ⟨final, fun other marked => kept other (marked_of_set marked), ?_⟩
            intro other member
            rcases List.mem_cons.1 member with rfl | member
            · exact kept other (by simp [marking.size, bound])
            · exact reached other (by simp [member])
          · have here : ref < seen.size := marking.size ▸ bound
            have marked : seen[ref]? = some true := by
              rw [Array.getElem?_eq_getElem here] at unmarked ⊢
              simpa using unmarked
            simp only [mark, if_neg unmarked]
            obtain ⟨final, kept, reached⟩ := ih (marking.skip marked)
              (fun next member => inside next (by simp [member])) (by omega)
            refine ⟨final, kept, ?_⟩
            intro other member
            rcases List.mem_cons.1 member with rfl | member
            · exact kept other marked
            · exact reached other member

theorem live_of_reaches {heap : Heap} (closed : heap.Closed) {roots : List Ref}
    (inside : ∀ root ∈ roots, root < heap.size) {root ref : Ref} (member : root ∈ roots)
    (reaches : heap.Reaches root ref) : (heap.live roots)[ref]? = some true := by
  have start : heap.Marking (.replicate heap.size false) roots :=
    ⟨by simp, fun other marked => by simp [Array.getElem?_replicate] at marked⟩
  obtain ⟨final, -, reached⟩ := mark_spec closed start inside
    (Nat.le_of_eq (by rw [unseen_replicate]))
  induction reaches with
  | refl => exact reached root member
  | tail _ points ih => exact (final.links _ ih _ points).resolve_right (by simp)

theorem of_mem_mark {heap : Heap} {P : Ref → Prop} (step : ∀ a b, P a → heap.Points a b → P b)
    {steps : Nat} {seen : Array Bool} {pending : List Ref}
    (before : ∀ ref : Ref, seen[ref]? = some true → P ref) (waiting : ∀ ref ∈ pending, P ref)
    {ref : Ref} (marked : (heap.mark steps seen pending)[ref]? = some true) : P ref := by
  induction steps generalizing seen pending with
  | zero => exact before ref marked
  | succ steps ih =>
      cases pending with
      | nil => exact before ref marked
      | cons next pending =>
          obtain ⟨here, rest⟩ := List.forall_mem_cons.1 waiting
          rw [mark] at marked
          split at marked
          · refine ih (fun other now => ?_) (fun other member => ?_) marked
            · by_cases same : next = other
              · exact same ▸ here
              · rw [Array.getElem?_setIfInBounds_ne same] at now
                exact before other now
            · rcases List.mem_append.1 member with link | old
              · exact step next other here link
              · exact rest other old
          · exact ih before rest marked

theorem live_iff {heap : Heap} (closed : heap.Closed) {roots : List Ref}
    (inside : ∀ root ∈ roots, root < heap.size) {ref : Ref} :
    (heap.live roots)[ref]? = some true ↔ ∃ root ∈ roots, heap.Reaches root ref := by
  constructor
  · intro marked
    refine of_mem_mark (P := fun ref => ∃ root ∈ roots, heap.Reaches root ref) ?_ ?_ ?_ marked
    · rintro a b ⟨root, member, path⟩ points
      exact ⟨root, member, path.tail points⟩
    · intro other none
      simp [Array.getElem?_replicate] at none
    · exact fun root member => ⟨root, member, .refl⟩
  · rintro ⟨root, member, path⟩
    exact live_of_reaches closed inside member path

theorem owners_eq (heap : Heap) (roots : List Ref) (ref : Ref) :
    heap.owners roots ref = roots.count ref + ((List.range heap.size).map fun cell =>
      if (heap.live roots)[cell]? = some true then (heap.get cell).links.count ref else 0).sum := by
  rw [← foldl_add_eq_sum]
  simp only [owners]
  congr 1
  funext count cell
  split <;> rfl

section SoleOwner

variable {heap : Heap} {roots : List Ref} {ref : Ref} (held : ref ∈ roots)
  (sole : heap.owners roots ref = 1)
include held sole

theorem count_of_sole_owner : roots.count ref = 1 := by
  have positive := List.count_pos_iff.2 held
  rw [owners_eq] at sole
  omega

theorem not_points_of_sole_owner (closed : heap.Closed)
    (inside : ∀ root ∈ roots, root < heap.size) {root cell : Ref} (member : root ∈ roots)
    (reaches : heap.Reaches root cell) : ¬ heap.Points cell ref := by
  intro points
  have live := live_of_reaches closed inside member reaches
  have once := count_of_sole_owner held sole
  rw [owners_eq, once] at sole
  have none := List.sum_eq_zero_iff_forall_eq_nat.1 (Nat.add_eq_left.1 sole)
    ((heap.get cell).links.count ref)
    (List.mem_map.2 ⟨cell, List.mem_range.2 points.lt_size, if_pos live⟩)
  exact List.count_eq_zero.1 none points

end SoleOwner

section Owners

variable {heap : Heap} (closed : heap.Closed) {roots : List Ref}
  (inside : ∀ root ∈ roots, root < heap.size) {ref : Ref}
include closed inside

theorem owners_of_unlinked
    (apart : ∀ root ∈ roots, ∀ cell, heap.Reaches root cell → ¬ heap.Points cell ref) :
    heap.owners roots ref = roots.count ref := by
  rw [owners_eq, Nat.add_eq_left, List.sum_eq_zero_iff_forall_eq_nat]
  intro links member
  obtain ⟨cell, -, rfl⟩ := List.mem_map.1 member
  split
  · rename_i live
    obtain ⟨root, held, path⟩ := (live_iff closed inside).1 live
    exact List.count_eq_zero.2 (apart root held cell path)
  · rfl

theorem owners_of_link {root cell : Ref} (held : root ∈ roots) (path : heap.Reaches root cell)
    (others : ∀ other ≠ cell, ¬ heap.Points other ref) :
    heap.owners roots ref = roots.count ref + (heap.get cell).links.count ref := by
  have bound := closed.reaches_lt path (inside root held)
  rw [owners_eq, ← List.sum_toFinset _ List.nodup_range, List.toFinset_range,
    Finset.sum_eq_single_of_mem cell (Finset.mem_range.2 bound),
    if_pos (live_of_reaches closed inside held path)]
  intro other _ differs
  split
  · exact List.count_eq_zero.2 (others other differs)
  · rfl

end Owners

end ElementTypes.Heap
