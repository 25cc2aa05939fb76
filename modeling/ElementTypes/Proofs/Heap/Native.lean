import ElementTypes.Heap.Native
import ElementTypes.Proofs.Heap.Objects

/-! # Which descriptors are native -/

namespace ElementTypes

structure Descriptor.IsLeaf (d : Descriptor) : Prop where
  plain : d.layout = none
  single : d.subarray = none

namespace Heap

inductive Foreign (heap : Heap) : Descriptor → Prop
  | ordered {d : Descriptor} (plain : d.layout = none) (foreign : d.order.isNative = false) :
      Foreign heap d
  | through {d : Descriptor} {ref : Ref} (link : ref ∈ d.primaryLinks)
      (foreign : Foreign heap (heap.get ref)) : Foreign heap d

theorem nativeWithin_succ (heap : Heap) (n : Nat) (d : Descriptor) :
    heap.nativeWithin (n + 1) d = ((d.layout.isSome || d.order.isNative) &&
      d.primaryLinks.all fun ref => heap.nativeWithin n (heap.get ref)) := by
  rw [nativeWithin, Descriptor.primaryLinks, Descriptor.fieldTargets]
  cases d.layout <;> simp [Function.comp_def]

theorem isNative_of_leaf {heap : Heap} {ref : Ref} (leaf : (heap.get ref).IsLeaf) :
    heap.isNative ref = (heap.get ref).order.isNative := by
  obtain ⟨plain, single⟩ := leaf
  rw [isNative, depth, nativeWithin_succ]
  simp [plain, single, Descriptor.primaryLinks, Descriptor.fieldTargets, Descriptor.bases]

theorem nativeWithin_iff {heap : Heap} {n : Nat} {d : Descriptor} (within : heap.Within n d) :
    heap.nativeWithin n d = true ↔ ¬ heap.Foreign d := by
  induction n generalizing d with
  | zero => exact absurd within id
  | succ n ih =>
      have below : ∀ ref ∈ d.primaryLinks,
          (heap.nativeWithin n (heap.get ref) = true ↔ ¬ heap.Foreign (heap.get ref)) :=
        fun ref link => ih (within ref (Descriptor.links_of_primaryLinks link))
      rw [nativeWithin_succ, Bool.and_eq_true, Bool.or_eq_true, List.all_eq_true]
      constructor
      · rintro ⟨own, native⟩ foreign
        cases foreign with
        | ordered plain foreign => simp [plain, foreign] at own
        | through link foreign => exact (below _ link).1 (native _ link) foreign
      · intro native
        refine ⟨?_, fun ref link =>
          (below ref link).2 fun foreign => native (.through link foreign)⟩
        cases record : d.layout with
        | some layout => exact .inl rfl
        | none =>
            refine .inr (Bool.eq_true_of_not_eq_false fun foreign => ?_)
            exact native (.ordered record foreign)

theorem isNative_iff {heap : Heap} (closed : heap.Closed) (acyclic : heap.Acyclic) (ref : Ref) :
    heap.isNative ref = true ↔ ¬ heap.Foreign (heap.get ref) :=
  nativeWithin_iff (within_depth closed acyclic (closed.fits ref))

theorem isNative_eq_of_foreign_iff {old new : Heap} (closed : old.Closed) (acyclic : old.Acyclic)
    (closed' : new.Closed) (acyclic' : new.Acyclic) {a b : Ref}
    (same : new.Foreign (new.get b) ↔ old.Foreign (old.get a)) :
    new.isNative b = old.isNative a := by
  rw [Bool.eq_iff_iff, isNative_iff closed acyclic, isNative_iff closed' acyclic', same]

theorem Extends.foreign_iff {old new : Heap} (grown : old.Extends new) (closed : old.Closed)
    {d : Descriptor} (fits : d.Fits old) : new.Foreign d ↔ old.Foreign d := by
  constructor
  · intro foreign
    induction foreign with
    | ordered plain foreign => exact .ordered plain foreign
    | @through d ref link _ ih =>
        have inside := fits ref (Descriptor.links_of_primaryLinks link)
        rw [grown.get ref inside] at ih
        exact .through link (ih (closed.fits ref))
  · intro foreign
    induction foreign with
    | ordered plain foreign => exact .ordered plain foreign
    | @through d ref link _ ih =>
        have inside := fits ref (Descriptor.links_of_primaryLinks link)
        refine .through link ?_
        rw [grown.get ref inside]
        exact ih (closed.fits ref)

theorem Extends.isNative_eq {old new : Heap} (grown : old.Extends new) (closed : old.Closed)
    (acyclic : old.Acyclic) (closed' : new.Closed) (acyclic' : new.Acyclic) {ref : Ref}
    (inside : ref < old.size) : new.isNative ref = old.isNative ref := by
  refine isNative_eq_of_foreign_iff closed acyclic closed' acyclic' ?_
  rw [grown.get ref inside]
  exact grown.foreign_iff closed (closed.fits ref)

end Heap

structure Descriptor.SameShape (old new : Descriptor) : Prop where
  record : new.layout = none ↔ old.layout = none
  order : new.order = old.order
  marks : new.marksObjects = old.marksObjects
  primary : new.primaryLinks = old.primaryLinks
  links : new.links = old.links

namespace Descriptor.SameShape

theorem refl (d : Descriptor) : d.SameShape d := ⟨.rfl, rfl, rfl, rfl, rfl⟩

theorem symm {old new : Descriptor} (same : old.SameShape new) : new.SameShape old :=
  ⟨same.record.symm, same.order.symm, same.marks.symm, same.primary.symm, same.links.symm⟩

end Descriptor.SameShape

namespace Heap

variable {old new : Heap} (same : ∀ ref, (old.get ref).SameShape (new.get ref))
include same

theorem foreign_of_sameShape {d d' : Descriptor} (here : d.SameShape d') (foreign : old.Foreign d) :
    new.Foreign d' := by
  induction foreign generalizing d' with
  | ordered plain foreign => exact .ordered (here.record.2 plain) (here.order ▸ foreign)
  | through link _ ih => exact .through (here.primary ▸ link) (ih (same _))

theorem bears_of_sameShape {d d' : Descriptor} (here : d.SameShape d') (bears : old.Bears d) :
    new.Bears d' := by
  induction bears generalizing d' with
  | marked marks => exact .marked (here.marks.trans marks)
  | through link _ ih => exact .through (here.primary ▸ link) (ih (same _))

theorem acyclic_of_sameShape (acyclic : old.Acyclic) : new.Acyclic := by
  rw [Acyclic, points_eq fun ref => (same ref).links]
  exact acyclic

variable (closed : old.Closed) (acyclic : old.Acyclic) (size : new.size = old.size)
include closed size

theorem closed_of_sameShape : new.Closed := by
  rw [Closed, points_eq fun ref => (same ref).links, size]
  exact closed

include acyclic

theorem isNative_of_sameShape (ref : Ref) : new.isNative ref = old.isNative ref :=
  isNative_eq_of_foreign_iff closed acyclic (closed_of_sameShape same closed size)
    (acyclic_of_sameShape same acyclic)
    ⟨foreign_of_sameShape (fun cell => (same cell).symm) (same ref).symm,
      foreign_of_sameShape same (same ref)⟩

theorem findObjects_of_sameShape (ref : Ref) :
    (new.findObjects (new.get ref)).1 = (old.findObjects (old.get ref)).1 := by
  have closed' := closed_of_sameShape same closed size
  rw [Bool.eq_iff_iff, findObjects_true_iff closed acyclic (closed.fits ref),
    findObjects_true_iff closed' (acyclic_of_sameShape same acyclic) (closed'.fits ref)]
  exact ⟨bears_of_sameShape (fun cell => (same cell).symm) (same ref).symm,
    bears_of_sameShape same (same ref)⟩

end Heap

end ElementTypes
