import ElementTypes.Proofs.Heap.Aliases

/-! # Trees in preorder -/

namespace ElementTypes.Heap

def preorderWithin (heap : Heap) : Nat → Ref → List Ref
  | 0, ref => [ref]
  | steps + 1, ref => ref :: (heap.get ref).primaryLinks.flatMap (heap.preorderWithin steps)

def preorder (heap : Heap) (ref : Ref) : List Ref := heap.preorderWithin heap.depth ref

theorem Extends.preorderWithin_eq {old new : Heap} (grown : old.Extends new) (closed : old.Closed)
    {n m : Nat} {ref : Ref} (inside : ref < old.size) (within : old.Within n (old.get ref))
    (within' : old.Within m (old.get ref)) :
    new.preorderWithin m ref = old.preorderWithin n ref := by
  induction n generalizing m ref with
  | zero => exact absurd within id
  | succ n ih =>
      cases m with
      | zero => exact absurd within' id
      | succ m =>
          rw [preorderWithin, preorderWithin, grown.get ref inside]
          refine congrArg _ (List.flatMap_congr fun next member => ?_)
          have link := Descriptor.links_of_primaryLinks member
          exact ih (closed ref next link) (within next link) (within' next link)

theorem mem_preorderWithin {heap : Heap} {n : Nat} {ref cell : Ref}
    (within : heap.Within n (heap.get ref)) :
    cell ∈ heap.preorderWithin n ref ↔ ∃ path, heap.down? ref path = some cell := by
  induction n generalizing ref with
  | zero => exact absurd within id
  | succ n ih =>
      have below : ∀ next ∈ (heap.get ref).primaryLinks,
          (cell ∈ heap.preorderWithin n next ↔ ∃ path, heap.down? next path = some cell) :=
        fun next link => ih (within next (Descriptor.links_of_primaryLinks link))
      rw [preorderWithin, List.mem_cons, List.mem_flatMap]
      constructor
      · rintro (rfl | ⟨next, link, later⟩)
        · exact ⟨[], rfl⟩
        · obtain ⟨path, leads⟩ := (below next link).1 later
          obtain ⟨turn, here⟩ := Descriptor.mem_primaryLinks_iff_turn?.1 link
          exact ⟨turn :: path, by rw [down?, here]; exact leads⟩
      · rintro ⟨path, leads⟩
        cases path with
        | nil => exact .inl (Option.some.inj leads).symm
        | cons turn path =>
            obtain ⟨next, here, leads⟩ := Option.bind_eq_some_iff.1 leads
            have link := Descriptor.mem_primaryLinks_iff_turn?.2 ⟨turn, here⟩
            exact .inr ⟨next, link, (below next link).2 ⟨path, leads⟩⟩

section Laws

variable {heap : Heap} (closed : heap.Closed) (acyclic : heap.Acyclic)
include closed acyclic

theorem preorderWithin_of_depth_le {n : Nat} (enough : heap.depth ≤ n) {ref : Ref}
    (inside : ref < heap.size) : heap.preorderWithin n ref = heap.preorder ref := by
  have within := within_depth closed acyclic (closed.fits ref)
  exact (Extends.refl heap).preorderWithin_eq closed inside within (within.mono enough)

theorem preorder_eq {ref : Ref} (inside : ref < heap.size) :
    heap.preorder ref = ref :: (heap.get ref).primaryLinks.flatMap heap.preorder := by
  rw [← preorderWithin_of_depth_le closed acyclic (Nat.le_succ _) inside, preorderWithin]
  rfl

theorem Extends.preorder_eq {new : Heap} (grown : heap.Extends new) {ref : Ref}
    (inside : ref < heap.size) : new.preorder ref = heap.preorder ref := by
  have within := within_depth closed acyclic (closed.fits ref)
  exact grown.preorderWithin_eq closed inside within (within.mono (Nat.succ_le_succ grown.size))

theorem mem_preorder {ref cell : Ref} :
    cell ∈ heap.preorder ref ↔ ∃ path, heap.down? ref path = some cell :=
  mem_preorderWithin (within_depth closed acyclic (closed.fits ref))

theorem preorder_lt {ref : Ref} (inside : ref < heap.size) :
    ∀ cell ∈ heap.preorder ref, cell < heap.size := by
  intro cell member
  obtain ⟨path, leads⟩ := (mem_preorder closed acyclic).1 member
  exact down?_lt closed inside leads

end Laws

section Pairs

variable {heap heap' : Heap} {related : Descriptor → Descriptor → Prop}
  (layout : ∀ x y, related x y → Option.Rel Layout.Retargeted x.layout y.layout)
  (shape : ∀ x y, related x y →
    Option.Rel (fun a b : Subarray => b.shape = a.shape) x.subarray y.subarray)
include layout shape

theorem forall₂_preorderWithin (n : Nat) {a b : Ref}
    (same : heap.Pairs heap' related (heap.get a) (heap'.get b)) :
    List.Forall₂ (fun s t => related (heap.get s) (heap'.get t))
      (heap.preorderWithin n a) (heap'.preorderWithin n b) := by
  induction n generalizing a b with
  | zero => exact .cons same.here .nil
  | succ n ih =>
      refine .cons same.here ?_
      have paired := Descriptor.primaryLinks_paired (layout _ _ same.here) (shape _ _ same.here)
      refine List.rel_flatMap paired ?_
      rintro s t ⟨turn, left, right⟩
      exact ih (same.turn left right)

theorem forall₂_preorder (closed : heap.Closed) (acyclic : heap.Acyclic) (closed' : heap'.Closed)
    (acyclic' : heap'.Acyclic) {a b : Ref} (inside : a < heap.size) (inside' : b < heap'.size)
    (same : heap.Pairs heap' related (heap.get a) (heap'.get b)) :
    List.Forall₂ (fun s t => related (heap.get s) (heap'.get t))
      (heap.preorder a) (heap'.preorder b) := by
  have enough : heap.depth ≤ max heap.depth heap'.depth := Nat.le_max_left ..
  have enough' : heap'.depth ≤ max heap.depth heap'.depth := Nat.le_max_right ..
  rw [← preorderWithin_of_depth_le closed acyclic enough inside,
    ← preorderWithin_of_depth_le closed' acyclic' enough' inside']
  exact forall₂_preorderWithin layout shape _ same

end Pairs

end ElementTypes.Heap
