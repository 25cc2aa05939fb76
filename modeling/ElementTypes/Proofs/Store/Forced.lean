import ElementTypes.Proofs.Store.Swap

/-! # Forcing byte orders -/

namespace ElementTypes

theorem OrderChange.apply_native_ne (order : ByteOrder) :
    (force .native).apply order ≠ .foreign := by
  cases order <;> decide

theorem OrderChange.apply_foreign_ne_iff {order : ByteOrder} :
    (force .foreign).apply order ≠ .foreign ↔ order = .irrelevant := by
  cases order <;> decide

namespace Heap

theorem Renews.counts_iff {change : OrderChange} {old new : Heap} {d d' : Descriptor}
    (renews : old.Renews change new d d') (grown : old.Extends new) (closed : old.Closed)
    (fits : d.Fits old) {order : ByteOrder} :
    new.Counts d' order ↔ ∃ before, old.Counts d before ∧ change.apply before = order := by
  have same := renews.pairs grown closed fits
  have plain_iff : ∀ {x y : Descriptor}, x.Renewed change y → (y.layout = none ↔ x.layout = none) :=
    fun renewed => optionRel_eq_none_iff renewed.layout
  constructor
  · intro counts
    obtain ⟨path, x, leads, plain, rfl⟩ := same.symm.exists_below?
      (Q := fun x => x.layout = none ∧ change.apply x.order = order)
      (fun y x renewed holds => ⟨(plain_iff renewed).1 holds.1, renewed.order.symm.trans holds.2⟩)
      counts
    exact ⟨x.order, ⟨path, x, leads, plain, rfl⟩, rfl⟩
  · rintro ⟨_, ⟨path, x, leads, plain, rfl⟩, rfl⟩
    exact same.exists_below? (P := fun y => y = x)
      (fun y z renewed here => ⟨(plain_iff renewed).2 (here ▸ plain), here ▸ renewed.order⟩)
      ⟨path, x, leads, rfl⟩

end Heap

theorem reorderCell_native (change : OrderChange) {store : Store} (sound : store.Sound)
    (ready : store.Ready) {ref : Ref} (inside : ref < store.heap.size) :
    Succeeds (reorderCell change ref) store fun new t => (t.heap.isNative new = true ↔
      ∀ order, store.heap.Counts (store.heap.get ref) order → change.apply order ≠ .foreign) := by
  obtain ⟨new, t, ran, after, -, -, -, renews⟩ :=
    reorderCell_succeeds change sound ready inside
  have counts (order : ByteOrder) : t.heap.Counts (t.heap.get new) order ↔
      ∃ before, store.heap.Counts (store.heap.get ref) before ∧ change.apply before = order :=
    renews.counts_iff after.grows.heap sound.closed (sound.closed.fits ref)
  refine ⟨new, t, ran, (Heap.isNative_iff_counts after.sound.closed after.sound.acyclic new).trans
    ⟨fun native order here => ?_, fun kept order here => ?_⟩⟩
  · exact native _ ((counts _).2 ⟨order, here, rfl⟩)
  · obtain ⟨before, there, rfl⟩ := (counts order).1 here
    exact kept before there

end ElementTypes
