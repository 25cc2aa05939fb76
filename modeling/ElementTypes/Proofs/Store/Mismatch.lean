import ElementTypes.Proofs.Scalar.Cast
import ElementTypes.Proofs.Store.Promote
import ElementTypes.Proofs.Store.Read
import ElementTypes.Proofs.Store.Swap

/-! # Promotion with the swapped form

What was read from a text and its swapped form are not equivalent, unless it has no order. Their
promotion is then made anew from the code and the size alone.
-/

namespace ElementTypes

namespace Descriptor

theorem Renewed.isLeaf {change : OrderChange} {d d' : Descriptor} (same : d.Renewed change d')
    (leaf : d.IsLeaf) : d'.IsLeaf where
  plain := optionRel_of_eq_none same.layout leaf.plain
  single := optionRel_of_eq_none same.shape leaf.single

theorem goal_self {x y : Descriptor} (builtin : x.code.isBuiltin = true) (same : y.code = x.code) :
    x.goal y = x.code := by
  have table : ∀ code ∈ Code.builtin, code.common code = code ∧
      ¬ (code.isObject = true ∧ code.isText = true) := by decide
  obtain ⟨common, apart⟩ := table x.code (Code.mem_builtin builtin)
  rw [goal, same, if_neg (by simpa using apart), common]

theorem goalSize_self {x y : Descriptor} (builtin : x.code.isBuiltin = true)
    (code : y.code = x.code) (size : y.size = x.size) : x.goalSize y = x.size := by
  have own : ∀ d : Descriptor, d.code = x.code → d.sizeAs x.code = d.size := by
    rintro d same
    refine if_neg ?_
    rintro ⟨text, string⟩
    rw [← same, string] at text
    cases text
  rw [goalSize, goal_self builtin code, own x rfl, own y code, size]
  exact ite_self _

end Descriptor

theorem Heap.equivalent_leaf_iff {heap : Heap} (closed : heap.Closed) (acyclic : heap.Acyclic)
    {a b : Ref} (left : a < heap.size) (right : b < heap.size) (leaf : (heap.get a).IsLeaf)
    (leaf' : (heap.get b).IsLeaf) : heap.equivalent a b = true ↔
      (heap.get a).order.isNative = (heap.get b).order.isNative ∧
        (heap.get a).code = (heap.get b).code ∧ (heap.get a).size = (heap.get b).size ∧
          (heap.get a).interval = (heap.get b).interval := by
  rw [equivalent_iff closed acyclic left right, isNative_of_leaf leaf, isNative_of_leaf leaf']
  refine and_congr_right fun _ => ⟨fun alike => ⟨alike.code, alike.size, alike.interval⟩, ?_⟩
  rintro ⟨code, size, interval⟩
  refine ⟨code, size, ?_, ?_, interval⟩
  · rw [leaf.plain, leaf'.plain]
    exact .none
  · rw [leaf.single, leaf'.single]
    exact .none

theorem ByteOrder.eq_irrelevant_of_swap {order : ByteOrder}
    (same : order.isNative = (OrderChange.swap.apply order).isNative) : order = .irrelevant := by
  cases order <;> first | rfl | cases same

theorem OrderChange.isNative_force_native (order : ByteOrder) :
    ((force .native).apply order).isNative = true := by
  cases order <;> rfl

theorem Code.isNative_order (code : Code) : code.order.isNative = true := by
  cases code <;> rfl

theorem Wording.interval_of_irrelevant {w : Wording} (unordered : w.order = .irrelevant) :
    w.interval = (Descriptor.canonical w.code).interval := by
  have settled := w.settled
  have temporal := w.temporal
  rw [unordered] at settled
  cases code : w.code <;> rw [code] at settled temporal <;>
    first | exact Option.not_isSome_iff_eq_none.1 (Bool.eq_false_iff.1 temporal) | cases settled

/-- Promotes a descriptor with its swapped form, after its native form was made. -/
def promoteSwapped (d : Ref) : Run (Ref × Ref) := do
  let swapped ← reorderCell .swap d
  let native ← reorderCell (.force .native) d
  let result ← promote d swapped
  return (result, native)

/-- The result has the code and the size, in the native order, and the interval of the code. So it
is the native form if and only if that is the interval of the descriptor. -/
structure Mended (heap : Heap) (d result native : Ref) : Prop where
  code : (heap.get result).code = (heap.get d).code
  size : (heap.get result).size = (heap.get d).size
  order : heap.isNative result = true
  interval : (heap.get result).interval = (Descriptor.canonical (heap.get d).code).interval
  equivalent : heap.equivalent result native = true ↔
    (heap.get d).interval = (Descriptor.canonical (heap.get d).code).interval

theorem mended {heap : Heap} (closed : heap.Closed) (acyclic : heap.Acyclic) {d result native : Ref}
    (inside : result < heap.size) (inside' : native < heap.size) (leaf : (heap.get d).IsLeaf)
    (forced : (heap.get d).Renewed (.force .native) (heap.get native))
    (leaf' : (heap.get result).IsLeaf) (code : (heap.get result).code = (heap.get d).code)
    (size : (heap.get result).size = (heap.get d).size)
    (order : (heap.get result).order.isNative = true)
    (interval : (heap.get result).interval = (Descriptor.canonical (heap.get d).code).interval) :
    Mended heap d result native where
  code := code
  size := size
  order := (Heap.isNative_of_leaf leaf').trans order
  interval := interval
  equivalent := by
    rw [Heap.equivalent_leaf_iff closed acyclic inside inside' leaf' (forced.isLeaf leaf), code,
      size, order, interval, forced.order, forced.code, forced.size, forced.interval,
      OrderChange.isNative_force_native]
    simp [eq_comm]

section Mending

variable {store : Store} (sound : store.Sound) (ready : store.Ready) {w : Wording}
include sound ready

theorem promote_mends {d swapped native : Ref} (inside : d < store.heap.size)
    (inside' : swapped < store.heap.size) (inside'' : native < store.heap.size)
    (here : store.heap.get d = w.descriptor)
    (swaps : (store.heap.get d).Renewed .swap (store.heap.get swapped))
    (forces : (store.heap.get d).Renewed (.force .native) (store.heap.get native)) :
    Succeeds (promote d swapped) store fun result t =>
      store.heap.Extends t.heap ∧ Mended t.heap d result native := by
  have leaf : (store.heap.get d).IsLeaf := here ▸ w.isLeaf
  have leaf' := swaps.isLeaf leaf
  cases same : store.heap.equivalent d swapped with
  | true =>
      -- what is its own swapped form has no order
      obtain ⟨order, -⟩ := (Heap.equivalent_leaf_iff sound.closed sound.acyclic inside inside' leaf
        leaf').1 same
      rw [swaps.order] at order
      have unordered := ByteOrder.eq_irrelevant_of_swap order
      refine ⟨swapped, store, promote_run_equivalent same, .refl _, ?_⟩
      refine mended sound.closed sound.acyclic inside' inside'' leaf forces leaf' swaps.code
        swaps.size ?_ ?_
      · rw [swaps.order, unordered]
        rfl
      · rw [swaps.interval]
        rw [here] at unordered ⊢
        exact w.interval_of_irrelevant unordered
  | false =>
      have builtin : (store.heap.get d).code.isBuiltin = true := by
        rw [here]
        exact (TypeText.sized?_eq_some w.sized).1
      have ends := promote_run same
      rw [Descriptor.goal_self builtin swaps.code,
        Descriptor.goalSize_self builtin swaps.code swaps.size] at ends
      rw [Succeeds, ends]
      obtain ⟨result, t, ran, after, -, found⟩ :=
        (promoteTo_succeeds ready (store.cellOf?_builtin builtin) _).ensuring
          (promoteTo_found sound _ (store.heap.get d).size)
      have grown := after.grows.heap
      refine ⟨result, t, ran, grown, ?_⟩
      rw [here] at found
      cases found with
      | registered user =>
          rw [← here, builtin] at user
          cases user
      | plain _ bound companion content =>
          have kept : t.heap.get d = w.descriptor := (grown.get d inside).trans here
          rw [← grown.get native inside'', here, ← kept] at forces
          refine mended after.sound.closed after.sound.acyclic bound
            (Nat.lt_of_lt_of_le inside'' grown.size) (kept ▸ w.isLeaf) forces ?_ ?_ ?_ ?_ ?_
          all_goals rw [content]
          · exact ⟨rfl, rfl⟩
          · rw [kept]
            rfl
          · rw [kept]
            show (if w.code.isSizable = true then w.size else w.code.size) = w.size
            split
            · rfl
            · rename_i fixed
              exact (w.size_of_fixed (Bool.eq_false_of_not_eq_true fixed)).symm
          · exact Code.isNative_order _
          · rw [kept]

theorem promoteSwapped_succeeds {d : Ref} (inside : d < store.heap.size)
    (here : store.heap.get d = w.descriptor) :
    Succeeds (promoteSwapped d) store fun refs t =>
      store.heap.Extends t.heap ∧ Mended t.heap d refs.1 refs.2 := by
  unfold promoteSwapped
  refine (reorderCell_succeeds .swap sound ready inside).bind ?_
  rintro swapped t ⟨after, ready, -, inside', swaps⟩
  have kept := after.grows.heap.get d inside
  have inside := Nat.lt_of_lt_of_le inside after.grows.heap.size
  refine (reorderCell_succeeds (.force .native) after.sound ready inside).bind ?_
  rintro native u ⟨after', ready, -, inside'', forces⟩
  have grown := after'.grows.heap
  have same : u.heap.get d = store.heap.get d := (grown.get d inside).trans kept
  have swaps : (u.heap.get d).Renewed .swap (u.heap.get swapped) := by
    rw [same, grown.get swapped inside']
    exact swaps.renewed
  have forces : (u.heap.get d).Renewed (.force .native) (u.heap.get native) := by
    rw [same, ← kept]
    exact forces.renewed
  refine (promote_mends after'.sound ready (Nat.lt_of_lt_of_le inside grown.size)
    (Nat.lt_of_lt_of_le inside' grown.size) inside'' (same.trans here) swaps forces).bind ?_
  rintro result v ⟨grown', mended⟩
  exact .pure ⟨(after.grows.heap.trans grown).trans grown', mended⟩

end Mending

end ElementTypes
