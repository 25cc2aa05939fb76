import ElementTypes.Heap.Basic

/-! # Native descriptors

In a record the orders of the fields count and its own does not.
-/

namespace ElementTypes.Heap

def nativeWithin (heap : Heap) : Nat → Descriptor → Bool
  | 0, _ => true
  | steps + 1, d =>
    (match d.layout with
      | none => d.order.isNative
      | some layout =>
        layout.table.primary.all fun entry => heap.nativeWithin steps (heap.get entry.target)) &&
    d.bases.all fun base => heap.nativeWithin steps (heap.get base)

def isNative (heap : Heap) (ref : Ref) : Bool := heap.nativeWithin heap.depth (heap.get ref)

end ElementTypes.Heap
