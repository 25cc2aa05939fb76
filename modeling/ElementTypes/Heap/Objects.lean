import ElementTypes.Heap.Basic

/-! # Looking for objects

A search follows the fields in table order and then the sub-array, and ends at the first descriptor
that marks itself. Every descriptor on its way is flagged while it comes back.
-/

namespace ElementTypes.Heap

def flag (heap : Heap) (ref : Ref) : Heap :=
  let d := heap.get ref
  heap.set ref { d with flags := d.flags.union .object }

def visit (below : Descriptor → StateM Heap Bool) (ref : Ref) : StateM Heap Bool := do
  let found ← below ((← getThe Heap).get ref)
  if found then modify fun heap => heap.flag ref
  return found

def findWithin : Nat → Descriptor → StateM Heap Bool
  | 0, _ => return false
  | steps + 1, d =>
    if d.marksObjects then return true else d.primaryLinks.anyM (visit (findWithin steps))

/-- Whether a descriptor holds objects, and the heap with the trail flagged. -/
def findObjects (heap : Heap) (d : Descriptor) : Bool × Heap := (findWithin heap.depth d).run heap

end ElementTypes.Heap
