import ElementTypes.Heap.Basic

/-! # Owners

A cell is owned by the roots and by the references in cells that the roots reach. What cannot be
reached owns nothing.
-/

namespace ElementTypes.Heap

def linkCount (heap : Heap) : Nat :=
  heap.cells.foldl (fun count d => count + d.links.length) 0

/-- Marks what the list `pending` reaches through unmarked cells. Each step takes one reference off
the list. -/
def mark (heap : Heap) : Nat → Array Bool → List Ref → Array Bool
  | 0, seen, _ => seen
  | _, seen, [] => seen
  | steps + 1, seen, ref :: pending =>
    if seen[ref]? = some false then
      mark heap steps (seen.setIfInBounds ref true) ((heap.get ref).links ++ pending)
    else mark heap steps seen pending

/-- The cells that the roots reach. A cell's references are put on the list once at most, so the
number of all of them bounds the steps. -/
def live (heap : Heap) (roots : List Ref) : Array Bool :=
  heap.mark (roots.length + heap.linkCount) (.replicate heap.size false) roots

def owners (heap : Heap) (roots : List Ref) (ref : Ref) : Nat :=
  let live := heap.live roots
  (List.range heap.size).foldl
    (fun count cell =>
      if live[cell]? = some true then count + (heap.get cell).links.count ref else count)
    (roots.count ref)

end ElementTypes.Heap
