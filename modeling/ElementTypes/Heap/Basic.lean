import ElementTypes.Descriptor.Basic

/-! # Heaps of descriptors

Cells are never given back; what counts is which of them can be reached.
-/

namespace ElementTypes

structure Heap where
  cells : Array Descriptor

namespace Heap

def size (heap : Heap) : Nat := heap.cells.size

def get (heap : Heap) (ref : Ref) : Descriptor :=
  heap.cells[ref]?.getD (.canonical .void)

def alloc (heap : Heap) (d : Descriptor) : Ref × Heap :=
  (heap.size, ⟨heap.cells.push d⟩)

def set (heap : Heap) (ref : Ref) (d : Descriptor) : Heap :=
  ⟨heap.cells.setIfInBounds ref d⟩

theorem size_alloc (heap : Heap) (d : Descriptor) : (heap.alloc d).2.size = heap.size + 1 := by
  simp [alloc, size]

theorem get_alloc_self (heap : Heap) (d : Descriptor) : (heap.alloc d).2.get heap.size = d := by
  simp [alloc, size, get]

theorem get_alloc_of_lt {heap : Heap} {ref : Ref} (d : Descriptor) (h : ref < heap.size) :
    (heap.alloc d).2.get ref = heap.get ref := by
  simp only [size] at h
  simp [alloc, get, Array.getElem?_push, Nat.ne_of_lt h]

theorem size_set (heap : Heap) (ref : Ref) (d : Descriptor) :
    (heap.set ref d).size = heap.size := by
  simp [set, size]

theorem get_set_self {heap : Heap} {ref : Ref} (d : Descriptor) (h : ref < heap.size) :
    (heap.set ref d).get ref = d := by
  simp only [size] at h
  simp [set, get, h]

theorem get_set_of_ne (heap : Heap) {ref other : Ref} (d : Descriptor) (h : other ≠ ref) :
    (heap.set ref d).get other = heap.get other := by
  simp [set, get, Ne.symm h]

/-- Enough steps to follow references from any descriptor to the end: in a heap without cycles no
path meets a cell twice. -/
def depth (heap : Heap) : Nat := heap.size + 1

def ofCodes (codes : List Code) : Heap := ⟨(codes.map .canonical).toArray⟩

end Heap

end ElementTypes
