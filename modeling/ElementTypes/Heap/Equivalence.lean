import ElementTypes.Heap.Native

/-! # Equivalent and equal descriptors

Equivalent descriptors describe the same elements: byte orders count by nativity alone, and fields
are compared name by name. Equal descriptors agree in every attribute but the companion, and
their tables hold equal records under the same keys, in any order.
-/

namespace ElementTypes.Heap

def bothOrNeither {α : Type} (agree : α → α → Bool) : Option α → Option α → Bool
  | none, none => true
  | some a, some b => agree a b
  | _, _ => false

def equivalentWithin (heap : Heap) : Nat → Ref → Ref → Bool
  | 0, _, _ => true
  | steps + 1, a, b =>
    let x := heap.get a
    let y := heap.get b
    a = b ||
      (x.code = y.code && x.size = y.size && heap.isNative a = heap.isNative b &&
        bothOrNeither (fun (l m : Layout) =>
          l.names = m.names && l.names.all fun name =>
            bothOrNeither (fun (f g : Entry) =>
              f.offset = g.offset && f.title = g.title &&
                (f.target = g.target || heap.equivalentWithin steps f.target g.target))
              (l.table.find? name) (m.table.find? name))
          x.layout y.layout &&
        bothOrNeither (fun (s t : Subarray) =>
          s.shape = t.shape && heap.equivalentWithin steps s.base t.base)
          x.subarray y.subarray &&
        x.interval = y.interval)

def equivalent (heap : Heap) (a b : Ref) : Bool := heap.equivalentWithin heap.depth a b

def equalWithin (heap : Heap) : Nat → Ref → Ref → Bool
  | 0, _, _ => true
  | steps + 1, a, b =>
    let x := heap.get a
    let y := heap.get b
    x.code = y.code && x.kind = y.kind && x.letter = y.letter && x.order = y.order &&
      x.size = y.size && x.alignment = y.alignment && x.flags = y.flags &&
      bothOrNeither (fun (l m : Layout) =>
        l.names = m.names && l.table.size = m.table.size && l.table.entries.all fun (f : Entry) =>
          match m.table.find? f.key with
          | none => false
          | some g =>
            f.offset = g.offset && f.title = g.title && heap.equalWithin steps f.target g.target)
        x.layout y.layout &&
      bothOrNeither (fun (s t : Subarray) =>
        s.shape = t.shape && heap.equalWithin steps s.base t.base)
        x.subarray y.subarray &&
      x.interval = y.interval

def equal (heap : Heap) (a b : Ref) : Bool := heap.equalWithin heap.depth a b

end ElementTypes.Heap
