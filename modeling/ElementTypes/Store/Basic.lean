import ElementTypes.Hook
import ElementTypes.Store.Registry

/-! # The store

The store holds the heap, the registry of types, the hook and the memory. The first cells of the
heap are the canonical descriptors of the built-in codes, each in the cell of its number. A run ends
in a value or an error, and what it has done to the store stays in either case.

A descriptor that nobody owns yet is a plain value; `adopt` gives it a cell.
-/

namespace ElementTypes

structure Store where
  heap : Heap
  registry : Registry
  hook : Option Hook
  offers : List Offer
  memory : Memory

abbrev Run := ExceptT Error (StateM Store)

namespace Store

def initial : Store := ⟨.ofCodes Code.builtin, .empty, none, [], .ample⟩

def cellOf? (store : Store) (code : Code) : Option Ref :=
  match code with
  | .user n => store.registry.find? n
  | code => some code.number

def owned (store : Store) : List Ref := List.range Code.builtin.length ++ store.registry.cells

end Store

def shared (code : Code) : Run Ref := do
  match (← get).cellOf? code with
  | some ref => return ref
  | none => throw (.unknownCode code.number)

def adopt (d : Descriptor) : Run Ref :=
  modifyGet fun store =>
    let (ref, heap) := store.heap.alloc d
    (ref, { store with heap })

def reserve (n : Nat) (error : Error) : Run Unit := do
  let store ← get
  let (granted, memory) := store.memory.ask n
  set { store with memory }
  unless granted do throw error

/-- Asks for the room that a copy takes: for names, for the table and for the shape. -/
def makeRoom (d : Descriptor) : Run Unit := do
  d.layout.forM fun layout => do
    reserve layout.names.length (.outOfMemory .denied)
    reserve layout.table.size (.tableOutOfMemory .denied)
  d.subarray.forM fun subarray => reserve subarray.shape.length (.outOfMemory .denied)

/-- A copy of a descriptor that refers to the same others. A hook, if there is one, is offered the
copy and gives it its companion. -/
def offerCopy (ref : Ref) : Run Descriptor := do
  let store ← get
  let copy := { store.heap.get ref with companion := none }
  match store.hook with
  | none => return copy
  | some hook =>
    let offer := ⟨ref, copy⟩
    let answer := hook.answer store.heap store.offers offer
    set { store with offers := offer :: store.offers }
    match answer with
    | .ok companion => return { copy with companion }
    | .error message => throw (.refused message)

def duplicate (ref : Ref) : Run Descriptor := do
  makeRoom ((← get).heap.get ref)
  offerCopy ref

def fresh (code : Code) : Run Descriptor := do duplicate (← shared code)

end ElementTypes
