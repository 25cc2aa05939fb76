import ElementTypes.Store.Basic

/-! # Handles

References are held by names, and by registrations, fields and sub-arrays as well. All of these but
registrations can be pointed elsewhere.
-/

namespace ElementTypes

structure Session where
  store : Store
  bindings : List (String × Ref)
  reported : Nat

inductive Place
  | entry (key : String)
  | base

namespace Descriptor

def at? (d : Descriptor) : Place → Option Ref
  | .entry key => (d.find? key).map (·.target)
  | .base => d.subarray.map (·.base)

def redirect (d : Descriptor) : Place → Ref → Descriptor
  | .entry key, target => { d with layout := d.layout.map fun layout =>
      { layout with table := layout.table.retarget key target } }
  | .base, base => { d with subarray := d.subarray.map fun subarray => { subarray with base } }

end Descriptor

/-- What holds a reference: a name, the registration of a code, an entry of the table in a cell, or
the sub-array in a cell. -/
inductive Handle
  | name (name : String)
  | code (code : Code)
  | entry (cell : Ref) (key : String)
  | base (cell : Ref)

def Handle.at (cell : Ref) : Place → Handle
  | .entry key => .entry cell key
  | .base => .base cell

namespace Session

def initial : Session := ⟨.initial, [], 0⟩

def find? (session : Session) (name : String) : Option Ref :=
  (session.bindings.find? fun (bound, _) => bound = name).map (·.2)

def erase (session : Session) (name : String) : Session :=
  { session with bindings := session.bindings.filter fun (bound, _) => bound ≠ name }

def bind (session : Session) (name : String) (ref : Ref) : Session :=
  { session with bindings := (name, ref) :: (session.erase name).bindings }

def held (session : Session) : List Ref := session.bindings.map (·.2)

def roots (session : Session) (args : List Ref) : List Ref :=
  session.held ++ args ++ session.store.owned

def follow? (session : Session) : Handle → Option Ref
  | .name name => session.find? name
  | .code code => session.store.cellOf? code
  | .entry cell key => (session.store.heap.get cell).at? (.entry key)
  | .base cell => (session.store.heap.get cell).at? .base

def write (session : Session) (cell : Ref) (d : Descriptor) : Session :=
  { session with store := { session.store with heap := session.store.heap.set cell d } }

def point (session : Session) : Handle → Ref → Session
  | .name name, ref => session.bind name ref
  | .entry cell key, ref =>
    session.write cell ((session.store.heap.get cell).redirect (.entry key) ref)
  | .base cell, ref => session.write cell ((session.store.heap.get cell).redirect .base ref)
  | .code _, _ => session

end Session

end ElementTypes
