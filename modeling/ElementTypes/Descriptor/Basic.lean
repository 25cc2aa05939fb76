import ElementTypes.Record.Layout
import ElementTypes.Scalar.ByteOrder
import ElementTypes.Scalar.Flags
import ElementTypes.Temporal.Interval

/-! # Descriptors

A descriptor says how a run of bytes is read as one element. Other descriptors are reached through
references.
-/

namespace ElementTypes

/-- An array of fixed shape of some base element; the empty shape is that of a single element. -/
structure Subarray where
  base : Ref
  shape : List Size
  deriving DecidableEq

/-- The exact product, which may be beyond the range of sizes. -/
def Subarray.count (subarray : Subarray) : Nat :=
  subarray.shape.foldl (fun product dimension => product * dimension.toNat) 1

structure Descriptor where
  code : Code
  kind : Kind
  letter : Char
  order : ByteOrder
  size : Size
  alignment : Size
  flags : Flags
  layout : Option Layout
  subarray : Option Subarray
  interval : Option Interval
  companion : Option String
  deriving DecidableEq

def Code.order : Code → ByteOrder
  | bool | byte | ubyte | object | string | void | user _ => .irrelevant
  | _ => .native

namespace Descriptor

def canonical (code : Code) : Descriptor where
  code := code
  kind := code.kind
  letter := code.letter
  order := code.order
  size := code.size
  alignment := code.alignment
  flags := if code.isObject then .object else .empty
  layout := none
  subarray := none
  interval := if code.isTemporal then some .unscaled else none
  companion := none

def entries (d : Descriptor) : List Entry :=
  match d.layout with
  | none => []
  | some layout => layout.table.entries

def find? (d : Descriptor) (key : String) : Option Entry :=
  d.layout.bind fun layout => layout.table.find? key

def bases (d : Descriptor) : List Ref :=
  match d.subarray with
  | none => []
  | some subarray => [subarray.base]

def fieldTargets (d : Descriptor) : List Ref :=
  match d.layout with
  | none => []
  | some layout => layout.table.primary.map (·.target)

def links (d : Descriptor) : List Ref := d.entries.map (·.target) ++ d.bases

def primaryLinks (d : Descriptor) : List Ref := d.fieldTargets ++ d.bases

def marksObjects (d : Descriptor) : Bool :=
  d.flags.holdsObjects || d.code = .object || d.kind = .object

end Descriptor

end ElementTypes
