import ElementTypes.Heap.Equivalence
import ElementTypes.Scalar.Cast
import ElementTypes.Store.Basic

/-! # Promotion -/

namespace ElementTypes

def Code.later (a b : Code) : Code := if b.number < a.number then a else b

/-- The first built-in code, from the later of both upwards, that both cast to safely; the later
one itself if there is none. -/
def Code.common (a b : Code) : Code :=
  let seed := a.later b
  ((Code.builtin.drop seed.number).find? fun code => a.castsTo code && b.castsTo code).getD seed

/-- The size of elements of the code `goal` that hold those of two descriptors: a byte of a string
becomes a whole character. -/
def Descriptor.commonSize (x y : Descriptor) (goal : Code) : Size :=
  if goal = .unicode ∧ y.code = .string then
    max x.size (y.size.mulSaturating Code.characterSize)
  else if x.code = .string ∧ y.code = .unicode then
    max (x.size.mulSaturating Code.characterSize) y.size
  else max x.size y.size

def sharedOfSize (code : Code) (size : Size) : Run Ref := do
  let ref ← shared code
  if ((← get).heap.get ref).size = size then return ref
  let copy ← duplicate ref
  adopt { copy with size, layout := none }

/-- The least common descriptor of two. Equivalent ones give the second, and objects take in texts
of either kind. -/
def promote (a b : Ref) : Run Ref := do
  let heap := (← get).heap
  if heap.equivalent a b then return b
  let x := heap.get a
  let y := heap.get b
  if (x.code.isObject ∧ y.code.isText) ∨ (y.code.isObject ∧ x.code.isText) then
    return ← shared .object
  let code := x.code.common y.code
  if code.isSizable then sharedOfSize code (x.commonSize y code)
  else shared code

/-- The descriptor of values of `a` under a least type, if one is asked for. Raw bytes are a common
type only where the least type is raw bytes itself; otherwise objects take their place. -/
def combine (a : Ref) (least : Option Ref) : Run Ref := do
  match least with
  | none => return a
  | some least =>
    let result ← promote a least
    let heap := (← get).heap
    if (heap.get result).code = .void ∧ (heap.get least).code ≠ .void then shared .object
    else return result

end ElementTypes
