import ElementTypes.Scalar.Code

/-! # Safe casts -/

namespace ElementTypes

def floatHolds (integer float : Size) : Bool :=
  if integer < 8 then integer < float else integer ≤ float

namespace Code

def widensTo (a b : Code) : Bool :=
  match a.kind, b.kind with
  | .signed, .signed => a.size ≤ b.size
  | .signed, .unsigned => false
  | .unsigned, .signed => a.size < b.size
  | .unsigned, .unsigned => a.size ≤ b.size
  | .signed, .float | .unsigned, .float => floatHolds a.size b.size
  | .signed, .complex | .unsigned, .complex => floatHolds a.size (b.size / 2)
  | .float, .complex => a.size ≤ b.size / 2
  | _, _ => a.number < b.number

def castsTo (a b : Code) : Bool :=
  if a = b ∨ a = .bool then true
  else if b = .bool ∨ a.isTemporal ∨ b.isTemporal then false
  else if b = .object ∨ b = .void then true
  else if a = .object ∨ a = .void ∨ !a.isBuiltin ∨ !b.isBuiltin then false
  else a.widensTo b

end Code

end ElementTypes
