import ElementTypes.Memory

/-! # Lists of field names -/

namespace ElementTypes

abbrev Names := List String

namespace Names

/-- A slot takes 24 bytes, and a list spans at most `2 ^ 63 - 1` of them. -/
def fits (n : Size) : Bool := 24 * n.toNat ≤ 9223372036854775807

def alloc (n : Size) : Change Unit Names := do
  unless fits n do throw (.outOfMemory .overflow)
  Change.reserve n.toNat (.outOfMemory .denied)
  return List.replicate n.toNat ""

def nameAt? (names : Names) (index : Size) : Option String := names[index.toNat]?

def rename (index : Size) (name : String) : Change Names Unit := do
  let names ← Change.read
  if index.toNat < names.length then Change.write (names.set index.toNat name)
  else throw (.nameOutOfRange index names.length)

def position? (names : Names) (name : String) : Option Nat := names.findIdx? (· = name)

def firstRepeated? (names : Names) : Option String := go [] names
where
  go (seen : Names) : Names → Option String
    | [] => none
    | name :: rest => if name ∈ seen then some name else go (name :: seen) rest

end Names

end ElementTypes
