import ElementTypes.Store.Basic

/-! # Registered types

Registered types are numbered one after the other. The last number of all is never given out.
-/

namespace ElementTypes

def register (d : Descriptor) : Run Code := do
  if d.size = 0 then throw .sizelessUserType
  let number := (← get).registry.next
  if number = 65535 then throw .userNumbersExhausted
  modify fun store => { store with registry := { store.registry with next := number + 1 } }
  let code := Code.user number
  let ref ← adopt { d with code }
  modify fun store => { store with registry := store.registry.insert number ref }
  return code

def registerCopies (ref : Ref) : Nat → Run (Option Code)
  | 0 => return none
  | n + 1 => do
    let code ← register (← duplicate ref)
    if n = 0 then return some code else registerCopies ref n

end ElementTypes
