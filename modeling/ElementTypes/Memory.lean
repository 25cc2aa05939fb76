import ElementTypes.Error

/-! # Memory

Lists and tables ask for room before they are filled. A memory says of every request to come whether
it is granted.
-/

namespace ElementTypes

abbrev Memory := Nat → Bool

namespace Memory

def ample : Memory := fun _ => true

def ask (memory : Memory) (n : Nat) : Bool × Memory :=
  if n = 0 then (true, memory) else (memory 0, fun k => memory (k + 1))

end Memory

/-- Runs that change a value in place. What one has written by the time it fails stays. -/
abbrev Change (σ : Type) := ExceptT Error (StateM (σ × Memory))

namespace Change

variable {σ τ α : Type}

def read : Change σ σ := return (← get).1

def update (f : σ → σ) : Change σ Unit := modify fun (value, memory) => (f value, memory)

def write (value : σ) : Change σ Unit := update fun _ => value

def reserve (n : Nat) (error : Error) : Change σ Unit := do
  let (value, memory) ← get
  let (granted, memory) := memory.ask n
  set (value, memory)
  unless granted do throw error

/-- Changes a part of the value and puts it back, however the change ends. -/
def onPart (change : Change τ α) (part : τ) (put : τ → σ → σ) : Change σ α := do
  let (value, memory) ← get
  let (result, part, memory) := change.run (part, memory)
  set (put part value, memory)
  match result with
  | .ok a => return a
  | .error error => throw error

end Change

end ElementTypes
