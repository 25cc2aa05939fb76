import ElementTypes.Heap.Owners
import ElementTypes.Store.Basic

/-! # Exclusive access

A descriptor may be changed in place only by its one owner. Anybody else changes a copy.
-/

namespace ElementTypes

/-- A cell with the content of `ref` for one owner: the same one if `ref` has no other owner, and a
copy if it has. All references that are held outside the store are given in `held`. -/
def privateCell (held : List Ref) (ref : Ref) : Run Ref := do
  let store ← get
  if store.heap.owners (held ++ store.owned) ref = 1 then return ref
  else adopt (← duplicate ref)

end ElementTypes
