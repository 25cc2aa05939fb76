import ElementTypes.Record.Table

/-! # Record layouts -/

namespace ElementTypes

structure Layout where
  names : Names
  table : Table
  deriving DecidableEq

namespace Layout

def ordered (layout : Layout) : List Entry := layout.names.filterMap layout.table.find?

def renames (old new : Names) : List Rename :=
  ((old.zip new).filter fun (a, b) => a ≠ b).map fun (a, b) => ⟨a, b⟩

/-- Gives every field a new name, all at once. The new names have to be as many as the old ones and
distinct, and none may be a key that stays in the table. -/
def rename (names : Names) : Change Layout Unit := do
  let layout ← Change.read
  if names.length ≠ layout.names.length then
    throw (.wrongNameCount layout.names.length names.length)
  match names.firstRepeated? with
  | some name => throw (.takenName name)
  | none =>
    let renames := renames layout.names names
    unless renames.isEmpty do
      Change.onPart (Table.rekeyMany renames) layout.table fun table layout =>
        { layout with table }
    Change.update fun layout => { layout with names }

end Layout

end ElementTypes
