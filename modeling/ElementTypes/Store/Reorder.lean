import ElementTypes.Store.Basic

/-! # Changing byte orders throughout

A change of byte order copies a descriptor and everything below it, aliases apart. An alias follows
the first field that has its key for a title; an alias that no field belongs to keeps its target.
-/

namespace ElementTypes

/-- Points the fields of a table to their `renewed` targets, and the aliases after them. -/
def Table.relink (table : Table) (renewed : List (Entry × Ref)) : Table :=
  table.mapFields fun entry =>
    let source := renewed.find? fun (field, _) =>
      if entry.isAlias then field.title = some entry.key else field.key = entry.key
    match source with
    | some (_, target) => { entry.toField with target }
    | none => entry.toField

def reorderWithin (change : OrderChange) : Nat → Ref → Run Descriptor
  | 0, ref => duplicate ref
  | steps + 1, ref => do
    let copy ← duplicate ref
    let layout ← copy.layout.mapM fun layout => do
      let renewed ← layout.table.primary.mapM fun entry =>
        return (entry, ← adopt (← reorderWithin change steps entry.target))
      return { layout with table := layout.table.relink renewed }
    let subarray ← copy.subarray.mapM fun subarray =>
      return { subarray with base := ← adopt (← reorderWithin change steps subarray.base) }
    return { copy with order := change.apply copy.order, layout, subarray }

def reorder (change : OrderChange) (ref : Ref) : Run Descriptor := do
  reorderWithin change (← get).heap.depth ref

end ElementTypes
