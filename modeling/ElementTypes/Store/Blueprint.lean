import ElementTypes.Heap.Objects
import ElementTypes.Store.Basic

/-! # Records from blueprints

A blueprint lists the fields of a record in order. Each field is put behind the one before it,
unless it has an offset of its own; in an aligned record it begins at a multiple of its alignment.
-/

namespace ElementTypes

inductive FieldType (α : Type)
  | scalar (code : Code)
  | string (bytes : Size)
  | unicode (characters : Size)
  | existing (descriptor : α)

structure FieldPlan (α : Type) where
  name : String
  title : Option String
  type : FieldType α
  shape : List Size
  offset : Option Size

structure Blueprint (α : Type) where
  aligned : Bool
  fields : List (FieldPlan α)

structure Draft where
  table : Table
  cursor : Size
  size : Size
  alignment : Size

namespace Draft

def empty : Draft := ⟨.empty, 0, 0, 1⟩

def place (draft : Draft) (plan : FieldPlan Ref) (target : Ref) (size alignment : Size) :
    Except Error Draft := do
  if draft.table.contains plan.name then throw (.repeatedField plan.name)
  if let some title := plan.title then
    if title = plan.name ∨ draft.table.contains title then throw (.takenTitle title)
  let some offset := plan.offset <|> Size.roundUp? draft.cursor alignment
    | throw .recordTooLarge
  let some cursor := Size.add? offset size
    | throw .recordTooLarge
  let field := ⟨target, offset, plan.title⟩
  let named := draft.table.put plan.name field
  return {
    table := match plan.title with
      | none => named
      | some title => named.put title field
    cursor
    size := max draft.size cursor
    alignment := max draft.alignment alignment }

end Draft

def sizedText (code : Code) (size : Size) : Run Ref := do
  adopt { ← fresh code with size }

def FieldType.realize : FieldType Ref → Run Ref
  | .scalar code => shared code
  | .string bytes => sizedText .string bytes
  | .unicode characters => sizedText .unicode (characters.mulSaturating Code.characterSize)
  | .existing ref => return ref

/-- An array is refused if it is larger than sizes go. As the product is exact, a shape of more
elements than that is refused as well, unless the elements take nothing. -/
def arrayOf (base : Ref) (shape : List Size) : Run Ref := do
  let subarray : Subarray := ⟨base, shape⟩
  let element := (← get).heap.get base
  let some size := Size.ofNat? (element.size.toNat * subarray.count)
    | throw .subarrayTooLarge
  adopt { ← fresh .void with
    size, alignment := element.alignment, flags := element.flags, subarray := some subarray }

def FieldPlan.realize (plan : FieldPlan Ref) : Run Ref := do
  let element ← plan.type.realize
  if plan.shape = [] then return element else arrayOf element plan.shape

def Draft.extend (aligned : Bool) (draft : Draft) (plan : FieldPlan Ref) : Run Draft := do
  let target ← plan.realize
  let d := (← get).heap.get target
  draft.place plan target d.size (if aligned then max 1 d.alignment else 1)

def build (blueprint : Blueprint Ref) : Run Descriptor := do
  -- a plan takes more room than a name, so the limit on lists of names is never met
  reserve blueprint.fields.length (.outOfMemory .denied)
  let draft ← blueprint.fields.foldlM (Draft.extend blueprint.aligned) .empty
  let plain ← fresh .void
  let size ← if blueprint.aligned then
      match Size.roundUp? draft.size draft.alignment with
      | some size => pure size
      | none => throw .recordTooLarge
    else pure draft.size
  let layout := ⟨blueprint.fields.map (·.name), draft.table⟩
  let record := { plain with size, alignment := draft.alignment, layout := some layout }
  let store ← get
  let (found, heap) := store.heap.findObjects record
  set { store with heap }
  return if found then { record with flags := .object } else record

end ElementTypes
