import ElementTypes.Session.Command

/-! # Edits -/

namespace ElementTypes

def EntryPlan.field (plan : EntryPlan Ref) : Field := ⟨plan.descriptor, plan.offset, plan.title⟩

def Table.ofPlans (plans : List (EntryPlan Ref)) : Table :=
  plans.foldl (fun table plan => table.put plan.key plan.field) .empty

namespace Edit

def targets {β : Type} : Edit Ref β → List Ref
  | subarray (some (base, _)) => [base]
  | fields _ plans => plans.map (·.descriptor)
  | put entry => [entry.descriptor]
  | retarget _ target => [target]
  | _ => []

def valueOf (entry : Option Entry) : EditValue :=
  match entry with
  | some entry => .entry entry
  | none => .nothing

def shapeOf (subarray : Option Subarray) : EditValue :=
  match subarray with
  | some subarray => .shape subarray.shape
  | none => .nothing

def namesOf (layout : Option Layout) : EditValue :=
  match layout with
  | some layout => .names layout.names
  | none => .nothing

def tableOf (layout : Option Layout) : Table :=
  match layout with
  | some layout => layout.table
  | none => .empty

def onTable (change : Change Table EditValue) : Change Descriptor EditValue := do
  match (← Change.read).layout with
  | none => return .noFields
  | some layout =>
    change.onPart layout.table fun table d => { d with layout := some { layout with table } }

def apply : Edit Ref Interval → Change Descriptor EditValue
  | nothing => return .nothing
  | size n => do
    Change.update fun d => { d with size := n }
    return .nothing
  | alignment n => do
    Change.update fun d => { d with alignment := n }
    return .nothing
  | order o => do
    Change.update fun d => { d with order := o }
    return .nothing
  | flags bits => do
    Change.update fun d => { d with flags := bits }
    return .nothing
  | subarray new => do
    let d ← Change.read
    Change.write { d with subarray := new.map fun (base, shape) => ⟨base, shape⟩ }
    return shapeOf d.subarray
  | interval i => do
    let d ← Change.read
    unless d.code.isTemporal do throw (.notTemporal d.code)
    Change.write { d with interval := some i }
    return .nothing
  | fields list entries => do
    let d ← Change.read
    Change.write { d with layout := some ⟨list, .ofPlans entries⟩ }
    return namesOf d.layout
  | put entry => onTable do
    let table ← Change.read
    Change.write (table.put entry.key entry.field)
    return valueOf (table.find? entry.key)
  | retarget key target => onTable do
    let table ← Change.read
    Change.write (table.retarget key target)
    return .flag (table.contains key)
  | erase key => onTable do
    let table ← Change.read
    Change.write (table.erase key)
    return valueOf (table.find? key)
  | rekey old new => onTable do return .flag (← Table.rekey old new)
  | rename list => do
    match (← Change.read).layout with
    | some layout =>
      (Layout.rename list).onPart layout fun layout d => { d with layout := some layout }
    | none => unless list.isEmpty do throw (.wrongNameCount 0 list.length)
    return .nothing
  | names list => do
    Change.update fun d => { d with layout := some ⟨list, tableOf d.layout⟩ }
    return .nothing
  | clear => do
    Change.update fun d => { d with layout := none }
    return .nothing

end Edit

end ElementTypes
