import ElementTypes.Heap.Debug
import ElementTypes.Session.Edit
import ElementTypes.Session.Handle
import ElementTypes.Store.Private
import ElementTypes.Store.Promote
import ElementTypes.Store.Read
import ElementTypes.Store.Register
import ElementTypes.Store.Reorder

/-! # Sessions

A session runs commands one after the other. A command that fails binds nothing, and what it has
done to the store until then stays.
-/

namespace ElementTypes

inductive Failure
  | unbound
  | refused (error : Error)
  deriving DecidableEq

abbrev Script := ExceptT Failure (StateM Session)

namespace Script

def perform {α : Type} (run : Run α) : Script α := do
  let session ← get
  let (result, store) := run.run session.store
  set { session with store }
  match result with
  | .ok value => return value
  | .error error => throw (.refused error)

def settle {α : Type} : Except Error α → Script α
  | .ok value => return value
  | .error error => throw (.refused error)

def named (name : String) : Script Ref := do
  match (← get).find? name with
  | some ref => return ref
  | none => throw .unbound

def bind (name : String) (ref : Ref) : Script Unit := modify fun session => session.bind name ref

def heap : Script Heap := return (← get).store.heap

/-! ## Settling what a command names -/

def descriptor : Source → Script Ref
  | .shared code => perform (shared code)
  | .written text => perform do adopt (← readType text)
  | .named name => named name

def entryPlan (plan : EntryPlan Source) : Script (EntryPlan Ref) := do
  return ⟨plan.key, ← descriptor plan.descriptor, plan.offset, plan.title⟩

def fieldType : FieldType Source → Script (FieldType Ref)
  | .scalar code => return .scalar code
  | .string bytes => return .string bytes
  | .unicode characters => return .unicode characters
  | .existing d => return .existing (← descriptor d)

def fieldPlan (plan : FieldPlan Source) : Script (FieldPlan Ref) := do
  return ⟨plan.name, plan.title, ← fieldType plan.type, plan.shape, plan.offset⟩

def blueprint (plan : Blueprint Source) : Script (Blueprint Ref) := do
  return ⟨plan.aligned, ← plan.fields.mapM fieldPlan⟩

def edit : Edit Source IntervalSource → Script (Edit Ref Interval)
  | .nothing => return .nothing
  | .size size => return .size size
  | .alignment alignment => return .alignment alignment
  | .order order => return .order order
  | .flags flags => return .flags flags
  | .subarray none => return .subarray none
  | .subarray (some (base, shape)) => return .subarray (some (← descriptor base, shape))
  | .interval interval => return .interval (← settle interval.interval)
  | .fields names entries => return .fields names (← entries.mapM entryPlan)
  | .put entry => return .put (← entryPlan entry)
  | .retarget key d => return .retarget key (← descriptor d)
  | .erase key => return .erase key
  | .rekey old new => return .rekey old new
  | .rename names => return .rename names
  | .names names => return .names names
  | .clear => return .clear

/-! ## Commands -/

def make : Making → Script Ref
  | .same d => descriptor d
  | .fresh code => perform do adopt (← ElementTypes.fresh code)
  | .copy d => do
    let ref ← descriptor d
    perform do adopt (← duplicate ref)
  | .reorder d source => do
    let ref ← descriptor d
    let change ← settle source.change
    perform do adopt (← ElementTypes.reorder change ref)
  | .promote a b => do
    let first ← descriptor a
    let second ← descriptor b
    perform (ElementTypes.promote first second)
  | .combine a least => do
    let first ← descriptor a
    let least ← least.mapM descriptor
    perform (ElementTypes.combine first least)
  | .build plan => do
    let plan ← blueprint plan
    perform do adopt (← ElementTypes.build plan)

def ask : Query → Script Answer
  | .whole d => return .descriptor (← descriptor d)
  | .text d => do
    let ref ← descriptor d
    return .text ((← heap).get ref).text
  | .debug d => do
    let ref ← descriptor d
    return .text ((← heap).debug ref)
  | .native d => do
    let ref ← descriptor d
    return .flag ((← heap).isNative ref)
  | .objects d => do
    let ref ← descriptor d
    let session ← get
    let (found, heap) := session.store.heap.findObjects (session.store.heap.get ref)
    set { session with store := { session.store with heap } }
    return .flag found
  | .flags d => do
    let ref ← descriptor d
    return .flags ((← heap).get ref).flags
  | .equivalent a b => do
    let first ← descriptor a
    let second ← descriptor b
    return .flag ((← heap).equivalent first second)
  | .equal a b => do
    let first ← descriptor a
    let second ← descriptor b
    return .flag ((← heap).equal first second)
  | .identical a b => do
    let first ← descriptor a
    let second ← descriptor b
    return .flag (first = second)
  | .hasKey key d => do
    let ref ← descriptor d
    match ((← heap).get ref).layout with
    | some layout => return .flag (layout.table.contains key)
    | none => return .nothing
  | .layout d => do
    let ref ← descriptor d
    match ((← heap).get ref).layout with
    | some layout => return .layout layout
    | none => return .nothing
  | .userCount => return .number (← get).store.registry.count
  | .offers => do
    let session ← get
    let offers := session.store.offers
    set { session with reported := offers.length }
    return .offers ((offers.take (offers.length - session.reported)).reverse.map (·.copy))

/-- Points a handle at a cell of which it is the one owner, with the content of the cell it held.
The references `args` are held meanwhile. -/
def makePrivate (args : List Ref) (handle : Handle) : Script Ref := do
  let session ← get
  let some old := session.follow? handle
    | throw .unbound
  let new ← perform (privateCell (session.held ++ args) old)
  modify fun session => session.point handle new
  let session ← get
  unless session.store.heap.owners (session.roots args) new = 1 do throw (.refused .stillShared)
  return new

def change (name : String) (edit : Edit Ref Interval) : Script Answer := do
  let old ← named name
  let session ← get
  let (access, session) := (makePrivate edit.targets (.name name)).run session
  set session
  match access with
  | .error .unbound => throw .unbound
  | .error (.refused error) =>
    let ref ← named name
    return .edited (.error error) (ref ≠ old) ref
  | .ok new =>
    let (outcome, d, memory) := edit.apply.run (session.store.heap.get new, session.store.memory)
    let heap := session.store.heap.set new d
    set { session with store := { session.store with heap, memory } }
    return .edited outcome (new ≠ old) new

def execute : Command → Script Answer
  | .make name making => do
    let ref ← make making
    bind name ref
    return .descriptor ref
  | .enterField name d key => do
    let ref ← descriptor d
    match ((← heap).get ref).find? key with
    | some entry =>
      bind name entry.target
      return .entry entry
    | none => return .nothing
  | .enterBase name d => do
    let ref ← descriptor d
    match ((← heap).get ref).subarray with
    | some subarray =>
      bind name subarray.base
      return .subarray subarray
    | none => return .nothing
  | .drop name => do
    let found := ((← get).find? name).isSome
    modify fun session => session.erase name
    return .flag found
  | .ask query => ask query
  | .edit name plan => do change name (← edit plan)
  | .register times d => do
    let ref ← descriptor d
    match ← perform (registerCopies ref times) with
    | some code => return .text code.name
    | none => return .nothing
  | .install hook => do
    modify fun session => { session with store := { session.store with hook } }
    return .text (hookDebug hook)

end Script

namespace Session

def step (session : Session) (command : Command) : Answer × Session :=
  match (Script.execute command).run session with
  | (.ok answer, after) => (answer, after)
  | (.error .unbound, after) => (.unbound, after)
  | (.error (.refused error), after) => (.refused error, after)

def run (session : Session) (commands : List Command) : Session :=
  commands.foldl (fun session command => (session.step command).2) session

end Session

end ElementTypes
