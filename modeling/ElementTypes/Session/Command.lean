import ElementTypes.Store.Blueprint

/-! # Commands

What a source stands for is settled before anything is changed.
-/

namespace ElementTypes

inductive Source
  | shared (code : Code)
  | written (text : String)
  | named (name : String)

inductive OrderSource
  | written (text : String)
  | forced (order : ByteOrder)

def OrderSource.change : OrderSource → Except Error OrderChange
  | written text => OrderChange.parse text
  | forced order => .ok (.force order)

inductive IntervalSource
  | written (text : String)
  | parts (unit : String) (num den events : Count)

def IntervalSource.interval : IntervalSource → Except Error Interval
  | written text => Interval.parse text
  | parts unit num den events => Interval.unrefined unit num den events

structure EntryPlan (α : Type) where
  key : String
  descriptor : α
  offset : Size
  title : Option String

inductive Edit (α β : Type)
  | nothing
  | size (size : Size)
  | alignment (alignment : Size)
  | order (order : ByteOrder)
  | flags (flags : Flags)
  | subarray (new : Option (α × List Size))
  | interval (interval : β)
  | fields (names : Names) (entries : List (EntryPlan α))
  | put (entry : EntryPlan α)
  | retarget (key : String) (descriptor : α)
  | erase (key : String)
  | rekey (old new : String)
  /-- New names that the table follows. -/
  | rename (names : Names)
  | names (names : Names)
  | clear

inductive Making
  | same (d : Source)
  | fresh (code : Code)
  | copy (d : Source)
  | reorder (d : Source) (change : OrderSource)
  | promote (a b : Source)
  | combine (a : Source) (least : Option Source)
  | build (blueprint : Blueprint Source)

inductive Query
  | whole (d : Source)
  | text (d : Source)
  | debug (d : Source)
  | native (d : Source)
  | objects (d : Source)
  | flags (d : Source)
  | equivalent (a b : Source)
  | equal (a b : Source)
  | identical (a b : Source)
  | hasKey (key : String) (d : Source)
  | layout (d : Source)
  | userCount
  | offers

inductive Command
  | make (name : String) (making : Making)
  | enterField (name : String) (d : Source) (key : String)
  | enterBase (name : String) (d : Source)
  | drop (name : String)
  | ask (query : Query)
  | edit (name : String) (edit : Edit Source IntervalSource)
  | register (times : Nat) (d : Source)
  | install (hook : Option Hook)

/-! ## Answers -/

inductive EditValue
  | nothing
  | shape (shape : List Size)
  | names (names : Names)
  | entry (entry : Entry)
  | flag (value : Bool)
  | noFields
  deriving DecidableEq

inductive Answer
  | unbound
  | refused (error : Error)
  | nothing
  | descriptor (ref : Ref)
  | entry (entry : Entry)
  | subarray (subarray : Subarray)
  | flag (value : Bool)
  | text (text : String)
  | number (n : Nat)
  | flags (flags : Flags)
  | layout (layout : Layout)
  | offers (copies : List Descriptor)
  /-- The outcome of an edit, whether it worked on a copy, and what the name holds now. -/
  | edited (outcome : Except Error EditValue) (copied : Bool) (ref : Ref)

end ElementTypes
