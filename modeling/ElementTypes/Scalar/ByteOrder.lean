import ElementTypes.Error

/-! # Byte orders

An element's order is the platform's own, spelled out or not, the foreign one, or irrelevant. The
platform is little-endian. An `OrderChange` says what becomes of an order; an irrelevant order
stays as it is under every change.
-/

namespace ElementTypes

inductive ByteOrder
  | native | little | big | irrelevant
  deriving DecidableEq

namespace ByteOrder

def all : List ByteOrder := [native, little, big, irrelevant]

def platform : ByteOrder := little

def foreign : ByteOrder := big

def isNative (order : ByteOrder) : Bool := order ≠ foreign

def resolve : ByteOrder → ByteOrder
  | native => platform
  | order => order

def mark : ByteOrder → Char
  | native => '='
  | little => '<'
  | big => '>'
  | irrelevant => '|'

def ofMark? (c : Char) : Option ByteOrder := all.find? fun order => order.mark = c

theorem ofMark?_mark (order : ByteOrder) : ofMark? order.mark = some order := by
  cases order <;> decide

def label : ByteOrder → String
  | native => "Native"
  | little => "Little"
  | big => "Big"
  | irrelevant => "NotApplicable"

end ByteOrder

inductive OrderChange
  | swap
  | force (order : ByteOrder)
  | keep
  deriving DecidableEq

namespace OrderChange

def apply (change : OrderChange) (order : ByteOrder) : ByteOrder :=
  if order = .irrelevant then order else
  match change with
  | swap => if order.isNative then .foreign else .platform
  | force .irrelevant | keep => order
  | force target => target

/-- The change that a word or mark asks for; ASCII letters count in either case. -/
def parse (text : String) : Except Error OrderChange :=
  match String.ofList (text.toList.map Char.toLower) with
  | "s" | "swap" => .ok swap
  | "<" | "l" | "little" => .ok (force .little)
  | ">" | "b" | "big" => .ok (force .big)
  | "=" | "n" | "native" => .ok (force .native)
  | "|" | "i" | "ignore" => .ok keep
  | _ => .error (.unknownOrder text)

end OrderChange

end ElementTypes
