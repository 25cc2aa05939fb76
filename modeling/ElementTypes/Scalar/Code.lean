import ElementTypes.Text.Numeral

/-! # Element codes

The built-in codes are numbered from zero in promotion order; codes that users register carry their
number themselves.
-/

namespace ElementTypes

inductive Kind
  | bool | signed | unsigned | float | complex | object | string | unicode | void
  | datetime | timedelta
  deriving DecidableEq

namespace Kind

def all : List Kind :=
  [bool, signed, unsigned, float, complex, object, string, unicode, void, datetime, timedelta]

def letter : Kind → Char
  | bool => 'b'
  | signed => 'i'
  | unsigned => 'u'
  | float => 'f'
  | complex => 'c'
  | object => 'O'
  | string => 'S'
  | unicode => 'U'
  | void => 'V'
  | datetime => 'M'
  | timedelta => 'm'

def ofLetter? (c : Char) : Option Kind := all.find? fun kind => kind.letter = c

theorem ofLetter?_letter (kind : Kind) : ofLetter? kind.letter = some kind := by
  cases kind <;> decide

end Kind

inductive Code
  | bool | byte | ubyte | short | ushort | int | uint | long | ulong | longlong | ulonglong
  | float | double | longdouble | cfloat | cdouble | clongdouble
  | object | string | unicode | void | datetime | timedelta
  | user (number : UInt16)
  deriving DecidableEq

namespace Code

def builtin : List Code :=
  [bool, byte, ubyte, short, ushort, int, uint, long, ulong, longlong, ulonglong,
    float, double, longdouble, cfloat, cdouble, clongdouble,
    object, string, unicode, void, datetime, timedelta]

def isBuiltin : Code → Bool
  | user _ => false
  | _ => true

def firstUser : Nat := 256

def number : Code → Nat
  | bool => 0
  | byte => 1
  | ubyte => 2
  | short => 3
  | ushort => 4
  | int => 5
  | uint => 6
  | long => 7
  | ulong => 8
  | longlong => 9
  | ulonglong => 10
  | float => 11
  | double => 12
  | longdouble => 13
  | cfloat => 14
  | cdouble => 15
  | clongdouble => 16
  | object => 17
  | string => 18
  | unicode => 19
  | void => 20
  | datetime => 21
  | timedelta => 22
  | user n => n.toNat

def ofNumber? (n : UInt16) : Option Code :=
  if firstUser ≤ n.toNat then some (user n) else builtin[n.toNat]?

theorem getElem?_builtin {code : Code} (h : code.isBuiltin) :
    builtin[code.number]? = some code := by
  cases code <;> first | rfl | simp [isBuiltin] at h

def next? (code : Code) : Option Code := builtin[code.number + 1]?

def name : Code → String
  | bool => "bool"
  | byte => "byte"
  | ubyte => "ubyte"
  | short => "short"
  | ushort => "ushort"
  | int => "int"
  | uint => "uint"
  | long => "long"
  | ulong => "ulong"
  | longlong => "longlong"
  | ulonglong => "ulonglong"
  | float => "float"
  | double => "double"
  | longdouble => "longdouble"
  | cfloat => "cfloat"
  | cdouble => "cdouble"
  | clongdouble => "clongdouble"
  | object => "object"
  | string => "string"
  | unicode => "unicode"
  | void => "void"
  | datetime => "datetime"
  | timedelta => "timedelta"
  | user n => "user" ++ String.ofList (Numeral.ofNat n.toNat)

def ofName? (text : String) : Option Code :=
  match builtin.find? fun code => code.name = text with
  | some code => some code
  | none =>
    match text.toList with
    | 'u' :: 's' :: 'e' :: 'r' :: digits =>
      (Numeral.nat? digits).bind fun n => if n < 65536 then some (user n.toUInt16) else none
    | _ => none

def label : Code → String
  | bool => "Bool"
  | byte => "Byte"
  | ubyte => "UByte"
  | short => "Short"
  | ushort => "UShort"
  | int => "Int"
  | uint => "UInt"
  | long => "Long"
  | ulong => "ULong"
  | longlong => "LongLong"
  | ulonglong => "ULongLong"
  | float => "Float"
  | double => "Double"
  | longdouble => "LongDouble"
  | cfloat => "CFloat"
  | cdouble => "CDouble"
  | clongdouble => "CLongDouble"
  | object => "Object"
  | string => "String"
  | unicode => "Unicode"
  | void => "Void"
  | datetime => "DateTime"
  | timedelta => "TimeDelta"
  | user n => "User(" ++ String.ofList (Numeral.ofNat n.toNat) ++ ")"

def kind : Code → Kind
  | bool => .bool
  | byte | short | int | long | longlong => .signed
  | ubyte | ushort | uint | ulong | ulonglong => .unsigned
  | float | double | longdouble => .float
  | cfloat | cdouble | clongdouble => .complex
  | object => .object
  | string => .string
  | unicode => .unicode
  | void | user _ => .void
  | datetime => .datetime
  | timedelta => .timedelta

def letter : Code → Char
  | bool => '?'
  | byte => 'b'
  | ubyte => 'B'
  | short => 'h'
  | ushort => 'H'
  | int => 'i'
  | uint => 'I'
  | long => 'l'
  | ulong => 'L'
  | longlong => 'q'
  | ulonglong => 'Q'
  | float => 'f'
  | double => 'd'
  | longdouble => 'g'
  | cfloat => 'F'
  | cdouble => 'D'
  | clongdouble => 'G'
  | object => 'O'
  | string => 'S'
  | unicode => 'U'
  | void | user _ => 'V'
  | datetime => 'M'
  | timedelta => 'm'

def size : Code → Size
  | bool | byte | ubyte => 1
  | short | ushort => 2
  | int | uint | float => 4
  | long | ulong | longlong | ulonglong | double | cfloat | object | datetime | timedelta => 8
  | longdouble | cdouble => 16
  | clongdouble => 32
  | string | unicode | void | user _ => 0

def alignment : Code → Size
  | bool | byte | ubyte | string | void | user _ => 1
  | short | ushort => 2
  | int | uint | float | cfloat | unicode => 4
  | long | ulong | longlong | ulonglong | double | cdouble | object | datetime | timedelta => 8
  | longdouble | clongdouble => 16

def isBool (code : Code) : Bool := code = .bool
def isSigned (code : Code) : Bool := code.kind = .signed
def isUnsigned (code : Code) : Bool := code.kind = .unsigned
def isInteger (code : Code) : Bool := code.isSigned || code.isUnsigned
def isFloat (code : Code) : Bool := code.kind = .float
def isComplex (code : Code) : Bool := code.kind = .complex
def isText (code : Code) : Bool := code = .string || code = .unicode
def isObject (code : Code) : Bool := code = .object
def isTemporal (code : Code) : Bool := code = .datetime || code = .timedelta

def isSizable (code : Code) : Bool := code.isText || code = .void

def characterSize : Size := 4

end Code

end ElementTypes
