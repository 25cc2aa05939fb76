import ElementTypes.Descriptor.Basic

/-! # Type texts

A type text is `[order]kind size[\[interval\]]`, as in `<i4`, `|S5` and `<M8[ms]`. The size counts
bytes, or characters for `U`. Records and registered types are written as raw bytes of their size.
-/

namespace ElementTypes

namespace Descriptor

def textKind (d : Descriptor) : Kind :=
  match d.code with
  | .unicode => .unicode
  | .user _ => .void
  | _ => if d.layout.isSome then .void else d.kind

def textSize (d : Descriptor) : Size :=
  if d.code = .unicode then d.size / Code.characterSize else d.size

def text (d : Descriptor) : String :=
  String.ofList <| d.order.resolve.mark :: d.textKind.letter :: Numeral.ofNat d.textSize.toNat ++
    match d.interval with
    | none => []
    | some interval => '[' :: interval.chars ++ [']']

end Descriptor

structure TypeText where
  order : ByteOrder
  code : Code
  size : Size
  scale : Option (List Char)
  deriving DecidableEq

namespace TypeText

def fixedCode? (kind : Kind) (size : Nat) : Option Code :=
  match kind, size with
  | .bool, 1 => some .bool
  | .signed, 1 => some .byte
  | .signed, 2 => some .short
  | .signed, 4 => some .int
  | .signed, 8 => some .long
  | .unsigned, 1 => some .ubyte
  | .unsigned, 2 => some .ushort
  | .unsigned, 4 => some .uint
  | .unsigned, 8 => some .ulong
  | .float, 4 => some .float
  | .float, 8 => some .double
  | .float, 16 => some .longdouble
  | .complex, 8 => some .cfloat
  | .complex, 16 => some .cdouble
  | .complex, 32 => some .clongdouble
  | .object, 8 => some .object
  | .datetime, 8 => some .datetime
  | .timedelta, 8 => some .timedelta
  | _, _ => none

def sized? (kind : Kind) (size : Size) : Option (Code × Size) :=
  match kind with
  | .string => some (.string, size)
  | .unicode => (size.mul? Code.characterSize).map fun bytes => (.unicode, bytes)
  | .void => some (.void, size)
  | kind => (fixedCode? kind size.toNat).map fun code => (code, size)

def unbracket? (text : List Char) : Option (List Char) :=
  if text.getLast? = some ']' then some text.dropLast else none

def splitScale? (text : List Char) : Option (List Char × Option (List Char)) :=
  match cutOnce ['['] text with
  | none => some (text, none)
  | some (digits, rest) => (unbracket? rest).map fun scale => (digits, some scale)

def splitOrder : List Char → ByteOrder × List Char
  | [] => (.native, [])
  | c :: rest =>
    match ByteOrder.ofMark? c with
    | some order => (order, rest)
    | none => (.native, c :: rest)

def read? (text : String) : Option TypeText :=
  match splitOrder text.toList with
  | (_, []) => none
  | (order, letter :: rest) => do
    let kind ← Kind.ofLetter? letter
    let (digits, scale) ← splitScale? rest
    let size ← Numeral.size? digits
    let (code, bytes) ← sized? kind size
    return ⟨order, code, bytes, scale⟩

def settle (own given : ByteOrder) : ByteOrder :=
  if own = .irrelevant then own else if given = .irrelevant then .native else given

end TypeText

end ElementTypes
