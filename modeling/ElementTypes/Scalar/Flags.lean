/-! # Flags of a descriptor

Bits without a name are kept as they are.
-/

namespace ElementTypes

structure Flags where
  bits : UInt32
  deriving DecidableEq

namespace Flags

def empty : Flags := ⟨0x00⟩
def counted : Flags := ⟨0x01⟩
def listed : Flags := ⟨0x02⟩
def pointer : Flags := ⟨0x04⟩
def initialised : Flags := ⟨0x08⟩
def hosted : Flags := ⟨0x10⟩
def getter : Flags := ⟨0x20⟩

def union (a b : Flags) : Flags := ⟨a.bits ||| b.bits⟩

def object : Flags :=
  listed.union (getter.union (pointer.union (counted.union (initialised.union hosted))))

def contains (a b : Flags) : Bool := a.bits &&& b.bits = b.bits

def isEmpty (a : Flags) : Bool := a.bits = 0

def holdsObjects (a : Flags) : Bool := a.contains counted

def debug (a : Flags) : String :=
  let digits := Nat.toDigits 16 a.bits.toNat
  let padding := List.replicate (2 - digits.length) '0'
  "DescrFlags(0x" ++ String.ofList (padding ++ digits) ++ ")"

end Flags

end ElementTypes
