import ElementTypes.Scalar.Code
import ElementTypes.Temporal.Unit
import ElementTypes.Text.Quoted

/-! # Why an operation is refused -/

namespace ElementTypes

inductive Shortage
  | overflow | denied
  deriving DecidableEq

def Shortage.text : Shortage → String
  | overflow =>
    "memory allocation failed because the computed capacity exceeded the collection's maximum"
  | denied => "memory allocation failed because the memory allocator returned an error"

inductive Error
  | unknownOrder (text : String)
  | unknownUnit (text : String)
  | malformedInterval (text : String)
  | nonPositiveDivisor (divisor : Count)
  | strangeDivisor (divisor : Count)
  | multipleOverflow (multiple : Count) (unit : TimeUnit)
  | malformedTypeText (text : String)
  | notTemporal (code : Code)
  | unknownCode (number : Nat)
  | refused (message : String)
  | repeatedField (name : String)
  | takenTitle (title : String)
  | recordTooLarge
  | subarrayTooLarge
  | sizelessUserType
  | userNumbersExhausted
  | wrongNameCount (expected found : Nat)
  | takenName (name : String)
  | nameOutOfRange (index : Size) (length : Nat)
  | outOfMemory (shortage : Shortage)
  | tableOutOfMemory (shortage : Shortage)
  | stillShared
  deriving DecidableEq

inductive ErrorKind
  | value | typeText | notTemporal | unknownType | interface | nameCount | duplicateName | nameIndex
  | allocation | tableAllocation | stillShared
  deriving DecidableEq

namespace Error

def kind : Error → ErrorKind
  | unknownOrder _ | unknownUnit _ | malformedInterval _ | nonPositiveDivisor _ | strangeDivisor _
  | multipleOverflow _ _ | repeatedField _ | takenTitle _ | recordTooLarge | subarrayTooLarge
  | sizelessUserType | userNumbersExhausted => .value
  | malformedTypeText _ => .typeText
  | notTemporal _ => .notTemporal
  | unknownCode _ => .unknownType
  | refused _ => .interface
  | wrongNameCount _ _ => .nameCount
  | takenName _ => .duplicateName
  | nameOutOfRange _ _ => .nameIndex
  | outOfMemory _ => .allocation
  | tableOutOfMemory _ => .tableAllocation
  | stillShared => .stillShared

def message : Error → String
  | unknownOrder text => Quoted.quote text ++ " is an unrecognized byteorder"
  | unknownUnit text => "invalid datetime unit " ++ Quoted.quote text
  | malformedInterval text => "invalid datetime metadata " ++ Quoted.quote text
  | nonPositiveDivisor divisor =>
    "denominator (" ++ Numeral.showCount divisor ++ ") must be positive"
  | strangeDivisor divisor =>
    "divisor (" ++ Numeral.showCount divisor ++ ") is not a multiple of a lower-unit"
  | multipleOverflow multiple unit =>
    "numerator (" ++ Numeral.showCount multiple ++ ") overflows when refined to " ++ unit.symbol
  | malformedTypeText text => "invalid type string " ++ Quoted.quote text
  | notTemporal code => "type " ++ code.name ++ " does not carry temporal metadata"
  | unknownCode number => "unknown type number " ++ String.ofList (Numeral.ofNat number)
  | refused message => "interface wrapper failed: " ++ message
  | repeatedField name | takenName name => "duplicate field name " ++ Quoted.quote name
  | takenTitle title => "title " ++ Quoted.quote title ++ " collides with an existing field"
  | recordTooLarge => "structured element size overflows"
  | subarrayTooLarge => "sub-array element size overflows"
  | sizelessUserType => "user-defined types must have a nonzero element size"
  | userNumbersExhausted => "user type numbers exhausted"
  | wrongNameCount expected found =>
    "names list length mismatch: expected " ++ String.ofList (Numeral.ofNat expected) ++
      ", found " ++ String.ofList (Numeral.ofNat found)
  | nameOutOfRange index length =>
    "name index " ++ Numeral.showSize index ++ " out of range for " ++
      String.ofList (Numeral.ofNat length) ++ " names"
  | outOfMemory shortage => "allocation failed: " ++ shortage.text
  | tableOutOfMemory shortage => "field table allocation failed: " ++ shortage.text
  | stillShared => "descriptor is still shared after copy-on-write duplication"

end Error

end ElementTypes
