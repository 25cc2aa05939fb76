import ElementTypes.Error
import ElementTypes.Text.Cut

/-! # Temporal intervals

An interval is a multiple of a unit, divided by a divisor and repeated for a number of events. A
divisor above one is refined away: the interval is written as a whole multiple of a finer unit.

The text of an interval is `[multiple]unit[/divisor][//events]`, where parts equal to one are left
out.
-/

namespace ElementTypes

def TimeUnit.parse (text : String) : Except Error TimeUnit :=
  match TimeUnit.ofSymbol? text with
  | some unit => .ok unit
  | none => .error (.unknownUnit text)

structure Interval where
  base : TimeUnit
  num : Count
  den : Count
  events : Count
  deriving DecidableEq

namespace Interval

def unscaled : Interval := ⟨.fallback, 1, 1, 1⟩

/-- The first divisor of `unit` that `den` divides, with the unit of its steps. -/
def candidate? (unit : TimeUnit) (den : Count) : Option (Nat × TimeUnit) :=
  unit.finer.find? fun (divisor, _) => (divisor : Int) % den.toInt = 0

def refine (base : TimeUnit) (num den events : Count) : Except Error Interval :=
  if den.toInt < 1 then .error (.nonPositiveDivisor den)
  else if den = 1 then .ok ⟨base, num, den, events⟩
  else
    match candidate? base den with
    | none => .error (.strangeDivisor den)
    | some (divisor, unit) =>
      match Count.ofInt? (num.toInt * (divisor / den.toInt)) with
      | none => .error (.multipleOverflow num unit)
      | some num => .ok ⟨unit, num, 1, events⟩

def ofName (name : Option String) (num den events : Count) : Except Error Interval :=
  refine (.ofName name) num den events

def unrefined (unit : String) (num den events : Count) : Except Error Interval := do
  return ⟨← TimeUnit.parse unit, num, den, events⟩

/-! ## Text -/

def chars (i : Interval) : List Char :=
  (if i.num = 1 then [] else Numeral.ofInt i.num.toInt) ++ i.base.symbol.toList ++
    (if i.den = 1 then [] else '/' :: Numeral.ofInt i.den.toInt) ++
    (if i.events = 1 then [] else '/' :: '/' :: Numeral.ofInt i.events.toInt)

def text (i : Interval) : String := String.ofList i.chars

def suffix (whole : String) (mark text : List Char) : Except Error (List Char × Count) :=
  match cutOnce mark text with
  | none => .ok (text, 1)
  | some (before, after) =>
    match Numeral.count? after with
    | some n => .ok (before, n)
    | none => .error (.malformedInterval whole)

def leading (whole : String) (digits : List Char) : Except Error Count :=
  if digits = [] then .ok 1
  else
    match Numeral.count? digits with
    | some n => .ok n
    | none => .error (.malformedInterval whole)

def parse (whole : String) : Except Error Interval := do
  let (scale, events) ← suffix whole ['/', '/'] whole.toList
  let (multiple, den) ← suffix whole ['/'] scale
  let unit := multiple.dropWhile Char.isDigit
  if unit = [] then throw (.malformedInterval whole)
  let num ← leading whole (multiple.takeWhile Char.isDigit)
  refine (← TimeUnit.parse (String.ofList unit)) num den events

end Interval

end ElementTypes
