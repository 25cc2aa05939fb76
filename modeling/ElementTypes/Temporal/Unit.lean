/-! # Units of time

The units of a temporal interval, coarsest first, with the finer units that a divisor of each can
be turned into.
-/

namespace ElementTypes

inductive TimeUnit
  | year | month | week | businessDay | day | hour | minute | second
  | millisecond | microsecond | nanosecond | picosecond | femtosecond | attosecond
  deriving DecidableEq

namespace TimeUnit

def all : List TimeUnit :=
  [year, month, week, businessDay, day, hour, minute, second,
    millisecond, microsecond, nanosecond, picosecond, femtosecond, attosecond]

def symbol : TimeUnit → String
  | year => "Y"
  | month => "M"
  | week => "W"
  | businessDay => "B"
  | day => "D"
  | hour => "h"
  | minute => "m"
  | second => "s"
  | millisecond => "ms"
  | microsecond => "us"
  | nanosecond => "ns"
  | picosecond => "ps"
  | femtosecond => "fs"
  | attosecond => "as"

def ofSymbol? (text : String) : Option TimeUnit := all.find? fun unit => unit.symbol = text

theorem ofSymbol?_symbol (unit : TimeUnit) : ofSymbol? unit.symbol = some unit := by
  cases unit <;> decide

theorem ofSymbol?_eq_some {text : String} {unit : TimeUnit} :
    ofSymbol? text = some unit ↔ text = unit.symbol := by
  constructor
  · intro found
    have same : unit.symbol = text := by simpa using List.find?_some found
    exact same.symm
  · rintro rfl
    exact ofSymbol?_symbol unit

def fallback : TimeUnit := microsecond

def ofName (name : Option String) : TimeUnit := (name.bind ofSymbol?).getD fallback

theorem ofName_symbol (unit : TimeUnit) : ofName (some unit.symbol) = unit := by
  rw [ofName, Option.bind_some, ofSymbol?_symbol, Option.getD_some]

def label : TimeUnit → String
  | year => "Year"
  | month => "Month"
  | week => "Week"
  | businessDay => "BusinessDay"
  | day => "Day"
  | hour => "Hour"
  | minute => "Minute"
  | second => "Second"
  | millisecond => "Millisecond"
  | microsecond => "Microsecond"
  | nanosecond => "Nanosecond"
  | picosecond => "Picosecond"
  | femtosecond => "Femtosecond"
  | attosecond => "Attosecond"

/-- Divisors that split the unit into steps of a finer one, in the order in which they are tried. -/
def finer : TimeUnit → List (Nat × TimeUnit)
  | year => [(12, month), (52, week), (365, day)]
  | month => [(4, week), (30, day), (720, hour)]
  | week => [(5, businessDay), (7, day), (168, hour), (10080, minute)]
  | businessDay | day => [(24, hour), (1440, minute), (86400, second)]
  | hour => [(60, minute), (3600, second)]
  | minute => [(60, second), (60000, millisecond)]
  | second => [(1000, millisecond), (1000000, microsecond)]
  | millisecond => [(1000, microsecond), (1000000, nanosecond)]
  | microsecond => [(1000, nanosecond), (1000000, picosecond)]
  | nanosecond => [(1000, picosecond), (1000000, femtosecond)]
  | picosecond => [(1000, femtosecond), (1000000, attosecond)]
  | femtosecond => [(1000, attosecond)]
  | attosecond => []

end TimeUnit

end ElementTypes
