import ElementTypes.Heap.Basic

/-! # Debug texts of descriptors -/

namespace ElementTypes

def bracketed (items : List String) : String := "[" ++ ", ".intercalate items ++ "]"

def braced (title : String) (parts : List (String × String)) (closed : Bool) : String :=
  title ++ " \x7b " ++
    ", ".intercalate (parts.map (fun (name, value) => name ++ ": " ++ value) ++
      if closed then [] else [".."]) ++
    " \x7d"

def Names.debug (names : Names) : String :=
  "NamesList(" ++ bracketed (names.map Quoted.quote) ++ ")"

def shapeDebug : List Size → String
  | [] => "None"
  | shape => "Some(" ++ bracketed (shape.map Numeral.showSize) ++ ")"

def Interval.debug (i : Interval) : String :=
  braced "DateTimeInfo"
    [("base", i.base.label), ("num", Numeral.showCount i.num), ("den", Numeral.showCount i.den),
      ("events", Numeral.showCount i.events)] true

namespace Heap

def debugWithin (heap : Heap) : Nat → Descriptor → String
  | 0, _ => ""
  | steps + 1, d =>
    let names := match d.layout with
      | none => []
      | some layout => [("names", layout.names.debug)]
    let subarray := match d.subarray with
      | none => []
      | some subarray =>
        [("subarray", braced "Subarray"
          [("base", heap.debugWithin steps (heap.get subarray.base)),
            ("shape", shapeDebug subarray.shape)] true)]
    let interval := match d.interval with
      | none => []
      | some interval => [("datetime", interval.debug)]
    braced "Descriptor"
      ([("type_code", d.code.label), ("byte_order", d.order.label),
        ("elem_size", Numeral.showSize d.size), ("alignment", Numeral.showSize d.alignment),
        ("flags", d.flags.debug)] ++ names ++ subarray ++ interval) false

def debug (heap : Heap) (ref : Ref) : String := heap.debugWithin heap.depth (heap.get ref)

end Heap

end ElementTypes
