import ElementTypes.Store.Basic

/-! # Descriptors from type texts -/

namespace ElementTypes

/-- A fresh descriptor for what a type text says. The text is judged first, except for what stands
in its brackets, which is judged after the hook has been asked. -/
def readType (text : String) : Run Descriptor := do
  match TypeText.read? text with
  | none => throw (.malformedTypeText text)
  | some said =>
    let plain ← fresh said.code
    let d := { plain with size := said.size, order := TypeText.settle plain.order said.order }
    match said.scale with
    | none => return d
    | some scale =>
      if said.code.isTemporal then
        return { d with interval := some (← Interval.parse (String.ofList scale)) }
      else throw (.malformedTypeText text)

end ElementTypes
