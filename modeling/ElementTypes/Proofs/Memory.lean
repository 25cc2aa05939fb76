import ElementTypes.Memory

/-! # Ample memory -/

namespace ElementTypes

namespace Memory

theorem ask_ample (n : Nat) : ample.ask n = (true, ample) := by
  unfold ask
  split <;> rfl

end Memory

end ElementTypes
