import ElementTypes.Descriptor.TypeText
import ElementTypes.Heap.Basic

/-! # Hooks

The host may install a hook, which is offered every copy of a descriptor before anybody owns it. It
either turns the copy down or accepts it, with or without a companion. A hook may look at the heap
and at all offers made before.
-/

namespace ElementTypes

structure Offer where
  base : Ref
  copy : Descriptor

structure Hook where
  answer : Heap → List Offer → Offer → Except String (Option String)

namespace Hook

def pairing : Hook where
  answer heap _ offer := .ok (some ((heap.get offer.base).text ++ "->" ++ offer.copy.text))

def accepting : Hook where
  answer _ _ _ := .ok none

def refusing (code : Option Code) (message : String) : Hook where
  answer heap earlier offer :=
    if code.all (· = offer.copy.code) then .error message
    else pairing.answer heap earlier offer

end Hook

/-! ## Slots

Several configurations may share the slot that a hook is installed in.
-/

structure HookSlots where
  slots : List (Option Hook)
  configs : List Nat

namespace HookSlots

def initial : HookSlots := ⟨[none], [0]⟩

def hooks (s : HookSlots) : List (Option Hook) :=
  s.configs.map fun slot => (s.slots[slot]?).join

def add (s : HookSlots) : HookSlots := ⟨s.slots ++ [none], s.configs ++ [s.slots.length]⟩

def share? (s : HookSlots) (config : Nat) : Option HookSlots :=
  s.configs[config]?.map fun slot => { s with configs := s.configs ++ [slot] }

def install? (s : HookSlots) (config : Nat) (hook : Option Hook) : Option HookSlots :=
  s.configs[config]?.map fun slot => { s with slots := s.slots.set slot hook }

end HookSlots

def hookDebug (hook : Option Hook) : String :=
  "RuntimeConfig \x7b interface_hook: " ++ (if hook.isSome then "true" else "false") ++ " \x7d"

end ElementTypes
