import ElementTypes.Proofs.Store.Acts

/-! # Where codes come from -/

namespace ElementTypes

namespace Descriptor

theorem isSome_interval_canonical (code : Code) :
    (canonical code).interval.isSome = code.isTemporal := by
  cases code <;> rfl

theorem Made.timed {limits : Limits} {heap : Heap} {d : Descriptor} (made : d.Made limits heap) :
    (∃ ref, d.code = (heap.get ref).code ∧ d.interval = (heap.get ref).interval) ∨
      d.code.isBuiltin = true ∧ d.interval.isSome = d.code.isTemporal := by
  cases made with
  | copied ref => exact .inl ⟨ref, rfl, rfl⟩
  | worded w => exact .inr ⟨(TypeText.sized?_eq_some w.sized).1, w.temporal⟩
  | string | unicode | array | record => exact .inr ⟨rfl, rfl⟩
  | promoted _ sizable =>
      exact .inr ⟨Code.isBuiltin_of_isSizable sizable, isSome_interval_canonical _⟩
  | @reordered before change ref _ closed grown inside renews =>
      cases renews with
      | node same =>
          refine .inl ⟨ref, ?_, ?_⟩ <;> rw [grown.get ref inside]
          · exact same.code
          · exact same.interval

end Descriptor

theorem Store.Coded.act {limits : Limits} {store t : Store} (sound : store.Sound)
    (coded : store.Coded) (act : store.Act limits t) : t.Coded := by
  cases act with
  | hooked => exact ⟨coded.cells, coded.users⟩
  | adopted _ made =>
      refine coded.alloc ?_
      rcases made.timed with ⟨ref, code, -⟩ | ⟨builtin, -⟩
      · rw [code]
        exact coded.cells ref
      · exact .inl builtin
  | flagged flagged => exact coded.of_codes flagged.size fun ref => (flagged.kept ref).code
  | entered => exact coded.entered sound.numbered _
  | edited _ _ _ applied =>
      exact coded.of_codes (Heap.size_set ..) (Heap.code_set (Edit.code_outcome applied))

section Promotions

variable {store : Store} (sound : store.Sound) (coded : store.Coded) {a b : Ref}
include sound coded

theorem promote_coded (a b : Ref) : ((promote a b).run store).2.Coded :=
  have acts : store.Acts .any _ := (promote_acts sound trivial).later
  acts.keeps (fun _ _ sound coded act _ => coded.act sound act) sound coded

theorem promote_plain (apart : store.heap.equivalent a b = false)
    {result : Ref} {later : Store} (ran : (promote a b).run store = (.ok result, later))
    (builtin : (later.heap.get result).code.isBuiltin = true) :
    later.heap.isNative result = true ∧ later.heap.get result =
      { Descriptor.canonical (later.heap.get result).code with
        size := (later.heap.get result).size
        companion := (later.heap.get result).companion } := by
  have coded' := promote_coded sound coded a b
  rw [ran] at coded'
  rw [promote_run apart] at ran
  obtain ⟨-, found⟩ := (promoteTo_found sound _ _).of_ok ran
  exact found.isPlain coded' builtin

end Promotions

end ElementTypes
