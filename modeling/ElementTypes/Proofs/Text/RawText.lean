import ElementTypes.Proofs.Text.TypeText

/-! # Texts of raw bytes -/

namespace ElementTypes

theorem ByteOrder.resolve_eq_irrelevant_iff {order : ByteOrder} :
    order.resolve = .irrelevant ↔ order = .irrelevant := by
  cases order <;> decide

theorem OrderChange.apply_eq_irrelevant_iff (change : OrderChange) {order : ByteOrder} :
    change.apply order = .irrelevant ↔ order = .irrelevant := by
  cases change with
  | swap | keep => cases order <;> decide
  | force target => cases order <;> cases target <;> decide

theorem ByteOrder.mark_inj {a b : ByteOrder} : a.mark = b.mark ↔ a = b := by
  refine ⟨fun same => ?_, congrArg mark⟩
  rw [← Option.some_inj, ← ofMark?_mark, ← ofMark?_mark, same]

theorem Kind.letter_inj {a b : Kind} : a.letter = b.letter ↔ a = b := by
  refine ⟨fun same => ?_, congrArg letter⟩
  rw [← Option.some_inj, ← ofLetter?_letter, ← ofLetter?_letter, same]

theorem TypeText.inBrackets_eq_nil_iff {scale : Option (List Char)} :
    inBrackets scale = [] ↔ scale = none := by
  cases scale <;> simp [inBrackets]

namespace Descriptor

def rawText (size : Size) : String := "|V" ++ Numeral.showSize size

theorem toList_rawText (size : Size) :
    (rawText size).toList = '|' :: 'V' :: Numeral.ofNat size.toNat := by
  simp [rawText, Numeral.showSize]

structure Raw (d : Descriptor) : Prop where
  bytes : d.textKind = .void
  unordered : d.order = .irrelevant
  timeless : d.interval = none

theorem textKind_of_record {d : Descriptor} (code : d.code ≠ .unicode)
    (record : d.layout.isSome = true) : d.textKind = .void := by
  unfold textKind
  split
  · exact absurd ‹_› code
  · rfl
  · exact if_pos record

theorem textKind_of_user {d : Descriptor} {n : UInt16} (user : d.code = .user n) :
    d.textKind = .void := by
  rw [textKind, user]

theorem raw_of_user_iff {d : Descriptor} {n : UInt16} (user : d.code = .user n) :
    d.Raw ↔ d.order = .irrelevant ∧ d.interval = none :=
  ⟨fun raw => ⟨raw.unordered, raw.timeless⟩, fun ⟨unordered, timeless⟩ =>
    ⟨textKind_of_user user, unordered, timeless⟩⟩

theorem textSize_of_bytes {d : Descriptor} (bytes : d.textKind = .void) : d.textSize = d.size := by
  refine if_neg fun unicode => ?_
  rw [textKind, unicode] at bytes
  cases bytes

theorem text_eq_rawText_iff {d : Descriptor} : d.text = rawText d.size ↔ d.Raw := by
  rw [← String.toList_inj, toList_rawText, text_eq, String.toList_ofList]
  constructor
  · intro same
    obtain ⟨mark, same⟩ := List.cons.inj same
    obtain ⟨letter, same⟩ := List.cons.inj same
    have bytes : d.textKind = .void := Kind.letter_inj.1 letter
    rw [textSize_of_bytes bytes, List.append_right_eq_self, TypeText.inBrackets_eq_nil_iff,
      Option.map_eq_none_iff] at same
    exact ⟨bytes, ByteOrder.resolve_eq_irrelevant_iff.1 (ByteOrder.mark_inj.1 mark), same⟩
  · rintro ⟨bytes, unordered, timeless⟩
    rw [textSize_of_bytes bytes, bytes, unordered, timeless]
    exact congrArg _ (congrArg _ (List.append_nil _))

theorem read?_text_of_bytes {d : Descriptor} (bytes : d.textKind = .void) :
    TypeText.read? d.text =
      some ⟨d.order.resolve, .void, d.size, d.interval.map Interval.chars⟩ := by
  rw [TypeText.read?_of_shaped d.shaped_text, bytes, textSize_of_bytes bytes]
  rfl

structure Akin (d e : Descriptor) : Prop where
  code : e.code = d.code
  kind : e.kind = d.kind
  size : e.size = d.size
  interval : e.interval = d.interval
  record : e.layout.isSome = d.layout.isSome
  unordered : e.order = .irrelevant ↔ d.order = .irrelevant

namespace Akin

theorem refl (d : Descriptor) : d.Akin d := ⟨rfl, rfl, rfl, rfl, rfl, .rfl⟩

variable {a b c : Descriptor} (first : a.Akin b)
include first

theorem trans (second : b.Akin c) : a.Akin c where
  code := second.code.trans first.code
  kind := second.kind.trans first.kind
  size := second.size.trans first.size
  interval := second.interval.trans first.interval
  record := second.record.trans first.record
  unordered := second.unordered.trans first.unordered

theorem textKind : b.textKind = a.textKind := by
  rw [Descriptor.textKind, Descriptor.textKind, first.code, first.kind, first.record]

theorem raw_iff : b.Raw ↔ a.Raw := by
  constructor
  · rintro ⟨bytes, unordered, timeless⟩
    exact ⟨first.textKind ▸ bytes, first.unordered.1 unordered, first.interval ▸ timeless⟩
  · rintro ⟨bytes, unordered, timeless⟩
    exact ⟨first.textKind ▸ bytes, first.unordered.2 unordered, first.interval ▸ timeless⟩

end Akin

end Descriptor

end ElementTypes
