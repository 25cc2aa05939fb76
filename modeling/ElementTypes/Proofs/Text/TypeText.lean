import ElementTypes.Proofs.Text.Interval
import ElementTypes.Proofs.Text.TypeGrammar

/-! # Texts of descriptors -/

namespace ElementTypes

namespace ByteOrder

theorem resolve_resolve (order : ByteOrder) : order.resolve.resolve = order.resolve := by
  cases order <;> rfl

theorem isNative_resolve (order : ByteOrder) : order.resolve.isNative = order.isNative := by
  cases order <;> rfl

theorem resolve_of_ne_native {order : ByteOrder} (spelled : order ≠ .native) :
    order.resolve = order := by
  cases order <;> first | rfl | exact absurd rfl spelled

end ByteOrder

namespace TypeText

theorem settle_settle (own given : ByteOrder) :
    settle own (settle own given) = settle own given := by
  cases own <;> cases given <;> rfl

theorem settle_resolve {own order : ByteOrder} (settled : settle own order = order) :
    settle own order.resolve = order.resolve := by
  cases own <;> cases order <;> first | rfl | cases settled

end TypeText

/-- What a text can say about a descriptor. The rest of the descriptor is canonical. -/
structure Wording where
  code : Code
  size : Size
  order : ByteOrder
  interval : Option Interval
  sized : TypeText.sized? code.kind (if code = .unicode then size / Code.characterSize else size) =
    some (code, size)
  settled : TypeText.settle code.order order = order
  temporal : interval.isSome = code.isTemporal
  refined : ∀ i, interval = some i → i.Refined

namespace Wording

def ofSized {kind : Kind} {size bytes : Size} {code : Code}
    (found : TypeText.sized? kind size = some (code, bytes)) (given : ByteOrder)
    (interval : Option Interval) (temporal : interval.isSome = code.isTemporal)
    (refined : ∀ i, interval = some i → i.Refined) : Wording where
  code := code
  size := bytes
  order := TypeText.settle code.order given
  interval := interval
  sized := by
    obtain ⟨-, rfl, same⟩ := TypeText.sized?_eq_some found
    rw [same, found]
  settled := TypeText.settle_settle _ _
  temporal := temporal
  refined := refined

def descriptor (w : Wording) : Descriptor :=
  { Descriptor.canonical w.code with size := w.size, order := w.order, interval := w.interval }

theorem size_of_fixed (w : Wording) (fixed : w.code.isSizable = false) :
    w.size = w.code.size := by
  have sized := w.sized
  unfold TypeText.sized? at sized
  split at sized
  · rw [← (Prod.mk.inj (Option.some.inj sized)).1] at fixed
    cases fixed
  · obtain ⟨bytes, product, same⟩ := Option.map_eq_some_iff.1 sized
    rw [← (Prod.mk.inj same).1] at fixed
    cases fixed
  · rw [← (Prod.mk.inj (Option.some.inj sized)).1] at fixed
    cases fixed
  · obtain ⟨code, found, same⟩ := Option.map_eq_some_iff.1 sized
    obtain ⟨rfl, size⟩ := Prod.mk.inj same
    rw [TypeText.fixedCode?_size found, size]

def respell (w : Wording) : Wording :=
  { w with order := w.order.resolve, settled := TypeText.settle_resolve w.settled }

theorem descriptor_respell (w : Wording) :
    w.respell.descriptor = { w.descriptor with order := w.descriptor.order.resolve } := rfl

theorem text_respell (w : Wording) : w.respell.descriptor.text = w.descriptor.text := by
  rw [Descriptor.text, Descriptor.text, descriptor_respell, ByteOrder.resolve_resolve]
  rfl

end Wording

def TypeText.interval (said : TypeText) (text : String) : Except Error (Option Interval) :=
  match said.scale with
  | none => .ok (Descriptor.canonical said.code).interval
  | some scale =>
    if said.code.isTemporal then (Interval.parse (String.ofList scale)).map some
    else .error (.malformedTypeText text)

namespace TypeText

inductive Answers (said : TypeText) (text : String) : Except Error (Option Interval) → Prop
  | unscaled (absent : said.scale = none) :
      Answers said text (.ok (Descriptor.canonical said.code).interval)
  | scaled {scale : List Char} {i : Interval} (given : said.scale = some scale)
      (temporal : said.code.isTemporal = true)
      (parsed : Interval.parse (String.ofList scale) = .ok i) : Answers said text (.ok (some i))
  | refused {scale : List Char} {e : Error} (given : said.scale = some scale)
      (temporal : said.code.isTemporal = true)
      (parsed : Interval.parse (String.ofList scale) = .error e) : Answers said text (.error e)
  | stray {scale : List Char} (given : said.scale = some scale)
      (timeless : ¬ said.code.isTemporal = true) :
      Answers said text (.error (.malformedTypeText text))

theorem interval_answers (said : TypeText) (text : String) :
    said.Answers text (said.interval text) := by
  unfold interval
  split
  · rename_i absent
    exact .unscaled absent
  · rename_i scale given
    split
    · rename_i temporal
      cases parsed : Interval.parse (String.ofList scale) with
      | ok i => exact .scaled given temporal parsed
      | error e => exact .refused given temporal parsed
    · rename_i timeless
      exact .stray given timeless

theorem interval_eq_ok {said : TypeText} {text : String} {interval : Option Interval}
    (asked : said.interval text = .ok interval) :
    interval.isSome = said.code.isTemporal ∧ ∀ i, interval = some i → i.Refined := by
  have answers := said.interval_answers text
  rw [asked] at answers
  cases answers with
  | unscaled =>
      cases temporal : said.code.isTemporal <;>
        simp [Descriptor.canonical, temporal, Interval.refined_unscaled]
  | scaled given temporal parsed =>
      refine ⟨temporal.symm, fun j same => ?_⟩
      obtain rfl := Option.some.inj same
      exact Interval.parse_refined parsed

end TypeText

def described (text : String) : Except Error Descriptor :=
  match TypeText.read? text with
  | none => .error (.malformedTypeText text)
  | some said => (said.interval text).map fun interval =>
    { Descriptor.canonical said.code with
      size := said.size, order := TypeText.settle said.code.order said.order, interval }

theorem described_eq_ok {text : String} {d : Descriptor} (asked : described text = .ok d) :
    ∃ w : Wording, d = w.descriptor := by
  unfold described at asked
  split at asked
  · cases asked
  · rename_i said read
    obtain ⟨-, kind, size, -, found⟩ := TypeText.shaped_of_read? read
    cases given : said.interval text with
    | error e => simp [given, Except.map] at asked
    | ok interval =>
        obtain ⟨temporal, refined⟩ := TypeText.interval_eq_ok given
        refine ⟨.ofSized found said.order interval temporal refined, ?_⟩
        simp only [given, Except.map, Except.ok.injEq] at asked
        exact asked.symm

theorem accepted_of_described {text : String} {d : Descriptor} (asked : described text = .ok d) :
    TypeText.Accepted text.toList := by
  unfold described at asked
  split at asked
  · cases asked
  · rename_i said read
    obtain ⟨order, kind, n, shaped, sized, timed⟩ := TypeText.sized_of_read? read
    have answers := said.interval_answers text
    cases answer : said.interval text with
    | error e => simp [answer, Except.map] at asked
    | ok interval =>
        rw [answer] at answers
        cases answers with
        | unscaled absent => exact .plain (absent ▸ shaped) sized
        | scaled given temporal parsed =>
            obtain ⟨unit, num, den, events, spelled, made⟩ := Interval.parse_eq_ok.1 parsed
            rw [String.toList_ofList] at spelled
            rw [← TimeUnit.ofName_symbol unit] at made
            exact .scaled (given ▸ shaped) sized (timed.1 temporal) spelled made

theorem described_of_accepted {text : String} (accepted : TypeText.Accepted text.toList) :
    ∃ d, described text = .ok d := by
  unfold described
  cases accepted with
  | plain shaped sized =>
      obtain ⟨said, read, unscaled, -⟩ := TypeText.read?_of_sized shaped sized
      simp only [read, TypeText.interval, unscaled]
      exact ⟨_, rfl⟩
  | @scaled _ _ _ scale unit num den events i shaped sized temporal spelled made =>
      obtain ⟨said, read, given, timed⟩ := TypeText.read?_of_sized shaped sized
      have parsed : Interval.parse (String.ofList scale) = .ok i := by
        rw [← String.toList_ofList (l := scale)] at spelled
        rw [Interval.parse_of_spelled spelled, ← made, Interval.ofName, TimeUnit.ofName_symbol]
      simp only [read, TypeText.interval, given, timed.2 temporal, if_pos, parsed]
      exact ⟨_, rfl⟩

theorem described_succeeds_iff {text : String} :
    (∃ d, described text = .ok d) ↔ TypeText.Accepted text.toList :=
  ⟨fun ⟨_, asked⟩ => accepted_of_described asked, described_of_accepted⟩

theorem described_refused {text : String} {e : Error} (refused : described text = .error e) :
    (TypeText.Bracketed text.toList → e.kind = .value) ∧
    (¬ TypeText.Bracketed text.toList → e = .malformedTypeText text) := by
  rw [TypeText.bracketed_iff]
  unfold described at refused
  cases read : TypeText.read? text with
  | none =>
      rw [read] at refused
      exact ⟨fun ⟨_, found, _⟩ => (nomatch found), fun _ => (Except.error.inj refused).symm⟩
  | some said =>
      have answers := said.interval_answers text
      cases answer : said.interval text with
      | ok interval => simp [read, answer, Except.map] at refused
      | error e' =>
          obtain rfl : e' = e := by simpa [read, answer, Except.map] using refused
          rw [answer] at answers
          cases answers with
          | refused given temporal parsed =>
              exact ⟨fun _ => Interval.parse_refused parsed, fun unbracketed =>
                absurd ⟨said, rfl, by rw [given]; rfl, temporal⟩ unbracketed⟩
          | stray given timeless =>
              refine ⟨fun ⟨_, same, _, temporal⟩ => ?_, fun _ => rfl⟩
              obtain rfl := Option.some.inj same
              exact absurd temporal timeless

namespace Descriptor

variable (d : Descriptor)

theorem text_eq : d.text = String.ofList (d.order.resolve.mark :: d.textKind.letter ::
    (Numeral.ofNat d.textSize.toNat ++ TypeText.inBrackets (d.interval.map Interval.chars))) := by
  rw [text]
  cases d.interval <;> rfl

theorem shaped_text : TypeText.Shaped d.text.toList (some d.order.resolve) d.textKind
    d.textSize.toNat (d.interval.map Interval.chars) := by
  rw [text_eq, String.toList_ofList]
  exact .parts (some d.order.resolve) _ (Numeral.size?_eq_some.1 (Numeral.size?_ofNat _)) _

end Descriptor

namespace Wording

variable (w : Wording)

theorem textKind_descriptor : w.descriptor.textKind = w.code.kind := by
  have builtin := (TypeText.sized?_eq_some w.sized).1
  rw [Descriptor.textKind, descriptor]
  cases code : w.code <;> simp_all [Descriptor.canonical, Code.kind, Code.isBuiltin]

theorem shaped_text : TypeText.Shaped w.descriptor.text.toList (some w.order.resolve) w.code.kind
    w.descriptor.textSize.toNat (w.interval.map Interval.chars) := by
  rw [← w.textKind_descriptor]
  exact w.descriptor.shaped_text

theorem read?_text : TypeText.read? w.descriptor.text =
    some ⟨w.order.resolve, w.code, w.size, w.interval.map Interval.chars⟩ := by
  have sized : TypeText.sized? w.code.kind w.descriptor.textSize = some (w.code, w.size) := w.sized
  rw [TypeText.read?_of_shaped w.shaped_text, sized]
  rfl

theorem interval_text (text : String) : TypeText.interval
    ⟨w.order.resolve, w.code, w.size, w.interval.map Interval.chars⟩ text = .ok w.interval := by
  unfold TypeText.interval
  have temporal := w.temporal
  cases given : w.interval with
  | none =>
      rw [given] at temporal
      simp [Descriptor.canonical, ← temporal]
  | some i =>
      rw [given] at temporal
      simp [← temporal, Interval.parse_chars (w.refined i given), Except.map]

theorem described_text : described w.descriptor.text = .ok w.respell.descriptor := by
  rw [described, read?_text]
  simp only [interval_text, TypeText.settle_resolve w.settled]
  rfl

end Wording

end ElementTypes
