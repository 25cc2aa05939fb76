import ElementTypes.Proofs.Session.Registry
import ElementTypes.Proofs.Store.Raw

/-! # Raw texts in every session -/

namespace ElementTypes.Session

def CopiesRecord (session : Session) (cell : Ref) : Prop :=
  ∀ steps, Yields (copies steps cell) session.store fun ref t =>
    (t.heap.get ref).layout.isSome = true ∧ t.WrittenRaw (t.heap.get ref)

/-- Any copy of the type has the size of the descriptor that was registered. The order and the
interval of that descriptor decide whether the text is that of raw bytes, and the interval alone
whether it is read as such. -/
def CopiesType (session : Session) (code : Code) (d : Descriptor) : Prop :=
  ∀ steps, Yields (do copies steps (← shared code)) session.store fun ref t =>
    (t.heap.get ref).code = code ∧ (t.heap.get ref).size = d.size ∧
      (t.WrittenRaw (t.heap.get ref) ↔ d.order = .irrelevant ∧ d.interval = none) ∧
      (t.Accepting → (t.ReadsRaw (t.heap.get ref) ↔ d.interval = none))

/-- A copy is written as raw bytes if and only if the descriptor is that it was made from. All
copies of a record that was built are, and what was registered decides about those of a type. -/
structure WritesRaw (session : Session) : Prop where
  copied : ∀ ref < session.store.heap.size, ∀ steps,
    Yields (copies steps ref) session.store fun new t =>
      (t.WrittenRaw (t.heap.get new) ↔ session.store.WrittenRaw (session.store.heap.get ref))
  built : ∀ name plan cell, (session.step (.make name (.build plan))).1 = .descriptor cell →
    ∀ later, Untouched (.name name) (session.step (.make name (.build plan))).2 later →
    ((session.step (.make name (.build plan))).2.run later).CopiesRecord cell
  entered : ∀ d code, d.Fits session.store.heap →
    ((register d).run session.store).1 = .ok code →
    ∀ later, (session.call (.register d)).Admits later →
    ((session.call (.register d)).calls later).CopiesType code d

theorem step_make_eq {session : Session} {name : String} {making : Making} {cell : Ref}
    (made : (session.step (.make name making)).1 = .descriptor cell) :
    ∃ t, (Script.make making).run session = (.ok cell, t) ∧
      (session.step (.make name making)).2 = t.bind name cell := by
  rcases ran : (Script.make making).run session with ⟨result, t⟩
  cases result with
  | error failure =>
      have run : (Script.execute (.make name making)).run session = (.error failure, t) :=
        run_bind_error _ _ _ ran
      rw [step_eq run] at made
      cases failure <;> cases made
  | ok ref =>
      have run : (Script.execute (.make name making)).run session =
          (.ok (.descriptor ref), t.bind name ref) := run_bind_ok _ _ _ ran
      rw [step_eq run] at made ⊢
      obtain rfl := Answer.descriptor.inj made
      exact ⟨t, rfl, rfl⟩

section Raw

variable {session : Session} (sound : session.Sound)
include sound

theorem make_build_raw (plan : Blueprint Source) :
    Ensures (After Store.Serves) (Script.make (.build plan)) session fun ref t =>
      ref < t.store.heap.size ∧ (t.store.heap.get ref).layout.isSome = true ∧
        (t.store.heap.get ref).Raw := by
  unfold Script.make
  refine ((Script.blueprint_after sound plan).session_serves sound).bind
    fun settled t after fits => ?_
  exact Script.perform_after (record_raw after.store.sound fits)

theorem built_copiesRecord (ample : session.store.Ample) {name : String}
    {plan : Blueprint Source} {cell : Ref}
    (made : (session.step (.make name (.build plan))).1 = .descriptor cell)
    {later : List Command}
    (untouched : Untouched (.name name) (session.step (.make name (.build plan))).2 later) :
    ((session.step (.make name (.build plan))).2.run later).CopiesRecord cell := by
  have sound' := sound_step sound (.make name (.build plan))
  obtain ⟨t, ran, bound⟩ := step_make_eq made
  obtain ⟨-, inside, record, raw⟩ := (make_build_raw sound plan).of_ok ran
  rw [bound] at sound' untouched ⊢
  have found : (t.bind name cell).follow? (.name name) = some cell := find?_bind_self t name cell
  have kept := isolated_run sound' found untouched
  have last := sound_run sound' later
  have ample' := ample_run_of sound' (bound ▸ ample_step sound ample _) later
  have akin : (t.store.heap.get cell).Akin _ := (kept.tree cell .refl).akin
  intro steps
  refine (copies_yields last.store (lt_of_follow? last kept.follow) ample' steps).imp ?_
  rintro ref u ⟨sound'', same⟩
  have all := akin.trans same
  exact ⟨all.record.trans record, (Store.writtenRaw_iff sound'').2 (all.raw_iff.2 raw)⟩

theorem entered_copiesType (ample : session.store.Ample) {d : Descriptor} {code : Code}
    (fits : d.Fits session.store.heap)
    (taken : ((register d).run session.store).1 = .ok code) {later : List Call}
    (admits : (session.call (.register d)).Admits later) :
    ((session.call (.register d)).calls later).CopiesType code d := by
  have admitted : ∀ d', Call.register d = .register d' → d'.Fits session.store.heap :=
    fun _ same => Call.register.inj same ▸ fits
  have sound' : (session.call (.register d)).Sound := sound_call sound admitted
  have last := (sound_calls sound' admits).store
  have ample' := ample_calls sound' admits (ample_call sound admitted ample)
  obtain ⟨n, cell, rfl, known, content⟩ := register_found (Prod.ext taken rfl)
  obtain ⟨shares, tree⟩ := holds_of_shared sound' (Store.shared_eq_ok.2 known) later admits
  have inside := last.owned_lt cell (Store.mem_owned_of_cellOf? (Store.shared_eq_ok.1 shares))
  have akin : Descriptor.Akin { d with code := .user n } _ := content ▸ (tree cell .refl).akin
  intro steps
  refine ((copies_yields last inside ample' steps).imp ?_).congr (run_bind_ok _ _ _ shares)
  rintro ref t ⟨sound'', same⟩
  have all := akin.trans same
  refine ⟨all.code, all.size, ?_, fun accepting => ?_⟩
  · rw [Store.writtenRaw_iff sound'', all.raw_iff, Descriptor.raw_of_user_iff rfl]
  · rw [Store.readsRaw_iff sound'' accepting (Descriptor.textKind_of_user all.code), all.interval]

end Raw

theorem texts_written_raw (calls : List Call) (admits : initial.Admits calls) :
    (initial.calls calls).WritesRaw := by
  have sound := sound_calls sound_initial admits
  have ample := ample_calls sound_initial admits rfl
  exact {
    copied := fun ref inside steps => (copies_yields sound.store inside ample steps).imp
      fun new t ⟨sound', akin⟩ => by
        rw [Store.writtenRaw_iff sound', Store.writtenRaw_iff sound.store, akin.raw_iff]
    built := fun _ _ _ made _ untouched => built_copiesRecord sound ample made untouched
    entered := fun _ _ fits taken _ admits => entered_copiesType sound ample fits taken admits }

def shortText : List Call := [.command (.make "s" (.same (.written "S12")))]

def numberedText : Making :=
  .build ⟨false, [⟨"n", none, .scalar .int, [], none⟩,
    ⟨"s", none, .existing (.named "s"), [], none⟩]⟩

def dozen : Descriptor := { Descriptor.canonical .string with size := 12 }

theorem texts_written_raw_numberedText : initial.Admits shortText ∧
    (∃ ref t, (copies [.reorder (.force .big), .duplicate] 24).run
        (((initial.calls shortText).step (.make "r" numberedText)).2.run [.drop "s"]).store =
          (.ok ref, t) ∧ (t.heap.get ref).text = "|V16" ∧ t.WrittenRaw (t.heap.get ref)) ∧
    ∃ ref t, (do copies [.reorder .swap] (← shared (.user 256)) : Run Ref).run
        ((initial.calls shortText).call (.register dozen)).store = (.ok ref, t) ∧
      (t.heap.get ref).text = "|V12" ∧ t.WrittenRaw (t.heap.get ref) := by
  have admits : initial.Admits shortText := ⟨fun _ none => (nomatch none), trivial⟩
  have raw := texts_written_raw shortText admits
  have untouched : Untouched (.name "r")
      ((initial.calls shortText).step (.make "r" numberedText)).2 [.drop "s"] := by
    refine ⟨trivial, ?_, trivial⟩
    rintro ⟨same, -⟩
    exact absurd same (by decide)
  have record := raw.built "r" _ 24 rfl [.drop "s"] untouched [.reorder (.force .big), .duplicate]
  have fits : dozen.Fits (initial.calls shortText).store.heap := fun _ link => nomatch link
  have type := raw.entered dozen (.user 256) fits rfl [] trivial [.reorder .swap]
  refine ⟨admits, ⟨_, _, rfl, rfl, (record.value _ _ rfl).2⟩, _, _, rfl, rfl, ?_⟩
  exact (type.value _ _ rfl).2.2.1.2 ⟨rfl, rfl⟩

def registering (code : Code) : Session := initial.run [.register 1 (.shared code)]

/-- A registered number keeps its order and a registered time its interval, so their texts are not
those of raw bytes. The latter is not even read. -/
theorem registered_order_written :
    (∃ ref, (registering .int).follow? (.code (.user 256)) = some ref ∧
      ((registering .int).store.heap.get ref).text = "<V4" ∧
      Descriptor.rawText ((registering .int).store.heap.get ref).size = "|V4") ∧
    (∃ ref, (registering .datetime).follow? (.code (.user 256)) = some ref ∧
      ((registering .datetime).store.heap.get ref).text = "<V8[us]" ∧
      Descriptor.rawText ((registering .datetime).store.heap.get ref).size = "|V8") ∧
    ((readType "<V8[us]").run (registering .datetime).store).1 =
      .error (.malformedTypeText "<V8[us]") := by
  refine ⟨⟨23, ?_, ?_, ?_⟩, ⟨23, ?_, ?_, ?_⟩, rfl⟩ <;> decide +kernel

end ElementTypes.Session
