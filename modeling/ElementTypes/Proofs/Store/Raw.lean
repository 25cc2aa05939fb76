import ElementTypes.Proofs.Store.Build
import ElementTypes.Proofs.Store.Layouts
import ElementTypes.Proofs.Text.RawText

/-! # Raw texts in a store -/

namespace ElementTypes

namespace Store

def ReadsRaw (store : Store) (d : Descriptor) : Prop :=
  Succeeds (readType d.text) store fun e _ =>
    ∃ companion, e = { Descriptor.canonical .void with size := d.size, companion }

/-- The text is that of raw bytes, and it is read as such unless a hook turns the new descriptor
down. -/
structure WrittenRaw (store : Store) (d : Descriptor) : Prop where
  text : d.text = Descriptor.rawText d.size
  readBack : store.Accepting → store.ReadsRaw d

variable {store : Store} (sound : store.Sound) {d : Descriptor}
include sound

theorem fresh_accepted (accepting : store.Accepting) {code : Code} (builtin : code.isBuiltin = true) :
    Succeeds (fresh code) store fun _ _ => True := by
  obtain ⟨d, t, ran, -⟩ := offerCopy_succeeds accepting code.number
  exact ⟨d, t, (fresh_run_offerCopy sound builtin).trans ran, trivial⟩

theorem readsRaw_iff (accepting : store.Accepting) (bytes : d.textKind = .void) :
    store.ReadsRaw d ↔ d.interval = none := by
  unfold ReadsRaw readType
  rw [Descriptor.read?_text_of_bytes bytes]
  constructor
  · rintro ⟨e, t, ran, -⟩
    obtain ⟨plain, u, -, rest⟩ := (run_bind_eq_ok ..).1 ran
    cases timed : d.interval with
    | none => rfl
    | some i =>
        -- bytes are no elements of time, so brackets are refused
        rw [timed] at rest
        cases congrArg Prod.fst rest
  · intro timeless
    rw [timeless]
    refine ((fresh_accepted sound accepting rfl).ensuring (fresh_makes sound rfl)).bind ?_
    rintro _ t ⟨-, -, ⟨companion, rfl⟩, -⟩
    exact .pure ⟨companion, rfl⟩

theorem writtenRaw_iff : store.WrittenRaw d ↔ d.Raw := by
  constructor
  · exact fun written => Descriptor.text_eq_rawText_iff.1 written.text
  · intro raw
    exact ⟨Descriptor.text_eq_rawText_iff.2 raw, fun accepting =>
      (readsRaw_iff sound accepting raw.bytes).2 raw.timeless⟩

end Store

theorem build_raw {plan : Blueprint Ref} {store : Store} (sound : store.Sound)
    (fits : ∀ field ∈ plan.fields, field.Fits store.heap) :
    Ensures Store.Serves (build plan) store fun d t =>
      d.Fits t.heap ∧ d.layout.isSome = true ∧ d.Raw := by
  refine (build_serves sound fits).traced.imp ?_
  rintro d t - ⟨within, ran⟩
  obtain ⟨_, draft, u, plain, v, size, record, granted, fields, made, -, rfl, rfl, -⟩ :=
    build_eq_ok.1 ran
  have first := ((reserve_leads sound _ _).of_ok granted).1
  have after := ((Draft.fields_laid sound first plan.aligned fits .empty).of_ok fields).1
  obtain ⟨-, ⟨companion, rfl⟩, -⟩ := (fresh_makes after.sound rfl).of_ok made
  refine ⟨within, ?_⟩
  split <;> exact ⟨rfl, Descriptor.textKind_of_record (fun none => nomatch none) rfl, rfl, rfl⟩

theorem record_raw {plan : Blueprint Ref} {store : Store} (sound : store.Sound)
    (fits : ∀ field ∈ plan.fields, field.Fits store.heap) :
    Ensures Store.Serves (do adopt (← build plan)) store fun ref t => ref < t.heap.size ∧
      (t.heap.get ref).layout.isSome = true ∧ (t.heap.get ref).Raw := by
  refine (build_raw sound fits).bind ?_
  rintro d t after ⟨within, record⟩
  refine ((adopt_leads after.sound within).imp ?_).serves after.sound
  rintro ref u - ⟨-, inside, rfl⟩
  exact ⟨inside, record⟩

namespace Descriptor

theorem Renewed.akin {change : OrderChange} {d e : Descriptor} (same : d.Renewed change e) :
    d.Akin e where
  code := same.code
  kind := same.kind
  size := same.size
  interval := same.interval
  record := by
    rw [Bool.eq_iff_iff, Option.isSome_iff_ne_none, Option.isSome_iff_ne_none, ne_eq, ne_eq,
      optionRel_eq_none_iff same.layout]
  unordered := by
    rw [same.order]
    exact change.apply_eq_irrelevant_iff

end Descriptor

theorem Heap.KeptAt.akin {old new : Heap} {ref : Ref} (kept : old.KeptAt new ref) :
    (old.get ref).Akin (new.get ref) := by
  obtain ⟨flags, same⟩ := kept.exists_flags
  rw [same]
  exact ⟨rfl, rfl, rfl, rfl, rfl, .rfl⟩

inductive Copying
  | duplicate
  | reorder (change : OrderChange)

def Copying.copy (ref : Ref) : Copying → Run Ref
  | duplicate => do adopt (← ElementTypes.duplicate ref)
  | reorder change => reorderCell change ref

def copies (steps : List Copying) (ref : Ref) : Run Ref := steps.foldlM Copying.copy ref

section Copies

variable {store : Store} (sound : store.Sound) {ref : Ref} (inside : ref < store.heap.size)

theorem copy_succeeds (ready : store.Ready) (step : Copying) (ref : Ref) :
    Succeeds (step.copy ref) store fun _ t => t.Ready := by
  cases step with
  | duplicate =>
      exact (duplicate_succeeds ready ref).bind fun d _ ready => adopt_succeeds ready d
  | reorder change =>
      exact (reorder_succeeds change ready ref).bind fun d _ ready =>
        adopt_succeeds ready d

theorem copies_succeeds (ready : store.Ready) (steps : List Copying) (ref : Ref) :
    Succeeds (copies steps ref) store fun _ t => t.Ready := by
  unfold copies
  induction steps generalizing store ref with
  | nil => exact .pure ready
  | cons step steps ih =>
      rw [List.foldlM_cons]
      exact (copy_succeeds ready step ref).bind fun next _ ready => ih ready next

include sound inside

theorem copy_akin (step : Copying) :
    Ensures Store.Leads (step.copy ref) store fun new t =>
      new < t.heap.size ∧ (store.heap.get ref).Akin (t.heap.get new) := by
  cases step with
  | duplicate =>
      refine ((duplicate_leads sound ref).also (duplicate_fits sound ref)).bind ?_
      rintro _ t after ⟨⟨⟨companion, rfl⟩, -⟩, fits, -⟩
      refine (adopt_leads after.sound fits).imp ?_
      rintro new u - ⟨-, inside, same⟩
      rw [same]
      exact ⟨inside, rfl, rfl, rfl, rfl, rfl, .rfl⟩
  | reorder change =>
      refine (reorder_renewedAt change sound inside).imp ?_
      rintro new u - ⟨-, inside, renews⟩
      exact ⟨inside, renews.renewed.akin⟩

theorem copies_akin (steps : List Copying) :
    Ensures Store.Leads (copies steps ref) store fun new t =>
      new < t.heap.size ∧ (store.heap.get ref).Akin (t.heap.get new) := by
  unfold copies
  refine Ensures.foldlM sound.leads
    (fun new t => new < t.heap.size ∧ (store.heap.get ref).Akin (t.heap.get new)) steps
    ⟨inside, .refl _⟩ ?_
  rintro step - between t after ⟨inside, akin⟩
  refine (copy_akin after.sound inside step).imp ?_
  rintro new u - ⟨inside, akin'⟩
  exact ⟨inside, akin.trans akin'⟩

theorem copies_yields (ample : store.Ample) (steps : List Copying) :
    Yields (copies steps ref) store fun new t =>
      t.Sound ∧ (store.heap.get ref).Akin (t.heap.get new) := by
  refine ((copies_akin sound inside steps).imp ?_).yields ample fun ready =>
    copies_succeeds ready steps ref
  rintro new t after ⟨-, akin⟩
  exact ⟨after.sound, akin⟩

end Copies

end ElementTypes
