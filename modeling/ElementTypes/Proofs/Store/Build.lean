import ElementTypes.Proofs.Store.Arrange

/-! # Records of blueprints -/

namespace ElementTypes

def Draft.record (draft : Draft) (names : Names) (size : Size) (companion : Option String) :
    Descriptor :=
  { Descriptor.canonical .void with
    size, alignment := draft.alignment, layout := some ⟨names, draft.table⟩, companion }

namespace Draft.Laid

variable {store : Store} {aligned : Bool} {heap : Heap} {draft : Draft}
  {plans : List (FieldPlan Ref)} (laid : Laid store aligned heap .empty plans draft)
include laid

theorem realized {e : Entry} (member : e ∈ draft.table.entries) :
    ∃ plan ∈ plans, plan.Realizes store heap e.target := by
  rcases laid.entry e member with none | realized
  · cases none
  · exact realized

theorem record_fits (names : Names) (size : Size) (companion : Option String) :
    (draft.record names size companion).Fits heap := by
  intro ref link
  rcases Descriptor.mem_links_iff.1 link with ⟨layout, same, e, member, rfl⟩ | ⟨_, none, -⟩
  · obtain rfl := Option.some.inj same
    obtain ⟨plan, -, realizes⟩ := laid.realized member
    exact realizes.inside
  · cases none

theorem bears_record (names : Names) (size : Size) (companion : Option String) :
    heap.Bears (draft.record names size companion) ↔
      ∃ plan ∈ plans, store.heap.Bears (plan.type.element store) := by
  constructor
  · intro bears
    have plain : (Descriptor.canonical .void).marksObjects = false := by decide
    cases bears with
    | marked marks => exact absurd (plain.symm.trans marks) Bool.false_ne_true
    | through link bears =>
        rcases Descriptor.mem_primaryLinks_iff.1 link with ⟨_, same, e, own, rfl⟩ | ⟨_, none, -⟩
        · obtain rfl := Option.some.inj same
          obtain ⟨plan, listed, realizes⟩ := laid.realized (Table.mem_primary.1 own).1
          exact ⟨plan, listed, realizes.bears.1 bears⟩
        · cases none
  · rintro ⟨plan, listed, bears⟩
    obtain ⟨slot, -, field, stands⟩ := exists_of_forall₂ laid.stands listed
    have member := stands.entries plan.name (List.mem_cons_self ..)
    have own : (Entry.mk field plan.name).isAlias = false := by
      rw [Entry.isAlias, stands.title]
      exact decide_eq_false stands.plain
    exact .through (Descriptor.mem_primaryLinks_iff.2 (.inl ⟨_, rfl, _,
      Table.mem_primary.2 ⟨member, own⟩, rfl⟩)) (stands.realizes.bears.2 bears)

end Draft.Laid

namespace Blueprint

def BearsObjects (plan : Blueprint Ref) (store : Store) : Prop :=
  ∃ field ∈ plan.fields, store.heap.Bears (field.type.element store)

/-- The conditions under which the record of a blueprint can be built: no name or title stands
twice, and all that is summed up are words. -/
structure Buildable (plan : Blueprint Ref) (store : Store) : Prop where
  labels : (plan.fields.flatMap (·.labels)).Nodup
  known : ∀ field ∈ plan.fields, field.type.Known store
  sizes : ∀ field ∈ plan.fields, field.size store < UInt64.size
  slots : ∀ slot ∈ plan.slots store, slot.Fits
  padding : plan.aligned = true →
    extent (plan.slots store) + (strictest (plan.slots store) - 1) < UInt64.size

structure Makes (plan : Blueprint Ref) (store : Store) (heap : Heap) (draft : Draft)
    (d : Descriptor) : Prop where
  laid : Draft.Laid store plan.aligned heap .empty plan.fields draft
  padded : plan.padded draft = some d.size
  alignment : d.alignment = draft.alignment
  layout : d.layout = some ⟨plan.fields.map (·.name), draft.table⟩
  object : plan.BearsObjects store → d.flags = .object
  empty : ¬ plan.BearsObjects store → d.flags = .empty

section Laid

variable {plan : Blueprint Ref} {store : Store} {heap : Heap} {draft : Draft}
  (laid : Draft.Laid store plan.aligned heap .empty plan.fields draft)
include laid

theorem extent_of_laid : draft.size.toNat = extent (plan.slots store) := laid.size

theorem strictest_of_laid : draft.alignment.toNat = strictest (plan.slots store) := laid.alignment

theorem padded_eq_some {size : Size} : plan.padded draft = some size ↔
    (plan.aligned = true →
      extent (plan.slots store) + (strictest (plan.slots store) - 1) < UInt64.size) ∧
    size.toNat = alignUp (extent (plan.slots store)) (strictest (plan.slots store)) := by
  rw [padded]
  cases aligned : plan.aligned with
  | true =>
      rw [← extent_of_laid laid, ← strictest_of_laid laid]
      simpa using Size.roundUp?_eq_some
  | false =>
      rw [strictest_of_packed (slots_packed store aligned), alignUp_one, ← extent_of_laid laid]
      simp [UInt64.toNat_inj, eq_comm]

theorem exists_padded (padding : plan.aligned = true →
    extent (plan.slots store) + (strictest (plan.slots store) - 1) < UInt64.size) :
    ∃ size, plan.padded draft = some size := by
  unfold padded
  split
  · rename_i aligned
    refine Option.isSome_iff_exists.1 (Size.roundUp?_isSome.2 ?_)
    rw [extent_of_laid laid, strictest_of_laid laid]
    exact padding aligned
  · exact ⟨draft.size, rfl⟩

end Laid

end Blueprint

structure FieldPlan.LiesIn (plan : FieldPlan Ref) (store : Store) (aligned : Bool) (heap : Heap)
    (d : Descriptor) (slot : Slot) (field : Field) : Prop where
  found : ∀ label ∈ plan.labels, d.find? label = some ⟨field, label⟩
  title : field.title = plan.title
  own : slot.own = plan.offset.map (·.toNat)
  start : field.offset.toNat = slot.start
  size : slot.size = (heap.get field.target).size.toNat
  total : slot.size = (plan.type.element store).size.toNat * plan.count
  alignment : slot.alignment =
    if aligned then max 1 (heap.get field.target).alignment.toNat else 1

namespace Blueprint

/-- Every field lies in its slot. An offset that is not given is the least that the alignment allows
behind the field before, and the size is the least that holds all of them. -/
structure LaidOut (plan : Blueprint Ref) (store : Store) (heap : Heap) (d : Descriptor) : Prop where
  fields : List.Forall₂
    (fun field slot => ∃ entry, field.LiesIn store plan.aligned heap d slot entry) plan.fields
    (plan.slots store)
  chained : Chained 0 (plan.slots store)
  kept : ∀ slot ∈ plan.slots store, ∀ n, slot.own = some n → slot.start = n
  least : ∀ slot ∈ plan.slots store, slot.own = none →
    IsLeast {n | slot.alignment ∣ n ∧ slot.behind ≤ n} slot.start
  words : ∀ slot ∈ plan.slots store, slot.stop < UInt64.size
  alignment : IsGreatest {n | n = 1 ∨ ∃ slot ∈ plan.slots store, slot.alignment = n}
    d.alignment.toNat
  size : IsLeast {n | d.alignment.toNat ∣ n ∧ ∀ slot ∈ plan.slots store, slot.stop ≤ n}
    d.size.toNat

/-- The fields follow one another, without gaps in a packed record. With powers of two every field
begins at a multiple of its alignment, and the size of the record is a multiple of all of them. -/
structure InOrder (plan : Blueprint Ref) (store : Store) (d : Descriptor) : Prop where
  apart : (plan.slots store).Pairwise fun before after => before.stop ≤ after.start
  packed : plan.aligned = false → d.size.toNat = ((plan.slots store).map (·.size)).sum
  multiples : (∀ slot ∈ plan.slots store, ∃ k, slot.alignment = 2 ^ k) →
    ∀ slot ∈ plan.slots store, slot.alignment ∣ slot.start ∧ slot.alignment ∣ d.size.toNat

namespace Makes

variable {plan : Blueprint Ref} {store : Store} {heap : Heap} {draft : Draft} {d : Descriptor}
  (makes : plan.Makes store heap draft d)
include makes

theorem buildable : plan.Buildable store where
  labels := makes.laid.labels
  known := makes.laid.known
  sizes field member := by
    obtain ⟨slot, -, _, stands⟩ := exists_of_forall₂ makes.laid.stands member
    rw [← stands.realizes.size]
    exact UInt64.toNat_lt _
  slots := makes.laid.fits
  padding := ((padded_eq_some makes.laid).1 makes.padded).1

theorem alignment_eq : d.alignment.toNat = strictest (plan.slots store) := by
  rw [makes.alignment, strictest_of_laid makes.laid]

theorem size_eq :
    d.size.toNat = alignUp (extent (plan.slots store)) (strictest (plan.slots store)) :=
  ((padded_eq_some makes.laid).1 makes.padded).2

theorem liesIn {field : FieldPlan Ref} {slot : Slot} {entry : Field}
    (stands : field.Stands store plan.aligned heap draft.table slot entry) :
    field.LiesIn store plan.aligned heap d slot entry where
  found label member := by
    rw [Descriptor.find?, makes.layout]
    exact Table.find?_of_mem (stands.entries label member)
  title := stands.title
  own := congrArg Slot.own stands.same
  start := stands.start
  size := (congrArg Slot.size stands.same).trans stands.realizes.size.symm
  total := congrArg Slot.size stands.same
  alignment := by
    rw [stands.realizes.alignment]
    exact congrArg Slot.alignment stands.same

theorem laidOut : plan.LaidOut store heap d where
  fields := makes.laid.stands.imp fun field slot ⟨entry, stands⟩ => ⟨entry, makes.liesIn stands⟩
  chained := plan.chained_slots store
  kept slot _ n own := by
    rw [Slot.start, own]
    rfl
  least slot member free := Slot.start_isLeast free (plan.slots_positive store slot member)
  words slot member := (makes.laid.fits slot member).stop
  alignment := by
    rw [makes.alignment_eq]
    exact strictest_isGreatest (plan.slots store)
  size := by
    rw [makes.alignment_eq, makes.size_eq]
    exact size_isLeast (plan.slots store)

theorem flags_iff : (d.flags = .object ↔ plan.BearsObjects store) ∧
    (d.flags = .empty ↔ ¬ plan.BearsObjects store) := by
  have differ : Flags.object ≠ Flags.empty := by decide
  by_cases bears : plan.BearsObjects store
  · simp [makes.object bears, bears, differ]
  · simp [makes.empty bears, bears, differ.symm]

theorem inOrder (free : ∀ field ∈ plan.fields, field.offset = none) : plan.InOrder store d where
  apart := (pairwise_of_chained (plan.chained_slots store) (slots_free store free)
    (plan.slots_positive store)).2
  packed packed := by
    have one := slots_packed store packed
    have total := extent_of_packed (plan.chained_slots store) (slots_free store free) one
    rw [makes.size_eq, strictest_of_packed one, alignUp_one, extent, total, Nat.zero_add]
  multiples powers slot member := by
    have least := Slot.start_isLeast (slots_free store free slot member)
      (plan.slots_positive store slot member)
    rw [makes.size_eq]
    exact ⟨least.1.1, (dvd_strictest powers member).trans (dvd_alignUp ..)⟩

end Makes

end Blueprint

section Build

variable {plan : Blueprint Ref} {store : Store} (sound : store.Sound)
  (fits : ∀ field ∈ plan.fields, field.Fits store.heap)
include sound fits

theorem build_makes {d : Descriptor} {t : Store} (ran : (build plan).run store = (.ok d, t)) :
    ∃ draft, plan.Makes store t.heap draft d := by
  obtain ⟨roomy, draft, u, plain, v, size, record, granted, fields, made, padded, built, rfl, rfl⟩ :=
    build_eq_ok.1 ran
  obtain ⟨first, -⟩ := (reserve_leads sound _ _).of_ok granted
  obtain ⟨after, laid⟩ := (Draft.fields_laid sound first plan.aligned fits .empty).of_ok fields
  obtain ⟨after', ⟨companion, rfl⟩, same⟩ := (fresh_makes after.sound rfl).of_ok made
  obtain rfl : record = draft.record (plan.fields.map (·.name)) size companion := built
  rw [← same] at laid
  have sound' := after'.sound
  have inside := laid.record_fits (plan.fields.map (·.name)) size companion
  have flagged := Heap.flagged_findObjects sound'.closed sound'.acyclic inside
  have found := (Heap.findObjects_true_iff sound'.closed sound'.acyclic inside).trans
    (laid.bears_record (plan.fields.map (·.name)) size companion)
  refine ⟨draft, laid.flag flagged, ?_, ?_, ?_, fun bears => ?_, fun clean => ?_⟩
  · rw [padded]
    split <;> rfl
  · split <;> rfl
  · split <;> rfl
  · rw [if_pos (found.2 bears)]
  · rw [if_neg (mt found.1 clean)]
    rfl

theorem build_succeeds (ready : store.Ready) (buildable : plan.Buildable store) :
    ∃ d t, (build plan).run store = (.ok d, t) := by
  have start : Succeeds (plan.fields.foldlM (Draft.extend plan.aligned) .empty) store
      fun _ u => u.Ready :=
    Draft.fields_succeed sound sound.leads ready plan.aligned fits buildable.known
      buildable.labels buildable.slots
  obtain ⟨draft, u, fields, after, ready', laid⟩ :=
    start.ensuring (Draft.fields_laid sound sound.leads plan.aligned fits .empty)
  have voids : Succeeds (fresh .void) u fun _ v => v.Ready := fresh_succeeds ready' rfl
  obtain ⟨plain, v, made, -⟩ := voids
  obtain ⟨size, padded⟩ := Blueprint.exists_padded laid buildable.padding
  exact ⟨_, _, build_eq_ok.2 ⟨store, draft, u, plain, v, size, _,
    reserve_run_ample ready.ample _ _, fields, made, padded, rfl, rfl, rfl⟩⟩

end Build

end ElementTypes
