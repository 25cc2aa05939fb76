import ElementTypes.Proofs.Heap.Objects
import ElementTypes.Proofs.Record.Table
import ElementTypes.Proofs.Store.Reorder
import ElementTypes.Store.Blueprint
import ElementTypes.Store.Promote
import ElementTypes.Store.Read
import ElementTypes.Store.Register

/-! # Operations that only add -/

namespace ElementTypes

section Growth

variable {store : Store} (sound : store.Sound)
include sound

theorem readType_leads (text : String) :
    Ensures Store.Leads (readType text) store fun d t => d.Fits t.heap := by
  unfold readType
  cases TypeText.read? text with
  | none => exact .throw sound.leads
  | some said =>
      refine (fresh_leads sound said.code).bind ?_
      intro plain t after fits
      cases said.scale with
      | none => exact .pure after.sound.leads (fits.of_subset fun _ => id)
      | some scale =>
          by_cases temporal : said.code.isTemporal = true
          · simp only [temporal, if_true]
            refine (Ensures.lift after.sound.leads _).bind ?_
            rintro interval _ after' ⟨-, rfl⟩
            exact .pure after'.sound.leads (fits.of_subset fun _ => id)
          · simp only [temporal, Bool.false_eq_true, if_false]
            exact .throw after.sound.leads

theorem sharedOfSize_leads (code : Code) (size : Size) :
    Ensures Store.Leads (sharedOfSize code size) store fun ref t => ref < t.heap.size := by
  unfold sharedOfSize
  refine (shared_lt sound code).bind fun ref t after inside => Ensures.get_bind ?_
  by_cases fitting : (t.heap.get ref).size = size
  · simp only [if_pos fitting]
    exact .pure after.sound.leads inside
  · simp only [if_neg fitting]
    refine (duplicate_fits after.sound ref).bind fun copy u after' fits => ?_
    refine adopt_lt after'.sound (fits.of_subset fun target link => ?_)
    rcases Descriptor.mem_links_iff.1 link with ⟨_, absent, _⟩ | base
    · cases absent
    · exact Descriptor.mem_links_iff.2 (.inr base)

theorem promote_leads {a b : Ref} (inside : b < store.heap.size) :
    Ensures Store.Leads (promote a b) store fun ref t => ref < t.heap.size := by
  unfold promote
  refine Ensures.get_bind ?_
  simp only
  split
  · exact .pure sound.leads inside
  · split
    · exact shared_lt sound .object
    · split
      · exact sharedOfSize_leads sound _ _
      · exact shared_lt sound _

theorem combine_leads {a : Ref} {least : Option Ref} (inside : a < store.heap.size)
    (inside' : ∀ ref, least = some ref → ref < store.heap.size) :
    Ensures Store.Leads (combine a least) store fun ref t => ref < t.heap.size := by
  unfold combine
  cases least with
  | none => exact .pure sound.leads inside
  | some least =>
      refine (promote_leads sound (inside' least rfl)).bind ?_
      intro result t after bound
      refine Ensures.get_bind ?_
      simp only
      split
      · exact shared_lt after.sound .object
      · exact .pure after.sound.leads bound

theorem sizedText_leads (code : Code) (size : Size) :
    Ensures Store.Leads (sizedText code size) store fun ref t => ref < t.heap.size := by
  unfold sizedText
  refine (fresh_leads sound code).bind ?_
  intro d t after fits
  exact adopt_lt after.sound (fits.of_subset fun _ => id)

theorem arrayOf_leads {base : Ref} (inside : base < store.heap.size) (shape : List Size) :
    Ensures Store.Leads (arrayOf base shape) store fun ref t => ref < t.heap.size := by
  unfold arrayOf
  refine Ensures.get_bind ?_
  simp only
  split
  · refine (fresh_leads sound .void).bind ?_
    intro d t after fits
    refine adopt_lt after.sound fun ref link => ?_
    rcases Descriptor.mem_links_iff.1 link with layout | ⟨_, same, rfl⟩
    · exact fits ref (Descriptor.mem_links_iff.2 (.inl layout))
    · rw [← Option.some.inj same]
      exact Nat.lt_of_lt_of_le inside after.grows.heap.size
  · exact .throw sound.leads

omit sound in
def FieldPlan.Fits (plan : FieldPlan Ref) (heap : Heap) : Prop :=
  ∀ ref, plan.type = .existing ref → ref < heap.size

theorem realize_leads {plan : FieldPlan Ref} (fits : plan.Fits store.heap) :
    Ensures Store.Leads plan.realize store fun ref t => ref < t.heap.size := by
  have element : Ensures Store.Leads plan.type.realize store fun ref t => ref < t.heap.size := by
    unfold FieldType.realize
    cases type : plan.type with
    | scalar code => exact shared_lt sound code
    | string bytes => exact sizedText_leads sound _ _
    | unicode characters => exact sizedText_leads sound _ _
    | existing ref => exact .pure sound.leads (fits ref type)
  unfold FieldPlan.realize
  refine element.bind ?_
  intro ref t after inside
  by_cases single : plan.shape = []
  · simp only [if_pos single]
    exact .pure after.sound.leads inside
  · simp only [if_neg single]
    exact arrayOf_leads after.sound inside _

end Growth

def Table.Fits (table : Table) (heap : Heap) : Prop :=
  ∀ entry ∈ table.entries, entry.target < heap.size

theorem Table.Fits.put {table : Table} {heap : Heap} (fits : table.Fits heap) (key : String)
    {field : Field} (inside : field.target < heap.size) : (table.put key field).Fits heap := by
  intro entry member
  rcases mem_put member with same | old
  · rw [same]
    exact inside
  · exact fits entry old

theorem Draft.place_eq_ok {draft next : Draft} {plan : FieldPlan Ref} {target : Ref}
    {size alignment : Size} (h : draft.place plan target size alignment = .ok next) :
    plan.name ∉ draft.table.keys ∧
      (∀ title, plan.title = some title → title ≠ plan.name ∧ title ∉ draft.table.keys) ∧
      ∃ offset cursor, (plan.offset <|> Size.roundUp? draft.cursor alignment) = some offset ∧
        Size.add? offset size = some cursor ∧ next = {
          table := match plan.title with
            | none => draft.table.put plan.name ⟨target, offset, plan.title⟩
            | some title => (draft.table.put plan.name ⟨target, offset, plan.title⟩).put title
                ⟨target, offset, plan.title⟩
          cursor
          size := max draft.size cursor
          alignment := max draft.alignment alignment } := by
  unfold place at h
  by_cases used : plan.name ∈ draft.table.keys
  · have taken : draft.table.contains plan.name = true := decide_eq_true used
    rw [if_pos taken] at h
    cases h
  · have new : draft.table.contains plan.name = false := decide_eq_false used
    refine ⟨used, ?_⟩
    simp only [new, Bool.false_eq_true, if_false] at h
    have free : ∀ title, plan.title = some title →
        title ≠ plan.name ∧ title ∉ draft.table.keys := by
      intro title titled
      simp only [titled] at h
      split at h
      · cases h
      · rename_i free
        simpa [Table.contains, not_or] using free
    have untaken : ∀ title, plan.title = some title →
        ¬ (title = plan.name ∨ draft.table.contains title = true) := by
      intro title titled
      simpa [Table.contains, not_or] using free title titled
    refine ⟨free, ?_⟩
    cases titled : plan.title
    case' none => simp only [titled] at h
    case' some title => simp only [titled, untaken title titled, if_false] at h
    all_goals
      split at h
      · rename_i offset found
        split at h
        · rename_i cursor fits
          exact ⟨offset, cursor, found, fits, (Except.ok.inj h).symm⟩
        · cases h
      · cases h

theorem Draft.place_fits {draft next : Draft} {plan : FieldPlan Ref} {target : Ref}
    {size alignment : Size} {heap : Heap} (fits : draft.table.Fits heap)
    (inside : target < heap.size) (h : draft.place plan target size alignment = .ok next) :
    next.table.Fits heap := by
  obtain ⟨-, -, offset, cursor, -, -, rfl⟩ := place_eq_ok h
  cases plan.title with
  | none => exact fits.put _ inside
  | some title => exact (fits.put _ inside).put _ inside

theorem extend_leads {store : Store} (sound : store.Sound) {plan : FieldPlan Ref}
    (fits : plan.Fits store.heap) (aligned : Bool) {draft : Draft}
    (placed : draft.table.Fits store.heap) :
    Ensures Store.Leads (draft.extend aligned plan) store fun next t => next.table.Fits t.heap := by
  unfold Draft.extend
  refine (realize_leads sound fits).bind ?_
  intro target t after inside
  refine Ensures.get_bind ?_
  refine (Ensures.lift after.sound.leads _).imp ?_
  rintro next u after' ⟨same, rfl⟩
  refine Draft.place_fits ?_ inside same
  exact fun entry member => Nat.lt_of_lt_of_le (placed entry member) after.grows.heap.size

def Blueprint.padded (plan : Blueprint Ref) (draft : Draft) : Option Size :=
  if plan.aligned then Size.roundUp? draft.size draft.alignment else some draft.size

theorem build_eq_ok {plan : Blueprint Ref} {store t : Store} {d : Descriptor} :
    (build plan).run store = (.ok d, t) ↔ ∃ roomy draft u plain v size record,
      (reserve plan.fields.length (.outOfMemory .denied)).run store = (.ok (), roomy) ∧
      (plan.fields.foldlM (Draft.extend plan.aligned) .empty).run roomy = (.ok draft, u) ∧
      (fresh .void).run u = (.ok plain, v) ∧ plan.padded draft = some size ∧
      record = { plain with
        size, alignment := draft.alignment
        layout := some ⟨plan.fields.map (·.name), draft.table⟩ } ∧
      d = (if (v.heap.findObjects record).1 then { record with flags := .object } else record) ∧
      t = { v with heap := (v.heap.findObjects record).2 } := by
  unfold build
  constructor
  · intro ran
    obtain ⟨⟨⟩, roomy, granted, ran⟩ := (run_bind_eq_ok ..).1 ran
    obtain ⟨draft, u, fields, ran⟩ := (run_bind_eq_ok ..).1 ran
    obtain ⟨plain, v, made, ran⟩ := (run_bind_eq_ok ..).1 ran
    refine ⟨roomy, draft, u, plain, v, ?_⟩
    split at ran
    · split at ran
      · rename_i aligned _ size padded
        obtain ⟨same, rfl⟩ := Prod.mk.inj ran
        refine ⟨size, _, granted, fields, made, ?_, rfl, (Except.ok.inj same).symm, rfl⟩
        rw [Blueprint.padded, if_pos aligned, padded]
      · cases congrArg Prod.fst ran
    · rename_i aligned
      obtain ⟨same, rfl⟩ := Prod.mk.inj ran
      refine ⟨draft.size, _, granted, fields, made, ?_, rfl, (Except.ok.inj same).symm, rfl⟩
      rw [Blueprint.padded, if_neg aligned]
  · rintro ⟨roomy, draft, u, plain, v, size, record, granted, fields, made, padded, rfl, rfl, rfl⟩
    rw [run_bind_ok _ _ _ granted, run_bind_ok _ _ _ fields, run_bind_ok _ _ _ made]
    unfold Blueprint.padded at padded
    split
    · rename_i aligned
      rw [if_pos aligned] at padded
      rw [padded]
      rfl
    · rename_i aligned
      rw [if_neg aligned] at padded
      obtain rfl := Option.some.inj padded
      rfl

inductive Built (store : Store) : Except Error Descriptor × Store → Prop
  | refused {error : Error} {t : Store} (after : store.Leads t) : Built store (.error error, t)
  | made {record : Descriptor} {t : Store} (after : store.Leads t) (fits : record.Fits t.heap) :
      Built store
        (.ok (if (t.heap.findObjects record).1 then { record with flags := .object } else record),
          { t with heap := (t.heap.findObjects record).2 })

theorem build_built {store : Store} (sound : store.Sound) {plan : Blueprint Ref}
    (fits : ∀ field ∈ plan.fields, field.Fits store.heap) :
    Built store ((build plan).run store) := by
  unfold build
  have roomy := reserve_leads sound plan.fields.length (.outOfMemory .denied)
  refine roomy.run_bind (fun _ _ after => .refused after) fun _ roomy after _ => ?_
  refine (Ensures.foldlM after.sound.leads (fun draft t => draft.table.Fits t.heap)
    plan.fields ?_ ?_).run_bind (fun _ _ later => .refused (Onward.trans after later)) ?_
  · intro entry member
    cases member
  · intro field member draft t later placed
    have after := Onward.trans after later
    refine extend_leads later.sound ?_ _ placed
    exact fun ref same => Nat.lt_of_lt_of_le (fits field member ref same) after.grows.heap.size
  · intro draft t before placed
    have after := Onward.trans after before
    refine (fresh_leads after.sound .void).run_bind
      (fun _ _ later => .refused (Onward.trans after later)) ?_
    intro plain u later fresh
    have all := Onward.trans after later
    have fitting : ∀ size alignment, Descriptor.Fits { plain with
        size, alignment, layout := some ⟨plan.fields.map (·.name), draft.table⟩ } u.heap := by
      intro size alignment ref link
      rcases Descriptor.mem_links_iff.1 link with ⟨_, same, entry, member, rfl⟩ | base
      · rw [← Option.some.inj same] at member
        exact Nat.lt_of_lt_of_le (placed entry member) later.grows.heap.size
      · exact fresh ref (Descriptor.mem_links_iff.2 (.inr base))
    have finished := fun size => Built.made all (fitting size draft.alignment)
    by_cases aligned : plan.aligned = true
    · simp only [if_pos aligned]
      cases Size.roundUp? draft.size draft.alignment with
      | none => exact .refused all
      | some size => exact finished size
    · simp only [if_neg aligned]
      exact finished draft.size

def Store.entered (store : Store) (d : Descriptor) : Store :=
  { store with
    heap := (store.heap.alloc { d with code := .user store.registry.next }).2
    registry := store.registry.enter store.heap.size }

inductive Registered (store : Store) (d : Descriptor) : Except Error Code × Store → Prop
  | refused {error : Error} : Registered store d (.error error, store)
  | entered (room : store.registry.next ≠ 65535) :
      Registered store d (.ok (.user store.registry.next), store.entered d)

theorem register_run (store : Store) (d : Descriptor) : (register d).run store =
    if d.size = 0 then (.error .sizelessUserType, store)
    else if store.registry.next = 65535 then (.error .userNumbersExhausted, store)
    else (.ok (.user store.registry.next), store.entered d) := by
  unfold register
  dsimp only
  split
  · rfl
  · rw [run_get_bind]
    split <;> rfl

theorem register_registered (store : Store) (d : Descriptor) :
    Registered store d ((register d).run store) := by
  rw [register_run]
  split
  · exact .refused
  · split
    · exact .refused
    · exact .entered ‹_›

theorem register_eq_ok {store t : Store} {d : Descriptor} {code : Code}
    (h : (register d).run store = (.ok code, t)) :
    store.registry.next ≠ 65535 ∧ code = .user store.registry.next ∧ t = store.entered d := by
  rw [register_run] at h
  split at h
  · cases congrArg Prod.fst h
  · split at h
    · cases congrArg Prod.fst h
    · exact ⟨‹_›, (Except.ok.inj (congrArg Prod.fst h)).symm, (congrArg Prod.snd h).symm⟩

theorem register_succeeds_iff {store : Store} {d : Descriptor} :
    (∃ code t, (register d).run store = (.ok code, t)) ↔
      d.size ≠ 0 ∧ store.registry.next ≠ 65535 := by
  rw [register_run]
  split
  · rename_i sizeless
    exact ⟨fun ⟨_, _, same⟩ => (nomatch congrArg Prod.fst same), fun h => absurd sizeless h.1⟩
  · split
    · rename_i full
      exact ⟨fun ⟨_, _, same⟩ => (nomatch congrArg Prod.fst same), fun h => absurd full h.2⟩
    · rename_i sized room
      exact ⟨fun _ => ⟨sized, room⟩, fun _ => ⟨_, _, rfl⟩⟩

theorem register_eq_error {store t : Store} {d : Descriptor} {error : Error}
    (h : (register d).run store = (.error error, t)) : t = store ∧
      error = if d.size = 0 then .sizelessUserType else .userNumbersExhausted := by
  rw [register_run] at h
  split at h
  · obtain ⟨same, rfl⟩ := Prod.mk.inj h
    exact ⟨rfl, by rw [if_pos ‹_›, Except.error.inj same]⟩
  · split at h
    · obtain ⟨same, rfl⟩ := Prod.mk.inj h
      exact ⟨rfl, by rw [if_neg ‹_›, Except.error.inj same]⟩
    · cases congrArg Prod.fst h

end ElementTypes
