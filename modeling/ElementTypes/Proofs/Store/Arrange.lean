import ElementTypes.Proofs.Store.Fields

/-! # How records are laid out

A blueprint determines the slots of its fields. A draft takes in a field by putting it into the next
slot (`Draft.Places`), and a run over the fields lays out all of them (`Draft.Laid`).
-/

namespace ElementTypes

/-! ## Slots of a blueprint -/

namespace FieldPlan

def labels {α : Type} (plan : FieldPlan α) : List String := plan.name :: plan.title.toList

def alignment (plan : FieldPlan Ref) (store : Store) (aligned : Bool) : Nat :=
  if aligned then max 1 (plan.type.element store).alignment.toNat else 1

def slot (plan : FieldPlan Ref) (store : Store) (aligned : Bool) (behind : Nat) : Slot where
  own := plan.offset.map (·.toNat)
  behind
  size := plan.size store
  alignment := plan.alignment store aligned

theorem alignment_pos (plan : FieldPlan Ref) (store : Store) (aligned : Bool) :
    0 < plan.alignment store aligned := by
  unfold alignment
  split
  · exact Nat.lt_of_lt_of_le Nat.one_pos (Nat.le_max_left ..)
  · exact Nat.one_pos

theorem Realizes.toNat_alignment {plan : FieldPlan Ref} {store : Store} {heap : Heap} {target : Ref}
    (realizes : plan.Realizes store heap target) (aligned : Bool) :
    (if aligned then max 1 (heap.get target).alignment else 1 : Size).toNat =
      plan.alignment store aligned := by
  rw [FieldPlan.alignment, realizes.alignment]
  split
  · exact Size.toNat_max ..
  · rfl

end FieldPlan

def slotsFrom (store : Store) (aligned : Bool) : Nat → List (FieldPlan Ref) → List Slot
  | _, [] => []
  | behind, plan :: plans =>
    plan.slot store aligned behind ::
      slotsFrom store aligned (plan.slot store aligned behind).stop plans

theorem chained_slotsFrom (store : Store) (aligned : Bool) (behind : Nat)
    (plans : List (FieldPlan Ref)) : Chained behind (slotsFrom store aligned behind plans) := by
  induction plans generalizing behind with
  | nil => trivial
  | cons plan plans ih => exact ⟨rfl, ih _⟩

theorem forall_slotsFrom {store : Store} {aligned : Bool} {P : Slot → Prop}
    {plans : List (FieldPlan Ref)}
    (each : ∀ plan ∈ plans, ∀ behind, P (plan.slot store aligned behind))
    (behind : Nat) : ∀ slot ∈ slotsFrom store aligned behind plans, P slot := by
  induction plans generalizing behind with
  | nil => exact List.forall_mem_nil _
  | cons plan plans ih =>
      obtain ⟨here, later⟩ := List.forall_mem_cons.1 each
      exact List.forall_mem_cons.2 ⟨here behind, ih later _⟩

namespace Blueprint

variable (plan : Blueprint Ref) (store : Store)

def slots : List Slot := slotsFrom store plan.aligned 0 plan.fields

theorem chained_slots : Chained 0 (plan.slots store) := chained_slotsFrom store plan.aligned 0 _

theorem slots_positive : ∀ slot ∈ plan.slots store, 0 < slot.alignment :=
  forall_slotsFrom (fun field _ _ => field.alignment_pos store plan.aligned) 0

variable {plan}

theorem slots_packed (packed : plan.aligned = false) :
    ∀ slot ∈ plan.slots store, slot.alignment = 1 := by
  refine forall_slotsFrom (fun field _ _ => ?_) 0
  rw [packed]
  rfl

theorem slots_free (free : ∀ field ∈ plan.fields, field.offset = none) :
    ∀ slot ∈ plan.slots store, slot.own = none := by
  refine forall_slotsFrom (fun field member _ => ?_) 0
  rw [FieldPlan.slot, free field member]
  rfl

end Blueprint

/-! ## Placing a field -/

namespace Draft

structure Places (draft : Draft) (plan : FieldPlan Ref) (slot : Slot) (field : Field)
    (next : Draft) : Prop where
  labels : (draft.table.keys ++ plan.labels).Nodup
  fits : slot.Fits
  title : field.title = plan.title
  start : field.offset.toNat = slot.start
  entries : next.table.entries = draft.table.entries ++ plan.labels.map (Entry.mk field)
  cursor : next.cursor.toNat = slot.stop
  size : next.size.toNat = max draft.size.toNat slot.stop
  alignment : next.alignment.toNat = max draft.alignment.toNat slot.alignment

theorem Places.keys {draft next : Draft} {plan : FieldPlan Ref} {slot : Slot} {field : Field}
    (places : draft.Places plan slot field next) :
    next.table.keys = draft.table.keys ++ plan.labels := by
  simp [Table.keys, places.entries, Function.comp_def]

section Place

variable {draft : Draft} {plan : FieldPlan Ref} {target : Ref} {size alignment : Size} (slot : Slot)
  (own : slot.own = plan.offset.map (·.toNat)) (behind : slot.behind = draft.cursor.toNat)
  (sized : size.toNat = slot.size) (aligned : alignment.toNat = slot.alignment)

include own behind aligned in
theorem offset_eq_some {offset : Size} :
    (plan.offset <|> Size.roundUp? draft.cursor alignment) = some offset ↔
      (slot.own = none → slot.behind + (slot.alignment - 1) < UInt64.size) ∧
        offset.toNat = slot.start := by
  rw [Slot.start, own, behind, ← aligned]
  cases plan.offset with
  | none =>
      rw [Option.map_none, Option.getD_none]
      simpa using Size.roundUp?_eq_some
  | some given =>
      simp [UInt64.toNat_inj, eq_comm]

theorem nodup_labels_iff : (draft.table.keys ++ plan.labels).Nodup ↔
    plan.name ∉ draft.table.keys ∧
      ∀ title, plan.title = some title → title ≠ plan.name ∧ title ∉ draft.table.keys := by
  have distinct : draft.table.keys.Nodup := draft.table.distinct
  unfold FieldPlan.labels
  cases plan.title with
  | none => simp [List.nodup_append, distinct, List.forall_mem_ne']
  | some title =>
      simp [List.nodup_append, distinct, or_imp, forall_and, List.forall_mem_ne', and_left_comm,
        eq_comm (a := title)]

theorem entries_of_labels (labels : (draft.table.keys ++ plan.labels).Nodup) (field : Field) :
    (match plan.title with
      | none => draft.table.put plan.name field
      | some title => (draft.table.put plan.name field).put title field).entries =
        draft.table.entries ++ plan.labels.map (Entry.mk field) := by
  have all : (match plan.title with
      | none => draft.table.put plan.name field
      | some title => (draft.table.put plan.name field).put title field) =
        (plan.labels.map (Entry.mk field)).foldl
          (fun table entry => table.put entry.key entry.toField) draft.table := by
    unfold FieldPlan.labels
    cases plan.title <;> rfl
  rw [all, Table.entries_foldl_put Entry.key, List.map_map]
  · rfl
  · rw [List.map_map]
    simpa [Function.comp_def] using labels

include own behind sized aligned

theorem place_places {next : Draft} (placed : draft.place plan target size alignment = .ok next) :
    ∃ field : Field, field.target = target ∧ draft.Places plan slot field next := by
  obtain ⟨new, free, offset, cursor, found, fits, rfl⟩ := place_eq_ok placed
  obtain ⟨rounding, start⟩ := (offset_eq_some slot own behind aligned).1 found
  have stop : cursor.toNat = slot.stop := by
    rw [Size.add?_eq_some.1 fits, start, sized, Slot.stop]
  have labels := nodup_labels_iff.2 ⟨new, free⟩
  refine ⟨⟨target, offset, plan.title⟩, rfl, labels, ⟨rounding, ?_⟩, rfl, start,
    entries_of_labels labels _, stop, ?_, ?_⟩
  · rw [← stop]
    exact UInt64.toNat_lt cursor
  · rw [Size.toNat_max, stop]
  · rw [Size.toNat_max, aligned]

theorem place_succeeds (labels : (draft.table.keys ++ plan.labels).Nodup) (fits : slot.Fits) :
    ∃ next, draft.place plan target size alignment = .ok next := by
  obtain ⟨new, free⟩ := nodup_labels_iff.1 labels
  have word : slot.start < UInt64.size := Nat.lt_of_le_of_lt (Nat.le_add_right ..) fits.stop
  obtain ⟨offset, start⟩ := Option.isSome_iff_exists.1 (Size.ofNat?_isSome.2 word)
  have start := Size.ofNat?_eq_some.1 start
  have found := (offset_eq_some slot own behind aligned).2 ⟨fits.rounding, start⟩
  obtain ⟨cursor, stop⟩ : ∃ cursor, Size.add? offset size = some cursor := by
    refine Option.isSome_iff_exists.1 (Size.ofNat?_isSome.2 ?_)
    rw [start, sized]
    exact fits.stop
  unfold place
  cases titled : plan.title with
  | none => exact ⟨_, by simp [Table.contains, new, found, stop]; rfl⟩
  | some title =>
      have free := free title titled
      exact ⟨_, by simp [Table.contains, new, found, stop, free]; rfl⟩

end Place

/-! ## Laying out fields -/

/-- The fields are put into their slots one after the other. What they are realized by lies in the
heap at the end. -/
inductive Laid (store : Store) (aligned : Bool) (heap : Heap) :
    Draft → List (FieldPlan Ref) → Draft → Prop
  | done {draft : Draft} : Laid store aligned heap draft [] draft
  | field {draft next last : Draft} {plan : FieldPlan Ref} {plans : List (FieldPlan Ref)}
      {field : Field} (known : plan.type.Known store)
      (realizes : plan.Realizes store heap field.target)
      (places : draft.Places plan (plan.slot store aligned draft.cursor.toNat) field next)
      (rest : Laid store aligned heap next plans last) :
      Laid store aligned heap draft (plan :: plans) last

namespace Laid

variable {store : Store} {aligned : Bool} {heap later : Heap} {draft last : Draft}
  {plans : List (FieldPlan Ref)} (laid : Laid store aligned heap draft plans last)
include laid

theorem flag (flagged : heap.Flagged later) : Laid store aligned later draft plans last := by
  induction laid with
  | done => exact .done
  | field known realizes places _ ih => exact .field known (realizes.flag flagged) places ih

theorem known : ∀ plan ∈ plans, plan.type.Known store := by
  induction laid with
  | done => exact List.forall_mem_nil _
  | field known _ _ _ ih => exact List.forall_mem_cons.2 ⟨known, ih⟩

theorem labels : (draft.table.keys ++ plans.flatMap (·.labels)).Nodup := by
  induction laid with
  | @done draft =>
      rw [List.flatMap_nil, List.append_nil]
      exact draft.table.distinct
  | field _ _ places _ ih =>
      rw [places.keys, List.append_assoc] at ih
      exact ih

theorem fits : ∀ slot ∈ slotsFrom store aligned draft.cursor.toNat plans, slot.Fits := by
  induction laid with
  | done => exact List.forall_mem_nil _
  | field _ _ places _ ih =>
      rw [places.cursor] at ih
      exact List.forall_mem_cons.2 ⟨places.fits, ih⟩

theorem size : last.size.toNat =
    ((slotsFrom store aligned draft.cursor.toNat plans).map (·.stop)).foldl max
      draft.size.toNat := by
  induction laid with
  | done => rfl
  | field _ _ places _ ih =>
      rw [places.cursor, places.size] at ih
      exact ih

theorem alignment : last.alignment.toNat =
    ((slotsFrom store aligned draft.cursor.toNat plans).map (·.alignment)).foldl max
      draft.alignment.toNat := by
  induction laid with
  | done => rfl
  | field _ _ places _ ih =>
      rw [places.cursor, places.alignment] at ih
      exact ih

theorem kept : draft.table.entries ⊆ last.table.entries := by
  induction laid with
  | done => exact List.Subset.refl _
  | field _ _ places _ ih =>
      rw [places.entries] at ih
      exact fun _ member => ih (List.mem_append_left _ member)

theorem entry : ∀ e ∈ last.table.entries, e ∈ draft.table.entries ∨
    ∃ plan ∈ plans, plan.Realizes store heap e.target := by
  induction laid with
  | done => exact fun e => .inl
  | @field _ _ _ plan plans field _ realizes places _ ih =>
      intro e member
      rcases ih e member with before | ⟨other, listed, realizes'⟩
      · rw [places.entries] at before
        rcases List.mem_append.1 before with old | new
        · exact .inl old
        · obtain ⟨label, -, rfl⟩ := List.mem_map.1 new
          exact .inr ⟨plan, List.mem_cons_self .., realizes⟩
      · exact .inr ⟨other, List.mem_cons_of_mem _ listed, realizes'⟩

end Laid

end Draft

structure FieldPlan.Stands (plan : FieldPlan Ref) (store : Store) (aligned : Bool) (heap : Heap)
    (table : Table) (slot : Slot) (field : Field) : Prop where
  same : slot = plan.slot store aligned slot.behind
  entries : ∀ label ∈ plan.labels, Entry.mk field label ∈ table.entries
  title : field.title = plan.title
  plain : plan.title ≠ some plan.name
  start : field.offset.toNat = slot.start
  realizes : plan.Realizes store heap field.target

theorem Draft.Laid.stands {store : Store} {aligned : Bool} {heap : Heap} {draft last : Draft}
    {plans : List (FieldPlan Ref)} (laid : Laid store aligned heap draft plans last) :
    List.Forall₂ (fun plan slot => ∃ field, plan.Stands store aligned heap last.table slot field)
      plans (slotsFrom store aligned draft.cursor.toNat plans) := by
  induction laid with
  | done => exact .nil
  | field _ realizes places rest ih =>
      rw [places.cursor] at ih
      refine .cons ⟨_, rfl, fun label member => rest.kept ?_, places.title, fun same => ?_,
        places.start, realizes⟩ ih
      · rw [places.entries]
        exact List.mem_append_right _ (List.mem_map_of_mem member)
      · exact ((nodup_labels_iff.1 places.labels).2 _ same).1 rfl

/-! ## Runs -/

section Runs

variable {store : Store} (sound : store.Sound) {t : Store} (after : store.Leads t)
include sound after

theorem Draft.extend_places {plan : FieldPlan Ref} (fits : plan.Fits store.heap) (aligned : Bool)
    (draft : Draft) :
    Ensures Store.Leads (draft.extend aligned plan) t fun next u =>
      plan.type.Known store ∧ ∃ field : Field, plan.Realizes store u.heap field.target ∧
        draft.Places plan (plan.slot store aligned draft.cursor.toNat) field next := by
  refine (realize_realizes sound after fits).bind ?_
  rintro target u next ⟨known, realizes⟩
  refine .get_bind ((Ensures.lift next.sound.leads _).imp ?_)
  rintro result _ - ⟨placed, rfl⟩
  obtain ⟨field, rfl, places⟩ := Draft.place_places (plan.slot store aligned draft.cursor.toNat)
    rfl rfl realizes.size (realizes.toNat_alignment aligned) placed
  exact ⟨known, field, realizes, places⟩

theorem Draft.extend_succeeds (ready : t.Ready) {plan : FieldPlan Ref}
    (fits : plan.Fits store.heap) (aligned : Bool) {draft : Draft}
    (known : plan.type.Known store) (labels : (draft.table.keys ++ plan.labels).Nodup)
    (slot : (plan.slot store aligned draft.cursor.toNat).Fits) :
    Succeeds (draft.extend aligned plan) t fun _ u => u.Ready := by
  have small : plan.size store < UInt64.size :=
    Nat.lt_of_le_of_lt (Nat.le_add_left ..) slot.stop
  refine ((realize_succeeds ready sound after fits known small).ensuring
    (realize_realizes sound after fits)).bind ?_
  rintro target u ⟨-, ready, -, realizes⟩
  obtain ⟨next, placed⟩ := Draft.place_succeeds (plan.slot store aligned draft.cursor.toNat)
    rfl rfl realizes.size (realizes.toNat_alignment aligned) labels slot
  refine .get_bind ⟨next, u, ?_, ready⟩
  dsimp only
  rw [placed]
  rfl

theorem Draft.fields_laid (aligned : Bool) {plans : List (FieldPlan Ref)}
    (fits : ∀ plan ∈ plans, plan.Fits store.heap) (draft : Draft) :
    Ensures Store.Leads (plans.foldlM (Draft.extend aligned) draft) t fun last u =>
      Draft.Laid store aligned u.heap draft plans last := by
  induction plans generalizing t draft with
  | nil => exact .pure after.sound.leads .done
  | cons plan plans ih =>
      obtain ⟨here, later⟩ := List.forall_mem_cons.1 fits
      rw [List.foldlM_cons]
      refine (extend_places sound after here aligned draft).bind ?_
      rintro next u after' ⟨known, field, realizes, places⟩
      refine (ih (Onward.trans after after') later next).imp fun last v after'' laid => ?_
      exact .field known (realizes.extend after''.grows.heap after'.sound.closed) places laid

theorem Draft.fields_succeed (ready : t.Ready) (aligned : Bool)
    {plans : List (FieldPlan Ref)} (fits : ∀ plan ∈ plans, plan.Fits store.heap) {draft : Draft}
    (known : ∀ plan ∈ plans, plan.type.Known store)
    (labels : (draft.table.keys ++ plans.flatMap (·.labels)).Nodup)
    (slots : ∀ slot ∈ slotsFrom store aligned draft.cursor.toNat plans, slot.Fits) :
    Succeeds (plans.foldlM (Draft.extend aligned) draft) t fun _ u => u.Ready := by
  induction plans generalizing t draft with
  | nil => exact .pure ready
  | cons plan plans ih =>
      obtain ⟨here, later⟩ := List.forall_mem_cons.1 fits
      obtain ⟨known, known'⟩ := List.forall_mem_cons.1 known
      obtain ⟨slot, slots⟩ := List.forall_mem_cons.1 slots
      rw [List.flatMap_cons, ← List.append_assoc] at labels
      have labels' := (List.nodup_append.1 labels).1
      rw [List.foldlM_cons]
      refine ((extend_succeeds sound after ready here aligned known labels' slot).ensuring
        (extend_places sound after here aligned draft)).bind ?_
      rintro next u ⟨after', ready, -, field, -, places⟩
      refine ih (Onward.trans after after') ready later known' ?_ ?_
      · rw [places.keys]
        exact labels
      · rw [places.cursor]
        exact slots

end Runs

end ElementTypes
