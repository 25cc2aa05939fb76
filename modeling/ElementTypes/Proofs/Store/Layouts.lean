import ElementTypes.Proofs.Heap.Aliases
import ElementTypes.Proofs.Record.WellFormed
import ElementTypes.Proofs.Session.Edit
import ElementTypes.Proofs.Store.Growth
import ElementTypes.Proofs.Store.Private

/-! # Where well-formed layouts come from -/

namespace ElementTypes

def Descriptor.WellLaid (d : Descriptor) : Prop :=
  ∃ layout, d.layout = some layout ∧ layout.WellFormed

namespace Draft

variable {names : Names} {draft next : Draft}

theorem place_wellFormed {plan : FieldPlan Ref} {target : Ref} {size alignment : Size}
    (formed : Layout.WellFormed ⟨names, draft.table⟩)
    (h : draft.place plan target size alignment = .ok next) :
    Layout.WellFormed ⟨names ++ [plan.name], next.table⟩ := by
  obtain ⟨new, free, offset, cursor, -, -, rfl⟩ := place_eq_ok h
  cases titled : plan.title with
  | none => exact formed.put_plain new rfl
  | some title => exact formed.put_titled new rfl (free title titled).1 (free title titled).2

theorem extend_wellFormed {aligned : Bool} {plan : FieldPlan Ref} {store t : Store}
    (formed : Layout.WellFormed ⟨names, draft.table⟩)
    (h : (draft.extend aligned plan).run store = (.ok next, t)) :
    Layout.WellFormed ⟨names ++ [plan.name], next.table⟩ := by
  unfold extend at h
  obtain ⟨target, u, -, placed⟩ := (run_bind_eq_ok ..).1 h
  exact place_wellFormed formed (congrArg Prod.fst placed)

theorem fields_wellFormed {aligned : Bool} {plans : List (FieldPlan Ref)} {store t : Store}
    (formed : Layout.WellFormed ⟨names, draft.table⟩)
    (h : (plans.foldlM (extend aligned) draft).run store = (.ok next, t)) :
    Layout.WellFormed ⟨names ++ plans.map (·.name), next.table⟩ := by
  induction plans generalizing names draft store with
  | nil =>
      obtain rfl : draft = next := Except.ok.inj (congrArg Prod.fst h)
      rw [List.map_nil, List.append_nil]
      exact formed
  | cons plan plans ih =>
      rw [List.foldlM_cons] at h
      obtain ⟨between, u, first, rest⟩ := (run_bind_eq_ok ..).1 h
      rw [List.map_cons, List.append_cons]
      exact ih (extend_wellFormed formed first) rest

end Draft

theorem build_wellLaid {plan : Blueprint Ref} {store t : Store} {d : Descriptor}
    (h : (build plan).run store = (.ok d, t)) : d.WellLaid := by
  obtain ⟨_, draft, u, plain, v, size, record, -, fields, -, -, rfl, rfl, -⟩ := build_eq_ok.1 h
  refine ⟨⟨plan.fields.map (·.name), draft.table⟩, ?_, Draft.fields_wellFormed .empty fields⟩
  split <;> rfl

namespace Layout.Renewed

variable {old new : Layout} (renewed : old.Renewed new)
include renewed

theorem retargeted : old.Retargeted new := ⟨renewed.names, renewed.entries⟩

theorem entry_after {e : Entry} (member : e ∈ old.table.entries) :
    ∃ f ∈ new.table.entries, f.key = e.key ∧ f.offset = e.offset ∧ f.title = e.title :=
  exists_of_forall₂ renewed.entries member

theorem entry_before {f : Entry} (member : f ∈ new.table.entries) :
    ∃ e ∈ old.table.entries, f.key = e.key ∧ f.offset = e.offset ∧ f.title = e.title :=
  exists_of_forall₂ renewed.entries.flip member

theorem primary_after {e : Entry} (member : e ∈ old.table.primary) :
    ∃ f ∈ new.table.primary, f.key = e.key ∧ f.offset = e.offset ∧ f.title = e.title :=
  exists_of_forall₂ renewed.retargeted.primary member

theorem primary_before {f : Entry} (member : f ∈ new.table.primary) :
    ∃ e ∈ old.table.primary, f.key = e.key ∧ f.offset = e.offset ∧ f.title = e.title :=
  exists_of_forall₂ renewed.retargeted.primary.flip member

theorem wellFormed (formed : old.WellFormed) : new.WellFormed := by
  refine ⟨?_, fun name => ?_, fun f member title same => ?_, fun f member foreign => ?_⟩
  · rw [renewed.names]
    exact formed.distinct
  · rw [renewed.names, formed.named]
    constructor
    · rintro ⟨e, member, rfl⟩
      obtain ⟨f, listed, key, -⟩ := renewed.primary_after member
      exact ⟨f, listed, key⟩
    · rintro ⟨f, member, rfl⟩
      obtain ⟨e, listed, key, -⟩ := renewed.primary_before member
      exact ⟨e, listed, key.symm⟩
  · obtain ⟨e, listed, -, -, title'⟩ := renewed.primary_before member
    obtain ⟨entry, present, foreign, key⟩ := formed.titled e listed title (title'.symm.trans same)
    obtain ⟨f', present', key', -, title''⟩ := renewed.entry_after present
    exact ⟨f', present', (Entry.isAlias_eq key' title'').trans foreign, key'.trans key⟩
  · obtain ⟨e, present, key, offset, title⟩ := renewed.entry_before member
    have foreign' : e.isAlias = true := (Entry.isAlias_eq key title).symm.trans foreign
    obtain ⟨owner, listed, owns, -, beside, unique⟩ := formed.owned e present foreign'
    obtain ⟨owner', listed', key', offset', title'⟩ := renewed.primary_after listed
    -- the one owner is the first one, so the alias has its new target
    have first : old.table.primary.find? (fun field => field.title = some e.key) = some owner := by
      cases found : old.table.primary.find? fun field => field.title = some e.key with
      | none => exact absurd owns (by simpa using List.find?_eq_none.1 found owner listed)
      | some other =>
          rw [unique other (List.mem_of_find?_eq_some found)
            (by simpa using List.find?_some found)]
    have linked := renewed.aliases e present foreign'
    simp only [first] at linked
    rw [← key, ← key', Table.find?_of_mem member,
      Table.find?_of_mem (Table.mem_primary.1 listed').1] at linked
    refine ⟨owner', listed', ?_, (Option.some.inj linked).symm, ?_, fun other among same => ?_⟩
    · rw [title', owns, key]
    · rw [offset', beside, offset]
    · obtain ⟨before, among', key'', -, title''⟩ := renewed.primary_before among
      obtain rfl := unique before among' (by rw [← title'', same, key])
      exact Table.eq_of_key_eq (Table.mem_primary.1 among).1 (Table.mem_primary.1 listed').1
        (key''.trans key'.symm)

end Layout.Renewed

theorem Descriptor.WellLaid.lt {heap : Heap} {ref : Ref} (laid : (heap.get ref).WellLaid) :
    ref < heap.size := by
  by_contra outside
  obtain ⟨layout, record, -⟩ := laid
  rw [Heap.get_of_size_le (Nat.le_of_not_lt outside)] at record
  cases record

/-- Any value that the run gives is good, and it gives one unless a hook turns a copy down. -/
structure Yields {α : Type} (run : Run α) (store : Store) (good : α → Store → Prop) : Prop where
  value : ∀ a t, run.run store = (.ok a, t) → good a t
  succeeds : store.Accepting → Succeeds run store good

theorem Yields.imp {α : Type} {run : Run α} {store : Store} {good better : α → Store → Prop}
    (h : Yields run store better) (value : ∀ a t, better a t → good a t) :
    Yields run store good where
  value a t ran := value a t (h.value a t ran)
  succeeds accepting := by
    obtain ⟨a, t, ran, holds⟩ := h.succeeds accepting
    exact ⟨a, t, ran, value a t holds⟩

theorem Yields.congr {α : Type} {run other : Run α} {store : Store} {good : α → Store → Prop}
    (h : Yields other store good) (same : run.run store = other.run store) :
    Yields run store good where
  value a t ran := h.value a t (same.symm.trans ran)
  succeeds accepting := by
    obtain ⟨a, t, ran, holds⟩ := h.succeeds accepting
    exact ⟨a, t, same.trans ran, holds⟩

theorem Ensures.yields {α : Type} {run : Run α} {store : Store} {good any : α → Store → Prop}
    (h : Ensures Store.Leads run store good) (ample : store.Ample)
    (succeeds : store.Ready → Succeeds run store any) : Yields run store good where
  value _ _ ran := (h.of_ok ran).2
  succeeds accepting := by
    obtain ⟨a, t, ran, -, -, holds⟩ := (succeeds ⟨accepting, ample⟩).ensuring h
    exact ⟨a, t, ran, holds⟩

theorem privateCell_succeeds {store : Store} (ready : store.Ready) (held : List Ref)
    (ref : Ref) : Succeeds (privateCell held ref) store fun _ t => t.Ready := by
  unfold privateCell
  refine Succeeds.get_bind ?_
  by_cases sole : store.heap.owners (held ++ store.owned) ref = 1
  · simp only [if_pos sole]
    exact .pure ready
  · simp only [if_neg sole]
    exact (duplicate_succeeds ready ref).bind fun d _ ready => adopt_succeeds ready d

section Operations

variable {store : Store} (sound : store.Sound) (ample : store.Ample) {ref : Ref}
  (laid : (store.heap.get ref).WellLaid)
include sound ample laid

theorem duplicate_wellLaid : Yields (duplicate ref) store fun d _ => d.WellLaid := by
  refine ((duplicate_leads sound ref).imp ?_).yields ample fun ready =>
    duplicate_succeeds ready ref
  rintro d t - ⟨⟨companion, rfl⟩, -⟩
  exact laid

theorem privateCell_wellLaid (held : List Ref) :
    Yields (privateCell held ref) store fun new t => (t.heap.get new).WellLaid := by
  refine ((Store.privateCell_grants sound held ref).imp ?_).yields ample fun ready =>
    privateCell_succeeds ready held ref
  intro new t _ granted
  cases granted with
  | sole => exact laid
  | copied _ _ _ copy =>
      obtain ⟨companion, same⟩ := copy
      rw [same]
      exact laid

theorem reorder_wellLaid (change : OrderChange) :
    Yields (reorder change ref) store fun d _ => d.WellLaid := by
  refine ((reorder_leads change sound laid.lt).imp ?_).yields ample fun ready =>
    reorder_succeeds change ready ref
  rintro d t - ⟨-, renews⟩
  obtain ⟨layout, record, formed⟩ := laid
  cases renews with
  | node same =>
      obtain ⟨layout', new, renewed⟩ := optionRel_of_eq_some same.layout record
      exact ⟨layout', new, renewed.wellFormed formed⟩

end Operations

section Renaming

variable {d d' : Descriptor} {value : EditValue} {names : Names} (laid : d.WellLaid)
  (renamed : (Edit.rename names : Edit Ref Interval).outcome d = .ok (value, d'))
include laid renamed

theorem Edit.rename_of_wellLaid : ∃ old new, d.layout = some old ∧ old.WellFormed ∧
    old.afterRename names = .ok new ∧ d' = { d with layout := some new } := by
  obtain ⟨layout, record, formed⟩ := laid
  simp only [Edit.outcome, record] at renamed
  cases accepted : layout.afterRename names with
  | error e => simp only [accepted] at renamed; cases renamed
  | ok new =>
      simp only [accepted] at renamed
      exact ⟨layout, new, record, formed, accepted, (Prod.mk.inj (Except.ok.inj renamed)).2.symm⟩

theorem rename_wellLaid : d'.WellLaid := by
  obtain ⟨old, new, -, formed, accepted, rfl⟩ := Edit.rename_of_wellLaid laid renamed
  exact ⟨new, rfl, formed.rename accepted⟩

theorem rename_sameShape : d.SameShape d' := by
  obtain ⟨old, new, record, formed, accepted, rfl⟩ := Edit.rename_of_wellLaid laid renamed
  refine ⟨by simp [record], rfl, rfl, ?_, ?_⟩
  · simp only [Descriptor.primaryLinks, Descriptor.fieldTargets, record,
      formed.primary_rename accepted, List.map_map]
    rfl
  · simp only [Descriptor.links, Descriptor.entries, record, Layout.entries_rename accepted,
      List.map_map]
    rfl

end Renaming

theorem rename_run_wellLaid {d d' : Descriptor} {names : Names} {memory left : Memory}
    {result : Except Error EditValue} (laid : d.WellLaid)
    (ran : (Edit.rename names : Edit Ref Interval).apply.run (d, memory) = (result, d', left)) :
    d'.WellLaid := by
  have ends := Edit.apply_ends (.rename names) d memory
  rw [ran] at ends
  cases ends with
  | done same => exact rename_wellLaid laid same
  | refused | short => exact laid

theorem rename_answers {heap : Heap} (closed : heap.Closed) (acyclic : heap.Acyclic) {cell : Ref}
    {d : Descriptor} {value : EditValue} {names : Names} (laid : (heap.get cell).WellLaid)
    (renamed : (Edit.rename names : Edit Ref Interval).outcome (heap.get cell) = .ok (value, d))
    (ref : Ref) : (heap.set cell d).isNative ref = heap.isNative ref ∧
      ((heap.set cell d).findObjects ((heap.set cell d).get ref)).1 =
        (heap.findObjects (heap.get ref)).1 := by
  have same : ∀ ref, (heap.get ref).SameShape ((heap.set cell d).get ref) := by
    intro other
    by_cases here : other = cell
    · rw [here, Heap.get_set_self d laid.lt]
      exact rename_sameShape laid renamed
    · rw [Heap.get_set_of_ne heap d here]
      exact .refl _
  have size := Heap.size_set heap cell d
  exact ⟨Heap.isNative_of_sameShape same closed acyclic size ref,
    Heap.findObjects_of_sameShape same closed acyclic size ref⟩

end ElementTypes
