import ElementTypes.Proofs.Heap.Reach
import ElementTypes.Proofs.Record.InPlace
import ElementTypes.Session.Edit

/-! # What edits write -/

namespace ElementTypes

theorem Table.target_ofPlans {plans : List (EntryPlan Ref)} {entry : Entry}
    (member : entry ∈ (ofPlans plans).entries) :
    ∃ plan ∈ plans, plan.descriptor = entry.target := by
  have all : ∀ (plans : List (EntryPlan Ref)) (table : Table),
      entry ∈ (plans.foldl (fun table plan => table.put plan.key plan.field) table).entries →
        (∃ plan ∈ plans, plan.descriptor = entry.target) ∨ entry ∈ table.entries := by
    intro plans
    induction plans with
    | nil => exact fun _ member => .inr member
    | cons plan plans ih =>
        intro table member
        rcases ih _ member with ⟨other, listed, same⟩ | here
        · exact .inl ⟨other, List.mem_cons_of_mem _ listed, same⟩
        · rcases mem_put here with written | old
          · exact .inl ⟨plan, List.mem_cons_self .., by rw [written]; rfl⟩
          · exact .inr old
  exact (all plans .empty member).resolve_right fun none => nomatch none

theorem Table.mem_rekey {table moved : Table} {old new : String} {found : Bool} {entry : Entry}
    (h : table.afterRekeyOne old new = .ok (found, moved)) (member : entry ∈ moved.entries) :
    ∃ before ∈ table.entries, before.target = entry.target := by
  unfold afterRekeyOne at h
  split at h
  · cases accepted : table.afterRekey [⟨old, new⟩] with
    | error e => rw [accepted] at h; cases h
    | ok renamed =>
        rw [accepted] at h
        obtain ⟨-, rfl⟩ := Prod.mk.inj (Except.ok.inj h)
        rw [entries_of_afterRekey accepted] at member
        obtain ⟨before, present, rfl⟩ := List.mem_map.1 member
        exact ⟨before, present, rfl⟩
  · obtain ⟨-, rfl⟩ := Prod.mk.inj (Except.ok.inj h)
    exact ⟨entry, member, rfl⟩

theorem Table.find?_rekey {table moved : Table} {old new key : String} {found : Bool}
    (h : table.afterRekeyOne old new = .ok (found, moved))
    (apart : table.contains old = true → old ≠ key ∧ new ≠ key) :
    moved.find? key = table.find? key := by
  unfold afterRekeyOne at h
  split at h
  · rename_i present
    cases accepted : table.afterRekey [⟨old, new⟩] with
    | error e => rw [accepted] at h; cases h
    | ok renamed =>
        rw [accepted] at h
        obtain ⟨-, rfl⟩ := Prod.mk.inj (Except.ok.inj h)
        refine find?_of_afterRekey accepted fun r member => ?_
        rw [List.mem_singleton.1 member]
        exact apart present
  · obtain ⟨-, rfl⟩ := Prod.mk.inj (Except.ok.inj h)
    rfl

namespace Edit

section Writing

variable {α β : Type}

/-- Whether the edit writes or removes the entry that a descriptor has under a key. -/
def Rewrites (d : Descriptor) (key : String) : Edit α β → Prop
  | fields _ _ => True
  | clear => True
  | put entry => entry.key = key
  | retarget written _ => written = key
  | erase written => written = key
  | rekey old new => ∃ layout, d.layout = some layout ∧ layout.table.contains old = true ∧
      (old = key ∨ new = key)
  | rename list => ∃ layout, d.layout = some layout ∧
      ∃ r ∈ Layout.renames layout.names list, r.old = key ∨ r.new = key
  | _ => False

def Rebases : Edit α β → Prop
  | subarray _ => True
  | _ => False

structure Alike {α' β' : Type} (a : Edit α β) (b : Edit α' β') : Prop where
  rewrites : ∀ d key, a.Rewrites d key ↔ b.Rewrites d key
  rebases : a.Rebases ↔ b.Rebases

end Writing

def tableOutcome (d : Descriptor) (change : Table → Except Error (EditValue × Table)) :
    Except Error (EditValue × Descriptor) :=
  match d.layout with
  | none => .ok (.noFields, d)
  | some layout => (change layout.table).map fun (value, table) =>
      (value, { d with layout := some { layout with table } })

def outcome (d : Descriptor) : Edit Ref Interval → Except Error (EditValue × Descriptor)
  | nothing => .ok (.nothing, d)
  | size n => .ok (.nothing, { d with size := n })
  | alignment n => .ok (.nothing, { d with alignment := n })
  | order o => .ok (.nothing, { d with order := o })
  | flags bits => .ok (.nothing, { d with flags := bits })
  | subarray new =>
    .ok (shapeOf d.subarray, { d with subarray := new.map fun (base, shape) => ⟨base, shape⟩ })
  | interval i =>
    if d.code.isTemporal then .ok (.nothing, { d with interval := some i })
    else .error (.notTemporal d.code)
  | fields list entries =>
    .ok (namesOf d.layout, { d with layout := some ⟨list, .ofPlans entries⟩ })
  | put entry => tableOutcome d fun table =>
    .ok (valueOf (table.find? entry.key), table.put entry.key entry.field)
  | retarget key target => tableOutcome d fun table =>
    .ok (.flag (table.contains key), table.retarget key target)
  | erase key => tableOutcome d fun table => .ok (valueOf (table.find? key), table.erase key)
  | rekey old new => tableOutcome d fun table =>
    (table.afterRekeyOne old new).map fun (found, table) => (.flag found, table)
  | rename list =>
    match d.layout with
    | some layout => (layout.afterRename list).map fun layout =>
        (.nothing, { d with layout := some layout })
    | none => if list.isEmpty then .ok (.nothing, d) else .error (.wrongNameCount 0 list.length)
  | names list => .ok (.nothing, { d with layout := some ⟨list, tableOf d.layout⟩ })
  | clear => .ok (.nothing, { d with layout := none })

open Change (Ends)

theorem onTable_ends (d : Descriptor) (memory : Memory) {change : Change Table EditValue}
    {outcome : Table → Except Error (EditValue × Table)}
    (ends : ∀ table, Ends (outcome table) table memory (change.run (table, memory))) :
    Ends (tableOutcome d outcome) d memory ((onTable change).run (d, memory)) := by
  unfold onTable tableOutcome
  rw [Change.run_read_bind]
  cases record : d.layout with
  | none => exact .done rfl id
  | some layout =>
      refine (ends layout.table).onPart d
        (fun table d => { d with layout := some { layout with table } }) ?_
      rw [← record]

theorem apply_ends (edit : Edit Ref Interval) (d : Descriptor) (memory : Memory) :
    Ends (edit.outcome d) d memory (edit.apply.run (d, memory)) := by
  cases edit with
  | nothing | size | alignment | order | flags | subarray | fields | names | clear =>
      exact .done rfl id
  | interval i =>
      simp only [apply, outcome]
      rw [Change.run_read_bind]
      split
      · exact .done rfl id
      · exact .refused rfl id
  | put | retarget | erase =>
      unfold apply outcome
      exact onTable_ends d memory fun table => .done rfl id
  | rekey old new =>
      unfold apply outcome
      refine onTable_ends d memory fun table => ?_
      exact (table.rekey_ends old new memory).bind _ fun _ _ _ => rfl
  | rename list =>
      simp only [apply, outcome]
      rw [Change.run_read_bind]
      cases record : d.layout with
      | none =>
          dsimp only
          split
          · exact .done rfl id
          · exact .refused rfl id
      | some layout =>
          have renamed := (layout.rename_ends list memory).onPart d
            (fun layout d => { d with layout := some layout }) (by rw [← record])
          have ends := renamed.bind (f := fun _ => pure EditValue.nothing)
            (fun out => (.nothing, out.2)) fun _ _ _ => rfl
          rw [except_map_map, except_map_map] at ends
          exact ends

variable {d d' : Descriptor} {value : EditValue}

theorem tableOutcome_eq_ok {change : Table → Except Error (EditValue × Table)}
    (h : tableOutcome d change = .ok (value, d')) : (d.layout = none ∧ d' = d) ∨
      ∃ layout table, d.layout = some layout ∧ change layout.table = .ok (value, table) ∧
        d' = { d with layout := some { layout with table } } := by
  unfold tableOutcome at h
  cases record : d.layout with
  | none =>
      rw [record] at h
      obtain ⟨-, rfl⟩ := Prod.mk.inj (Except.ok.inj h)
      exact .inl ⟨rfl, rfl⟩
  | some layout =>
      rw [record] at h
      cases changed : change layout.table with
      | error e => simp only [changed] at h; cases h
      | ok pair =>
          simp only [changed] at h
          obtain ⟨rfl, rfl⟩ := Prod.mk.inj (Except.ok.inj h)
          exact .inr ⟨layout, pair.2, rfl, changed, rfl⟩

theorem interval_eq_ok {i : Interval}
    (h : (interval i : Edit Ref Interval).outcome d = .ok (value, d')) :
    d' = { d with interval := some i } := by
  simp only [outcome] at h
  split at h
  · exact (Prod.mk.inj (Except.ok.inj h)).2.symm
  · cases h

theorem rename_eq_ok {list : Names}
    (h : (rename list : Edit Ref Interval).outcome d = .ok (value, d')) :
    (d.layout = none ∧ d' = d) ∨ ∃ layout table, d.layout = some layout ∧
      layout.table.afterRekey (Layout.renames layout.names list) = .ok table ∧
        d' = { d with layout := some ⟨list, table⟩ } := by
  simp only [outcome] at h
  cases record : d.layout with
  | none =>
      simp only [record] at h
      split at h
      · exact .inl ⟨rfl, (Prod.mk.inj (Except.ok.inj h)).2.symm⟩
      · cases h
  | some layout =>
      simp only [record] at h
      cases accepted : layout.afterRename list with
      | error e => simp only [accepted] at h; cases h
      | ok renamed =>
          simp only [accepted] at h
          obtain ⟨same, moved⟩ := Layout.rename_eq_ok accepted
          refine .inr ⟨layout, renamed.table, rfl, moved, ?_⟩
          rw [← same]
          exact (Prod.mk.inj (Except.ok.inj h)).2.symm

theorem links_layout {layout : Layout} {ref : Ref}
    (link : ref ∈ ({ d with layout := some layout } : Descriptor).links) :
    (∃ entry ∈ layout.table.entries, entry.target = ref) ∨ ref ∈ d.links := by
  rcases Descriptor.mem_links_iff.1 link with ⟨_, same, entry, member, target⟩ | base
  · obtain rfl := Option.some.inj same
    exact .inl ⟨entry, member, target⟩
  · exact .inr (Descriptor.mem_links_iff.2 (.inr base))

theorem links_tableOutcome {change : Table → Except Error (EditValue × Table)} {targets : List Ref}
    (h : tableOutcome d change = .ok (value, d'))
    (written : ∀ table moved, change table = .ok (value, moved) → ∀ entry ∈ moved.entries,
      entry.target ∈ targets ∨ ∃ before ∈ table.entries, before.target = entry.target) :
    ∀ ref ∈ d'.links, ref ∈ d.links ∨ ref ∈ targets := by
  intro ref link
  rcases tableOutcome_eq_ok h with ⟨-, rfl⟩ | ⟨layout, table, record, changed, rfl⟩
  · exact .inl link
  · rcases links_layout link with ⟨entry, member, rfl⟩ | old
    · rcases written _ _ changed entry member with new | ⟨before, present, same⟩
      · exact .inr new
      · exact .inl (Descriptor.mem_links_iff.2 (.inl ⟨layout, record, before, present, same⟩))
    · exact .inl old

theorem links_outcome {edit : Edit Ref Interval} (h : edit.outcome d = .ok (value, d')) :
    ∀ ref ∈ d'.links, ref ∈ d.links ∨ ref ∈ edit.targets := by
  cases edit with
  | nothing | size | alignment | order | flags =>
      obtain ⟨-, rfl⟩ := Prod.mk.inj (Except.ok.inj h)
      exact fun _ => .inl
  | interval =>
      obtain rfl := interval_eq_ok h
      exact fun _ => .inl
  | subarray new =>
      obtain ⟨-, rfl⟩ := Prod.mk.inj (Except.ok.inj h)
      intro ref link
      rcases Descriptor.mem_links_iff.1 link with fields | ⟨sub, same, rfl⟩
      · exact .inl (Descriptor.mem_links_iff.2 (.inl fields))
      · obtain ⟨⟨base, shape⟩, rfl, rfl⟩ := Option.map_eq_some_iff.1 same
        exact .inr (List.mem_singleton.2 rfl)
  | fields list plans =>
      obtain ⟨-, rfl⟩ := Prod.mk.inj (Except.ok.inj h)
      intro ref link
      rcases links_layout link with ⟨entry, member, rfl⟩ | old
      · obtain ⟨plan, listed, same⟩ := Table.target_ofPlans member
        exact .inr (List.mem_map.2 ⟨plan, listed, same⟩)
      · exact .inl old
  | put plan =>
      unfold outcome at h
      refine links_tableOutcome h fun table moved changed entry member => ?_
      obtain ⟨-, rfl⟩ := Prod.mk.inj (Except.ok.inj changed)
      rcases Table.mem_put member with written | old
      · exact .inl (List.mem_singleton.2 (by rw [written]; rfl))
      · exact .inr ⟨entry, old, rfl⟩
  | retarget key target =>
      unfold outcome at h
      refine links_tableOutcome h fun table moved changed entry member => ?_
      obtain ⟨-, rfl⟩ := Prod.mk.inj (Except.ok.inj changed)
      rcases Table.mem_retarget member with written | old
      · exact .inl (List.mem_singleton.2 written)
      · exact .inr ⟨entry, old, rfl⟩
  | erase key =>
      unfold outcome at h
      refine links_tableOutcome h fun table moved changed entry member => ?_
      obtain ⟨-, rfl⟩ := Prod.mk.inj (Except.ok.inj changed)
      exact .inr ⟨entry, Table.mem_erase member, rfl⟩
  | rekey old new =>
      unfold outcome at h
      refine links_tableOutcome h fun table moved changed entry member => ?_
      cases accepted : table.afterRekeyOne old new with
      | error e => simp only [accepted] at changed; cases changed
      | ok pair =>
          simp only [accepted] at changed
          obtain ⟨-, rfl⟩ := Prod.mk.inj (Except.ok.inj changed)
          exact .inr (Table.mem_rekey accepted member)
  | rename list =>
      rcases rename_eq_ok h with ⟨-, rfl⟩ | ⟨layout, table, record, moved, rfl⟩
      · exact fun _ => .inl
      · intro ref link
        rcases links_layout link with ⟨entry, member, rfl⟩ | old
        · rw [Table.entries_of_afterRekey moved] at member
          obtain ⟨before, present, rfl⟩ := List.mem_map.1 member
          exact .inl (Descriptor.mem_links_iff.2 (.inl ⟨layout, record, before, present, rfl⟩))
        · exact .inl old
  | names list =>
      obtain ⟨-, rfl⟩ := Prod.mk.inj (Except.ok.inj h)
      intro ref link
      rcases links_layout link with ⟨entry, member, rfl⟩ | old
      · cases record : d.layout with
        | none => simp only [record, tableOf] at member; cases member
        | some layout =>
            simp only [record, tableOf] at member
            exact .inl (Descriptor.mem_links_iff.2 (.inl ⟨layout, record, entry, member, rfl⟩))
      · exact .inl old
  | clear =>
      obtain ⟨-, rfl⟩ := Prod.mk.inj (Except.ok.inj h)
      intro ref link
      rcases Descriptor.mem_links_iff.1 link with ⟨_, absent, _⟩ | base
      · cases absent
      · exact .inl (Descriptor.mem_links_iff.2 (.inr base))

theorem find?_tableOutcome {change : Table → Except Error (EditValue × Table)} {key : String}
    (h : tableOutcome d change = .ok (value, d'))
    (kept : ∀ layout moved, d.layout = some layout → change layout.table = .ok (value, moved) →
      moved.find? key = layout.table.find? key) : d'.find? key = d.find? key := by
  rcases tableOutcome_eq_ok h with ⟨-, rfl⟩ | ⟨layout, table, record, changed, rfl⟩
  · rfl
  · simp only [Descriptor.find?, record, Option.bind_some]
    exact kept layout table record changed

theorem find?_outcome {edit : Edit Ref Interval} (h : edit.outcome d = .ok (value, d')) {key : String}
    (spared : ¬ edit.Rewrites d key) : d'.find? key = d.find? key := by
  cases edit with
  | nothing | size | alignment | order | flags | subarray =>
      obtain ⟨-, rfl⟩ := Prod.mk.inj (Except.ok.inj h)
      rfl
  | interval =>
      obtain rfl := interval_eq_ok h
      rfl
  | fields | clear => exact absurd trivial spared
  | put plan =>
      unfold outcome at h
      refine find?_tableOutcome h fun layout moved _ changed => ?_
      obtain ⟨-, rfl⟩ := Prod.mk.inj (Except.ok.inj changed)
      exact Table.find?_put_of_ne _ _ (Ne.symm spared)
  | retarget written target =>
      unfold outcome at h
      refine find?_tableOutcome h fun layout moved _ changed => ?_
      obtain ⟨-, rfl⟩ := Prod.mk.inj (Except.ok.inj changed)
      exact Table.find?_retarget_of_ne _ _ (Ne.symm spared)
  | erase written =>
      unfold outcome at h
      refine find?_tableOutcome h fun layout moved _ changed => ?_
      obtain ⟨-, rfl⟩ := Prod.mk.inj (Except.ok.inj changed)
      exact Table.find?_erase_of_ne _ (Ne.symm spared)
  | rekey old new =>
      unfold outcome at h
      refine find?_tableOutcome h fun layout moved record changed => ?_
      cases accepted : layout.table.afterRekeyOne old new with
      | error e => simp only [accepted] at changed; cases changed
      | ok pair =>
          simp only [accepted] at changed
          obtain ⟨-, rfl⟩ := Prod.mk.inj (Except.ok.inj changed)
          refine Table.find?_rekey accepted fun present => ?_
          exact ⟨fun same => spared ⟨layout, record, present, .inl same⟩,
            fun same => spared ⟨layout, record, present, .inr same⟩⟩
  | rename list =>
      rcases rename_eq_ok h with ⟨-, rfl⟩ | ⟨layout, table, record, moved, rfl⟩
      · rfl
      · simp only [Descriptor.find?, record, Option.bind_some]
        refine Table.find?_of_afterRekey moved fun r member => ?_
        exact ⟨fun same => spared ⟨layout, record, r, member, .inl same⟩,
          fun same => spared ⟨layout, record, r, member, .inr same⟩⟩
  | names list =>
      obtain ⟨-, rfl⟩ := Prod.mk.inj (Except.ok.inj h)
      cases record : d.layout with
      | none => simp [Descriptor.find?, record, tableOf, Table.find?, Table.empty]
      | some layout => simp [Descriptor.find?, record, tableOf]

theorem code_tableOutcome {change : Table → Except Error (EditValue × Table)}
    (h : tableOutcome d change = .ok (value, d')) : d'.code = d.code := by
  rcases tableOutcome_eq_ok h with ⟨-, rfl⟩ | ⟨layout, table, -, -, rfl⟩ <;> rfl

theorem code_outcome {edit : Edit Ref Interval} (h : edit.outcome d = .ok (value, d')) :
    d'.code = d.code := by
  cases edit with
  | nothing | size | alignment | order | flags | subarray | fields | names | clear =>
      obtain ⟨-, rfl⟩ := Prod.mk.inj (Except.ok.inj h)
      rfl
  | interval =>
      obtain rfl := interval_eq_ok h
      rfl
  | put | retarget | erase | rekey =>
      unfold outcome at h
      exact code_tableOutcome h
  | rename list =>
      rcases rename_eq_ok h with ⟨-, rfl⟩ | ⟨layout, table, -, -, rfl⟩ <;> rfl

theorem subarray_tableOutcome {change : Table → Except Error (EditValue × Table)}
    (h : tableOutcome d change = .ok (value, d')) : d'.subarray = d.subarray := by
  rcases tableOutcome_eq_ok h with ⟨-, rfl⟩ | ⟨layout, table, -, -, rfl⟩ <;> rfl

theorem subarray_outcome {edit : Edit Ref Interval} (h : edit.outcome d = .ok (value, d'))
    (spared : ¬ edit.Rebases) : d'.subarray = d.subarray := by
  cases edit with
  | nothing | size | alignment | order | flags | fields | names | clear =>
      obtain ⟨-, rfl⟩ := Prod.mk.inj (Except.ok.inj h)
      rfl
  | subarray => exact absurd trivial spared
  | interval =>
      obtain rfl := interval_eq_ok h
      rfl
  | put | retarget | erase | rekey =>
      unfold outcome at h
      exact subarray_tableOutcome h
  | rename list =>
      rcases rename_eq_ok h with ⟨-, rfl⟩ | ⟨layout, table, -, -, rfl⟩ <;> rfl

end Edit

end ElementTypes
