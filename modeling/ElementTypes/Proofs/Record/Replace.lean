import ElementTypes.Proofs.Record.InPlace
import ElementTypes.Proofs.Record.WellFormed

/-! # Replacing all names at once -/

namespace ElementTypes

namespace Names

theorem firstRepeated?_go_eq_none {names seen : Names} :
    firstRepeated?.go seen names = none ↔ names.Nodup ∧ ∀ name ∈ names, name ∉ seen := by
  induction names generalizing seen with
  | nil => simp [firstRepeated?.go]
  | cons name rest ih =>
      rw [firstRepeated?.go, List.nodup_cons, List.forall_mem_cons]
      by_cases old : name ∈ seen
      · simp [old]
      · rw [if_neg old, ih]
        constructor
        · rintro ⟨distinct, apart⟩
          exact ⟨⟨fun twice => apart name twice (List.mem_cons_self ..), distinct⟩, old,
            fun other member before => apart other member (List.mem_cons_of_mem _ before)⟩
        · rintro ⟨⟨once, distinct⟩, -, apart⟩
          refine ⟨distinct, fun other member before => ?_⟩
          rcases List.mem_cons.1 before with rfl | before
          · exact once member
          · exact apart other member before

theorem firstRepeated?_eq_none {names : Names} : names.firstRepeated? = none ↔ names.Nodup := by
  rw [firstRepeated?, firstRepeated?_go_eq_none]
  simp

end Names

namespace Layout

structure Listed (layout : Layout) : Prop where
  distinct : layout.names.Nodup
  present : ∀ name ∈ layout.names, name ∈ layout.table.keys

/-- Names that a layout can take over: as many as it has, distinct, and none of them the key of an
entry without a name. -/
structure Admits (layout : Layout) (names : Names) : Prop where
  length : names.length = layout.names.length
  distinct : names.Nodup
  free : ∀ name ∈ names, name ∈ layout.names ∨ name ∉ layout.table.keys

theorem mem_renames {old new : Names} {r : Rename} : r ∈ renames old new ↔
    ∃ i : Nat, old[i]? = some r.old ∧ new[i]? = some r.new ∧ r.old ≠ r.new := by
  simp only [renames, List.mem_map, List.mem_filter]
  constructor
  · rintro ⟨⟨a, b⟩, ⟨member, differs⟩, rfl⟩
    obtain ⟨i, here⟩ := List.mem_iff_getElem?.1 member
    obtain ⟨left, right⟩ := List.getElem?_zip_eq_some.1 here
    exact ⟨i, left, right, by simpa using differs⟩
  · rintro ⟨i, left, right, differs⟩
    refine ⟨(r.old, r.new), ⟨List.mem_iff_getElem?.2 ⟨i, ?_⟩, by simpa using differs⟩, rfl⟩
    exact List.getElem?_zip_eq_some.2 ⟨left, right⟩

theorem nodup_new_renames {old new : Names} (length : new.length = old.length)
    (distinct : new.Nodup) : ((renames old new).map (·.new)).Nodup := by
  have all : (old.zip new).map Prod.snd = new := List.map_snd_zip (Nat.le_of_eq length)
  rw [renames, List.map_map]
  rw [← all] at distinct
  exact distinct.sublist (List.filter_sublist.map _)

variable {layout : Layout} {names : Names}

theorem conflict?_of_admits (admits : layout.Admits names) :
    layout.table.conflict? (renames layout.names names) = none := by
  refine Table.conflict?_eq_none.2
    ⟨nodup_new_renames admits.length admits.distinct, fun r member used => ?_⟩
  obtain ⟨i, old, new, differs⟩ := mem_renames.1 member
  have named : r.new ∈ layout.names :=
    (admits.free r.new (List.mem_of_getElem? new)).resolve_right (not_not_intro used)
  obtain ⟨j, here⟩ := List.mem_iff_getElem?.1 named
  have bound : j < names.length := admits.length ▸ (List.getElem?_eq_some_iff.1 here).1
  refine ⟨⟨r.new, names[j]⟩, mem_renames.2 ⟨j, here, List.getElem?_eq_getElem bound, ?_⟩, rfl⟩
  -- the entry under the new name would only stay if it were the renamed one itself
  rintro (stays : r.new = names[j])
  obtain ⟨within, there⟩ := List.getElem?_eq_some_iff.1 new
  have same : i = j := (List.Nodup.getElem_inj_iff admits.distinct).1 (there.trans stays)
  rw [same, here] at old
  exact differs (Option.some.inj old).symm

theorem admits_of_rename {renamed : Layout} (h : layout.afterRename names = .ok renamed) :
    layout.Admits names where
  length := length_of_rename h
  distinct := by
    unfold afterRename at h
    split at h
    · cases h
    · split at h
      · cases h
      · rename_i none
        exact Names.firstRepeated?_eq_none.1 none
  free := by
    intro name member
    by_cases used : name ∈ layout.table.keys
    · left
      obtain ⟨i, new⟩ := List.mem_iff_getElem?.1 member
      have bound : i < layout.names.length :=
        length_of_rename h ▸ (List.getElem?_eq_some_iff.1 new).1
      have old := List.getElem?_eq_getElem bound
      by_cases same : layout.names[i] = name
      · exact same ▸ List.getElem_mem bound
      · obtain ⟨-, moved⟩ :=
          Table.conflict?_eq_none.1 (Table.conflict?_of_afterRekey (rename_eq_ok h).2)
        obtain ⟨other, listed, (given : other.old = name)⟩ :=
          moved ⟨layout.names[i], name⟩ (mem_renames.2 ⟨i, old, new, same⟩) used
        exact given ▸ old_mem_of_renames listed
    · exact .inr used

theorem rename_succeeds_iff :
    (∃ renamed, layout.afterRename names = .ok renamed) ↔ layout.Admits names := by
  constructor
  · rintro ⟨renamed, h⟩
    exact admits_of_rename h
  · intro admits
    have once := Names.firstRepeated?_eq_none.2 admits.distinct
    rw [afterRename, if_neg (not_not_intro admits.length)]
    simp only [once, Table.afterRekey, conflict?_of_admits admits]
    exact ⟨_, rfl⟩

theorem afterRename_of_run {renamed : Layout} {memory left : Memory}
    (ran : (rename names).run (layout, memory) = (.ok (), renamed, left)) :
    layout.afterRename names = .ok renamed := by
  have given := (layout.rename_ends names memory).eq_ok_of_run ran
  cases taken : layout.afterRename names with
  | error error => rw [taken] at given; cases given
  | ok other =>
      rw [taken] at given
      rw [(Prod.mk.inj (Except.ok.inj given)).2]

theorem rename_run_of_afterRename {renamed : Layout}
    (taken : layout.afterRename names = .ok renamed) :
    (rename names).run (layout, .ample) = (.ok (), renamed, .ample) := by
  rw [(layout.rename_ends names .ample).eq_of_ample, taken]
  rfl

theorem rename_run_of_error {error : Error} (fault : layout.afterRename names = .error error) :
    (rename names).run (layout, .ample) = (.error error, layout, .ample) := by
  rw [(layout.rename_ends names .ample).eq_of_ample, fault]
  rfl

theorem ext_entries {a b : Layout} (named : a.names = b.names)
    (entries : a.table.entries = b.table.entries) : a = b := by
  obtain ⟨_, _, _⟩ := a
  obtain ⟨_, _, _⟩ := b
  obtain rfl := named
  obtain rfl := entries
  rfl

/-- Every entry is in its place. The one under an old name is now under the new name that stands
at its position, the others are as they were, and taking back the old names restores all. -/
structure Replaced (layout : Layout) (names : Names) (renamed : Layout) : Prop where
  named : renamed.names = names
  size : renamed.table.size = layout.table.size
  moved : ∀ (i : Nat) old new, layout.names[i]? = some old → names[i]? = some new →
    ∀ (place : Nat) entry, layout.table.entries[place]? = some entry → entry.key = old →
      renamed.table.entries[place]? = some ⟨entry.toField, new⟩
  kept : ∀ (place : Nat) entry, layout.table.entries[place]? = some entry →
    entry.key ∉ layout.names → renamed.table.entries[place]? = some entry
  back : (rename layout.names).run (renamed, .ample) = (.ok (), layout, .ample)

theorem newKey_of_getElem? (distinct : layout.names.Nodup)
    (length : names.length = layout.names.length) {i : Nat} {old new : String}
    (left : layout.names[i]? = some old) (right : names[i]? = some new) :
    layout.newKey names old = new := by
  have all := map_renamed distinct length
  rw [← all, List.getElem?_map, left] at right
  exact Option.some.inj right

theorem exists_newKey (distinct : layout.names.Nodup) (length : names.length = layout.names.length)
    {key : String} (named : key ∈ layout.names) :
    ∃ i : Nat, layout.names[i]? = some key ∧ names[i]? = some (layout.newKey names key) := by
  obtain ⟨i, left⟩ := List.mem_iff_getElem?.1 named
  have bound : i < names.length := length ▸ (List.getElem?_eq_some_iff.1 left).1
  have right := List.getElem?_eq_getElem bound
  exact ⟨i, left, newKey_of_getElem? distinct length left right ▸ right⟩

theorem newKey_of_notMem (names : Names) {key : String} (absent : key ∉ layout.names) :
    layout.newKey names key = key :=
  Table.renamed_of_forall_ne fun _ member same => absent (same ▸ old_mem_of_renames member)

namespace Listed

variable {renamed : Layout} (listed : layout.Listed) (h : layout.afterRename names = .ok renamed)
include listed h

theorem newKey_newKey {key : String} (used : key ∈ layout.table.keys) :
    renamed.newKey layout.names (layout.newKey names key) = key := by
  have admits := admits_of_rename h
  have same := (rename_eq_ok h).1
  by_cases named : key ∈ layout.names
  · obtain ⟨i, left, right⟩ := exists_newKey listed.distinct admits.length named
    exact newKey_of_getElem? (same ▸ admits.distinct) (same ▸ admits.length.symm) (same ▸ right)
      left
  · have absent : key ∉ renamed.names := fun taken =>
      (admits.free key (same ▸ taken)).elim named (not_not_intro used)
    rw [newKey_of_notMem names named, newKey_of_notMem layout.names absent]

theorem admits_old : renamed.Admits layout.names where
  length := by rw [(rename_eq_ok h).1, length_of_rename h]
  distinct := listed.distinct
  free := by
    intro name member
    have admits := admits_of_rename h
    rw [(rename_eq_ok h).1, Table.keys, entries_rename h, List.map_map]
    by_cases used : name ∈ names
    · exact .inl used
    · refine .inr fun taken => ?_
      obtain ⟨entry, present, same⟩ := List.mem_map.1 taken
      have same : layout.newKey names entry.key = name := same
      by_cases named : entry.key ∈ layout.names
      · obtain ⟨i, -, right⟩ := exists_newKey listed.distinct admits.length named
        exact used (same ▸ List.mem_of_getElem? right)
      · rw [newKey_of_notMem names named] at same
        exact named (same ▸ member)

theorem replaced : layout.Replaced names renamed where
  named := (rename_eq_ok h).1
  size := by rw [Table.size, entries_rename h, List.length_map, Table.size]
  moved := by
    intro i old new left right place entry here key
    rw [entries_rename h, List.getElem?_map, here, Option.map_some, Entry.relabel, key,
      newKey_of_getElem? listed.distinct (length_of_rename h) left right]
  kept := by
    intro place entry here unnamed
    rw [entries_rename h, List.getElem?_map, here, Option.map_some, Entry.relabel,
      newKey_of_notMem names unnamed]
  back := by
    obtain ⟨back, again⟩ := rename_succeeds_iff.2 (listed.admits_old h)
    have entries : back.table.entries = layout.table.entries := by
      rw [entries_rename again, entries_rename h, List.map_map]
      refine Eq.trans (List.map_congr_left fun entry member => ?_) (List.map_id _)
      simp only [Function.comp_apply, Entry.relabel,
        listed.newKey_newKey h (List.mem_map_of_mem member), id_eq]
    rw [ext_entries (rename_eq_ok again).1 entries] at again
    exact rename_run_of_afterRename again

end Listed

end Layout

end ElementTypes
