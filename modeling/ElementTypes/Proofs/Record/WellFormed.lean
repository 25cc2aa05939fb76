import ElementTypes.Proofs.Record.Table
import Mathlib.Data.List.Perm.Basic

/-! # Well-formed layouts -/

namespace ElementTypes

def Entry.relabel (label : String → String) (entry : Entry) : Entry :=
  ⟨entry.toField, label entry.key⟩

namespace Table

theorem conflict?_of_afterRekey {table moved : Table} {renames : List Rename}
    (h : table.afterRekey renames = .ok moved) : table.conflict? renames = none := by
  unfold afterRekey at h
  split at h
  · cases h
  · assumption

theorem renamed_of_forall_ne {renames : List Rename} {key : String}
    (apart : ∀ r ∈ renames, r.old ≠ key) : renamed renames key = key := by
  rcases renamed_eq_or renames key with ⟨r, member, old, -⟩ | ⟨kept, -⟩
  · exact absurd old (apart r member)
  · exact kept

theorem renamed_cons (r : Rename) (renames : List Rename) (key : String) :
    renamed (r :: renames) key = if r.old = key then r.new else renamed renames key := by
  by_cases here : r.old = key <;> simp [renamed, here]

theorem primary_put_of_new {table : Table} {key : String} (field : Field)
    (new : key ∉ table.keys) : (table.put key field).primary =
      table.primary ++ if field.title = some key then [] else [⟨field, key⟩] := by
  rw [primary, entries_put_of_new field new, List.filter_append, ← primary]
  by_cases own : field.title = some key <;> simp [Entry.isAlias, own]

end Table

namespace Layout

/-- Names and fields correspond one to one, and so do aliases and the fields with a title. An alias
shares the target and the offset of its field. -/
structure WellFormed (layout : Layout) : Prop where
  distinct : layout.names.Nodup
  named : ∀ name, name ∈ layout.names ↔ ∃ field ∈ layout.table.primary, field.key = name
  titled : ∀ field ∈ layout.table.primary, ∀ title, field.title = some title →
    ∃ entry ∈ layout.table.entries, entry.isAlias = true ∧ entry.key = title
  owned : ∀ entry ∈ layout.table.entries, entry.isAlias = true →
    ∃ field ∈ layout.table.primary, field.title = some entry.key ∧
      field.target = entry.target ∧ field.offset = entry.offset ∧
      ∀ other ∈ layout.table.primary, other.title = some entry.key → other = field

namespace WellFormed

theorem empty : WellFormed ⟨[], .empty⟩ where
  distinct := .nil
  named name := by simp [Table.primary, Table.empty]
  titled field member := by simp [Table.primary, Table.empty] at member
  owned entry member := by simp [Table.empty] at member

variable {layout : Layout} (formed : layout.WellFormed)
include formed

theorem alias_not_named {entry : Entry} (member : entry ∈ layout.table.entries)
    (foreign : entry.isAlias = true) : entry.key ∉ layout.names := by
  intro named
  obtain ⟨field, primary, same⟩ := (formed.named _).1 named
  obtain ⟨present, own⟩ := Table.mem_primary.1 primary
  rw [Table.eq_of_key_eq present member same, foreign] at own
  cases own

theorem ordered_nodup : layout.ordered.Nodup := by
  refine List.Nodup.filterMap (fun a b entry left right => ?_) formed.distinct
  rw [← Table.key_of_find? (Option.mem_def.1 left), Table.key_of_find? (Option.mem_def.1 right)]

theorem ordered_perm : layout.ordered.Perm layout.table.primary := by
  have distinct : (layout.table.primary.map (·.key)).Nodup :=
    layout.table.distinct.sublist (List.filter_sublist.map _)
  have names : layout.names.Perm (layout.table.primary.map (·.key)) := by
    rw [List.perm_ext_iff_of_nodup formed.distinct distinct]
    intro name
    rw [formed.named, List.mem_map]
  have found : (layout.table.primary.map (·.key)).filterMap layout.table.find? =
      layout.table.primary := by
    rw [List.filterMap_map]
    refine Eq.trans (List.filterMap_congr fun field member => ?_) List.filterMap_some
    exact Table.find?_of_mem (Table.mem_primary.1 member).1
  exact (names.filterMap _).trans (.of_eq found)

section Adding

theorem append {table : Table} (field : Entry) (added : List Entry)
    (new : field.key ∉ layout.table.keys)
    (entries : table.entries = layout.table.entries ++ added)
    (primary : table.primary = layout.table.primary ++ [field])
    (titled : ∀ title, field.title = some title → title ∉ layout.table.keys ∧
      ∃ entry ∈ added, entry.isAlias = true ∧ entry.key = title)
    (owned : ∀ entry ∈ added, entry.isAlias = true → field.title = some entry.key ∧
      field.target = entry.target ∧ field.offset = entry.offset) :
    WellFormed ⟨layout.names ++ [field.key], table⟩ := by
  -- an old field with the title of the new one would have an alias under it already
  have untitled : ∀ other ∈ layout.table.primary, ∀ title, field.title = some title →
      other.title ≠ some title := by
    intro other member title own same
    obtain ⟨entry, present, -, key⟩ := formed.titled other member title same
    exact (titled title own).1 (List.mem_map.2 ⟨entry, present, key⟩)
  refine ⟨?_, fun name => ?_, fun f member title same => ?_, fun entry member foreign => ?_⟩
  · rw [List.nodup_append]
    refine ⟨formed.distinct, List.nodup_singleton _, fun a old b single same => ?_⟩
    rw [same, List.mem_singleton.1 single] at old
    obtain ⟨other, member, key⟩ := (formed.named _).1 old
    exact new (List.mem_map.2 ⟨other, (Table.mem_primary.1 member).1, key⟩)
  · simp [primary, formed.named name, or_and_right, exists_or, eq_comm]
  · rw [primary] at member
    rw [entries]
    rcases List.mem_append.1 member with old | last
    · obtain ⟨entry, present, holds⟩ := formed.titled f old title same
      exact ⟨entry, List.mem_append_left _ present, holds⟩
    · rw [List.mem_singleton.1 last] at same
      obtain ⟨entry, present, holds⟩ := (titled title same).2
      exact ⟨entry, List.mem_append_right _ present, holds⟩
  · rw [entries] at member
    rw [primary]
    rcases List.mem_append.1 member with old | last
    · obtain ⟨f, listed, title, target, offset, unique⟩ := formed.owned entry old foreign
      refine ⟨f, List.mem_append_left _ listed, title, target, offset, fun other among same => ?_⟩
      rcases List.mem_append.1 among with before | last
      · exact unique other before same
      · rw [List.mem_singleton.1 last] at same
        exact absurd (List.mem_map_of_mem old) (titled _ same).1
    · obtain ⟨title, target, offset⟩ := owned entry last foreign
      refine ⟨field, by simp, title, target, offset, fun other among same => ?_⟩
      rcases List.mem_append.1 among with before | last
      · exact absurd same (untitled other before _ title)
      · exact List.mem_singleton.1 last

variable {name : String} {field : Field} (new : name ∉ layout.table.keys)
include new

theorem put_plain (plain : field.title = none) :
    WellFormed ⟨layout.names ++ [name], layout.table.put name field⟩ := by
  refine formed.append ⟨field, name⟩ [⟨field, name⟩] new
    (Table.entries_put_of_new field new) ?_ ?_ ?_
  · simp [Table.primary_put_of_new field new, plain]
  · simp [plain]
  · simp [Entry.isAlias, plain]

theorem put_titled {title : String} (titled : field.title = some title) (apart : title ≠ name)
    (free : title ∉ layout.table.keys) :
    WellFormed ⟨layout.names ++ [name], (layout.table.put name field).put title field⟩ := by
  have free' : title ∉ (layout.table.put name field).keys := by
    simp [Table.keys_put, new, free, apart]
  refine formed.append ⟨field, name⟩ [⟨field, name⟩, ⟨field, title⟩] new ?_ ?_ ?_ ?_
  · simp [Table.entries_put_of_new field free', Table.entries_put_of_new field new]
  · simp [Table.primary_put_of_new field free', Table.primary_put_of_new field new, titled, apart]
  · simp [Entry.isAlias, titled, free]
  · simp [Entry.isAlias, titled, apart]

end Adding

end WellFormed

theorem old_mem_of_renames {old new : Names} {r : Rename} (member : r ∈ renames old new) :
    r.old ∈ old := by
  obtain ⟨pair, listed, rfl⟩ := List.mem_map.1 member
  exact (List.of_mem_zip (List.mem_of_mem_filter listed)).1

theorem renames_cons (a b : String) (old new : Names) : renames (a :: old) (b :: new) =
    if a = b then renames old new else ⟨a, b⟩ :: renames old new := by
  by_cases same : a = b <;> simp [renames, same]

theorem map_renamed {old new : Names} (distinct : old.Nodup) (length : new.length = old.length) :
    old.map (Table.renamed (renames old new)) = new := by
  induction old generalizing new with
  | nil => exact (List.length_eq_zero_iff.1 length).symm
  | cons a old ih =>
      cases new with
      | nil => cases length
      | cons b new =>
          obtain ⟨absent, distinct⟩ := List.nodup_cons.1 distinct
          have rest := ih distinct (Nat.succ.inj length)
          have apart : ∀ r ∈ renames old new, r.old ≠ a := fun r member same =>
            absent (same ▸ old_mem_of_renames member)
          rw [renames_cons, List.map_cons]
          by_cases same : a = b
          · rw [if_pos same, rest, Table.renamed_of_forall_ne apart, same]
          · rw [if_neg same, Table.renamed_cons, if_pos rfl]
            congr 1
            refine Eq.trans (List.map_congr_left fun name member => ?_) rest
            rw [Table.renamed_cons, if_neg fun here : a = name => absent (here ▸ member)]

theorem length_of_rename {layout renamed : Layout} {names : Names}
    (h : layout.afterRename names = .ok renamed) : names.length = layout.names.length := by
  unfold afterRename at h
  split at h
  · cases h
  · rename_i same
    exact not_not.1 same

def newKey (layout : Layout) (names : Names) : String → String :=
  Table.renamed (renames layout.names names)

section Renaming

variable {layout renamed : Layout} {names : Names} (h : layout.afterRename names = .ok renamed)

include h in
theorem entries_rename : renamed.table.entries =
    layout.table.entries.map (Entry.relabel (layout.newKey names)) :=
  Table.entries_of_afterRekey (rename_eq_ok h).2

include h in
theorem newKey_injOn {a b : String} (left : a ∈ layout.table.keys) (right : b ∈ layout.table.keys)
    (same : layout.newKey names a = layout.newKey names b) : a = b :=
  Table.renamed_injOn (Table.conflict?_of_afterRekey (rename_eq_ok h).2) left right same

namespace WellFormed

variable (formed : layout.WellFormed)
include formed

theorem key_of_alias (names : Names) {entry : Entry} (member : entry ∈ layout.table.entries)
    (foreign : entry.isAlias = true) :
    layout.newKey names entry.key = entry.key :=
  Table.renamed_of_forall_ne fun _ listed same =>
    formed.alias_not_named member foreign (same ▸ old_mem_of_renames listed)

include h

theorem isAlias_rename {entry : Entry} (member : entry ∈ layout.table.entries) :
    (entry.relabel (layout.newKey names)).isAlias = entry.isAlias := by
  by_cases foreign : entry.isAlias = true
  · rw [Entry.relabel, formed.key_of_alias names member foreign]
  · have own : entry.isAlias = false := Bool.eq_false_iff.2 foreign
    rw [own]
    by_contra flipped
    have title : entry.title = some (layout.newKey names entry.key) :=
      of_decide_eq_true (Bool.not_eq_false _ ▸ flipped)
    -- the new key is the title of the field, so an alias has it, and aliases are not renamed
    obtain ⟨other, present, foreign', key⟩ :=
      formed.titled entry (Table.mem_primary.2 ⟨member, own⟩) _ title
    have same : entry.key = other.key := newKey_injOn h (List.mem_map_of_mem member)
      (List.mem_map_of_mem present) (by rw [formed.key_of_alias names present foreign', key])
    exact foreign (Table.eq_of_key_eq member present same ▸ foreign')

theorem primary_rename : renamed.table.primary =
    layout.table.primary.map (Entry.relabel (layout.newKey names)) := by
  rw [Table.primary, entries_rename h, List.filter_map, Table.primary]
  congr 1
  refine List.filter_congr fun entry member => ?_
  simp only [Function.comp_apply, formed.isAlias_rename h member]

theorem rename : renamed.WellFormed := by
  have primary := formed.primary_rename h
  have relabelled : renamed.names = layout.names.map (layout.newKey names) := by
    rw [(rename_eq_ok h).1]
    exact (map_renamed formed.distinct (length_of_rename h)).symm
  refine ⟨?_, fun name => ?_, fun f member title same => ?_, fun entry member foreign => ?_⟩
  · have used : ∀ name ∈ layout.names, name ∈ layout.table.keys := by
      intro name named
      obtain ⟨field, member, rfl⟩ := (formed.named name).1 named
      exact List.mem_map_of_mem (Table.mem_primary.1 member).1
    rw [relabelled]
    exact formed.distinct.map_on fun a left b right =>
      newKey_injOn h (used a left) (used b right)
  · simp [relabelled, primary, formed.named, Entry.relabel]
  · rw [primary] at member
    obtain ⟨field, listed, rfl⟩ := List.mem_map.1 member
    obtain ⟨entry, present, foreign, key⟩ := formed.titled field listed title same
    refine ⟨entry.relabel _, ?_, (formed.isAlias_rename h present).trans foreign, ?_⟩
    · rw [entries_rename h]
      exact List.mem_map_of_mem present
    · exact (formed.key_of_alias names present foreign).trans key
  · rw [entries_rename h] at member
    obtain ⟨old, present, rfl⟩ := List.mem_map.1 member
    have foreign' : old.isAlias = true := (formed.isAlias_rename h present).symm.trans foreign
    have key := formed.key_of_alias names present foreign'
    obtain ⟨field, listed, title, target, offset, unique⟩ := formed.owned old present foreign'
    refine ⟨field.relabel (layout.newKey names), ?_, title.trans (congrArg some key.symm), target,
      offset, ?_⟩
    · rw [primary]
      exact List.mem_map_of_mem listed
    · intro other among same
      rw [primary] at among
      obtain ⟨before, listed', rfl⟩ := List.mem_map.1 among
      rw [unique before listed' (same.trans (congrArg some key))]

end WellFormed

end Renaming

end Layout

end ElementTypes
