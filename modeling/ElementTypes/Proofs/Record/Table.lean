import ElementTypes.Record.Layout
import Mathlib.Data.List.Forall2
import Mathlib.Data.List.Nodup

/-! # Entries of tables -/

namespace ElementTypes

theorem Entry.isAlias_eq {e f : Entry} (key : f.key = e.key) (title : f.title = e.title) :
    f.isAlias = e.isAlias := by
  rw [isAlias, key, title, isAlias]

namespace Table

theorem eq_of_key_eq {table : Table} {a b : Entry} (left : a ∈ table.entries)
    (right : b ∈ table.entries) (same : a.key = b.key) : a = b :=
  List.inj_on_of_nodup_map table.distinct left right same

theorem find?_of_mem {table : Table} {entry : Entry} (member : entry ∈ table.entries) :
    table.find? entry.key = some entry := by
  cases found : table.find? entry.key with
  | none => exact absurd (List.mem_map.2 ⟨entry, member, rfl⟩) (find?_eq_none.1 found)
  | some other =>
      rw [eq_of_key_eq (List.mem_of_find?_eq_some found) member (key_of_find? found)]

theorem mem_primary {table : Table} {entry : Entry} :
    entry ∈ table.primary ↔ entry ∈ table.entries ∧ entry.isAlias = false := by
  simp [primary]

theorem mem_put {table : Table} {key : String} {field : Field} {entry : Entry}
    (member : entry ∈ (table.put key field).entries) :
    entry.toField = field ∨ entry ∈ table.entries := by
  by_cases used : key ∈ table.keys
  · rw [put, dif_pos used] at member
    obtain ⟨old, present, rfl⟩ := List.mem_map.1 member
    by_cases here : old.key = key
    · exact .inl (by simp [here])
    · exact .inr (by simpa [here] using present)
  · rw [put, dif_neg used] at member
    rcases List.mem_append.1 member with old | new
    · exact .inr old
    · exact .inl (by rw [List.mem_singleton.1 new])

theorem mem_erase {table : Table} {key : String} {entry : Entry}
    (member : entry ∈ (table.erase key).entries) : entry ∈ table.entries :=
  List.mem_of_mem_filter member

theorem mem_retarget {table : Table} {key : String} {target : Ref} {entry : Entry}
    (member : entry ∈ (table.retarget key target).entries) :
    entry.target = target ∨ entry ∈ table.entries := by
  obtain ⟨old, present, rfl⟩ := List.mem_map.1 member
  by_cases here : old.key = key
  · exact .inl (by simp [here])
  · exact .inr (by simpa [here] using present)

theorem find?_retarget_of_ne (table : Table) {key other : String} (target : Ref)
    (h : other ≠ key) : (table.retarget key target).find? other = table.find? other := by
  rw [retarget, find?_mapFields]
  cases found : table.find? other with
  | none => rfl
  | some entry =>
      obtain rfl := key_of_find? found
      simp [h]

theorem find?_retarget_self {table : Table} {key : String} {entry : Entry}
    (found : table.find? key = some entry) (target : Ref) :
    (table.retarget key target).find? key = some { entry with target } := by
  rw [retarget, find?_mapFields, found, Option.map_some, if_pos (key_of_find? found)]

theorem mapFields_entries (table : Table) {change : Entry → Field}
    (kept : ∀ entry, (change entry).offset = entry.offset ∧ (change entry).title = entry.title) :
    List.Forall₂ (fun e f : Entry => f.key = e.key ∧ f.offset = e.offset ∧ f.title = e.title)
      table.entries (table.mapFields change).entries := by
  rw [mapFields, List.forall₂_map_right_iff, List.forall₂_same]
  exact fun entry _ => ⟨rfl, kept entry⟩

theorem primary_mapFields (table : Table) {change : Entry → Field}
    (kept : ∀ entry, (change entry).title = entry.title) :
    (table.mapFields change).primary =
      table.primary.map fun entry => ⟨change entry, entry.key⟩ := by
  rw [primary, mapFields, List.filter_map, primary]
  refine congrArg _ (List.filter_congr fun entry _ => ?_)
  have same : (⟨change entry, entry.key⟩ : Entry).isAlias = entry.isAlias :=
    Entry.isAlias_eq rfl (kept entry)
  rw [Function.comp_apply, same]

theorem retarget_entries (table : Table) (key : String) (target : Ref) :
    List.Forall₂ (fun e f : Entry => f.key = e.key ∧ f.offset = e.offset ∧ f.title = e.title)
      table.entries (table.retarget key target).entries :=
  table.mapFields_entries fun entry => by split <;> exact ⟨rfl, rfl⟩

theorem conflict?_go_eq_none {table : Table} {renames rest : List Rename} {earlier : List String} :
    conflict?.go table renames earlier rest = none ↔
      (rest.map (·.new)).Nodup ∧ (∀ r ∈ rest, r.new ∉ earlier) ∧
        ∀ r ∈ rest, r.new ∈ table.keys → ∃ other ∈ renames, other.old = r.new := by
  induction rest generalizing earlier with
  | nil => simp [conflict?.go]
  | cons r rest ih =>
      unfold conflict?.go
      split
      · rename_i meets
        simp only [reduceCtorEq, false_iff]
        rintro ⟨-, apart, moved⟩
        rcases meets with twice | ⟨taken, stays⟩
        · exact apart r (List.mem_cons_self ..) twice
        · obtain ⟨other, member, same⟩ :=
            moved r (List.mem_cons_self ..) (by simpa [contains] using taken)
          simp only [Bool.not_eq_true', List.any_eq_false, decide_eq_true_eq] at stays
          exact stays other member same
      · rename_i clear
        have clear : r.new ∉ earlier ∧
            (r.new ∈ table.keys → ∃ other ∈ renames, other.old = r.new) := by
          simpa [contains, not_or] using clear
        rw [ih, List.map_cons, List.nodup_cons, List.forall_mem_cons, List.forall_mem_cons]
        constructor
        · rintro ⟨distinct, apart, moved⟩
          refine ⟨⟨fun twice => ?_, distinct⟩, ⟨clear.1, fun other member old => ?_⟩, clear.2,
            moved⟩
          · obtain ⟨other, member, same⟩ := List.mem_map.1 twice
            exact apart other member (same ▸ List.mem_cons_self ..)
          · exact apart other member (List.mem_cons_of_mem _ old)
        · rintro ⟨⟨new, distinct⟩, ⟨-, apart⟩, -, moved⟩
          refine ⟨distinct, fun other member used => ?_, moved⟩
          rcases List.mem_cons.1 used with same | old
          · exact new (same ▸ List.mem_map_of_mem member)
          · exact apart other member old

theorem conflict?_eq_none {table : Table} {renames : List Rename} :
    table.conflict? renames = none ↔ (renames.map (·.new)).Nodup ∧
      ∀ r ∈ renames, r.new ∈ table.keys → ∃ other ∈ renames, other.old = r.new := by
  rw [conflict?, conflict?_go_eq_none]
  simp

theorem renamed_eq_or (renames : List Rename) (key : String) :
    (∃ r ∈ renames, r.old = key ∧ renamed renames key = r.new) ∨
      (renamed renames key = key ∧ ∀ r ∈ renames, r.old ≠ key) := by
  unfold renamed
  cases found : renames.find? fun r => r.old = key with
  | none => exact .inr ⟨rfl, by simpa using found⟩
  | some r =>
      have same : r.old = key := by simpa using List.find?_some found
      exact .inl ⟨r, List.mem_of_find?_eq_some found, same, rfl⟩

theorem renamed_injOn {table : Table} {renames : List Rename}
    (accepted : table.conflict? renames = none) {a b : String} (left : a ∈ table.keys)
    (right : b ∈ table.keys) (same : renamed renames a = renamed renames b) : a = b := by
  obtain ⟨distinct, moved⟩ := conflict?_eq_none.1 accepted
  rcases renamed_eq_or renames a with ⟨r, memberR, rfl, new⟩ | ⟨kept, still⟩
  · rcases renamed_eq_or renames b with ⟨q, memberQ, rfl, new'⟩ | ⟨kept', still'⟩
    · rw [List.inj_on_of_nodup_map distinct memberR memberQ (by rw [← new, ← new', same])]
    · have taken : r.new = b := by rw [← new, same, kept']
      obtain ⟨other, member, old⟩ := moved r memberR (taken ▸ right)
      exact absurd (old.trans taken) (still' other member)
  · rcases renamed_eq_or renames b with ⟨q, memberQ, rfl, new'⟩ | ⟨kept', still'⟩
    · have taken : q.new = a := by rw [← new', ← same, kept]
      obtain ⟨other, member, old⟩ := moved q memberQ (taken ▸ left)
      exact absurd (old.trans taken) (still other member)
    · rw [← kept, same, kept']

theorem entries_put_of_new {table : Table} {key : String} (field : Field)
    (new : key ∉ table.keys) :
    (table.put key field).entries = table.entries ++ [⟨field, key⟩] := by
  rw [put, dif_neg new]

theorem entries_foldl_put (key : Entry → String) (entries : List Entry) (start : Table)
    (distinct : (start.keys ++ entries.map key).Nodup) :
    (entries.foldl (fun table entry => table.put (key entry) entry.toField) start).entries =
      start.entries ++ entries.map fun entry => ⟨entry.toField, key entry⟩ := by
  induction entries generalizing start with
  | nil => simp
  | cons entry entries ih =>
      have new : key entry ∉ start.keys := by
        intro used
        rw [List.map_cons, List.nodup_append] at distinct
        exact distinct.2.2 _ used _ (by simp) rfl
      rw [List.foldl_cons, ih, entries_put_of_new _ new, List.map_cons, List.append_assoc]
      · rfl
      · rw [keys_put, if_neg new, List.append_assoc]
        exact distinct

def afterRekey (table : Table) (renames : List Rename) : Except Error Table :=
  match table.conflict? renames with
  | some name => .error (.takenName name)
  | none => .ok (table.entries.foldl
      (fun moved entry => moved.put (renamed renames entry.key) entry.toField) .empty)

theorem entries_of_afterRekey {table moved : Table} {renames : List Rename}
    (h : table.afterRekey renames = .ok moved) : moved.entries =
      table.entries.map fun entry => ⟨entry.toField, renamed renames entry.key⟩ := by
  unfold afterRekey at h
  split at h
  · cases h
  · rename_i accepted
    rw [← Except.ok.inj h, entries_foldl_put]
    · rfl
    · have distinct := table.distinct
      rw [show empty.keys = [] from rfl, List.nil_append]
      rw [List.nodup_map_iff_inj_on (List.Nodup.of_map _ distinct)]
      intro a left b right same
      exact eq_of_key_eq left right (renamed_injOn accepted (List.mem_map_of_mem left)
        (List.mem_map_of_mem right) same)

theorem find?_of_afterRekey {table moved : Table} {renames : List Rename}
    (h : table.afterRekey renames = .ok moved) {key : String}
    (apart : ∀ r ∈ renames, r.old ≠ key ∧ r.new ≠ key) : moved.find? key = table.find? key := by
  have entries := entries_of_afterRekey h
  have same : ∀ entry : Entry, renamed renames entry.key = key ↔ entry.key = key := by
    intro entry
    rcases renamed_eq_or renames entry.key with ⟨r, member, old, new⟩ | ⟨kept, -⟩
    · rw [new, ← old]
      obtain ⟨gone, absent⟩ := apart r member
      exact ⟨fun taken => absurd taken absent, fun left => absurd left gone⟩
    · rw [kept]
  rw [find?, entries, List.find?_map, find?]
  have agree : ((fun entry : Entry => decide (entry.key = key)) ∘ fun entry : Entry =>
      (⟨entry.toField, renamed renames entry.key⟩ : Entry)) =
        fun entry : Entry => decide (entry.key = key) := by
    funext entry
    simp [same entry]
  rw [agree]
  cases found : table.entries.find? fun entry => entry.key = key with
  | none => rfl
  | some entry =>
      have here : entry.key = key := by simpa using List.find?_some found
      simp [(same entry).2 here, ← here]

theorem ext_entries {a b : Table} (same : a.entries = b.entries) : a = b := by
  obtain ⟨_, _⟩ := a
  obtain ⟨_, _⟩ := b
  obtain rfl := same
  rfl

theorem afterRekey_nil (table : Table) : table.afterRekey [] = .ok table := by
  obtain ⟨moved, given⟩ : ∃ moved, table.afterRekey [] = .ok moved := ⟨_, rfl⟩
  have entries : moved.entries = table.entries := (entries_of_afterRekey given).trans
    ((List.map_congr_left fun _ _ => rfl).trans (List.map_id _))
  rw [given, ext_entries entries]

def afterRekeyOne (table : Table) (old new : String) : Except Error (Bool × Table) :=
  if table.contains old then (table.afterRekey [⟨old, new⟩]).map (true, ·) else .ok (false, table)

end Table

namespace Layout

def afterRename (layout : Layout) (names : Names) : Except Error Layout :=
  if names.length ≠ layout.names.length then
    .error (.wrongNameCount layout.names.length names.length)
  else match names.firstRepeated? with
    | some name => .error (.takenName name)
    | none => (layout.table.afterRekey (renames layout.names names)).map (⟨names, ·⟩)

theorem rename_eq_ok {layout renamed : Layout} {names : Names}
    (h : layout.afterRename names = .ok renamed) : renamed.names = names ∧
      layout.table.afterRekey (renames layout.names names) = .ok renamed.table := by
  unfold afterRename at h
  split at h
  · cases h
  · split at h
    · cases h
    · cases accepted : layout.table.afterRekey (renames layout.names names) with
      | error e => rw [accepted] at h; cases h
      | ok table =>
          rw [accepted] at h
          obtain rfl := Except.ok.inj h
          exact ⟨rfl, rfl⟩

end Layout

end ElementTypes
