import ElementTypes.Proofs.Record.Table
import ElementTypes.Store.Reorder

/-! # Relinked tables -/

namespace ElementTypes.Table

theorem mem_relink {table : Table} {renewed : List (Entry × Ref)} {entry : Entry}
    (member : entry ∈ (table.relink renewed).entries) :
    (∃ pair ∈ renewed, pair.2 = entry.target) ∨
      ∃ old ∈ table.entries, old.target = entry.target := by
  obtain ⟨old, present, rfl⟩ := List.mem_map.1 member
  simp only
  split
  · rename_i pair found
    exact .inl ⟨_, List.mem_of_find?_eq_some found, rfl⟩
  · exact .inr ⟨old, present, rfl⟩

theorem relink_entries (table : Table) (renewed : List (Entry × Ref)) :
    List.Forall₂ (fun e f : Entry => f.key = e.key ∧ f.offset = e.offset ∧ f.title = e.title)
      table.entries (table.relink renewed).entries := by
  refine table.mapFields_entries fun entry => ?_
  simp only
  split <;> exact ⟨rfl, rfl⟩

section Relink

variable {table : Table} {renewed : List (Entry × Ref)}
  (all : renewed.map Prod.fst = table.primary)
include all

theorem find?_renewed (p : Entry → Bool) :
    (renewed.find? fun pair => p pair.1).map Prod.fst = table.primary.find? p := by
  rw [← all, List.find?_map]
  rfl

theorem mem_primary_of_renewed {pair : Entry × Ref} (member : pair ∈ renewed) :
    pair.1 ∈ table.primary := by
  rw [← all]
  exact List.mem_map_of_mem member

theorem renewed_unique {a b : Entry × Ref} (left : a ∈ renewed) (right : b ∈ renewed)
    (same : a.1.key = b.1.key) : a = b := by
  have primary : ∀ {pair}, pair ∈ renewed → pair.1 ∈ table.entries := fun member =>
    (mem_primary.1 (mem_primary_of_renewed all member)).1
  have distinct : (renewed.map Prod.fst).Nodup := by
    rw [all]
    exact (List.Nodup.of_map _ table.distinct).filter _
  exact List.inj_on_of_nodup_map distinct left right
    (eq_of_key_eq (primary left) (primary right) same)

theorem find?_relink_field {entry : Entry} {target : Ref} (member : (entry, target) ∈ renewed) :
    (table.relink renewed).find? entry.key = some { entry with target } := by
  obtain ⟨present, own⟩ := mem_primary.1 (mem_primary_of_renewed all member)
  rw [relink, find?_mapFields, find?_of_mem present]
  cases found : renewed.find? fun pair => pair.1.key = entry.key with
  | none => simpa using List.find?_eq_none.1 found _ member
  | some pair =>
      obtain rfl := renewed_unique all (List.mem_of_find?_eq_some found) member
        (by simpa using List.find?_some found)
      simp [own, found]

theorem primary_relink :
    (table.relink renewed).primary = renewed.map fun pair => { pair.1 with target := pair.2 } := by
  rw [relink, primary_mapFields _ fun entry => by simp only; split <;> rfl, ← all, List.map_map]
  refine List.map_congr_left fun pair member => ?_
  have found := find?_relink_field all member
  have present := (mem_primary.1 (mem_primary_of_renewed all member)).1
  rw [relink, find?_mapFields, find?_of_mem present] at found
  exact Option.some.inj found

theorem find?_relink_alias {entry : Entry} (present : entry ∈ table.entries)
    (foreign : entry.isAlias = true) :
    ((table.relink renewed).find? entry.key).map (·.target) =
      match table.primary.find? fun field => field.title = some entry.key with
      | some field => ((table.relink renewed).find? field.key).map (·.target)
      | none => some entry.target := by
  have owner := find?_renewed all fun field => field.title = some entry.key
  rw [relink, find?_mapFields, find?_of_mem present, ← relink]
  cases found : renewed.find? fun pair => pair.1.title = some entry.key with
  | none =>
      rw [found, Option.map_none] at owner
      simp [← owner, foreign, found]
  | some pair =>
      rw [found, Option.map_some] at owner
      have own := find?_relink_field all (List.mem_of_find?_eq_some found)
      simp [← owner, own, foreign, found]

end Relink

end ElementTypes.Table
