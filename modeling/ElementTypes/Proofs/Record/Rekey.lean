import ElementTypes.Proofs.Record.InPlace

/-! # Re-keying tables -/

namespace ElementTypes

/-- The key that an entry gets: the target of the first rename for its old key, or the old key where
there is none. -/
inductive Rename.Gives (renames : List Rename) (key : String) : String → Prop
  | first {before after : List Rename} {r : Rename} (split : renames = before ++ r :: after)
      (front : ∀ other ∈ before, other.old ≠ key) (source : r.old = key) :
      Gives renames key r.new
  | kept (absent : ∀ r ∈ renames, r.old ≠ key) : Gives renames key key

namespace Table

theorem gives_renamed (renames : List Rename) (key : String) :
    Rename.Gives renames key (renamed renames key) := by
  unfold renamed
  cases found : renames.find? fun r => r.old = key with
  | none => exact .kept (by simpa using found)
  | some r =>
      obtain ⟨source, before, after, split, front⟩ := List.find?_eq_some_iff_append.1 found
      exact .first split (by simpa using front) (by simpa using source)

structure Rekeyed (table : Table) (renames : List Rename) (moved : Table) : Prop where
  size : moved.size = table.size
  distinct : moved.keys.Nodup
  places : ∀ (place : Nat) entry, table.entries[place]? = some entry →
    ∃ key, Rename.Gives renames entry.key key ∧
      moved.entries[place]? = some ⟨entry.toField, key⟩

theorem rekeyed_of_afterRekey {table moved : Table} {renames : List Rename}
    (h : table.afterRekey renames = .ok moved) : table.Rekeyed renames moved where
  size := by rw [size, entries_of_afterRekey h, List.length_map, size]
  distinct := moved.distinct
  places := by
    intro place entry here
    refine ⟨renamed renames entry.key, gives_renamed renames entry.key, ?_⟩
    rw [entries_of_afterRekey h, List.getElem?_map, here, Option.map_some]

/-- Something is in the way of a rename: an earlier one has its target, or an entry keeps that key
which no rename moves. -/
def Blocks (table : Table) (renames : List Rename) (earlier : List String) (r : Rename) : Prop :=
  r.new ∈ earlier ∨ (r.new ∈ table.keys ∧ ∀ other ∈ renames, other.old ≠ r.new)

section Blocking

variable {table : Table} {renames : List Rename}

theorem blocks_cons {earlier : List String} {before : List Rename} {q r : Rename} :
    table.Blocks renames ((q :: before).map (·.new) ++ earlier) r ↔
      table.Blocks renames (before.map (·.new) ++ q.new :: earlier) r := by
  simp [Blocks, or_left_comm]

structure FirstBlocked (table : Table) (renames : List Rename) (earlier : List String)
    (before : List Rename) (r : Rename) : Prop where
  blocked : table.Blocks renames (before.map (·.new) ++ earlier) r
  front : ∀ start q rest, before = start ++ q :: rest →
    ¬ table.Blocks renames (start.map (·.new) ++ earlier) q

theorem FirstBlocked.cons {earlier : List String} {q r : Rename} {before : List Rename}
    (free : ¬ table.Blocks renames earlier q)
    (first : table.FirstBlocked renames (q.new :: earlier) before r) :
    table.FirstBlocked renames earlier (q :: before) r where
  blocked := blocks_cons.2 first.blocked
  front := by
    intro start p rest split
    cases start with
    | nil =>
        obtain ⟨rfl, -⟩ := List.cons.inj split
        exact free
    | cons _ start =>
        obtain ⟨rfl, rests⟩ := List.cons.inj split
        exact mt blocks_cons.1 (first.front start p rest rests)

theorem firstBlocked_of_conflict?_go {rest : List Rename} {earlier : List String} {name : String}
    (conflict : conflict?.go table renames earlier rest = some name) :
    ∃ before r after, rest = before ++ r :: after ∧ r.new = name ∧
      table.FirstBlocked renames earlier before r := by
  induction rest generalizing earlier with
  | nil => cases conflict
  | cons r rest ih =>
      have meets : (r.new ∈ earlier ∨ (table.contains r.new = true ∧
          (!renames.any fun other => other.old = r.new) = true)) ↔
            table.Blocks renames earlier r := by
        simp [Blocks, contains]
      rw [conflict?.go] at conflict
      by_cases blocked : table.Blocks renames earlier r
      · rw [if_pos (meets.2 blocked)] at conflict
        refine ⟨[], r, rest, rfl, Option.some.inj conflict, blocked, fun start q rest none => ?_⟩
        cases start <;> cases none
      · rw [if_neg (mt meets.1 blocked)] at conflict
        obtain ⟨before, s, after, rfl, same, first⟩ := ih conflict
        exact ⟨r :: before, s, after, rfl, same, first.cons blocked⟩

theorem not_blocks_of_conflict? (accepted : table.conflict? renames = none)
    {before after : List Rename} {r : Rename} (split : renames = before ++ r :: after) :
    ¬ table.Blocks renames (before.map (·.new)) r := by
  obtain ⟨distinct, moved⟩ := conflict?_eq_none.1 accepted
  rintro (twice | ⟨used, stays⟩)
  · rw [split, List.map_append, List.nodup_append] at distinct
    exact distinct.2.2 r.new twice r.new (by simp) rfl
  · obtain ⟨other, member, same⟩ := moved r (by simp [split]) used
    exact stays other member same

end Blocking

theorem rekeyMany_run (table : Table) (renames : List Rename) (memory : Memory) :
    (rekeyMany renames).run (table, memory) =
      match table.afterRekey renames with
      | .error error => (.error error, table, memory)
      | .ok moved =>
        if (memory.ask table.size).1 then (.ok (), moved, (memory.ask table.size).2)
        else (.error (.tableOutOfMemory .denied), table, (memory.ask table.size).2) := by
  unfold rekeyMany afterRekey
  rw [Change.run_read_bind]
  cases table.conflict? renames with
  | some name => rfl
  | none =>
      have asked := Change.run_reserve table.size (.tableOutOfMemory .denied) table memory
      cases granted : (memory.ask table.size).1 with
      | true =>
          rw [granted, if_pos rfl] at asked
          exact run_bind_ok _ _ _ asked
      | false =>
          rw [granted, if_neg Bool.false_ne_true] at asked
          exact run_bind_error _ _ _ asked

/-- How re-keying ends: with the target of the first rename that is blocked, or when none is, with a
new table, unless the memory denies the room for it. -/
inductive Rekeying (table : Table) (renames : List Rename) (memory : Memory) :
    Except Error Unit × Table × Memory → Prop
  | moved {moved : Table}
      (free : ∀ before r after, renames = before ++ r :: after →
        ¬ table.Blocks renames (before.map (·.new)) r)
      (granted : (memory.ask table.size).1 = true) (rekeyed : table.Rekeyed renames moved) :
      Rekeying table renames memory (.ok (), moved, (memory.ask table.size).2)
  | refused {before after : List Rename} {r : Rename} (split : renames = before ++ r :: after)
      (first : table.FirstBlocked renames [] before r) :
      Rekeying table renames memory (.error (.takenName r.new), table, memory)
  | short (free : ∀ before r after, renames = before ++ r :: after →
        ¬ table.Blocks renames (before.map (·.new)) r)
      (denied : (memory.ask table.size).1 = false) :
      Rekeying table renames memory
        (.error (.tableOutOfMemory .denied), table, (memory.ask table.size).2)

theorem rekeying (table : Table) (renames : List Rename) (memory : Memory) :
    table.Rekeying renames memory ((rekeyMany renames).run (table, memory)) := by
  rw [rekeyMany_run]
  cases conflict : table.conflict? renames with
  | none =>
      obtain ⟨moved, accepted⟩ : ∃ moved, table.afterRekey renames = .ok moved := by
        rw [afterRekey, conflict]
        exact ⟨_, rfl⟩
      have free : ∀ before r after, renames = before ++ r :: after →
          ¬ table.Blocks renames (before.map (·.new)) r :=
        fun _ _ _ => not_blocks_of_conflict? conflict
      simp only [accepted]
      split
      · exact .moved free ‹_› (rekeyed_of_afterRekey accepted)
      · exact .short free (Bool.eq_false_iff.2 ‹_›)
  | some name =>
      obtain ⟨before, r, after, split, rfl, first⟩ := firstBlocked_of_conflict?_go conflict
      simp only [afterRekey, conflict]
      exact .refused split first

end Table

end ElementTypes
