import ElementTypes.Proofs.Change
import ElementTypes.Proofs.Record.Table

/-! # Changes of tables and layouts in place -/

namespace ElementTypes

open Change (Ends)

theorem Names.rename_ends (names : Names) (index : Size) (name : String) (memory : Memory) :
    Ends (if index.toNat < names.length then .ok ((), names.set index.toNat name)
      else .error (.nameOutOfRange index names.length)) names memory
      ((rename index name).run (names, memory)) := by
  unfold rename
  rw [Change.run_read_bind]
  split
  · exact .done rfl id
  · exact .refused rfl id

namespace Table

theorem rekeyMany_ends (table : Table) (renames : List Rename) (memory : Memory) :
    Ends ((table.afterRekey renames).map ((), ·)) table memory
      ((rekeyMany renames).run (table, memory)) := by
  unfold rekeyMany afterRekey
  rw [Change.run_read_bind]
  cases table.conflict? renames with
  | some name => exact .refused rfl id
  | none => exact .reserve_bind fun left => .done rfl id

theorem rekey_ends (table : Table) (old new : String) (memory : Memory) :
    Ends (table.afterRekeyOne old new) table memory ((rekey old new).run (table, memory)) := by
  unfold rekey afterRekeyOne
  rw [Change.run_read_bind]
  split
  · have ends := (table.rekeyMany_ends [⟨old, new⟩] memory).bind (f := fun _ => pure true)
      (fun out => (true, out.2)) fun _ _ _ => rfl
    rwa [except_map_map] at ends
  · exact .done rfl id

end Table

namespace Layout

theorem rename_ends (layout : Layout) (names : Names) (memory : Memory) :
    Ends ((layout.afterRename names).map ((), ·)) layout memory
      ((rename names).run (layout, memory)) := by
  unfold rename afterRename
  rw [Change.run_read_bind]
  split
  · exact .refused rfl id
  · cases names.firstRepeated? with
    | some name => exact .refused rfl id
    | none =>
        dsimp only
        split
        · rename_i same
          have given := layout.table.afterRekey_nil
          rw [← List.isEmpty_iff.1 same] at given
          rw [given]
          exact .done rfl id
        · have moved := (layout.table.rekeyMany_ends (renames layout.names names) memory).onPart
            layout (fun table layout => { layout with table }) rfl
          have ends := moved.bind (f := fun _ => Change.update fun layout => { layout with names })
            (fun out => ((), { out.2 with names })) fun _ _ _ => rfl
          rw [except_map_map, except_map_map] at ends
          rw [except_map_map]
          exact ends

end Layout

end ElementTypes
