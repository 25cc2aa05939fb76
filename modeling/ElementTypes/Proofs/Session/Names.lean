import ElementTypes.Proofs.Record.Rekey
import ElementTypes.Proofs.Record.Replace
import ElementTypes.Proofs.Session.Failure
import ElementTypes.Proofs.Store.Layouts

/-! # New names in every session -/

namespace ElementTypes.Session

/-- How the command ends that gives new names to the fields of what a name holds. -/
inductive Renamed (session : Session) (name : String) (layout : Layout) (names : Names) :
    Answer × Session → Prop
  | accepted {renamed : Layout} {copied : Bool} {ref : Ref} {after : Session}
      (taken : (Layout.rename names).run (layout, .ample) = (.ok (), renamed, .ample))
      (holds : after.find? name = some ref)
      (written : (after.store.heap.get ref).layout = some renamed) :
      Renamed session name layout names (.edited (.ok .nothing) copied ref, after)
  | refused {error : Error} {copied : Bool} {ref : Ref} {after : Session}
      (fault : (Layout.rename names).run (layout, .ample) = (.error error, layout, .ample))
      (holds : after.find? name = some ref)
      (kept : (after.store.heap.get ref).layout = some layout)
      (grown : session.store.Grows after.store) :
      Renamed session name layout names (.edited (.error error) copied ref, after)

theorem step_renamed {session : Session} (sound : session.Sound) (ready : session.store.Ready)
    {name : String} {old : Ref} {layout : Layout} (found : session.find? name = some old)
    (record : (session.store.heap.get old).layout = some layout) (names : Names) :
    Renamed session name layout names (session.step (.edit name (.rename names))) := by
  have none : ∀ ref ∈ ([] : List Ref), ref < session.store.heap.size := List.forall_mem_nil _
  have within : ∀ ref ∈ session.held ++ [], ref < session.store.heap.size := fun ref member =>
    sound.held ref (by simpa using member)
  have member : old ∈ session.held ++ [] := List.mem_append_left _ (mem_held_of_find? found)
  obtain ⟨new, t, access, after, ready', granted⟩ :=
    (privateCell_succeeds ready (session.held ++ []) old).ensuring
      (Store.privateCell_grants sound.store (session.held ++ []) old)
  have same : (t.heap.get new).layout = some layout := granted.layout.trans record
  have inside : new < t.heap.size := granted.lt within member
  have given : (Script.makePrivate [] (.name name)).run session =
      (.ok new, ({ session with store := t } : Session).bind name new) := by
    have free : ∀ code, Handle.name name ≠ .code code := by simp
    rw [makePrivate_run sound none free trivial found, access]
    rfl
  have run : (Script.change name (.rename names)).run session = _ := run_change_given found given
  have memory : t.memory = .ample := ready'.ample
  change _ = (({ session with store := t } : Session).bind name new).answered old new
    ((Edit.rename names).apply.run (t.heap.get new, t.memory)) at run
  rw [memory, (Edit.apply_ends ..).eq_of_ample] at run
  have ran : (Script.execute (.edit name (.rename names))).run session =
      (Script.change name (.rename names)).run session := rfl
  cases taken : layout.afterRename names with
  | error error =>
      have applied : (Edit.rename names : Edit Ref Interval).outcome (t.heap.get new) =
          .error error := by
        simp only [Edit.outcome, same, taken]
        rfl
      rw [applied, Change.ending, answered_same inside] at run
      rw [step_eq (ran.trans run)]
      exact .refused (Layout.rename_run_of_error taken) (find?_bind_self _ name new) same
        (after.spend fun _ => rfl).grows
  | ok renamed =>
      have applied : (Edit.rename names : Edit Ref Interval).outcome (t.heap.get new) =
          .ok (.nothing, { t.heap.get new with layout := some renamed }) := by
        simp only [Edit.outcome, same, taken]
        rfl
      rw [applied] at run
      rw [step_eq (ran.trans run)]
      refine .accepted (Layout.rename_run_of_afterRename taken) (find?_bind_self _ name new) ?_
      exact congrArg _ (Heap.get_set_self _ inside)

/-- New names are taken over exactly when the layout admits them, as long as there is memory. Every
entry stays in its place, and the old names can be taken back. -/
theorem names_replaced (commands : List Command) {layout : Layout} (listed : layout.Listed)
    (names : Names) :
    ((∃ renamed, (Layout.rename names).run (layout, .ample) = (.ok (), renamed, .ample)) ↔
      layout.Admits names) ∧
    (∀ memory renamed left, (Layout.rename names).run (layout, memory) = (.ok (), renamed, left) →
      layout.Admits names ∧ layout.Replaced names renamed) ∧
    (∀ memory error after left,
      (Layout.rename names).run (layout, memory) = (.error error, after, left) → after = layout) ∧
    ((initial.run commands).store.Accepting → ∀ name ref,
      (initial.run commands).find? name = some ref →
      ((initial.run commands).store.heap.get ref).layout = some layout →
      (initial.run commands).Renamed name layout names
        ((initial.run commands).step (.edit name (.rename names)))) := by
  have sound := sound_run sound_initial commands
  refine ⟨?_, fun memory renamed left ran => ?_, fun memory error after left ran => ?_, ?_⟩
  · refine Iff.trans ⟨?_, ?_⟩ Layout.rename_succeeds_iff
    · rintro ⟨renamed, ran⟩
      exact ⟨renamed, Layout.afterRename_of_run ran⟩
    · rintro ⟨renamed, taken⟩
      exact ⟨renamed, Layout.rename_run_of_afterRename taken⟩
  · have taken := Layout.afterRename_of_run ran
    exact ⟨Layout.admits_of_rename taken, listed.replaced taken⟩
  · have ends := layout.rename_ends names memory
    rw [ran] at ends
    exact ends.unchanged rfl
  · exact fun accepting name ref found record =>
      step_renamed sound ⟨accepting, ample_run commands⟩ found record names

def titledRow : List Command :=
  [.make "r" (.build ⟨false, [⟨"x", some "t", .scalar .int, [], none⟩,
    ⟨"y", none, .scalar .short, [], none⟩, ⟨"z", none, .scalar .byte, [], none⟩]⟩)]

def titledLayout : Layout where
  names := ["x", "y", "z"]
  table := (((Table.empty.put "x" ⟨5, 0, some "t"⟩).put "t" ⟨5, 0, some "t"⟩).put "y"
    ⟨3, 4, none⟩).put "z" ⟨1, 6, none⟩

theorem names_replaced_shiftedNames : titledLayout.Listed ∧
    (∃ renamed, (Layout.rename ["y", "z", "w"]).run (titledLayout, .ample) =
        (.ok (), renamed, .ample) ∧
      renamed.table.keys = ["y", "t", "z", "w"] ∧
      titledLayout.Replaced ["y", "z", "w"] renamed) ∧
    ¬ titledLayout.Admits ["y", "z", "t"] ∧
    (initial.run titledRow).Renamed "r" titledLayout ["y", "z", "t"]
      ((initial.run titledRow).step (.edit "r" (.rename ["y", "z", "t"]))) := by
  have listed : titledLayout.Listed := ⟨by decide, by decide⟩
  obtain ⟨-, replaced, -, -⟩ := names_replaced titledRow listed ["y", "z", "w"]
  obtain ⟨accepted, -, -, renamed⟩ := names_replaced titledRow listed ["y", "z", "t"]
  refine ⟨listed, ⟨_, rfl, by decide, (replaced .ample _ _ rfl).2⟩, fun admits => ?_, ?_⟩
  · obtain ⟨_, taken⟩ := accepted.2 admits
    cases taken
  · exact renamed (Store.accepting_of_bare rfl) "r" 23 rfl rfl

def RefusesWhole (session : Session) (name : String) (plan : Edit Source IntervalSource) : Prop :=
  ∀ error copied ref, (session.step (.edit name plan)).1 = .edited (.error error) copied ref →
    (session.step (.edit name plan)).2.find? name = some ref ∧
    ∃ before, session.find? name = some before ∧
      ((session.step (.edit name plan)).2.store.heap.get ref).layout =
        (session.store.heap.get before).layout

theorem refusesWhole {session : Session} (sound : session.Sound) (name : String)
    (plan : Edit Source IntervalSource) : session.RefusesWhole name plan := by
  intro error copied ref answer
  have refused := refused_edit sound answer
  obtain ⟨before, companion, found, -, content⟩ := refused.same
  exact ⟨refused.holds, before, found, by rw [content]⟩

/-- However renames overlap, they move every record in its place and merge none, or they are refused
for the first one that has something in its way, and nothing has moved. -/
theorem entries_rekeyed (memory : Memory) (commands : List Command) (table : Table)
    (renames : List Rename) :
    table.Rekeying renames memory ((Table.rekeyMany renames).run (table, memory)) ∧
    (∀ name old new, ((supplied memory).run commands).RefusesWhole name (.rekey old new)) ∧
    ∀ name names, ((supplied memory).run commands).RefusesWhole name (.rename names) := by
  have sound := sound_run (sound_supplied memory) commands
  refine ⟨table.rekeying renames memory, fun name old new => ?_, fun name names => ?_⟩
  · exact refusesWhole sound name (.rekey old new)
  · exact refusesWhole sound name (.rename names)

theorem entries_rekeyed_exchanged :
    (∃ moved, titledLayout.table.Rekeyed
        [⟨"x", "y"⟩, ⟨"y", "x"⟩, ⟨"x", "w"⟩, ⟨"q", "v"⟩] moved ∧
      moved.keys = ["y", "t", "x", "z"]) ∧
    (∃ left, titledLayout.table.Rekeying [⟨"x", "y"⟩, ⟨"y", "x"⟩] (fun _ => false)
      (.error (.tableOutOfMemory .denied), titledLayout.table, left)) ∧
    titledLayout.table.Rekeying [⟨"x", "w"⟩, ⟨"q", "z"⟩, ⟨"y", "z"⟩] .ample
      (.error (.takenName "z"), titledLayout.table, .ample) ∧
    ∃ copied ref, ((initial.run titledRow).step (.edit "r" (.rekey "x" "y"))).1 =
        .edited (.error (.takenName "y")) copied ref ∧
      (((initial.run titledRow).step (.edit "r" (.rekey "x" "y"))).2.store.heap.get ref).layout =
        some titledLayout := by
  obtain ⟨exchanged, refuses, -⟩ := entries_rekeyed .ample titledRow titledLayout.table
    [⟨"x", "y"⟩, ⟨"y", "x"⟩, ⟨"x", "w"⟩, ⟨"q", "v"⟩]
  obtain ⟨blocked, -⟩ := entries_rekeyed .ample [] titledLayout.table
    [⟨"x", "w"⟩, ⟨"q", "z"⟩, ⟨"y", "z"⟩]
  obtain ⟨short, -⟩ := entries_rekeyed (fun _ => false) [] titledLayout.table
    [⟨"x", "y"⟩, ⟨"y", "x"⟩]
  refine ⟨?_, ⟨_, short⟩, blocked, ?_⟩
  · have accepted : (Table.rekeyMany [⟨"x", "y"⟩, ⟨"y", "x"⟩, ⟨"x", "w"⟩, ⟨"q", "v"⟩]).run
      (titledLayout.table, .ample) = (.ok (), _, _) := rfl
    rw [accepted] at exchanged
    cases exchanged with
    | moved _ _ rekeyed => exact ⟨_, rekeyed, by decide⟩
  · have answer : ((initial.run titledRow).step (.edit "r" (.rekey "x" "y"))).1 =
        .edited (.error (.takenName "y")) false 23 := by decide +kernel
    obtain ⟨-, before, found, kept⟩ := refuses "r" "x" "y" _ _ _ answer
    obtain rfl : 23 = before := Option.some.inj found
    exact ⟨false, 23, answer, kept⟩

end ElementTypes.Session
