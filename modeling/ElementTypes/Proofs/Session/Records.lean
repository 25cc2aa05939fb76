import ElementTypes.Proofs.Session.Reachable
import ElementTypes.Proofs.Store.Build

/-! # Records in every session -/

namespace ElementTypes.Session

/-- A record that is built is laid out as its blueprint says. Unless a field has an offset of its
own, the fields follow one another. -/
theorem records_laid_out (commands : List Command) {plan : Blueprint Ref}
    (fits : ∀ field ∈ plan.fields, field.Fits (initial.run commands).store.heap)
    {d : Descriptor} {t : Store}
    (ran : (build plan).run (initial.run commands).store = (.ok d, t)) :
    plan.LaidOut (initial.run commands).store t.heap d ∧
      ((∀ field ∈ plan.fields, field.offset = none) →
        plan.InOrder (initial.run commands).store d) := by
  have sound := (sound_run sound_initial commands).store
  obtain ⟨draft, makes⟩ := build_makes sound fits ran
  exact ⟨makes.laidOut, makes.inOrder⟩

def mixedNumbers : Blueprint Ref :=
  ⟨true, [⟨"a", none, .scalar .byte, [], none⟩, ⟨"b", none, .scalar .int, [], none⟩,
    ⟨"c", some "t", .scalar .short, [2, 3], none⟩]⟩

theorem records_laid_out_mixedNumbers : ∃ d t,
    (build mixedNumbers).run (initial.run []).store = (.ok d, t) ∧
    mixedNumbers.LaidOut (initial.run []).store t.heap d ∧
    mixedNumbers.InOrder (initial.run []).store d ∧
    (mixedNumbers.slots (initial.run []).store).map (·.start) = [0, 4, 8] ∧
    d.size = 20 ∧ d.alignment = 4 := by
  have built : ∃ d t, (build mixedNumbers).run (initial.run []).store = (.ok d, t) ∧
      d.size = 20 ∧ d.alignment = 4 := ⟨_, _, rfl, by decide, by decide⟩
  obtain ⟨d, t, ran, size, alignment⟩ := built
  have fits : ∀ field ∈ mixedNumbers.fields, field.Fits (initial.run []).store.heap := by
    simp [mixedNumbers, FieldPlan.Fits]
  obtain ⟨laid, ordered⟩ := records_laid_out [] fits ran
  exact ⟨d, t, ran, laid, ordered (by simp [mixedNumbers]), by decide, size, alignment⟩

/-- Unless a hook turns a copy down, exactly the buildable records are built. They are flagged when
they hold objects and only then. -/
theorem records_accepted (commands : List Command) {plan : Blueprint Ref}
    (accepting : (initial.run commands).store.Accepting)
    (fits : ∀ field ∈ plan.fields, field.Fits (initial.run commands).store.heap) :
    ((∃ d t, (build plan).run (initial.run commands).store = (.ok d, t)) ↔
      plan.Buildable (initial.run commands).store) ∧
    ∀ d t, (build plan).run (initial.run commands).store = (.ok d, t) →
      (d.flags = .object ↔ plan.BearsObjects (initial.run commands).store) ∧
      (d.flags = .empty ↔ ¬ plan.BearsObjects (initial.run commands).store) := by
  have sound := (sound_run sound_initial commands).store
  refine ⟨⟨?_, build_succeeds sound fits ⟨accepting, ample_run commands⟩⟩, fun d t ran => ?_⟩
  · rintro ⟨d, t, ran⟩
    obtain ⟨draft, makes⟩ := build_makes sound fits ran
    exact makes.buildable
  · obtain ⟨draft, makes⟩ := build_makes sound fits ran
    exact makes.flags_iff

def numberAndObjects (title : String) : Blueprint Ref :=
  ⟨false, [⟨"n", none, .scalar .int, [], some 8⟩, ⟨"o", some title, .scalar .object, [2], none⟩]⟩

theorem records_accepted_numberAndObjects : (initial.run []).store.Accepting ∧
    (numberAndObjects "t").Buildable (initial.run []).store ∧
    (∃ d t, (build (numberAndObjects "t")).run (initial.run []).store = (.ok d, t) ∧
      d.flags = .object) ∧
    ¬ ∃ d t, (build (numberAndObjects "n")).run (initial.run []).store = (.ok d, t) := by
  have accepting : (initial.run []).store.Accepting := Store.accepting_of_bare rfl
  have fits : ∀ title, ∀ field ∈ (numberAndObjects title).fields,
      field.Fits (initial.run []).store.heap := by
    simp [numberAndObjects, FieldPlan.Fits]
  have built : ∃ d t, (build (numberAndObjects "t")).run (initial.run []).store = (.ok d, t) :=
    ⟨_, _, rfl⟩
  obtain ⟨accepted, flags⟩ := records_accepted [] accepting (fits "t")
  obtain ⟨d, t, ran⟩ := built
  have bears : (numberAndObjects "t").BearsObjects (initial.run []).store :=
    ⟨_, List.mem_cons_of_mem _ (List.mem_singleton.2 rfl), .marked (by decide)⟩
  have flagged := (flags d t ran).1.2 bears
  refine ⟨accepting, accepted.1 ⟨d, t, ran⟩, ⟨d, t, ran, flagged⟩, fun other => ?_⟩
  have distinct := ((records_accepted [] accepting (fits "n")).1.1 other).labels
  exact absurd distinct (by decide)

end ElementTypes.Session
