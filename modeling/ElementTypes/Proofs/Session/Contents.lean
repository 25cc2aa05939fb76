import ElementTypes.Proofs.Session.Acts
import ElementTypes.Proofs.Store.Characters
import ElementTypes.Proofs.Store.Extent
import ElementTypes.Proofs.Store.Intervals

/-! # What descriptors contain in every session -/

namespace ElementTypes.Session

/-- Unless an edit writes sizes, sub-arrays or fields, everything that lies in a descriptor ends
within its size. Offsets add up exactly here, whatever they are. -/
theorem nested_within {commands : List Command}
    (spared : ∀ name edit, Command.edit name edit ∈ commands → edit.form ∈ EditForm.sparing)
    {root ref : Ref} {start : Nat}
    (lies : (initial.run commands).store.heap.Lies root start ref) :
    start + ((initial.run commands).store.heap.get ref).size.toNat ≤
      ((initial.run commands).store.heap.get root).size.toNat := by
  have holding : (initial.run commands).store.Holding :=
    holds_run (fun _ _ sound holds act _ => holds.act sound act) Store.holding_initial
      (within_of_edits (fun _ => trivial) (fun _ _ => trivial) spared)
  exact holding.lies_within lies

def nestedArray : List Command :=
  [.make "in" (.build ⟨true, [⟨"x", none, .scalar .bool, [], none⟩,
      ⟨"y", some "t", .scalar .int, [], none⟩]⟩),
    .make "out" (.build ⟨true, [⟨"a", none, .scalar .bool, [], none⟩,
      ⟨"b", none, .existing (.named "in"), [3], none⟩]⟩),
    .edit "out" (.rename ["c", "d"])]

theorem nested_within_nestedArray : (initial.run nestedArray).store.heap.Lies 25 24 5 ∧
    24 + ((initial.run nestedArray).store.heap.get 5).size.toNat ≤
      ((initial.run nestedArray).store.heap.get 25).size.toNat := by
  have spared : ∀ name edit, Command.edit name edit ∈ nestedArray →
      edit.form ∈ EditForm.sparing := by
    intro name edit member
    simp only [nestedArray, List.mem_cons, reduceCtorEq, false_or, List.not_mem_nil, or_false,
      Command.edit.injEq] at member
    rw [member.2]
    decide
  have long : ((initial.run nestedArray).store.heap.get 23).size = 8 := by decide +kernel
  have array : ((initial.run nestedArray).store.heap.get 24).subarray = some ⟨23, [3]⟩ := by
    decide +kernel
  have outer : (initial.run nestedArray).store.heap.Lies 25 4 24 :=
    .field (e := ⟨⟨24, 4, none⟩, "d"⟩) .here (by decide +kernel)
  have last : (initial.run nestedArray).store.heap.Lies 25 20 23 := by
    have third := outer.element (k := 2) array (by decide)
    dsimp only at third
    rw [long] at third
    exact third
  have inner : (initial.run nestedArray).store.heap.Lies 25 24 5 :=
    .field (e := ⟨⟨5, 4, some "t"⟩, "t"⟩) last (by decide +kernel)
  exact ⟨inner, nested_within spared inner⟩

/-- The size of a unicode text is that of the characters that its type text counts. A promotion
gives a whole text unless one of the two splits a character of the other. -/
structure KeepsCharacters (store : Store) : Prop where
  counted : ∀ ref, (store.heap.get ref).code = .unicode →
    Code.characterSize.toNat * (store.heap.get ref).textSize.toNat =
      (store.heap.get ref).size.toNat
  promoted : ∀ a b result t, store.heap.equivalent a b = false →
    (promote a b).run store = (.ok result, t) → (t.heap.get result).code = .unicode →
      (Code.characterSize.toNat ∣ (t.heap.get result).size.toNat ↔
        ¬ (store.heap.get a).SplitBy (store.heap.get b) ∧
          ¬ (store.heap.get b).SplitBy (store.heap.get a))

theorem characters_kept {commands : List Command} (within : initial.Within .whole commands) :
    KeepsCharacters (initial.run commands).store := by
  have sound : (initial.run commands).store.Sound := (sound_run sound_initial commands).store
  have coded : (initial.run commands).store.Coded := coded_run commands
  have whole : (initial.run commands).store.Whole :=
    holds_run (fun _ _ _ whole act _ => whole.act act) Store.whole_initial within
  exact {
    counted := fun ref => (whole ref).counted
    promoted := fun a b _ _ apart ran text =>
      promote_whole_iff sound coded apart ran text (whole a) (whole b) }

def twoTexts : List Command :=
  [.make "t" (.build ⟨false, [⟨"s", none, .string 5, [], none⟩,
      ⟨"u", none, .unicode 3, [], none⟩]⟩),
    .enterField "s" (.named "t") "s",
    .enterField "u" (.named "t") "u",
    .make "r" (.promote (.named "s") (.named "u"))]

theorem characters_kept_twoTexts : initial.Within .whole twoTexts ∧
    ((initial.run twoTexts).store.heap.get 26).size = 20 ∧
      KeepsCharacters (initial.run twoTexts).store := by
  have within : initial.Within .whole twoTexts := by
    refine ⟨?_, trivial, trivial, ?_, trivial⟩
    · intro field member n text
      simp only [List.mem_cons, List.not_mem_nil, or_false] at member
      rcases member with rfl | rfl
      · cases text
      · cases text
        show 4 * (3 : Size).toNat < UInt64.size
        decide
    · exact Command.within_promote_named (x := 23) (y := 24) (by decide +kernel)
        (by decide +kernel) (show ¬ _ ∧ ¬ _ by decide +kernel)
  exact ⟨within, by decide +kernel, characters_kept within⟩

def splitCharacter : List Command := [.make "r" (.promote (.shared .bool) (.shared .unicode))]

theorem character_split : ∃ ref,
    ((initial.run splitCharacter).store.heap.get ref).code = .unicode ∧
      ¬ Code.characterSize.toNat ∣ ((initial.run splitCharacter).store.heap.get ref).size.toNat :=
  ⟨23, by decide +kernel, by decide +kernel⟩

/-- A built-in code has an interval if and only if it is temporal, and a registered one has that of
the type as it was registered. So the codes decide about intervals throughout as long as no type
was registered with one. -/
structure KeepsIntervals (store : Store) : Prop where
  builtin : ∀ ref, (store.heap.get ref).code.isBuiltin = true →
    (store.heap.get ref).interval.isSome = (store.heap.get ref).code.isTemporal
  registered : ∀ ref n, (store.heap.get ref).code = .user n → ∃ cell,
    store.cellOf? (.user n) = some cell ∧ (store.heap.get cell).code = .user n ∧
      (store.heap.get cell).interval = (store.heap.get ref).interval
  register : ∀ d code t, (ElementTypes.register d).run store = (.ok code, t) → ∃ cell,
    t.cellOf? code = some cell ∧ (t.heap.get cell).code = code ∧
      (t.heap.get cell).interval = d.interval
  throughout :
    (∀ n cell, store.cellOf? (.user n) = some cell → (store.heap.get cell).interval = none) ↔
      ∀ ref, (store.heap.get ref).interval.isSome = (store.heap.get ref).code.isTemporal

theorem intervals_kept (commands : List Command) :
    KeepsIntervals (initial.run commands).store := by
  have coded : (initial.run commands).store.Coded := coded_run commands
  have timed : (initial.run commands).store.Timed :=
    holds_run (fun _ _ sound timed act _ => timed.act sound act) Store.timed_initial
      (within_any initial commands)
  exact {
    builtin := fun ref => (timed ref).builtin
    registered := fun ref n code => by
      obtain ⟨cell, found, same⟩ := (timed ref).registered n code
      exact ⟨cell, found, (coded.users n cell found).2, same⟩
    register := fun _ _ _ ran => register_interval ran
    throughout := timed.consistent_iff coded }

theorem registered_interval_kept : ∃ ref,
    ((initial.run [.register 1 (.shared .datetime)]).store.heap.get ref).code = .user 256 ∧
      ((initial.run [.register 1 (.shared .datetime)]).store.heap.get ref).interval.isSome ≠
        ((initial.run [.register 1 (.shared .datetime)]).store.heap.get ref).code.isTemporal := by
  exact ⟨23, by decide +kernel, by decide +kernel⟩

end ElementTypes.Session
