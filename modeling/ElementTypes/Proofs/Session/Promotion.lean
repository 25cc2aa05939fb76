import ElementTypes.Proofs.Session.Reachable
import ElementTypes.Proofs.Store.Absorb

/-! # What promotions hold in every session -/

namespace ElementTypes.Session

/-- A list of ordinary descriptors, promoted from the left, ends in a descriptor that all of them
are cast to. Without objects and with strings of moderate size, it has room for all of them too. -/
theorem folds_hold (commands : List Command) (accepting : (initial.run commands).store.Accepting)
    {first : Ref} {rest : List Ref}
    (inside : ∀ m ∈ first :: rest, m < (initial.run commands).store.heap.size)
    (ordinary : ∀ m ∈ first :: rest, ((initial.run commands).store.heap.get m).Ordinary) :
    ∃ result later,
      (rest.foldlM promote first).run (initial.run commands).store = (.ok result, later) ∧
      (∀ m ∈ first :: rest, ((initial.run commands).store.heap.get m).code.castsTo
        (later.heap.get result).code = true) ∧
      ((∀ m ∈ first :: rest, ((initial.run commands).store.heap.get m).code ≠ .object ∧
          (((initial.run commands).store.heap.get m).code = .string →
            4 * ((initial.run commands).store.heap.get m).size.toNat < UInt64.size)) →
        ∀ m ∈ first :: rest,
          (later.heap.get result).Covers ((initial.run commands).store.heap.get m)) := by
  have sound := (sound_run sound_initial commands).store
  have coded : (initial.run commands).store.Coded := coded_run commands
  have ready : (initial.run commands).store.Ready := ⟨accepting, ample_run commands⟩
  generalize (initial.run commands).store = store at *
  obtain ⟨result, later, ran, -, casts⟩ :=
    fold_succeeds accumulates_ordinary sound coded ready inside ordinary
  refine ⟨result, later, ran, casts, fun moderate => ?_⟩
  obtain ⟨_, _, ran', -, covers⟩ := fold_succeeds accumulates_modest sound coded ready inside
    fun m member => ⟨ordinary m member, (moderate m member).1, (moderate m member).2⟩
  obtain ⟨same, rfl⟩ := Prod.mk.inj (ran.symm.trans ran')
  obtain rfl := Except.ok.inj same
  exact covers

set_option maxRecDepth 1000 in
theorem folds_hold_texts : (initial.run texts).store.Accepting ∧
    (∀ m ∈ [5, 23, 24], ((initial.run texts).store.heap.get m).Ordinary) ∧
    ∃ result later, ([23, 24].foldlM promote 5).run (initial.run texts).store = (.ok result, later) ∧
      (∀ m ∈ [5, 23, 24], ((initial.run texts).store.heap.get m).code.castsTo
        (later.heap.get result).code = true) ∧
      ∀ m ∈ [5, 23, 24],
        (later.heap.get result).Covers ((initial.run texts).store.heap.get m) := by
  have accepting : (initial.run texts).store.Accepting := Store.accepting_of_pairing rfl
  have ordinary : ∀ m ∈ [5, 23, 24], ((initial.run texts).store.heap.get m).Ordinary := by
    have all : ∀ m ∈ [5, 23, 24], ((initial.run texts).store.heap.get m).code.isBuiltin = true ∧
        ((initial.run texts).store.heap.get m).code.isTemporal = false ∧
        (((initial.run texts).store.heap.get m).code.isSizable = false →
          ((initial.run texts).store.heap.get m).size =
            ((initial.run texts).store.heap.get m).code.size) := by decide
    exact fun m member => ⟨(all m member).1, (all m member).2.1, (all m member).2.2⟩
  obtain ⟨result, later, ran, casts, covers⟩ :=
    folds_hold texts accepting (by decide) ordinary
  exact ⟨accepting, ordinary, result, later, ran, casts, covers (by decide)⟩

/-- Of descriptors with known codes, a promotion that the hook does not stop gives a result, and
its code is one that theirs may be promoted to. -/
theorem promotions_taken_in (commands : List Command) {a b : Ref}
    (left : a < (initial.run commands).store.heap.size)
    (right : b < (initial.run commands).store.heap.size)
    (known : ∃ cell, (initial.run commands).store.cellOf?
      ((initial.run commands).store.heap.get a).code = some cell)
    (known' : ∃ cell, (initial.run commands).store.cellOf?
      ((initial.run commands).store.heap.get b).code = some cell) :
    ((initial.run commands).store.Accepting →
      ∃ result later, (promote a b).run (initial.run commands).store = (.ok result, later)) ∧
    ∀ result later, (promote a b).run (initial.run commands).store = (.ok result, later) →
      Descriptor.PromotedTo (later.heap.get result).code
        ((initial.run commands).store.heap.get a).code
        ((initial.run commands).store.heap.get b).code := by
  have sound := (sound_run sound_initial commands).store
  have coded : (initial.run commands).store.Coded := coded_run commands
  have ample : (initial.run commands).store.Ample := ample_run commands
  generalize (initial.run commands).store = store at *
  refine ⟨fun accepting => ?_, fun result later ran => ?_⟩
  · obtain ⟨result, later, ran, -⟩ :=
      promote_succeeds ⟨accepting, ample⟩ (cellOf?_goal known known')
    exact ⟨result, later, ran⟩
  · obtain ⟨-, value⟩ := promote_promotes sound coded left right
    rw [ran] at value
    exact (value result rfl).2.2.promotedTo (coded.cells a) (coded.cells b)

def registeredNumber : List Command := [.register 1 (.shared .int)]

theorem promotions_taken_in_bool :
    23 < (initial.run registeredNumber).store.heap.size ∧
    ∃ result later, (promote 0 23).run (initial.run registeredNumber).store = (.ok result, later) ∧
      (later.heap.get result).code.TakesIn .bool (.user 256) := by
  have inside : 23 < (initial.run registeredNumber).store.heap.size := by decide +kernel
  have known : (initial.run registeredNumber).store.cellOf?
      ((initial.run registeredNumber).store.heap.get 23).code = some 23 := by decide +kernel
  obtain ⟨finds, taken⟩ := promotions_taken_in registeredNumber (a := 0) (b := 23)
    (by decide +kernel) inside ⟨0, by decide +kernel⟩ ⟨23, known⟩
  obtain ⟨result, later, ran⟩ := finds fun hook installed => nomatch installed
  have searched : ¬ Code.Unsearched .bool (.user 256) := fun unsearched => unsearched.2.2.1 rfl
  exact ⟨inside, result, later, ran,
    (taken result later ran).safe searched ⟨.object, by decide, by decide⟩⟩

theorem registered_not_searched :
    ∃ result later, (promote 5 23).run (initial.run registeredNumber).store = (.ok result, later) ∧
      (initial.run registeredNumber).store.cellOf? .int = some 5 ∧
      (initial.run registeredNumber).store.cellOf? (.user 256) = some 23 ∧
      ((initial.run registeredNumber).store.heap.get 5).code = .int ∧
      ((initial.run registeredNumber).store.heap.get 23).code = .user 256 ∧
      Code.TakesIn .object .int (.user 256) ∧
      ¬ (later.heap.get result).code.TakesIn .int (.user 256) := by
  refine ⟨_, _, rfl, rfl, by decide +kernel, rfl, by decide +kernel, ⟨by decide, by decide⟩, ?_⟩
  rintro ⟨left, -⟩
  exact absurd left (by decide +kernel)

/-- Either argument of a promotion, promoted with its result in any store that comes after, gives
a descriptor equal to that result. -/
theorem promotions_absorbing (commands : List Command)
    (accepting : (initial.run commands).store.Accepting) {a b r : Ref}
    (left : a < (initial.run commands).store.heap.size)
    (right : b < (initial.run commands).store.heap.size) {t : Store}
    (ran : (promote a b).run (initial.run commands).store = (.ok r, t)) :
    t.Leads t ∧ ∀ later, t.Leads later → ∀ m ∈ [a, b], ∃ result last,
      (promote m r).run later = (.ok result, last) ∧ later.Leads last ∧
      (last.heap.get result).code = (t.heap.get r).code ∧
      (last.heap.get result).size = (t.heap.get r).size ∧
      last.heap.equal result r = true := by
  have sound := (sound_run sound_initial commands).store
  have coded : (initial.run commands).store.Coded := coded_run commands
  have ready : (initial.run commands).store.Ready := ⟨accepting, ample_run commands⟩
  generalize (initial.run commands).store = store at *
  obtain ⟨first, inside⟩ := (promote_leads sound (a := a) right).of_ok ran
  refine ⟨Onward.here first, fun later after m member => ?_⟩
  obtain ⟨result, last, again, next, same⟩ :=
    promote_absorbs sound coded ran ready left right after m member
  have kept : last.heap.get r = t.heap.get r :=
    (Onward.trans after next : t.Leads last).grows.heap.get r inside
  have alike := (Heap.equalWithin_succ ..).1 same
  rw [kept] at alike
  exact ⟨result, last, again, next, alike.code, alike.size, same⟩

set_option maxRecDepth 1000 in
theorem promotions_absorbing_texts : (initial.run texts).store.Accepting ∧
    ∃ r t result last, (promote 23 24).run (initial.run texts).store = (.ok r, t) ∧
      (promote 23 r).run t = (.ok result, last) ∧ (t.heap.get r).code = .unicode ∧
      (t.heap.get r).size = 12 ∧ (last.heap.get result).code = .unicode ∧
      (last.heap.get result).size = 12 := by
  have accepting : (initial.run texts).store.Accepting := Store.accepting_of_pairing rfl
  have code : ∃ r t, (promote 23 24).run (initial.run texts).store = (.ok r, t) ∧
      (t.heap.get r).code = .unicode ∧ (t.heap.get r).size = 12 :=
    ⟨_, _, rfl, by decide, by decide⟩
  obtain ⟨r, t, ran, unicode, long⟩ := code
  obtain ⟨here, absorbs⟩ :=
    promotions_absorbing texts accepting (by decide) (by decide) ran
  obtain ⟨result, last, again, -, code, size, -⟩ := absorbs t here 23 (by simp)
  exact ⟨accepting, r, t, result, last, ran, again, unicode, long, code.trans unicode,
    size.trans long⟩

end ElementTypes.Session
