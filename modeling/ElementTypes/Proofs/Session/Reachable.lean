import ElementTypes.Proofs.Heap.Equivalence
import ElementTypes.Proofs.Heap.Scans
import ElementTypes.Proofs.Session.Acts
import ElementTypes.Proofs.Session.Exclusive
import ElementTypes.Proofs.Store.Mismatch
import ElementTypes.Proofs.Store.Promote
import ElementTypes.Proofs.Store.Read
import ElementTypes.Proofs.Store.Swap
import ElementTypes.Proofs.Store.Walks

/-! # Operations in every session -/

namespace ElementTypes.Session

/-- Unless the hook turns a copy down, a change of byte order succeeds, writes no cell that was
there before, and gives a new cell that renews the old one. No old cell reaches a new one. -/
theorem reorder_renews (commands : List Command) (change : OrderChange) {ref : Ref}
    (inside : ref < (initial.run commands).store.heap.size)
    (accepting : (initial.run commands).store.Accepting) :
    ∃ new t, (do adopt (← reorder change ref) : Run Ref).run (initial.run commands).store =
        (.ok new, t) ∧
      (initial.run commands).store.heap.Extends t.heap ∧
      (initial.run commands).store.heap.RenewedAt change ref new t ∧
      ∀ old cell, old < (initial.run commands).store.heap.size → t.heap.Reaches old cell →
        cell < (initial.run commands).store.heap.size := by
  have sound := (sound_run sound_initial commands).store
  have ready : (initial.run commands).store.Ready := ⟨accepting, ample_run commands⟩
  generalize (initial.run commands).store = store at *
  obtain ⟨new, t, ran, -⟩ := (reorder_succeeds change ready ref).bind
    fun d t ready => adopt_succeeds ready d
  obtain ⟨after, value⟩ := reorder_renewedAt change sound inside
  rw [ran] at after value
  exact ⟨new, t, ran, after.grows.heap, value new rfl, fun old cell bound path =>
    after.grows.heap.reaches_lt sound.closed path bound⟩

def titledField : List Command :=
  [.install (some .pairing), .make "i" (.fresh .int),
    .make "r" (.build ⟨false, [⟨"x", some "t", .existing (.named "i"), [], none⟩]⟩)]

theorem reorder_renews_titledField :
    24 < (initial.run titledField).store.heap.size ∧ (initial.run titledField).store.Accepting ∧
    ∃ new t, (do adopt (← reorder .swap 24) : Run Ref).run (initial.run titledField).store =
        (.ok new, t) ∧
      (initial.run titledField).store.heap.Extends t.heap ∧
      (initial.run titledField).store.heap.RenewedAt .swap 24 new t ∧
      ∀ old cell, old < (initial.run titledField).store.heap.size → t.heap.Reaches old cell →
        cell < (initial.run titledField).store.heap.size := by
  have inside : 24 < (initial.run titledField).store.heap.size := by decide
  have accepting : (initial.run titledField).store.Accepting := by
    intro hook installed
    obtain rfl : Hook.pairing = hook := Option.some.inj installed
    exact fun heap earlier offer => ⟨_, rfl⟩
  exact ⟨inside, accepting, reorder_renews titledField .swap inside accepting⟩

theorem scans_pure (commands : List Command) : (initial.run commands).store.heap.ScansPurely :=
  have sound := (sound_run sound_initial commands).store
  Heap.scansPurely sound.closed sound.acyclic

def clearedField : List Command :=
  [.make "in" (.build ⟨false, [⟨"o", none, .scalar .object, [], none⟩]⟩),
    .edit "in" (.flags .empty),
    .make "out" (.fresh .void), .edit "out" (.fields ["in"] [⟨"in", .named "in", 0, none⟩])]

theorem scans_pure_clearedField :
    ((initial.run clearedField).store.heap.findObjects
        ((initial.run clearedField).store.heap.get 24)).1 = true ∧
      ∃ refs, (initial.run clearedField).store.heap.Trail
        ((initial.run clearedField).store.heap.get 24) refs := by
  have found : ((initial.run clearedField).store.heap.findObjects
      ((initial.run clearedField).store.heap.get 24)).1 = true := by decide +kernel
  have fits : ((initial.run clearedField).store.heap.get 24).Fits
      (initial.run clearedField).store.heap := by
    have links : ((initial.run clearedField).store.heap.get 24).links = [23] := by decide +kernel
    intro ref link
    rw [links, List.mem_singleton] at link
    rw [link]
    decide +kernel
  obtain ⟨refs, trail, -⟩ := (scans_pure clearedField).trail _ fits found
  exact ⟨found, refs, trail⟩

/-! ## Layouts -/

/-- Every record that is built has a well-formed layout, and what is made of such a record has one
again. Its names list every field once, and new names change no answer about any descriptor. -/
structure KeepsLayouts (session : Session) : Prop where
  build : ∀ plan d t, (ElementTypes.build plan).run session.store = (.ok d, t) → d.WellLaid
  duplicate : ∀ ref, (session.store.heap.get ref).WellLaid →
    Yields (ElementTypes.duplicate ref) session.store fun d _ => d.WellLaid
  privateCell : ∀ held ref, (session.store.heap.get ref).WellLaid →
    Yields (ElementTypes.privateCell held ref) session.store fun new t => (t.heap.get new).WellLaid
  makePrivate : ∀ args handle old new after, (∀ ref ∈ args, ref < session.store.heap.size) →
    (∀ code, handle ≠ .code code) → session.Has handle → session.follow? handle = some old →
    (session.store.heap.get old).WellLaid →
    (Script.makePrivate args handle).run session = (.ok new, after) →
    (after.store.heap.get new).WellLaid
  reorder : ∀ change ref, (session.store.heap.get ref).WellLaid →
    Yields (ElementTypes.reorder change ref) session.store fun d _ => d.WellLaid
  rename : ∀ (d : Descriptor) names memory result d' left, d.WellLaid →
    (Edit.rename names).apply.run (d, memory) = (result, d', left) → d'.WellLaid
  ordered : ∀ layout : Layout, layout.WellFormed →
    layout.ordered.Nodup ∧ layout.ordered.Perm layout.table.primary
  answers : ∀ cell names memory value d left, (session.store.heap.get cell).WellLaid →
    (Edit.rename names).apply.run (session.store.heap.get cell, memory) = (.ok value, d, left) →
    ∀ ref, (session.store.heap.set cell d).isNative ref = session.store.heap.isNative ref ∧
      ((session.store.heap.set cell d).findObjects ((session.store.heap.set cell d).get ref)).1 =
        (session.store.heap.findObjects (session.store.heap.get ref)).1

theorem layouts_kept (commands : List Command) : (initial.run commands).KeepsLayouts := by
  have sound := sound_run sound_initial commands
  have ample := ample_run commands
  exact {
    build := fun _ _ _ built => build_wellLaid built
    duplicate := fun _ laid => duplicate_wellLaid sound.store ample laid
    privateCell := fun held _ laid => privateCell_wellLaid sound.store ample laid held
    makePrivate := fun _ _ _ _ _ inside free has follows laid ran => by
      have given := exclusive_of_makePrivate sound inside free has follows ran
      rw [Descriptor.WellLaid, given.layout]
      exact laid
    reorder := fun change _ laid => reorder_wellLaid sound.store ample laid change
    rename := fun _ _ _ _ _ _ laid ran => rename_run_wellLaid laid ran
    ordered := fun _ formed => ⟨formed.ordered_nodup, formed.ordered_perm⟩
    answers := fun _ _ memory _ _ _ laid ran => rename_answers sound.store.closed
      sound.store.acyclic laid ((Edit.apply_ends (.rename _) _ memory).eq_ok_of_run ran) }

def titledPair : List Command :=
  [.make "r" (.build ⟨false, [⟨"x", some "t", .scalar .int, [], none⟩,
    ⟨"y", none, .scalar .object, [], none⟩]⟩)]

theorem layouts_kept_exchangedNames : ((initial.run titledPair).store.heap.get 23).WellLaid ∧
    ∃ value d left, (Edit.rename ["y", "x"]).apply.run ((initial.run titledPair).store.heap.get 23,
        (initial.run titledPair).store.memory) = (.ok value, d, left) ∧ d.WellLaid ∧
      d.find? "y" = some ⟨⟨5, 0, some "t"⟩, "y"⟩ ∧ d.find? "t" = some ⟨⟨5, 0, some "t"⟩, "t"⟩ := by
  have laid : ((initial.run titledPair).store.heap.get 23).WellLaid :=
    (layouts_kept []).build ⟨false, [⟨"x", some "t", .scalar .int, [], none⟩,
      ⟨"y", none, .scalar .object, [], none⟩]⟩ _ _ rfl
  have renamed : (Edit.rename ["y", "x"]).apply.run ((initial.run titledPair).store.heap.get 23,
      (initial.run titledPair).store.memory) = (.ok .nothing, _, _) := rfl
  exact ⟨laid, _, _, _, renamed, (layouts_kept titledPair).rename _ _ _ _ _ _ laid renamed, rfl,
    rfl⟩

/-! ## Comparisons -/

/-- Equivalence is what its name says. It takes no notice of identity: the comparison that goes
through all parts, even of a descriptor and itself, gives the same answers. Equal descriptors are
equivalent. -/
structure ComparesLawfully (heap : Heap) : Prop where
  equivalence : Equivalence fun a b => heap.equivalent a b = true
  plain : ∀ a b, heap.equivalent a b = heap.plainlyEquivalent a b
  steps : ∀ a b, a < heap.size → b < heap.size →
    heap.plainlyEquivalent a b = heap.comparePlainly heap.plainlyEquivalent a b
  equal : ∀ a b, heap.equal a b = true → heap.equivalent a b = true

theorem comparisons_lawful (commands : List Command) :
    ComparesLawfully (initial.run commands).store.heap := by
  have sound := (sound_run sound_initial commands).store
  exact {
    equivalence := Heap.equivalent_equivalence _
    plain := fun a b => Heap.equivalentWithin_eq_plainly _ _ a b
    steps := fun _ _ left right => Heap.plainlyEquivalent_eq sound.closed sound.acyclic left right
    equal := fun _ _ same => Heap.equivalent_of_equal sound.closed sound.acyclic same }

def otherOrder : List Command :=
  [.make "a" (.fresh .void), .make "b" (.fresh .void),
    .edit "a" (.fields ["x", "y"] [⟨"x", .shared .int, 0, none⟩, ⟨"y", .shared .bool, 4, none⟩]),
    .edit "b" (.fields ["x", "y"] [⟨"y", .shared .bool, 4, none⟩, ⟨"x", .shared .int, 0, none⟩])]

theorem comparisons_lawful_otherOrder :
    (initial.run otherOrder).store.heap.get 23 ≠ (initial.run otherOrder).store.heap.get 24 ∧
      (initial.run otherOrder).store.heap.equal 23 24 = true ∧
      (initial.run otherOrder).store.heap.equivalent 23 24 = true := by
  have same : (initial.run otherOrder).store.heap.equal 23 24 = true := by decide +kernel
  exact ⟨by decide +kernel, same, (comparisons_lawful otherOrder).equal 23 24 same⟩

/-! ## Swaps -/

/-- Swapping twice restores all nodes up to the spelling of their orders and their companions, and
swapping three times gives what swapping once gives. -/
theorem swaps_back (commands : List Command) {ref : Ref}
    (inside : ref < (initial.run commands).store.heap.size)
    (accepting : (initial.run commands).store.Accepting) :
    ∃ once twice thrice t,
      (swapThrice ref).run (initial.run commands).store = (.ok (once, twice, thrice), t) ∧
      (initial.run commands).store.heap.Extends t.heap ∧
      SwapsBack t.heap ref once twice thrice := by
  have sound := (sound_run sound_initial commands).store
  have ready : (initial.run commands).store.Ready := ⟨accepting, ample_run commands⟩
  obtain ⟨⟨once, twice, thrice⟩, t, ran, grown, back⟩ := swapThrice_succeeds sound ready inside
  exact ⟨once, twice, thrice, t, ran, grown, back⟩

theorem swaps_back_titledField :
    24 < (initial.run titledField).store.heap.size ∧ (initial.run titledField).store.Accepting ∧
    ∃ once twice thrice t,
      (swapThrice 24).run (initial.run titledField).store = (.ok (once, twice, thrice), t) ∧
      (initial.run titledField).store.heap.Extends t.heap ∧
      SwapsBack t.heap 24 once twice thrice := by
  have inside : 24 < (initial.run titledField).store.heap.size := by decide
  have accepting : (initial.run titledField).store.Accepting := Store.accepting_of_pairing rfl
  exact ⟨inside, accepting, swaps_back titledField inside accepting⟩

def companioned : List Command :=
  [.install (some .pairing), .make "i" (.fresh .int), .install none]

/-- Companions do not come back: a copy starts without one, and here no hook gives it any. -/
theorem companion_not_restored : 23 < (initial.run companioned).store.heap.size ∧
    (initial.run companioned).store.Accepting ∧ ∃ once twice thrice t,
      (swapThrice 23).run (initial.run companioned).store = (.ok (once, twice, thrice), t) ∧
      (t.heap.get twice).companion ≠ (t.heap.get 23).companion := by
  refine ⟨by decide, ?_, _, _, _, _, rfl, by decide⟩
  intro hook installed
  cases installed

/-! ## Promotions -/

/-- How a promotion ends does not depend on which of equivalent descriptors it gets, nor on their
order. Descriptors that are not equivalent count by their codes and sizes only, and a result with a
built-in code is canonical but for its size and companion. -/
structure PromotesLawfully (store : Store) : Prop where
  alike : ∀ a b a' b', a < store.heap.size → b < store.heap.size → a' < store.heap.size →
    b' < store.heap.size → store.heap.equivalent a a' = true → store.heap.equivalent b b' = true →
    store.PromotesAlike Heap.equivalent [(a, b), (b, a), (a', b')]
  determined : ∀ a b c d, a < store.heap.size → b < store.heap.size → c < store.heap.size →
    d < store.heap.size → store.heap.equivalent a b = false → store.heap.equivalent c d = false →
    (store.heap.get a).code = (store.heap.get c).code →
    (store.heap.get b).code = (store.heap.get d).code →
    (store.heap.get a).size = (store.heap.get c).size →
    (store.heap.get b).size = (store.heap.get d).size →
    store.PromotesAlike Heap.equal [(a, b), (b, a), (c, d)]
  plain : ∀ a b result later, store.heap.equivalent a b = false →
    (promote a b).run store = (.ok result, later) →
    (later.heap.get result).code.isBuiltin = true →
    later.heap.isNative result = true ∧ later.heap.get result =
      { Descriptor.canonical (later.heap.get result).code with
        size := (later.heap.get result).size
        companion := (later.heap.get result).companion }

theorem promotions_lawful (commands : List Command)
    (accepting : (initial.run commands).store.Accepting) :
    PromotesLawfully (initial.run commands).store := by
  have sound := (sound_run sound_initial commands).store
  have ready : (initial.run commands).store.Ready := ⟨accepting, ample_run commands⟩
  have coded := coded_run commands
  exact {
    alike := fun _ _ _ _ left right left' right' same same' =>
      promotions_agree sound left right coded ready left' right' same same'
    determined := fun _ _ _ _ left right left' right' apart apart' code code' size size' =>
      promotions_determined sound left right coded ready left' right' apart apart' code code'
        size size'
    plain := fun _ _ _ _ apart ran builtin => promote_plain sound coded apart ran builtin }

def texts : List Command :=
  [.install (some .pairing), .make "s" (.same (.written "S3")), .make "u" (.same (.written "U2")),
    .make "w" (.same (.written "<U2")), .make "f" (.same (.written ">U2"))]

set_option maxRecDepth 1000 in
theorem promotions_lawful_texts : (initial.run texts).store.Accepting ∧
    (initial.run texts).store.PromotesAlike Heap.equivalent [(23, 24), (24, 23), (23, 25)] ∧
    (initial.run texts).store.PromotesAlike Heap.equal [(23, 24), (24, 23), (23, 26)] ∧
    ∃ result later, (promote 23 26).run (initial.run texts).store = (.ok result, later) ∧
      (later.heap.get result).code = .unicode ∧ (later.heap.get result).size = 12 ∧
      later.heap.isNative result = true := by
  have accepting : (initial.run texts).store.Accepting := Store.accepting_of_pairing rfl
  have lawful := promotions_lawful texts accepting
  refine ⟨accepting, ?_, ?_, _, _, rfl, by decide +kernel, by decide +kernel, ?_⟩
  · exact lawful.alike 23 24 23 25 (by decide) (by decide) (by decide) (by decide)
      (by decide +kernel) (by decide +kernel)
  · exact lawful.determined 23 24 23 26 (by decide) (by decide) (by decide) (by decide)
      (by decide +kernel) (by decide +kernel) (by decide) (by decide) (by decide) (by decide)
  · exact (lawful.plain 23 26 _ _ (by decide +kernel) rfl (by decide +kernel)).1

/-! ## Texts -/

/-- Without a hook, the texts that are read are those of the grammar. -/
theorem texts_judged (commands : List Command) (bare : (initial.run commands).store.hook = none)
    (text : String) : (initial.run commands).store.Judges text :=
  judges (sound_run sound_initial commands).store bare text

theorem texts_judged_edges : TypeText.Accepted ">M08[007s/01000//+3]".toList ∧
    TypeText.Accepted "U4611686018427387903".toList ∧
    ¬ TypeText.Accepted "U4611686018427387904".toList ∧
    ¬ TypeText.Accepted "m8[-2s]".toList ∧
    ∃ e, (readType "m8[-2s]").run initial.store = (.error e, initial.store) ∧
      e = .unknownUnit "-2s" := by
  have judged := texts_judged [] rfl
  refine ⟨(judged _).accepts.1 ⟨_, rfl⟩, (judged _).accepts.1 ⟨_, rfl⟩, ?_, ?_, _, rfl, rfl⟩
  all_goals exact mt (judged _).accepts.2 fun ⟨_, read⟩ => nomatch read

/-- Without a hook, what was read from a text is read again from the text that it prints. -/
theorem texts_read_back (commands : List Command) (bare : (initial.run commands).store.hook = none)
    {text : String} {a : Ref} {t : Store}
    (ran : (readCell text).run (initial.run commands).store = (.ok a, t)) :
    ∃ b u, (readCell (t.heap.get a).text).run t = (.ok b, u) ∧ t.heap.Extends u.heap ∧
      ReadsBack u.heap a b := by
  have sound := (sound_run sound_initial commands).store
  exact readCell_readsBack sound bare ran

theorem texts_read_back_refined : ∃ t,
    (readCell "M8[3s/1000//-3]").run initial.store = (.ok 23, t) ∧
    (t.heap.get 23).text = "<M8[3ms//-3]" ∧
    ∃ b u, (readCell (t.heap.get 23).text).run t = (.ok b, u) ∧ t.heap.Extends u.heap ∧
      ReadsBack u.heap 23 b := by
  have ran : (readCell "M8[3s/1000//-3]").run initial.store = (.ok 23, _) := rfl
  exact ⟨_, ran, by decide, texts_read_back [] rfl ran⟩

/-! ## Mismatched orders -/

/-- What was read from a text without a hook is promoted with its swapped form to its native form
if and only if its interval is that of its code. -/
theorem mismatch_mended (commands : List Command)
    (bare : (initial.run commands).store.hook = none) {text : String} {d : Ref} {t : Store}
    (ran : (readCell text).run (initial.run commands).store = (.ok d, t)) :
    ∃ result native u, (promoteSwapped d).run t = (.ok (result, native), u) ∧
      t.heap.Extends u.heap ∧ Mended u.heap d result native := by
  have sound := (sound_run sound_initial commands).store
  obtain ⟨w, after, inside, here⟩ := readCell_worded sound bare ran
  have ready : t.Ready :=
    ⟨Store.accepting_of_bare (after.grows.hook.trans bare), after.grows.ample (ample_run commands)⟩
  obtain ⟨⟨result, native⟩, u, ran, grown, mended⟩ :=
    promoteSwapped_succeeds after.sound ready inside here
  exact ⟨result, native, u, ran, grown, mended⟩

theorem mismatch_mended_foreignText : ∃ t, (readCell ">U3").run initial.store = (.ok 23, t) ∧
    ∃ result native u, (promoteSwapped 23).run t = (.ok (result, native), u) ∧
      t.heap.Extends u.heap ∧ Mended u.heap 23 result native ∧
      u.heap.equivalent result native = true := by
  have ran : (readCell ">U3").run initial.store = (.ok 23, _) := rfl
  obtain ⟨result, native, u, ran', grown, mended⟩ := mismatch_mended [] rfl ran
  refine ⟨_, ran, result, native, u, ran', grown, mended, mended.equivalent.2 ?_⟩
  rw [grown.get 23 (by decide)]
  decide

theorem interval_not_mended : ∃ t, (readCell "<M8[ns]").run initial.store = (.ok 23, t) ∧
    ∃ result native u, (promoteSwapped 23).run t = (.ok (result, native), u) ∧
      u.heap.equivalent result native = false := by
  have ran : (readCell "<M8[ns]").run initial.store = (.ok 23, _) := rfl
  obtain ⟨w, after, inside, here⟩ := readCell_worded Store.sound_initial rfl ran
  have ready : Store.Ready _ := ⟨Store.accepting_of_bare after.grows.hook, after.grows.ample rfl⟩
  obtain ⟨⟨result, native⟩, u, ran', grown, mended⟩ :=
    promoteSwapped_succeeds after.sound ready inside here
  refine ⟨_, ran, result, native, u, ran', Bool.eq_false_iff.2 fun same => ?_⟩
  have interval := mended.equivalent.1 same
  rw [grown.get 23 inside] at interval
  exact absurd interval (by decide)

/-! ## Walks -/

/-- Whatever is linked to whatever, no descriptor comes to contain itself, and all walks end. -/
theorem walks_end (commands : List Command) : WalksEnd (initial.run commands).store :=
  (sound_run sound_initial commands).store.walksEnd

def selfPut : List Command :=
  [.make "r" (.build ⟨false, [⟨"x", none, .scalar .int, [], none⟩]⟩),
    .edit "r" (.put ⟨"self", .named "r", 0, none⟩)]

example : ((initial.run selfPut).store.heap.get 24).links = [5, 23] ∧
    ((initial.run selfPut).store.heap.get 23).links = [5] := by decide

end ElementTypes.Session
