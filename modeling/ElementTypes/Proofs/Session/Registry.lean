import ElementTypes.Proofs.Session.Isolation
import ElementTypes.Proofs.Store.Promote
import Mathlib.Data.Set.Card

/-! # Registered types in every session

Any commands may come between registrations, and descriptors may be registered that no name holds.
-/

namespace ElementTypes

namespace Store

def Knows (store : Store) (n : UInt16) : Prop :=
  ∃ ref, (shared (.user n)).run store = (.ok ref, store)

theorem shared_eq_ok {store : Store} {code : Code} {ref : Ref} :
    (shared code).run store = (.ok ref, store) ↔ store.cellOf? code = some ref := by
  cases cell : store.cellOf? code with
  | none =>
      rw [shared_run_unknown cell]
      exact ⟨fun same => (nomatch congrArg Prod.fst same), fun none => nomatch none⟩
  | some found =>
      rw [shared_run cell]
      refine ⟨fun same => congrArg some (Except.ok.inj (congrArg Prod.fst same)), fun same => ?_⟩
      rw [Option.some.inj same]

theorem knows_iff_find? {store : Store} {n : UInt16} :
    store.Knows n ↔ ∃ ref, store.registry.find? n = some ref := by
  simp only [Knows, shared_eq_ok]
  rfl

end Store

namespace Registry.Numbered

variable {store : Store} (numbered : store.registry.Numbered)
include numbered

theorem knows_iff {n : UInt16} :
    store.Knows n ↔ Code.firstUser ≤ n.toNat ∧ n < store.registry.next :=
  Store.knows_iff_find?.trans (numbered.taken n)

theorem ncard_knows : {n | store.Knows n}.ncard = store.registry.count := by
  have below : ∀ n ∈ Finset.Ico Code.firstUser store.registry.next.toNat,
      (UInt16.ofNat n).toNat = n := fun n member =>
    UInt16.toNat_ofNat_of_lt' (Nat.lt_trans (Finset.mem_Ico.1 member).2 (UInt16.toNat_lt _))
  have same : {n | store.Knows n} =
      (Finset.Ico Code.firstUser store.registry.next.toNat).image UInt16.ofNat := by
    ext n
    simp only [Set.mem_ofPred_eq, numbered.knows_iff, UInt16.lt_iff_toNat_lt, Finset.coe_image,
      Set.mem_image, Finset.mem_coe]
    constructor
    · intro known
      exact ⟨n.toNat, Finset.mem_Ico.2 known, UInt16.ofNat_toNat⟩
    · rintro ⟨m, member, rfl⟩
      rw [below m member]
      exact Finset.mem_Ico.1 member
  rw [same, Set.ncard_coe_finset, Finset.card_image_of_injOn, Nat.card_Ico, ← numbered.count,
    Nat.add_sub_cancel_left]
  intro a left b right here
  rw [← below a left, ← below b right, here]

end Registry.Numbered

/-- What may be done to a session: to run a command, or to register a descriptor. -/
inductive Call
  | command (command : Command)
  | register (d : Descriptor)

namespace Session

def call (session : Session) : Call → Session
  | .command command => (session.step command).2
  | .register d => { session with store := ((ElementTypes.register d).run session.store).2 }

def calls (session : Session) (list : List Call) : Session := list.foldl call session

/-- Whatever is registered has no references that lead outside the heap. -/
def Admits : Session → List Call → Prop
  | _, [] => True
  | session, call :: calls =>
    (∀ d, call = .register d → d.Fits session.store.heap) ∧ (session.call call).Admits calls

theorem registry_step {session : Session} (sound : session.Sound) (command : Command) :
    (session.step command).2.store.registry = session.store.registry ∨
      ∃ times d, command = .register times d := by
  have stepped := step_stepped sound command
  generalize session.step command = out at stepped
  cases stepped with
  | kept after => exact .inl after.store.registered
  | registered same _ => exact .inr ⟨_, _, same⟩
  | bound _ _ after => exact .inl after.store.registered
  | dropped => exact .inl rfl
  | edited _ after _ _ changed => exact .inl (changed.grows.1.trans after.store.grows.registry)

section Calling

variable {session : Session} (sound : session.Sound) {call : Call}
  (fits : ∀ d, call = .register d → d.Fits session.store.heap)
include sound fits

theorem sound_call : (session.call call).Sound := by
  cases call with
  | command command => exact sound_step sound command
  | register d => exact sound.after ⟨(register_follows sound.store (fits d rfl)).later, rfl⟩

theorem ample_call (ample : session.store.Ample) : (session.call call).store.Ample := by
  cases call with
  | command command => exact ample_step sound ample command
  | register d => exact (register_follows sound.store (fits d rfl)).later.keeps.ample ample

theorem isolated_call {code : Code} {ref : Ref} (found : session.follow? (.code code) = some ref) :
    session.Isolated (session.call call) (.code code) ref := by
  cases call with
  | command command => exact isolated_step sound found trivial id
  | register d =>
      have after := (register_follows sound.store (fits d rfl)).later
      exact isolated_of_follows sound after found trivial fun _ none => nomatch none

end Calling

theorem sound_calls {session : Session} (sound : session.Sound) {calls : List Call}
    (admits : session.Admits calls) : (session.calls calls).Sound := by
  induction calls generalizing session with
  | nil => exact sound
  | cons call calls ih => exact ih (sound_call sound admits.1) admits.2

theorem ample_calls {session : Session} (sound : session.Sound) {calls : List Call}
    (admits : session.Admits calls) (ample : session.store.Ample) :
    (session.calls calls).store.Ample := by
  induction calls generalizing session with
  | nil => exact ample
  | cons call calls ih =>
      exact ih (sound_call sound admits.1) admits.2 (ample_call sound admits.1 ample)

theorem isolated_calls {session : Session} (sound : session.Sound) {calls : List Call}
    (admits : session.Admits calls) {code : Code} {ref : Ref}
    (found : session.follow? (.code code) = some ref) :
    session.Isolated (session.calls calls) (.code code) ref := by
  induction calls generalizing session with
  | nil => exact ⟨found, .refl _ ref⟩
  | cons call calls ih =>
      have first := isolated_call sound admits.1 found
      exact first.trans (ih (sound_call sound admits.1) admits.2 first.follow)

/-- A registered number stays with its cell, whatever is done later. What the cell holds is kept but
for flags for objects, and so is everything below it. -/
def Holds (session : Session) (n : UInt16) (ref : Ref) : Prop :=
  ∀ later, session.Admits later →
    (shared (.user n)).run (session.calls later).store = (.ok ref, (session.calls later).store) ∧
      session.store.heap.TreeKept (session.calls later).store.heap ref

theorem holds_of_shared {session : Session} (sound : session.Sound) {n : UInt16} {ref : Ref}
    (found : (shared (.user n)).run session.store = (.ok ref, session.store)) :
    session.Holds n ref := by
  intro later admits
  have kept := isolated_calls sound admits (Store.shared_eq_ok.1 found)
  exact ⟨Store.shared_eq_ok.2 kept.follow, kept.tree⟩

/-- The numbers in use are those from the first one up to the counter. A registration succeeds with
the number that the counter gives, while there is one left and the size is not zero, and otherwise
changes nothing; no other command touches the registry. -/
structure NumbersUsers (session : Session) : Prop where
  numbers : ∀ n, session.store.Knows n ↔ 256 ≤ n.toNat ∧ n < session.store.registry.next
  linked : 256 + session.store.registry.count = session.store.registry.next.toNat
  count : session.step (.ask .userCount) = (.number {n | session.store.Knows n}.ncard, session)
  accepts : ∀ d, (∃ code t, (register d).run session.store = (.ok code, t)) ↔
    d.size ≠ 0 ∧ session.store.registry.next < 65535
  refused : ∀ d error t, (register d).run session.store = (.error error, t) → t = session.store ∧
    error = if d.size = 0 then .sizelessUserType else .userNumbersExhausted
  entered : ∀ d code t, d.Fits session.store.heap →
    (register d).run session.store = (.ok code, t) → ∃ ref,
      code = .user session.store.registry.next ∧
      t.registry.next.toNat = session.store.registry.next.toNat + 1 ∧
      (∀ n, t.Knows n ↔ session.store.Knows n ∨ n = session.store.registry.next) ∧
      t.heap.get ref = { d with code } ∧
      ({ session with store := t } : Session).Holds session.store.registry.next ref
  known : ∀ n ref, (shared (.user n)).run session.store = (.ok ref, session.store) →
    session.Holds n ref
  unknown : ∀ n, ¬ session.store.Knows n →
    (shared (.user n)).run session.store = (.error (.unknownCode n.toNat), session.store)
  others : ∀ command : Command, (∀ times d, command ≠ .register times d) →
    (session.step command).2.store.registry = session.store.registry

theorem numbersUsers {session : Session} (sound : session.Sound) : session.NumbersUsers where
  numbers _ := sound.store.numbered.knows_iff
  linked := sound.store.numbered.count
  count := by
    rw [sound.store.numbered.ncard_knows]
    rfl
  accepts d := by
    have bound := session.store.registry.next.toNat_lt
    have last : (65535 : UInt16).toNat = 65535 := rfl
    refine register_succeeds_iff.trans (and_congr_right fun _ => ?_)
    rw [UInt16.lt_iff_toNat_lt, Ne, ← UInt16.toNat_inj, last]
    omega
  refused _ _ _ ran := register_eq_error ran
  entered d code t fits ran := by
    have after : ({ session with store := t } : Session).Sound :=
      sound.after ⟨((register_follows sound.store fits).of_ok ran).1, rfl⟩
    obtain ⟨room, rfl, rfl⟩ := register_eq_ok ran
    have found := Registry.find?_enter_self session.store.registry session.store.heap.size
    refine ⟨session.store.heap.size, rfl, Registry.toNat_next_enter room _, fun n => ?_,
      Heap.get_alloc_self _ _, holds_of_shared after (Store.shared_eq_ok.2 found)⟩
    rw [Store.knows_iff_find?, Store.knows_iff_find?]
    by_cases same : n = session.store.registry.next
    · rw [same]
      exact ⟨fun _ => .inr rfl, fun _ => ⟨_, found⟩⟩
    · rw [or_iff_left same]
      exact exists_congr fun ref => by
        rw [Store.entered, Registry.find?_enter_of_ne _ _ same]
  known _ _ found := holds_of_shared sound found
  unknown n absent := by
    have none : session.store.registry.find? n = none := by
      rw [Option.eq_none_iff_forall_ne_some]
      exact fun ref found => absent (Store.knows_iff_find?.2 ⟨ref, found⟩)
    exact shared_run_unknown none
  others command other := by
    rcases registry_step sound command with same | ⟨times, d, same⟩
    · exact same
    · exact absurd same (other times d)

theorem users_numbered (memory : Memory) (calls : List Call)
    (admits : (supplied memory).Admits calls) : ((supplied memory).calls calls).NumbersUsers :=
  numbersUsers (sound_calls (sound_supplied memory) admits)

def mixedCalls : List Call :=
  [.register (.canonical .int), .register (.canonical .string),
    .command (.make "d" (.fresh .double)), .command (.register 1 (.named "d")),
    .command (.edit "d" (.size 4))]

theorem users_numbered_mixedCalls : initial.Admits mixedCalls ∧
    (initial.calls mixedCalls).store.registry.next = 258 ∧
    (shared (.user 257)).run (initial.calls mixedCalls).store =
      (.ok 25, (initial.calls mixedCalls).store) ∧
    (initial.calls mixedCalls).NumbersUsers := by
  have canonical : ∀ code heap d, Call.register (.canonical code) = .register d → d.Fits heap := by
    rintro code heap d same ref link
    rw [← Call.register.inj same, Descriptor.links_canonical] at link
    cases link
  have commanded : ∀ command heap d, Call.command command = .register d → d.Fits heap :=
    fun _ _ _ none => nomatch none
  have admits : initial.Admits mixedCalls :=
    ⟨canonical _ _, canonical _ _, commanded _ _, commanded _ _, commanded _ _, trivial⟩
  exact ⟨admits, by decide, rfl, users_numbered .ample mixedCalls admits⟩

end Session

end ElementTypes
