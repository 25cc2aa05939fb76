import ElementTypes.Proofs.Session.Isolation

/-! # Failures

A change in place writes to its value, and so it might leave one half written; `Change.Atomic` says
that it does not.
-/

namespace ElementTypes

def Atomic {α : Type} (run : Run α) (store : Store) : Prop :=
  ∀ error t, run.run store = (.error error, t) → store.Grows t

theorem Ensures.atomic {α : Type} {run : Run α} {store : Store} {good : α → Store → Prop}
    (h : Ensures Store.Leads run store good) : Atomic run store := by
  intro error t ran
  have after := h.later
  rw [ran] at after
  exact after.grows

namespace Change

variable {σ α : Type}

/-- A change that fails leaves the value that it found, whatever it is and however little memory
there is. -/
def Atomic (change : Change σ α) : Prop :=
  ∀ value memory error after left,
    change.run (value, memory) = (.error error, after, left) → after = value

theorem atomic_of_ends {change : Change σ α} {outcome : σ → Except Error (α × σ)}
    (ends : ∀ value memory, Ends (outcome value) value memory (change.run (value, memory))) :
    change.Atomic := by
  intro value memory error after left ran
  have ended := ends value memory
  rw [ran] at ended
  exact ended.unchanged rfl

-- a change that writes before it asks for room is not atomic
example : ((Change.write 1 *> Change.reserve 1 (.outOfMemory .denied) : Change Nat Unit).run
    (0, fun _ => false)).2.1 = 1 := rfl

end Change

section Operations

variable {store : Store} (sound : store.Sound)
include sound

theorem build_atomic {plan : Blueprint Ref} (fits : ∀ field ∈ plan.fields, field.Fits store.heap) :
    Atomic (build plan) store := by
  intro error t ran
  have built := build_built sound fits
  rw [ran] at built
  cases built with
  | refused after => exact after.grows

omit sound in
theorem register_atomic (d : Descriptor) : Atomic (register d) store := by
  intro error t ran
  have registered := register_registered store d
  rw [ran] at registered
  cases registered with
  | refused => exact .refl store

end Operations

namespace Session

structure Denied (session after : Session) (failure : Failure) : Prop where
  store : session.store.Grows after.store
  bindings : after.bindings = session.bindings
  handles : ∀ handle ref, session.Has handle → session.follow? handle = some ref →
    after.follow? handle = some ref
  other : failure ≠ .refused .stillShared

theorem denied_of_makePrivate {session after : Session} (sound : session.Sound) {args : List Ref}
    (inside : ∀ ref ∈ args, ref < session.store.heap.size) {handle : Handle}
    (free : ∀ code, handle ≠ .code code) (has : session.Has handle) {old : Ref}
    (follows : session.follow? handle = some old) {failure : Failure}
    (ran : (Script.makePrivate args handle).run session = (.error failure, after)) :
    session.Denied after failure := by
  have access := makePrivate_run sound inside free has follows
  have parted := privateCell_parted sound.store (session.held ++ args) old
  rw [ran] at access
  generalize (privateCell (session.held ++ args) old).run session.store = out at access parted
  cases parted with
  | sole | copied => cases access
  | @denied error t _ other leads =>
      cases access
      refine ⟨leads.grows, rfl, fun handle ref has found => ?_,
        fun same => other (Failure.refused.inj same)⟩
      have kept : session.Isolated { session with store := t } handle ref :=
        isolated_of_follows sound (leads.follows sound.store) found has fun _ _ => rfl
      exact kept.follow

/-- What an edit that was refused has done to the session: the name holds what it held, or a copy
of it. -/
structure Refused (old new : Session) (name : String) (copied : Bool) (ref : Ref) : Prop where
  store : old.store.Grows new.store
  others : ∀ other, other ≠ name → new.find? other = old.find? other
  holds : new.find? name = some ref
  same : ∃ before companion, old.find? name = some before ∧ (copied = false → ref = before) ∧
    new.store.heap.get ref = { old.store.heap.get before with companion }

section Edits

variable {session : Session} (sound : session.Sound) {name : String}
include sound

theorem refused_of_changed {edit : Edit Ref Interval} {out : Except Failure Answer × Session}
    (changed : Changed session name edit out) {error : Error} {copied : Bool} {ref : Ref}
    (answer : Answer.ofResult out.1 = .edited (.error error) copied ref) :
    session.Refused out.2 name copied ref := by
  cases changed with
  | unbound => cases answer
  | @refused old t _ found after =>
      cases answer
      refine ⟨after.grows, fun _ _ => rfl, found, ref,
        (session.store.heap.get ref).companion, found, fun _ => rfl, ?_⟩
      exact after.grows.heap.get ref (sound.held ref (mem_held_of_find? found))
  | @failed old new t _ found after granted _ =>
      cases answer
      refine ⟨after.grows, fun other differs => find?_bind_of_ne _ ref differs,
        find?_bind_self _ name ref, ?_⟩
      cases granted with
      | sole => exact ⟨ref, (session.store.heap.get ref).companion, found, fun _ => rfl, rfl⟩
      | copied _ fresh _ copy =>
          obtain ⟨companion, same⟩ := copy
          exact ⟨old, companion, found, fun kept => by simpa using kept, same⟩
  | written => cases answer

theorem refused_edit {plan : Edit Source IntervalSource} {error : Error} {copied : Bool} {ref : Ref}
    (answer : (session.step (.edit name plan)).1 = .edited (.error error) copied ref) :
    session.Refused (session.step (.edit name plan)).2 name copied ref := by
  let post (out : Except Failure Answer × Session) :=
    Answer.ofResult out.1 = .edited (.error error) copied ref →
      session.Refused out.2 name copied ref
  have ran : post ((Script.execute (.edit name plan)).run session) := by
    refine (Script.edit_after sound plan).run_bind ?_ ?_
    · intro failure t _ none
      cases failure <;> cases none
    · intro settled t after holds same
      have refused := refused_of_changed (after.sound sound)
        (change_changed (after.sound sound) holds.2 name) same
      obtain ⟨before, companion, found, kept, content⟩ := refused.same
      rw [after.find?_eq] at found
      refine ⟨after.store.grows.trans refused.store, fun other differs => ?_, refused.holds,
        before, companion, found, kept, ?_⟩
      · rw [refused.others other differs, after.find?_eq]
      · rw [content, after.store.grows.heap.get before (sound.held _ (mem_held_of_find? found))]
  rw [step_eq (Prod.eta _).symm] at answer ⊢
  exact ran answer

end Edits

structure AtomicAt (session : Session) : Prop where
  duplicate : ∀ ref, Atomic (ElementTypes.duplicate ref) session.store
  fresh : ∀ code, Atomic (ElementTypes.fresh code) session.store
  reorder : ∀ change ref, ref < session.store.heap.size →
    Atomic (ElementTypes.reorder change ref) session.store
  promote : ∀ a b, b < session.store.heap.size → Atomic (ElementTypes.promote a b) session.store
  combine : ∀ a least, a < session.store.heap.size →
    (∀ ref, least = some ref → ref < session.store.heap.size) →
      Atomic (ElementTypes.combine a least) session.store
  readType : ∀ text, Atomic (ElementTypes.readType text) session.store
  build : ∀ plan : Blueprint Ref, (∀ field ∈ plan.fields, field.Fits session.store.heap) →
    Atomic (ElementTypes.build plan) session.store
  register : ∀ d, Atomic (ElementTypes.register d) session.store
  access : ∀ args, (∀ ref ∈ args, ref < session.store.heap.size) → ∀ handle,
    (∀ code, handle ≠ .code code) → session.Has handle → ∀ old, session.follow? handle = some old →
      ∀ failure after, (Script.makePrivate args handle).run session = (.error failure, after) →
        session.Denied after failure
  rekey : ∀ old new, (Table.rekey old new).Atomic
  rekeyMany : ∀ renames, (Table.rekeyMany renames).Atomic
  rename : ∀ names, (Layout.rename names).Atomic
  nameAt : ∀ index name, (Names.rename index name).Atomic
  apply : ∀ edit : Edit Ref Interval, edit.apply.Atomic
  edit : ∀ name plan error copied ref,
    (session.step (.edit name plan)).1 = .edited (.error error) copied ref →
      session.Refused (session.step (.edit name plan)).2 name copied ref

/-- Whatever commands have been run, whatever hook they have installed and whenever memory is
denied, no failure leaves a trace in what was there before. -/
theorem failures_atomic (memory : Memory) (commands : List Command) :
    ((supplied memory).run commands).AtomicAt := by
  have sound := sound_run (sound_supplied memory) commands
  exact {
    duplicate := fun ref => (duplicate_leads sound.store ref).atomic
    fresh := fun code => (fresh_leads sound.store code).atomic
    reorder := fun change ref inside => (reorder_leads change sound.store inside).atomic
    promote := fun a b inside => (promote_leads sound.store inside).atomic
    combine := fun a least inside inside' => (combine_leads sound.store inside inside').atomic
    readType := fun text => (readType_leads sound.store text).atomic
    build := fun plan fits => build_atomic sound.store fits
    register := fun d => register_atomic d
    access := fun _ inside _ free has _ follows _ _ ran =>
      denied_of_makePrivate sound inside free has follows ran
    rekey := fun old new => Change.atomic_of_ends fun table => table.rekey_ends old new
    rekeyMany := fun renames => Change.atomic_of_ends fun table => table.rekeyMany_ends renames
    rename := fun names => Change.atomic_of_ends fun layout => layout.rename_ends names
    nameAt := fun index name => Change.atomic_of_ends fun names => names.rename_ends index name
    apply := fun edit => Change.atomic_of_ends edit.apply_ends
    edit := fun _ _ _ _ _ answer => refused_edit sound answer }

def halfRefused : List Command :=
  [.make "i" (.fresh .int), .make "s" (.fresh .short),
    .make "r" (.build ⟨false, [⟨"x", none, .existing (.named "i"), [], none⟩,
      ⟨"y", none, .existing (.named "s"), [], none⟩]⟩),
    .install (some (.refusing (some .short) "no"))]

def sharedRow : List Command :=
  [.make "in" (.build ⟨false, [⟨"x", none, .scalar .int, [], none⟩]⟩),
    .make "out" (.build ⟨false, [⟨"a", none, .existing (.named "in"), [], none⟩,
      ⟨"b", none, .existing (.named "in"), [2], none⟩]⟩)]

def granting (n : Nat) : Memory := fun k => k < n

/-- A change of byte order that fails when its first field has a copy already, a table that cannot
be copied, and one that cannot be moved. -/
theorem failures_atomic_halfRefused :
    (((reorder .swap 25).run (initial.run halfRefused).store).1 = .error (.refused "no") ∧
      (initial.run halfRefused).store.heap.size <
        ((reorder .swap 25).run (initial.run halfRefused).store).2.heap.size ∧
      (initial.run halfRefused).store.Grows
        ((reorder .swap 25).run (initial.run halfRefused).store).2) ∧
    (((reorder .swap 25).run ((supplied (granting 8)).run sharedRow).store).1 =
        .error (.tableOutOfMemory .denied) ∧
      ((supplied (granting 8)).run sharedRow).store.heap.size <
        ((reorder .swap 25).run ((supplied (granting 8)).run sharedRow).store).2.heap.size ∧
      ((supplied (granting 8)).run sharedRow).store.Grows
        ((reorder .swap 25).run ((supplied (granting 8)).run sharedRow).store).2) ∧
    (((Script.makePrivate [] (.name "in")).run ((supplied (granting 3)).run sharedRow)).1 =
        .error (.refused (.tableOutOfMemory .denied)) ∧
      ((Script.makePrivate [] (.name "in")).run ((supplied (granting 3)).run sharedRow)).2.follow?
        (.name "in") = some 23) ∧
    (((supplied (granting 2)).run sharedRow).step (.edit "out" (.rename ["c", "d"]))).1 =
        .edited (.error (.tableOutOfMemory .denied)) false 25 ∧
      ∃ companion, (((supplied (granting 2)).run sharedRow).step
          (.edit "out" (.rename ["c", "d"]))).2.store.heap.get 25 =
        { ((supplied (granting 2)).run sharedRow).store.heap.get 25 with companion } := by
  have refusing : ((reorder .swap 25).run (initial.run halfRefused).store).1 =
      .error (.refused "no") := by decide +kernel
  have scarce : ((reorder .swap 25).run ((supplied (granting 8)).run sharedRow).store).1 =
      .error (.tableOutOfMemory .denied) := by decide +kernel
  have denied : ((Script.makePrivate [] (.name "in")).run
      ((supplied (granting 3)).run sharedRow)).1 =
        .error (.refused (.tableOutOfMemory .denied)) := by decide +kernel
  have unmoved : (((supplied (granting 2)).run sharedRow).step
      (.edit "out" (.rename ["c", "d"]))).1 =
        .edited (.error (.tableOutOfMemory .denied)) false 25 := by decide +kernel
  have holds : ((supplied (granting 3)).run sharedRow).follow? (.name "in") = some 23 := by
    decide +kernel
  refine ⟨⟨refusing, by decide +kernel, ?_⟩, ⟨scarce, by decide +kernel, ?_⟩, ⟨denied, ?_⟩,
    unmoved, ?_⟩
  · exact (failures_atomic .ample halfRefused).reorder .swap 25 (by decide +kernel) _ _
      (Prod.ext refusing rfl)
  · exact (failures_atomic (granting 8) sharedRow).reorder .swap 25 (by decide +kernel) _ _
      (Prod.ext scarce rfl)
  · exact ((failures_atomic (granting 3) sharedRow).access [] (List.forall_mem_nil _) (.name "in")
      (by simp) trivial 23 holds _ _ (Prod.ext denied rfl)).handles _ _ trivial holds
  · obtain ⟨before, companion, -, same, content⟩ :=
      ((failures_atomic (granting 2) sharedRow).edit "out" _ _ _ _ unmoved).same
    rw [← same rfl] at content
    exact ⟨companion, content⟩

end Session

end ElementTypes
