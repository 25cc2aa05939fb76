import ElementTypes.Proofs.Session.Access

/-! # What one command does

`step_stepped` says once what a command can do to a session: it keeps the names, binds one of them,
drops one, or edits one.
-/

namespace ElementTypes

theorem Session.After.served {old new : Session} (after : After Store.Serves old new) :
    After Store.Follows old new :=
  ⟨after.store.toFollows, after.bindings⟩

theorem Ensures.session_serves {α : Type} {script : Script α} {session : Session}
    {good : α → Session → Prop} (h : Ensures (Session.After Store.Leads) script session good)
    (sound : session.Sound) : Ensures (Session.After Store.Serves) script session good :=
  h.mono (fun _ after => ⟨after.store.serves sound.store, after.bindings⟩) fun _ _ _ => id

def Command.target? : Command → Option String
  | make name _ => some name
  | enterField name _ _ => some name
  | enterBase name _ => some name
  | drop name => some name
  | edit name _ => some name
  | _ => none

deriving instance DecidableEq for Answer

def Answer.idle : Answer → Bool
  | unbound => true
  | refused _ => true
  | nothing => true
  | _ => false

def Answer.ofResult : Except Failure Answer → Answer
  | .ok answer => answer
  | .error .unbound => .unbound
  | .error (.refused error) => .refused error

namespace Session

theorem step_eq {session after : Session} {command : Command} {result : Except Failure Answer}
    (h : (Script.execute command).run session = (result, after)) :
    session.step command = (.ofResult result, after) := by
  unfold step
  rw [h]
  rcases result with ⟨⟨⟩ | _⟩ | _ <;> rfl

/-- How an edit of a name ends. -/
inductive Changed (session : Session) (name : String) (edit : Edit Ref Interval) :
    Except Failure Answer × Session → Prop
  | unbound : Changed session name edit (.error .unbound, session)
  | refused {old : Ref} {t : Store} {error : Error} (found : session.find? name = some old)
      (after : session.store.Leads t) :
      Changed session name edit
        (.ok (.edited (.error error) false old), { session with store := t })
  | failed {old new : Ref} {t : Store} {error : Error} (found : session.find? name = some old)
      (after : session.store.Leads t)
      (granted : session.store.Granted (session.held ++ edit.targets) old new t)
      (failure : session.store.Ample → edit.outcome (t.heap.get new) = .error error) :
      Changed session name edit (.ok (.edited (.error error) (new ≠ old) new),
        ({ session with store := t } : Session).bind name new)
  | written {old new : Ref} {t : Store} {value : EditValue} {d : Descriptor}
      (found : session.find? name = some old) (after : session.store.Leads t)
      (granted : session.store.Granted (session.held ++ edit.targets) old new t)
      (applied : edit.outcome (t.heap.get new) = .ok (value, d)) :
      Changed session name edit (.ok (.edited (.ok value) (new ≠ old) new),
        ({ session with store := { t with heap := t.heap.set new d } } : Session).bind name new)

theorem Changed.grows {session : Session} {name : String} {edit : Edit Ref Interval}
    {out : Except Failure Answer × Session} (changed : Changed session name edit out) :
    out.2.store.registry = session.store.registry ∧
      (session.store.Ample → out.2.store.Ample) := by
  cases changed with
  | unbound => exact ⟨rfl, id⟩
  | refused _ after | failed _ after | written _ after =>
      exact ⟨after.grows.registry, after.grows.ample⟩

section Runs

variable {session t : Session} {name : String} {edit : Edit Ref Interval} {old new : Ref}

def answered (session : Session) (old new : Ref)
    (out : Except Error EditValue × Descriptor × Memory) : Except Failure Answer × Session :=
  (.ok (.edited out.1 (new ≠ old) new), { session with store := { session.store with
    heap := session.store.heap.set new out.2.1, memory := out.2.2 } })

theorem answered_same {t : Store} (inside : new < t.heap.size) (name : String)
    (result : Except Error EditValue) (memory : Memory) :
    (({ session with store := t } : Session).bind name new).answered old new
        (result, t.heap.get new, memory) =
      (.ok (.edited result (new ≠ old) new),
        ({ session with store := { t with memory } } : Session).bind name new) := by
  have same := t.heap.set_get inside
  simp only [answered, bind, erase, same]

theorem run_change_denied {error : Error} (found : session.find? name = some old)
    (ran : (Script.makePrivate edit.targets (.name name)).run session =
      (.error (.refused error), t)) (still : t.find? name = some old) :
    (Script.change name edit).run session = (.ok (.edited (.error error) false old), t) := by
  unfold Script.change
  rw [run_bind_ok _ _ _ (Script.run_named found), run_get_bind, ran]
  change ((Script.named name >>= fun ref =>
    pure (Answer.edited (.error error) (ref ≠ old) ref) : Script Answer).run t) = _
  rw [run_bind_ok _ _ _ (Script.run_named still), run_pure, decide_eq_false (not_not_intro rfl)]

theorem run_change_given (found : session.find? name = some old)
    (ran : (Script.makePrivate edit.targets (.name name)).run session = (.ok new, t)) :
    (Script.change name edit).run session =
      t.answered old new (edit.apply.run (t.store.heap.get new, t.store.memory)) := by
  unfold Script.change
  rw [run_bind_ok _ _ _ (Script.run_named found), run_get_bind, ran]
  rfl

end Runs

section Changing

variable {session : Session} (sound : session.Sound) {name : String} {edit : Edit Ref Interval}
  (inside : ∀ ref ∈ edit.targets, ref < session.store.heap.size)
include sound inside

theorem granted_lt : ∀ ref ∈ session.held ++ edit.targets, ref < session.store.heap.size :=
  fun ref member => (List.mem_append.1 member).elim (sound.held ref) (inside ref)

theorem change_changed (name : String) :
    Changed session name edit ((Script.change name edit).run session) := by
  cases found : session.find? name with
  | none =>
      unfold Script.change
      rw [run_bind_error _ _ _ (Script.run_named_none found)]
      exact .unbound
  | some old =>
      have has : session.Has (.name name) := trivial
      have free : ∀ code, Handle.name name ≠ .code code := by simp
      have access := makePrivate_run sound inside free has found
      obtain ⟨after, value⟩ :=
        Store.privateCell_grants sound.store (session.held ++ edit.targets) old
      rcases ran : (privateCell (session.held ++ edit.targets) old).run session.store
        with ⟨result, t⟩
      rw [ran] at after value access
      cases result with
      | error error =>
          rw [run_change_denied found access found]
          exact .refused found after
      | ok new =>
          rw [run_change_given found access]
          have granted : session.store.Granted _ old new t := value new rfl
          have bound := granted.lt (granted_lt sound inside)
            (List.mem_append_left _ (mem_held_of_find? found))
          have ends := edit.apply_ends (t.heap.get new) t.memory
          change Changed session name edit ((({ session with store := t } : Session).bind name
            new).answered old new (edit.apply.run (t.heap.get new, t.memory)))
          generalize edit.apply.run (t.heap.get new, t.memory) = out at ends
          cases ends with
          | done applied kept =>
              exact .written found (after.spend kept) (granted.spend _) applied
          | refused fault kept =>
              rw [answered_same bound]
              exact .failed found (after.spend kept) (granted.spend _) fun _ => fault
          | short scarce =>
              rw [answered_same bound]
              exact .failed found (after.spend fun ample => absurd ample scarce)
                (granted.spend _) fun ample => absurd (after.grows.ample ample) scarce

omit sound inside in
theorem others_held (edit : Edit Ref Interval) {old : Ref} (found : session.find? name = some old) :
    (session.erase name).held ++ edit.targets ⊆ session.held ++ edit.targets ∧
      ((session.erase name).held ++ edit.targets).count old <
        (session.held ++ edit.targets).count old := by
  refine ⟨((held_erase_sublist session name).append_right _).subset, ?_⟩
  rw [List.count_append, List.count_append]
  exact Nat.add_lt_add_right (count_held_erase found) _

theorem sound_changed {out : Except Failure Answer × Session}
    (changed : Changed session name edit out) : out.2.Sound := by
  cases changed with
  | unbound => exact sound
  | refused found after => exact sound.after ⟨after.follows sound.store, rfl⟩
  | @failed old new t error found after granted =>
      have later : Session.Sound { session with store := t } :=
        sound.after ⟨after.follows sound.store, rfl⟩
      exact later.bind (granted.lt (granted_lt sound inside)
        (List.mem_append_left _ (mem_held_of_find? found))) name
  | @written old new t value d found after granted applied =>
      have within := granted_lt sound inside
      have holds : old ∈ session.held ++ edit.targets :=
        List.mem_append_left _ (mem_held_of_find? found)
      obtain ⟨part, fewer⟩ := others_held edit found
      have store := granted.sound_set sound.store within holds part fewer after.sound
        fun ref link => (Edit.links_outcome applied ref link).imp_right (List.mem_append_right _)
      have later : Session.Sound { session with store := { t with heap := t.heap.set new d } } := by
        refine ⟨store, fun ref member => ?_⟩
        rw [Heap.size_set]
        exact Nat.lt_of_lt_of_le (sound.held ref member) after.grows.heap.size
      refine later.bind ?_ name
      rw [Heap.size_set]
      exact granted.lt within holds

end Changing

end Session

open Session (After)

namespace Script

section Making

variable {session : Session} (sound : session.Sound)
include sound

theorem make_after (making : Making) :
    Ensures (After Store.Serves) (make making) session fun ref t => ref < t.store.heap.size := by
  unfold make
  cases making with
  | same d => exact (descriptor_after sound d).session_serves sound
  | fresh code =>
      exact (perform_after (adopting_leads (fresh_leads sound.store code))).session_serves sound
  | copy d =>
      refine ((descriptor_after sound d).bind fun ref t after _ => ?_).session_serves sound
      exact perform_after (adopting_leads (duplicate_fits after.store.sound ref))
  | reorder d source =>
      refine ((descriptor_after sound d).bind fun ref t after inside => ?_).session_serves sound
      refine (settle_after (after.sound sound) source.change).bind ?_
      rintro change _ after' ⟨-, rfl⟩
      have made := (reorder_leads change (after'.sound (after.sound sound)).store inside).imp
        fun d u _ holds => holds.1
      exact perform_after (adopting_leads made)
  | promote a b =>
      refine ((descriptor_after sound a).bind fun first t after _ => ?_).session_serves sound
      refine (descriptor_after (after.sound sound) b).bind fun second u after' inside => ?_
      exact perform_after (promote_leads after'.store.sound inside)
  | combine a least =>
      refine ((descriptor_after sound a).bind fun first t after inside => ?_).session_serves sound
      have settled := Ensures.optionMapM (after.sound sound).leads descriptor
        (fun _ ref u => ref < u.store.heap.size) least
        fun d _ => descriptor_after (after.sound sound) d
      refine settled.bind fun bound u after' related => ?_
      refine perform_after (combine_leads after'.store.sound (after'.lt inside) fun ref some => ?_)
      subst some
      cases related with
      | some bounded => exact bounded
  | build plan =>
      refine ((blueprint_after sound plan).session_serves sound).bind
        fun settled t after fits => ?_
      exact perform_after (adopting_serves (build_serves after.store.sound fits))

omit sound in
theorem heap_bind {α : Type} {later : Session → Session → Prop} {f : Heap → Script α}
    {good : α → Session → Prop} (rest : Ensures later (f session.store.heap) session good) :
    Ensures later (heap >>= f) session good :=
  ⟨rest.later, rest.good⟩

theorem ask_after (query : Query) :
    Ensures (After Store.Serves) (ask query) session fun _ _ => True := by
  have one : ∀ {t}, After Store.Serves session t → ∀ d : Source,
      Ensures (After Store.Serves) (descriptor d) t fun ref u => ref < u.store.heap.size := by
    intro t after d
    have sound' := sound.after after.served
    exact (descriptor_after sound' d).session_serves sound'
  have here : After Store.Serves session session := ⟨sound.store.leads.serves sound.store, rfl⟩
  unfold ask
  cases query with
  | whole d => exact (one here d).map fun _ _ _ _ => trivial
  | text d | debug d | native d | flags d =>
      refine (one here d).bind fun ref t after _ => ?_
      exact heap_bind (.pure (Onward.here after) trivial)
  | hasKey key d | layout d =>
      refine (one here d).bind fun ref t after _ => heap_bind ?_
      cases (t.store.heap.get ref).layout <;> exact .pure (Onward.here after) trivial
  | objects d =>
      refine (one here d).bind fun ref t after inside => Ensures.get_bind ?_
      have store := (sound.after after.served).store
      exact .of_run rfl ⟨findObjects_serves store (store.closed.fits ref), rfl⟩ fun _ _ => trivial
  | equivalent a b | equal a b =>
      refine (one here a).bind fun first t after _ => ?_
      refine (one after b).bind fun second u after' _ => ?_
      exact heap_bind (.pure (Onward.here after') trivial)
  | identical a b =>
      refine (one here a).bind fun first t after _ => ?_
      exact (one after b).map fun _ _ _ _ => trivial
  | userCount => exact .get_bind (.pure here trivial)
  | offers => exact .get_bind (.of_run rfl ⟨⟨here.store.toFollows, rfl⟩, rfl⟩ fun _ _ => trivial)

theorem register_after (ref : Ref) (inside : ref < session.store.heap.size) (times : Nat) :
    Ensures (After Store.Follows) (do
      match ← perform (registerCopies ref times) with
      | some code => return Answer.text code.name
      | none => return Answer.nothing) session fun _ _ => True := by
  refine (perform_after (registerCopies_follows sound.store inside times)).bind
    fun code t after _ => ?_
  cases code <;> exact .pure (Onward.here after) trivial

end Making

end Script

namespace Session

inductive Stepped (session : Session) (command : Command) : Answer × Session → Prop
  | kept {answer : Answer} {t : Session} (after : After Store.Serves session t) :
      Stepped session command (answer, t)
  | registered {times : Nat} {d : Source} {answer : Answer} {t : Session}
      (same : command = .register times d) (after : After Store.Follows session t) :
      Stepped session command (answer, t)
  | bound {name : String} {ref : Ref} {answer : Answer} {t : Session}
      (target : command.target? = some name) (busy : answer.idle = false)
      (after : After Store.Serves session t) (inside : ref < t.store.heap.size) :
      Stepped session command (answer, t.bind name ref)
  | dropped {name : String} {answer : Answer} (target : command.target? = some name)
      (busy : answer.idle = false) : Stepped session command (answer, session.erase name)
  | edited {name : String} {plan : Edit Source IntervalSource} {settled : Edit Ref Interval}
      {t : Session} {out : Except Failure Answer × Session} (same : command = .edit name plan)
      (after : After Store.Leads session t) (alike : settled.Alike plan)
      (inside : ∀ ref ∈ settled.targets, ref < t.store.heap.size)
      (changed : Changed t name settled out) : Stepped session command (.ofResult out.1, out.2)

theorem run_heap_bind {α : Type} (f : Heap → Script α) (session : Session) :
    (Script.heap >>= f).run session = (f session.store.heap).run session := rfl

theorem execute_stepped {session : Session} (sound : session.Sound) (command : Command) :
    Stepped session command (.ofResult ((Script.execute command).run session).1,
      ((Script.execute command).run session).2) := by
  have entered : ∀ d : Source, Ensures (After Store.Serves) (Script.descriptor d) session
      fun ref t => ref < t.store.heap.size :=
    fun d => (Script.descriptor_after sound d).session_serves sound
  let post (out : Except Failure Answer × Session) :=
    Stepped session command (.ofResult out.1, out.2)
  change post _
  have failed : ∀ e t, After Store.Serves session t → post (.error e, t) := fun _ _ after =>
    .kept after
  unfold Script.execute
  cases command with
  | make name making =>
      exact (Script.make_after sound making).run_bind failed fun ref t after inside =>
        .bound rfl rfl after inside
  | enterField name d key =>
      refine (entered d).run_bind failed fun ref t after _ => ?_
      rw [run_heap_bind]
      cases found : (t.store.heap.get ref).find? key with
      | none => exact .kept after
      | some entry =>
          have link := Descriptor.mem_links_of_find? found
          exact .bound rfl rfl after ((sound.after after.served).store.closed ref _ link)
  | enterBase name d =>
      refine (entered d).run_bind failed fun ref t after _ => ?_
      rw [run_heap_bind]
      cases found : (t.store.heap.get ref).subarray with
      | none => exact .kept after
      | some subarray =>
          have link := Descriptor.mem_links_iff.2 (.inr ⟨subarray, found, rfl⟩)
          exact .bound rfl rfl after ((sound.after after.served).store.closed ref _ link)
  | drop name => exact .dropped rfl rfl
  | ask query => exact .kept (Script.ask_after sound query).later
  | edit name plan =>
      refine (Script.edit_after sound plan).run_bind
        (fun e t after => .kept ⟨after.store.serves sound.store, after.bindings⟩) ?_
      intro settled t after holds
      exact .edited rfl after holds.1 holds.2 (change_changed (after.sound sound) holds.2 name)
  | register times d =>
      refine (entered d).run_bind failed fun ref t after inside => ?_
      have rest := Script.register_after (sound.after after.served) ref inside times
      exact .registered rfl (Onward.trans after.served rest.later)
  | install hook =>
      have store := sound.store
      exact .kept ⟨⟨⟨store, ⟨store.closed, store.acyclic, store.room, store.builtin, store.users,
        store.numbered⟩,
        ⟨Nat.le_refl _, fun _ _ => .inl rfl, fun _ _ => id, id⟩⟩, rfl⟩, rfl⟩

theorem step_stepped {session : Session} (sound : session.Sound) (command : Command) :
    Stepped session command (session.step command) := by
  rw [step_eq (Prod.eta _).symm]
  exact execute_stepped sound command

theorem sound_step {session : Session} (sound : session.Sound) (command : Command) :
    (session.step command).2.Sound := by
  have stepped := step_stepped sound command
  generalize session.step command = out at stepped
  cases stepped with
  | kept after => exact sound.after after.served
  | registered _ after => exact sound.after after
  | bound _ _ after inside => exact (sound.after after.served).bind inside _
  | dropped => exact sound.erase _
  | edited _ after _ inside changed => exact sound_changed (after.sound sound) inside changed

theorem ample_step {session : Session} (sound : session.Sound) (ample : session.store.Ample)
    (command : Command) : (session.step command).2.store.Ample := by
  have stepped := step_stepped sound command
  generalize session.step command = out at stepped
  cases stepped with
  | kept after => exact after.store.keeps.ample ample
  | registered _ after => exact after.store.keeps.ample ample
  | bound _ _ after => exact after.store.keeps.ample ample
  | dropped => exact ample
  | edited _ after _ _ changed => exact changed.grows.2 (after.store.grows.ample ample)

def supplied (memory : Memory) : Session :=
  { initial with store := { Store.initial with memory } }

theorem sound_supplied (memory : Memory) : (supplied memory).Sound :=
  ⟨{ Store.sound_initial with }, fun _ none => nomatch none⟩

theorem sound_initial : initial.Sound := sound_supplied .ample

theorem sound_run {session : Session} (sound : session.Sound) (commands : List Command) :
    (session.run commands).Sound := by
  induction commands generalizing session with
  | nil => exact sound
  | cons command commands ih => exact ih (sound_step sound command)

theorem ample_run_of {session : Session} (sound : session.Sound) (ample : session.store.Ample)
    (commands : List Command) : (session.run commands).store.Ample := by
  induction commands generalizing session with
  | nil => exact ample
  | cons command commands ih => exact ih (sound_step sound command) (ample_step sound ample command)

theorem ample_run (commands : List Command) : (initial.run commands).store.Ample :=
  ample_run_of sound_initial rfl commands

end Session

end ElementTypes
