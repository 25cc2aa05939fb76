import ElementTypes.Proofs.Session.Step

/-! # Isolation -/

namespace ElementTypes

namespace Session

/-- Whether a command writes the handle itself. An edit in place writes the entries or the base
that it names; an edit of a copy writes no handle but the name. -/
def Reassigns (session : Session) (command : Command) : Handle → Prop
  | .name name => command.target? = some name ∧ (session.step command).1.idle = false
  | .code _ => False
  | .entry cell key => ∃ name plan value, command = .edit name plan ∧
      (session.step command).1 = .edited (.ok value) false cell ∧
      plan.Rewrites (session.store.heap.get cell) key
  | .base cell => ∃ name plan value, command = .edit name plan ∧
      (session.step command).1 = .edited (.ok value) false cell ∧ plan.Rebases

/-- The handle is there throughout the commands, and none of them writes it. -/
def Untouched (handle : Handle) : Session → List Command → Prop
  | _, [] => True
  | session, command :: commands => session.Has handle ∧ ¬ session.Reassigns command handle ∧
      Untouched handle (session.step command).2 commands

structure Isolated (old new : Session) (handle : Handle) (ref : Ref) : Prop where
  follow : new.follow? handle = some ref
  tree : old.store.heap.TreeKept new.store.heap ref

theorem Isolated.trans {a b c : Session} {handle : Handle} {ref : Ref}
    (first : a.Isolated b handle ref) (second : b.Isolated c handle ref) :
    a.Isolated c handle ref :=
  ⟨second.follow, first.tree.trans second.tree⟩

section Handles

variable {session : Session} (sound : session.Sound)
include sound

theorem isolated_of_follows {new : Session} (after : session.store.Follows new.store)
    {handle : Handle} {ref : Ref} (found : session.follow? handle = some ref)
    (has : session.Has handle)
    (names : ∀ name, handle = .name name → new.find? name = session.find? name) :
    session.Isolated new handle ref where
  follow := by
    cases handle with
    | name name => exact (names name rfl).trans found
    | code code =>
        have cell : session.store.cellOf? code = some ref := found
        cases code with
        | user n => exact after.keeps.users n ref cell
        | _ => exact cell
    | entry cell key =>
        have kept := after.keeps.kept cell (Live.lt sound has)
        simp only [follow?, Descriptor.at?, Descriptor.find?, kept.layout]
        exact found
    | base cell =>
        have kept := after.keeps.kept cell (Live.lt sound has)
        simp only [follow?, Descriptor.at?, kept.subarray]
        exact found
  tree cell path := after.keeps.kept cell
    (sound.store.closed.reaches_lt path (lt_of_follow? sound found))

theorem has_after {new : Session} (after : After Store.Leads session new) {handle : Handle}
    (has : session.Has handle) : new.Has handle := by
  have live : ∀ {cell}, session.Live cell → new.Live cell := by
    rintro cell ⟨root, member, path⟩
    have inside := sound.store.roots_lt sound.held root member
    refine ⟨root, ?_, (after.store.grows.heap.reaches_iff sound.store.closed inside).2 path⟩
    rw [held, after.bindings, Store.owned, after.store.grows.registry]
    exact member
  cases handle with
  | name | code => trivial
  | entry | base => exact live has

end Handles

section Editing

variable {session : Session} (sound : session.Sound) {name : String} {edit : Edit Ref Interval}
  (inside : ∀ ref ∈ edit.targets, ref < session.store.heap.size) {old new : Ref} {t : Store}
  (found : session.find? name = some old)
  (granted : session.store.Granted (session.held ++ edit.targets) old new t)
  {handle : Handle} {ref : Ref} (follows : session.follow? handle = some ref)
  (has : session.Has handle) (other : handle ≠ .name name)
include sound inside found granted follows has other

theorem apart_of_follow? : ¬ t.heap.Reaches ref new := by
  have within := granted_lt sound inside
  have holds : old ∈ session.held ++ edit.targets :=
    List.mem_append_left _ (mem_held_of_find? found)
  obtain ⟨part, fewer⟩ := others_held edit found
  have root : ref ∈ (session.erase name).held ++ edit.targets ++ session.store.owned →
      ¬ t.heap.Reaches ref new := granted.apart sound.store within holds part fewer
  have below : ∀ {cell}, session.Live cell → session.store.heap.Points cell ref →
      ¬ t.heap.Reaches ref new := by
    rintro cell ⟨top, member, path⟩ points rest
    have top' : top ∈ session.held ++ edit.targets ++ session.store.owned := by
      rcases List.mem_append.1 member with left | right
      · exact List.mem_append_left _ (List.mem_append_left _ left)
      · exact List.mem_append_right _ right
    exact granted.not_leads sound.store within holds top' path
      (.head' (granted.grown.points_of_points points) rest)
  cases handle with
  | name name' =>
      have differs : name' ≠ name := fun same => other (congrArg _ same)
      have kept : (session.erase name).find? name' = some ref :=
        (find?_erase_of_ne session differs).trans follows
      exact root (List.mem_append_left _ (List.mem_append_left _ (mem_held_of_find? kept)))
  | code code => exact root (List.mem_append_right _ (Store.mem_owned_of_cellOf? follows))
  | entry cell key =>
      obtain ⟨entry, here, rfl⟩ := Option.map_eq_some_iff.1 follows
      exact below has (Descriptor.mem_links_of_find? here)
  | base cell =>
      obtain ⟨subarray, here, rfl⟩ := Option.map_eq_some_iff.1 follows
      exact below has (Descriptor.mem_links_iff.2 (.inr ⟨subarray, here, rfl⟩))

theorem isolated_written (registered : t.registry = session.store.registry) {value : EditValue}
    {d : Descriptor} (applied : edit.outcome (t.heap.get new) = .ok (value, d))
    (entries : ∀ key, handle = .entry old key → new = old →
      ¬ edit.Rewrites (session.store.heap.get old) key)
    (bases : handle = .base old → new = old → ¬ edit.Rebases) :
    session.Isolated
      (({ session with store := { t with heap := t.heap.set new d } } : Session).bind name new)
      handle ref where
  tree := granted.treeKept_set sound.store.closed (lt_of_follow? sound follows)
    (apart_of_follow? sound inside found granted follows has other) d
  follow := by
    have away : ∀ {cell}, session.Live cell → cell ≠ new →
        (t.heap.set new d).get cell = session.store.heap.get cell := by
      intro cell live differs
      rw [Heap.get_set_of_ne _ _ differs]
      exact granted.grown.get cell (live.lt sound)
    -- a cell that was there before can only have been granted itself
    have here : ∀ {cell}, session.Live cell → cell = new →
        new = old ∧ cell = old ∧ t.heap = session.store.heap ∧ (t.heap.set new d).get cell = d := by
      rintro cell live rfl
      cases granted with
      | sole => exact ⟨rfl, rfl, rfl, Heap.get_set_self _ (live.lt sound)⟩
      | copied _ fresh => exact absurd (live.lt sound) (Nat.not_lt.2 fresh)
    cases handle with
    | name name' =>
        have differs : name' ≠ name := fun same => other (congrArg _ same)
        exact (find?_bind_of_ne _ new differs).trans follows
    | code code =>
        refine Eq.trans ?_ follows
        cases code <;> simp only [follow?, bind, erase, Store.cellOf?, registered]
    | entry cell key =>
        refine Eq.trans ?_ follows
        change (((t.heap.set new d).get cell).find? key).map (·.target) = _
        by_cases same : cell = new
        · obtain ⟨rfl, rfl, still, written⟩ := here has same
          rw [still] at applied
          rw [written, Edit.find?_outcome applied (entries key rfl rfl)]
          rfl
        · rw [away has same]
          rfl
    | base cell =>
        refine Eq.trans ?_ follows
        change ((t.heap.set new d).get cell).subarray.map (·.base) = _
        by_cases same : cell = new
        · obtain ⟨rfl, rfl, still, written⟩ := here has same
          rw [still] at applied
          rw [written, Edit.subarray_outcome applied (bases rfl rfl)]
          rfl
        · rw [away has same]
          rfl

end Editing

section Running

variable {session : Session} (sound : session.Sound) {handle : Handle} {ref : Ref}
  (follows : session.follow? handle = some ref)
include sound follows

theorem isolated_changed (has : session.Has handle) {name : String} {edit : Edit Ref Interval}
    (inside : ∀ target ∈ edit.targets, target < session.store.heap.size)
    {out : Except Failure Answer × Session} (changed : Changed session name edit out)
    (other : handle = .name name → (Answer.ofResult out.1).idle = true)
    (spared : ∀ value cell, out.1 = .ok (.edited (.ok value) false cell) →
      (∀ key, handle = .entry cell key → ¬ edit.Rewrites (session.store.heap.get cell) key) ∧
        (handle = .base cell → ¬ edit.Rebases)) :
    session.Isolated out.2 handle ref := by
  cases changed with
  | unbound => exact isolated_of_follows sound sound.store.follows follows has fun _ _ => rfl
  | refused found after =>
      exact isolated_of_follows sound (after.follows sound.store) follows has fun _ _ => rfl
  | @failed old new t error found after granted failure =>
      refine isolated_of_follows sound (after.follows sound.store) follows has fun name' same => ?_
      refine find?_bind_of_ne _ new fun taken => ?_
      exact absurd (other (taken ▸ same)) Bool.false_ne_true
  | @written old new t value d found after granted applied =>
      have apart : handle ≠ .name name := fun same => absurd (other same) Bool.false_ne_true
      refine isolated_written sound inside found granted follows has apart after.grows.registry
        applied ?_ ?_
      · rintro key same sole
        exact (spared value old (by simp [sole])).1 key same
      · rintro same sole
        exact (spared value old (by simp [sole])).2 same

theorem isolated_step (has : session.Has handle) {command : Command}
    (spared : ¬ session.Reassigns command handle) :
    session.Isolated (session.step command).2 handle ref := by
  have stepped := step_stepped sound command
  generalize same : session.step command = out at stepped
  have unnamed : ∀ {name}, command.target? = some name → out.1.idle = false →
      handle ≠ .name name := by
    rintro name target busy rfl
    exact spared ⟨target, by rw [same]; exact busy⟩
  cases stepped with
  | @kept answer t after =>
      exact isolated_of_follows sound after.served.store follows has fun name _ =>
        after.find?_eq name
  | @registered _ _ answer t _ after =>
      exact isolated_of_follows sound after.store follows has fun name _ => after.find?_eq name
  | @bound name new answer t target busy after _ =>
      have store : session.store.Follows (t.bind name new).store := after.served.store
      refine isolated_of_follows sound store follows has fun name' here => ?_
      have differs : name' ≠ name := fun taken => unnamed target busy (taken ▸ here)
      rw [find?_bind_of_ne t new differs, after.find?_eq]
  | @dropped name answer target busy =>
      have store : session.store.Follows (session.erase name).store := sound.store.follows
      refine isolated_of_follows sound store follows has fun name' here => ?_
      exact find?_erase_of_ne session fun taken => unnamed target busy (taken ▸ here)
  | @edited name plan settled t out written after alike inside changed =>
      have first : session.Isolated t handle ref :=
        isolated_of_follows sound (after.follows sound).store follows has fun name' _ =>
          after.find?_eq name'
      have has' := has_after sound after has
      refine first.trans
        (isolated_changed (after.sound sound) first.follow has' inside changed ?_ ?_)
      · intro here
        cases idle : (Answer.ofResult out.1).idle with
        | true => rfl
        | false => exact absurd here (unnamed (by rw [written]; rfl) idle)
      · intro value cell done
        have answer : (session.step command).1 = .edited (.ok value) false cell := by
          rw [same, done]
          rfl
        constructor
        · rintro key rfl rewrites
          refine spared ⟨name, plan, value, written, answer, (alike.rewrites _ key).1 ?_⟩
          rw [← after.store.grows.heap.get cell (Live.lt sound has)]
          exact rewrites
        · rintro rfl rebases
          exact spared ⟨name, plan, value, written, answer, alike.rebases.1 rebases⟩

theorem isolated_run {commands : List Command} (untouched : session.Untouched handle commands) :
    session.Isolated (session.run commands) handle ref := by
  induction commands generalizing session with
  | nil => exact ⟨follows, .refl _ ref⟩
  | cons command commands ih =>
      obtain ⟨has, spared, rest⟩ := untouched
      have first := isolated_step sound follows has spared
      exact first.trans (ih (sound_step sound command) first.follow rest)

end Running

/-- After any commands, the built-in codes have their canonical descriptors, and whatever holds a
descriptor then holds it unchanged for as long as it is not written itself. -/
theorem handles_isolated (commands : List Command) :
    (∀ code : Code, code.isBuiltin →
      (initial.run commands).follow? (.code code) = some code.number ∧
        (initial.run commands).store.heap.get code.number = .canonical code) ∧
    ∀ (later : List Command) (handle : Handle) (ref : Ref),
      (initial.run commands).follow? handle = some ref →
      Untouched handle (initial.run commands) later →
      (initial.run commands).Isolated ((initial.run commands).run later) handle ref := by
  have sound := sound_run sound_initial commands
  refine ⟨fun code builtin => ⟨?_, sound.store.builtin code builtin⟩, ?_⟩
  · cases code <;> first | rfl | exact absurd builtin Bool.false_ne_true
  · exact fun later handle ref follows untouched => isolated_run sound follows untouched

def sharedField : List Command :=
  [.make "i" (.fresh .int),
    .make "r" (.build ⟨false, [⟨"x", none, .existing (.named "i"), [], none⟩]⟩)]

theorem handles_isolated_sharedField :
    (initial.run sharedField).follow? (.entry 24 "x") = some 23 ∧
      Untouched (.entry 24 "x") (initial.run sharedField) [.edit "i" (.size 8)] ∧
      (initial.run sharedField).Isolated ((initial.run sharedField).run [.edit "i" (.size 8)])
        (.entry 24 "x") 23 := by
  have follows : (initial.run sharedField).follow? (.entry 24 "x") = some 23 := by decide
  have untouched : Untouched (.entry 24 "x") (initial.run sharedField) [.edit "i" (.size 8)] := by
    refine ⟨⟨24, by decide, .refl⟩, ?_, trivial⟩
    rintro ⟨name, plan, value, same, -, rewrites⟩
    cases same
    exact rewrites
  exact ⟨follows, untouched, (handles_isolated sharedField).2 _ _ _ follows untouched⟩

end Session

end ElementTypes
