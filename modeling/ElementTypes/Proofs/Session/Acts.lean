import ElementTypes.Proofs.Session.Step
import ElementTypes.Proofs.Store.Origins

/-! # What commands do to the store

Every command comes down to acts on the store, so what each act keeps holds after any commands
(`holds_run`).
-/

namespace ElementTypes

variable {limits : Limits}

def Session.Acts (limits : Limits) (old new : Session) : Prop := old.store.Acts limits new.store

instance : Onward (Session.Acts limits) where
  trans first second := Relation.ReflTransGen.trans first second
  here _ := .refl

open Session (Acts)

namespace Script

section Settling

variable {session : Session}

theorem perform_acts {α : Type} {run : Run α} {good : α → Store → Prop}
    (h : Ensures (Store.Acts limits) run session.store good) :
    Ensures (Acts limits) (perform run) session fun a t => good a t.store :=
  (perform_after h).mono (fun _ after => after.store) fun _ _ _ => id

theorem settle_acts {α : Type} (x : Except Error α) :
    Ensures (Acts limits) (settle x) session fun _ t => t = session := by
  refine .of_run (run_settle session x) .refl fun _ _ => rfl

variable (sound : session.store.Sound)
include sound

theorem descriptor_acts (source : Source) :
    Ensures (Acts limits) (descriptor source) session fun _ _ => True := by
  cases source with
  | shared code =>
      unfold descriptor
      exact (perform_acts (shared_acts code)).imp fun _ _ _ _ => trivial
  | written text =>
      unfold descriptor
      exact perform_acts (adopting_acts sound (readType_made sound text))
  | named name =>
      unfold descriptor named
      refine .get_bind ?_
      cases session.find? name with
      | none => exact .throw .refl
      | some ref => exact .pure .refl trivial

theorem entryPlan_acts (plan : EntryPlan Source) :
    Ensures (Acts limits) (entryPlan plan) session fun _ _ => True :=
  (descriptor_acts sound plan.descriptor).map fun _ _ _ _ => trivial

theorem fieldType_acts {type : FieldType Source} (within : type.Within limits) :
    Ensures (Acts limits) (fieldType type) session fun settled _ => settled.Within limits := by
  cases type with
  | existing d => exact (descriptor_acts sound d).map fun _ _ _ _ _ none => nomatch none
  | unicode n =>
      refine .pure .refl fun m same => within m ?_
      rw [FieldType.unicode.inj same]
  | scalar | string => exact .pure .refl fun _ none => nomatch none

theorem blueprint_acts {plan : Blueprint Source}
    (within : ∀ field ∈ plan.fields, field.type.Within limits) :
    Ensures (Acts limits) (blueprint plan) session fun settled _ =>
      ∀ field ∈ settled.fields, field.type.Within limits := by
  refine (Ensures.mapM .refl fieldPlan (fun _ settled _ => settled.type.Within limits)
    (fun _ _ _ _ _ => id) plan.fields fun field member t after => ?_).map
    fun _ _ _ all => forall_of_forall₂ all
  have sound' := Store.Acts.sound after sound
  exact (fieldType_acts sound' (within field member)).map fun _ _ _ settled => settled

theorem edit_acts (plan : Edit Source IntervalSource) :
    Ensures (Acts limits) (edit plan) session fun settled _ => settled.form = plan.form := by
  unfold edit
  cases plan with
  | nothing | size | alignment | order | flags | erase | rekey | rename | names | clear =>
      exact .pure .refl rfl
  | subarray new =>
      cases new with
      | none => exact .pure .refl rfl
      | some pair => exact (descriptor_acts sound pair.1).map fun _ _ _ _ => rfl
  | interval source => exact (settle_acts source.interval).map fun _ _ _ _ => rfl
  | fields list plans =>
      exact (Ensures.mapM .refl entryPlan (fun _ _ _ => True) (fun _ _ _ _ _ => id) plans
        fun plan _ _ after => entryPlan_acts (Store.Acts.sound after sound) plan).map
        fun _ _ _ _ => rfl
  | put plan => exact (entryPlan_acts sound plan).map fun _ _ _ _ => rfl
  | retarget key d => exact (descriptor_acts sound d).map fun _ _ _ _ => rfl

theorem ask_acts (query : Query) : Ensures (Acts limits) (ask query) session fun _ _ => True := by
  have here : ∀ {t : Session}, Acts limits session t → t.store.Sound := fun after =>
    Store.Acts.sound after sound
  unfold ask
  cases query with
  | whole d => exact (descriptor_acts sound d).map fun _ _ _ _ => trivial
  | text d | debug d | native d | flags d =>
      exact (descriptor_acts sound d).bind fun _ _ _ _ => heap_bind (.pure .refl trivial)
  | hasKey key d | layout d =>
      refine (descriptor_acts sound d).bind fun ref t _ _ => heap_bind ?_
      cases (t.store.heap.get ref).layout <;> exact .pure .refl trivial
  | objects d =>
      refine (descriptor_acts sound d).bind fun ref t after _ => .get_bind ?_
      have store := here after
      have flagged := Heap.flagged_findObjects store.closed store.acyclic (store.closed.fits ref)
      exact .of_run rfl (.single ⟨.flagged flagged, (flagged_follows store flagged).sound⟩)
        fun _ _ => trivial
  | equivalent a b | equal a b =>
      refine (descriptor_acts sound a).bind fun _ _ after _ => ?_
      exact (descriptor_acts (here after) b).bind fun _ _ _ _ => heap_bind (.pure .refl trivial)
  | identical a b =>
      refine (descriptor_acts sound a).bind fun _ _ after _ => ?_
      exact (descriptor_acts (here after) b).map fun _ _ _ _ => trivial
  | userCount => exact .get_bind (.pure .refl trivial)
  | offers => exact .get_bind (.of_run rfl .refl fun _ _ => trivial)

end Settling

def pair (a b : Source) : Script (Ref × Ref) := do
  let first ← descriptor a
  let second ← descriptor b
  return (first, second)

theorem run_pair {a b : Source} {x y : Ref} {s t u : Session}
    (first : (descriptor a).run s = (.ok x, t)) (second : (descriptor b).run t = (.ok y, u)) :
    (pair a b).run s = (.ok (x, y), u) := by
  unfold pair
  rw [run_bind_ok _ _ _ first, run_bind_ok _ _ _ second]
  rfl

end Script

/-- Whether a command keeps to the limits. What is promoted is looked at where it is settled. -/
def Command.Within (limits : Limits) (session : Session) : Command → Prop
  | make _ (.promote a b) | make _ (.combine a (some b)) => ∀ x y t,
      (Script.pair a b).run session = (.ok (x, y), t) →
        limits.pair (t.store.heap.get x) (t.store.heap.get y)
  | make _ (.build plan) => ∀ field ∈ plan.fields, field.type.Within limits
  | edit _ plan => limits.edit plan.form
  | _ => True

theorem Command.within_promote_named {session : Session} {name a b : String} {x y : Ref}
    (first : session.find? a = some x) (second : session.find? b = some y)
    (pair : limits.pair (session.store.heap.get x) (session.store.heap.get y)) :
    (make name (.promote (.named a) (.named b))).Within limits session := by
  intro x' y' t ran
  have left : (Script.descriptor (.named a)).run session = (.ok x, session) := Script.run_named first
  have right : (Script.descriptor (.named b)).run session = (.ok y, session) := Script.run_named second
  cases (Script.run_pair left right).symm.trans ran
  exact pair

namespace Script

section Executing

variable {session : Session} (sound : session.Sound)
include sound

theorem make_acts {name : String} {making : Making}
    (within : (Command.make name making).Within limits session) :
    Ensures (Acts limits) (make making) session fun _ _ => True := by
  have store := sound.store
  unfold make
  cases making with
  | same d => exact descriptor_acts store d
  | fresh code => exact perform_acts (adopting_acts store (fresh_made store code))
  | copy d =>
      refine (descriptor_acts store d).bind fun ref t after _ => ?_
      have sound' := Store.Acts.sound after store
      exact perform_acts (adopting_acts sound' (duplicate_made sound' ref))
  | reorder d source =>
      refine ((descriptor_acts store d).also (descriptor_after sound d)).bind ?_
      rintro ref t after ⟨-, inside, -⟩
      refine (settle_acts source.change).bind ?_
      rintro change _ - rfl
      have sound' := Store.Acts.sound after store
      exact perform_acts (adopting_acts sound' (reorder_made sound' change inside))
  | promote a b =>
      refine (descriptor_acts store a).traced.bind ?_
      rintro first t after ⟨-, ran⟩
      have sound' := Store.Acts.sound after store
      refine (descriptor_acts sound' b).traced.bind ?_
      rintro second u after' ⟨-, ran'⟩
      exact perform_acts (promote_acts (Store.Acts.sound after' sound')
        (within first second u (run_pair ran ran')))
  | combine a least =>
      refine (descriptor_acts store a).traced.bind ?_
      rintro first t after ⟨-, ran⟩
      have sound' := Store.Acts.sound after store
      refine (Ensures.optionMapM .refl descriptor
        (fun b y u => (descriptor b).run t = (.ok y, u)) least fun b _ => ?_).bind ?_
      · exact (descriptor_acts sound' b).traced.imp fun _ _ _ holds => holds.2
      · intro settled u after' related
        refine perform_acts (combine_acts (Store.Acts.sound after' sound') fun second same => ?_)
        subst same
        cases related with
        | some ran' => exact within first second u (run_pair ran ran')
  | build plan =>
      refine ((blueprint_acts store within).also (blueprint_after sound plan)).bind ?_
      rintro settled t after ⟨kept, fits, -⟩
      have sound' := Store.Acts.sound after store
      exact perform_acts (adopting_acts sound' (build_made sound' fits kept))

theorem change_acts (name : String) {edit : Edit Ref Interval}
    (inside : ∀ ref ∈ edit.targets, ref < session.store.heap.size)
    (allowed : limits.edit edit.form) :
    Ensures (Acts limits) (change name edit) session fun _ _ => True := by
  have last := (Session.sound_changed sound inside
    (Session.change_changed sound inside name)).store
  refine ⟨?_, fun _ _ => trivial⟩
  show session.store.Acts limits _
  cases found : session.find? name with
  | none =>
      unfold change
      rw [run_bind_error _ _ _ (run_named_none found)]
      exact .refl
  | some old =>
      have holds : old ∈ session.held ++ edit.targets :=
        List.mem_append_left _ (Session.mem_held_of_find? found)
      have has : session.Has (.name name) := trivial
      have free : ∀ code, Handle.name name ≠ .code code := by simp
      have access := Session.makePrivate_run sound inside free has found
      have made : Ensures (Store.Acts limits) (privateCell (session.held ++ edit.targets) old)
          session.store fun new t => True ∧
            session.store.Granted (session.held ++ edit.targets) old new t ∧
              session.store.Leads t :=
        (privateCell_acts sound.store _ old).also (Store.privateCell_grants sound.store _ old)
      obtain ⟨acts, value⟩ := made
      rcases ran : (privateCell (session.held ++ edit.targets) old).run session.store
        with ⟨result, t⟩
      rw [ran] at acts value access
      cases result with
      | error error =>
          rw [Session.run_change_denied found access found]
          exact acts
      | ok new =>
          rw [Session.run_change_given found access] at last ⊢
          obtain ⟨-, granted, leads⟩ := value new rfl
          have granted : session.store.Granted (session.held ++ edit.targets) old new t := granted
          obtain ⟨part, fewer⟩ := Session.others_held edit found
          have within := Session.granted_lt sound inside
          have bound := granted.lt within holds
          have own : new ∉ t.owned := by
            intro owned
            rw [Store.owned, leads.grows.registry] at owned
            exact granted.apart sound.store within holds part fewer
              (List.mem_append_right _ owned) .refl
          have spent : ∀ memory, session.store.Acts limits { t with memory } := fun memory =>
            acts.tail ⟨.hooked t.hook t.offers memory, { leads.sound with }⟩
          have written : ∀ {value d memory}, edit.outcome (t.heap.get new) = .ok (value, d) →
              Store.Act limits { t with memory } { t with heap := t.heap.set new d, memory } :=
            fun applied => .edited bound own allowed applied
          have ends := edit.apply_ends (t.heap.get new) t.memory
          change session.store.Acts limits (Session.answered (({ session with store := t } :
            Session).bind name new) old new (edit.apply.run (t.heap.get new, t.memory))).2.store
          change (Session.answered (({ session with store := t } : Session).bind name new) old new
            (edit.apply.run (t.heap.get new, t.memory))).2.store.Sound at last
          generalize edit.apply.run (t.heap.get new, t.memory) = out at ends last ⊢
          cases ends with
          | done applied => exact (spent _).tail ⟨written applied, last⟩
          | refused | short =>
              rw [Session.answered_same bound]
              exact spent _

theorem execute_acts {command : Command} (within : command.Within limits session) :
    Ensures (Acts limits) (execute command) session fun _ _ => True := by
  have store := sound.store
  unfold execute
  cases command with
  | make name making =>
      exact (make_acts sound within).bind fun ref _ _ _ => .of_run rfl .refl fun _ _ => trivial
  | enterField name d key =>
      refine (descriptor_acts store d).bind fun ref t _ _ => heap_bind ?_
      cases (t.store.heap.get ref).find? key with
      | none => exact .pure .refl trivial
      | some entry => exact .of_run rfl .refl fun _ _ => trivial
  | enterBase name d =>
      refine (descriptor_acts store d).bind fun ref t _ _ => heap_bind ?_
      cases (t.store.heap.get ref).subarray with
      | none => exact .pure .refl trivial
      | some subarray => exact .of_run rfl .refl fun _ _ => trivial
  | drop name => exact .of_run rfl .refl fun _ _ => trivial
  | ask query => exact ask_acts store query
  | edit name plan =>
      refine ((edit_acts store plan).also (edit_after sound plan)).bind ?_
      rintro settled t after ⟨form, ⟨-, inside⟩, leads⟩
      exact change_acts (leads.sound sound) name inside (by rw [form]; exact within)
  | register times d =>
      refine (descriptor_acts store d).bind fun ref t after _ => ?_
      refine (perform_acts (registerCopies_acts (Store.Acts.sound after store) ref times)).bind
        fun code _ _ _ => ?_
      cases code <;> exact .pure .refl trivial
  | install hook =>
      refine .of_run rfl (.single ⟨.hooked hook session.store.offers session.store.memory, ?_⟩)
        fun _ _ => trivial
      exact { store with }

end Executing

end Script

namespace Session

def Within (limits : Limits) : Session → List Command → Prop
  | _, [] => True
  | session, command :: commands =>
    command.Within limits session ∧ (session.step command).2.Within limits commands

theorem within_of_edits {session : Session} {commands : List Command}
    (characters : ∀ n, limits.characters n) (pair : ∀ x y, limits.pair x y)
    (edits : ∀ name edit, Command.edit name edit ∈ commands → limits.edit edit.form) :
    session.Within limits commands := by
  induction commands generalizing session with
  | nil => trivial
  | cons command commands ih =>
      refine ⟨?_, ih fun name edit member => edits name edit (List.mem_cons_of_mem _ member)⟩
      cases command with
      | edit name edit => exact edits name edit (List.mem_cons_self ..)
      | make name making =>
          cases making with
          | promote => exact fun _ _ _ _ => pair _ _
          | combine a least =>
              cases least with
              | none => trivial
              | some b => exact fun _ _ _ _ => pair _ _
          | build => exact fun _ _ _ _ => characters _
          | _ => trivial
      | _ => trivial

theorem within_any (session : Session) (commands : List Command) :
    session.Within .any commands :=
  within_of_edits (fun _ => trivial) (fun _ _ => trivial) fun _ _ _ => trivial

theorem acts_run {session : Session} (sound : session.Sound) {commands : List Command}
    (within : session.Within limits commands) :
    session.store.Acts limits (session.run commands).store := by
  induction commands generalizing session with
  | nil => exact .refl
  | cons command commands ih =>
      obtain ⟨here, rest⟩ := within
      have first : session.store.Acts limits (session.step command).2.store := by
        rw [step_eq (Prod.eta _).symm]
        exact (Script.execute_acts sound here).later
      exact first.trans (ih (sound_step sound command) rest)

theorem holds_run {P : Store → Prop}
    (step : ∀ s t, s.Sound → P s → s.Act limits t → t.Sound → P t) (start : P Store.initial)
    {commands : List Command} (within : initial.Within limits commands) :
    P (initial.run commands).store :=
  (acts_run sound_initial within).keeps step Store.sound_initial start

def Coded (session : Session) : Prop := session.store.Coded

theorem coded_run (commands : List Command) : (initial.run commands).Coded :=
  holds_run (fun _ _ sound coded act _ => coded.act sound act) Store.coded_initial
    (within_any initial commands)

end Session

end ElementTypes
