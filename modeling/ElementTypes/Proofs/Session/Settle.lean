import ElementTypes.Proofs.Session.Edit
import ElementTypes.Proofs.Store.Keeps
import ElementTypes.Session.Basic

/-! # Settling what commands name -/

namespace ElementTypes

namespace Session

structure Sound (session : Session) : Prop where
  store : session.store.Sound
  held : ∀ ref ∈ session.held, ref < session.store.heap.size

/-- The store may have come on, but the names hold what they held. -/
structure After (later : Store → Store → Prop) (old new : Session) : Prop where
  store : later old.store new.store
  bindings : new.bindings = old.bindings

instance {later : Store → Store → Prop} [Onward later] : Onward (After later) where
  trans first second :=
    ⟨Onward.trans first.store second.store, second.bindings.trans first.bindings⟩
  here after := ⟨Onward.here after.store, rfl⟩

theorem Sound.after {old new : Session} (sound : old.Sound)
    (after : After Store.Follows old new) : new.Sound where
  store := after.store.sound
  held ref member := by
    rw [Session.held, after.bindings] at member
    exact after.store.lt (sound.held ref member)

theorem Sound.leads {session : Session} (sound : session.Sound) :
    After Store.Leads session session :=
  ⟨sound.store.leads, rfl⟩

theorem After.follows {old new : Session} (after : After Store.Leads old new) (sound : old.Sound) :
    After Store.Follows old new :=
  ⟨after.store.follows sound.store, after.bindings⟩

theorem After.sound {old new : Session} (after : After Store.Leads old new) (sound : old.Sound) :
    new.Sound :=
  sound.after (after.follows sound)

theorem After.lt {old new : Session} (after : After Store.Leads old new) {ref : Ref}
    (inside : ref < old.store.heap.size) : ref < new.store.heap.size :=
  Nat.lt_of_lt_of_le inside after.store.grows.heap.size

theorem mem_held_of_find? {session : Session} {name : String} {ref : Ref}
    (found : session.find? name = some ref) : ref ∈ session.held := by
  obtain ⟨pair, here, rfl⟩ := Option.map_eq_some_iff.1 found
  exact List.mem_map_of_mem (List.mem_of_find?_eq_some here)

theorem After.find?_eq {later : Store → Store → Prop} {old new : Session}
    (after : After later old new)
    (name : String) : new.find? name = old.find? name := by
  rw [find?, after.bindings, find?]

theorem find?_erase_of_ne (session : Session) {name other : String} (h : other ≠ name) :
    (session.erase name).find? other = session.find? other := by
  unfold find? erase
  rw [List.find?_filter]
  congr 2
  funext pair
  by_cases same : pair.1 = other <;> simp [same, h]

theorem find?_bind_self (session : Session) (name : String) (ref : Ref) :
    (session.bind name ref).find? name = some ref := by
  simp [find?, bind]

theorem find?_bind_of_ne (session : Session) {name other : String} (ref : Ref) (h : other ≠ name) :
    (session.bind name ref).find? other = session.find? other := by
  rw [← find?_erase_of_ne session h]
  simp [find?, bind, Ne.symm h]

theorem held_erase_sublist (session : Session) (name : String) :
    (session.erase name).held.Sublist session.held :=
  List.filter_sublist.map _

theorem count_map_filter_lt {α : Type} (f : α → Ref) (p : α → Bool) {list : List α} {a : α}
    (member : a ∈ list) (out : p a = false) :
    ((list.filter p).map f).count (f a) < (list.map f).count (f a) := by
  obtain ⟨before, after, rfl⟩ := List.append_of_mem member
  have left := ((List.filter_sublist (l := before) (p := p)).map f).count_le (f a)
  have right := ((List.filter_sublist (l := after) (p := p)).map f).count_le (f a)
  rw [List.filter_append, List.filter_cons_of_neg (by simp [out]), List.map_append, List.map_append,
    List.map_cons, List.count_append, List.count_append, List.count_cons_self]
  omega

theorem count_held_erase {session : Session} {name : String} {ref : Ref}
    (found : session.find? name = some ref) :
    (session.erase name).held.count ref < session.held.count ref := by
  obtain ⟨pair, here, rfl⟩ := Option.map_eq_some_iff.1 found
  have bound : pair.1 = name := by simpa using List.find?_some here
  exact count_map_filter_lt _ _ (List.mem_of_find?_eq_some here) (by simp [bound])

theorem Sound.bind {session : Session} (sound : session.Sound) {ref : Ref}
    (inside : ref < session.store.heap.size) (name : String) : (session.bind name ref).Sound where
  store := sound.store
  held other member := by
    rcases List.mem_cons.1 member with rfl | rest
    · exact inside
    · exact sound.held other ((held_erase_sublist session name).subset rest)

theorem Sound.erase {session : Session} (sound : session.Sound) (name : String) :
    (session.erase name).Sound where
  store := sound.store
  held other member := sound.held other ((held_erase_sublist session name).subset member)

end Session

open Session (After)

namespace Script

section Primitives

variable {α : Type} (session : Session)

theorem run_perform {run : Run α} {r : Except Error α} {t : Store}
    (h : run.run session.store = (r, t)) :
    (perform run).run session = (r.mapError .refused, { session with store := t }) := by
  unfold perform
  rw [run_get_bind, h]
  cases r <;> rfl

variable {session} in
theorem run_named {name : String} {ref : Ref} (found : session.find? name = some ref) :
    (named name).run session = (.ok ref, session) := by
  unfold named
  rw [run_get_bind, found]
  rfl

variable {session} in
theorem run_named_none {name : String} (absent : session.find? name = none) :
    (named name).run session = (.error .unbound, session) := by
  unfold named
  rw [run_get_bind, absent]
  rfl

theorem run_settle (x : Except Error α) :
    (settle x).run session = (x.mapError .refused, session) := by
  cases x <;> rfl

end Primitives

theorem perform_after {α : Type} {later : Store → Store → Prop} {run : Run α} {session : Session}
    {good : α → Store → Prop} (h : Ensures later run session.store good) :
    Ensures (After later) (perform run) session fun a t => good a t.store := by
  obtain ⟨after, value⟩ := h
  rcases ran : run.run session.store with ⟨r, t⟩
  rw [ran] at after value
  refine .of_run (run_perform session ran) ⟨after, rfl⟩ fun a same => ?_
  cases r with
  | error e => cases same
  | ok b =>
      obtain rfl := Except.ok.inj same
      exact value _ rfl

section Settling

variable {session : Session} (sound : session.Sound)
include sound

theorem settle_after {α : Type} (x : Except Error α) :
    Ensures (After Store.Leads) (settle x) session fun a t => x = .ok a ∧ t = session := by
  refine .of_run (run_settle session x) sound.leads fun a same => ?_
  cases x with
  | error e => cases same
  | ok b => exact ⟨congrArg _ (Except.ok.inj same), rfl⟩

theorem named_after (name : String) :
    Ensures (After Store.Leads) (named name) session fun ref t =>
      session.find? name = some ref ∧ t = session := by
  unfold named
  refine Ensures.get_bind ?_
  cases session.find? name with
  | none => exact .throw sound.leads
  | some ref => exact .pure sound.leads ⟨rfl, rfl⟩

theorem descriptor_after (source : Source) :
    Ensures (After Store.Leads) (descriptor source) session fun ref t =>
      ref < t.store.heap.size := by
  cases source with
  | shared code =>
      unfold descriptor
      exact perform_after (shared_lt sound.store code)
  | written text =>
      unfold descriptor
      exact perform_after (adopting_leads (readType_leads sound.store text))
  | named name =>
      unfold descriptor
      refine (named_after sound name).imp ?_
      rintro ref _ - ⟨found, rfl⟩
      exact sound.held ref (Session.mem_held_of_find? found)

theorem entryPlan_after (plan : EntryPlan Source) :
    Ensures (After Store.Leads) (entryPlan plan) session fun settled t =>
      settled.key = plan.key ∧ settled.descriptor < t.store.heap.size :=
  (descriptor_after sound plan.descriptor).map fun _ _ _ inside => ⟨rfl, inside⟩

theorem fieldPlan_after (plan : FieldPlan Source) :
    Ensures (After Store.Leads) (fieldPlan plan) session fun settled t =>
      settled.Fits t.store.heap := by
  have types : Ensures (After Store.Leads) (fieldType plan.type) session fun type t =>
      ∀ ref, type = .existing ref → ref < t.store.heap.size := by
    cases plan.type with
    | existing d =>
        refine (descriptor_after sound d).map fun ref t _ inside other same => ?_
        exact FieldType.existing.inj same ▸ inside
    | _ => exact .pure sound.leads fun ref none => nomatch none
  exact types.map fun _ _ _ fits ref same => fits ref same

theorem blueprint_after (plan : Blueprint Source) :
    Ensures (After Store.Leads) (blueprint plan) session fun settled t =>
      ∀ field ∈ settled.fields, field.Fits t.store.heap := by
  have fields := Ensures.mapM sound.leads fieldPlan (fun _ settled t => settled.Fits t.store.heap)
    (fun _ _ _ _ after fits ref same => after.lt (fits ref same)) plan.fields
    fun field _ t after => fieldPlan_after (after.sound sound) field
  exact fields.map fun settled t _ all => forall_of_forall₂ all

theorem edit_after (plan : Edit Source IntervalSource) :
    Ensures (After Store.Leads) (edit plan) session fun settled t =>
      settled.Alike plan ∧ ∀ ref ∈ settled.targets, ref < t.store.heap.size := by
  unfold edit
  cases plan with
  | nothing | size | alignment | order | flags | erase | rekey | rename | names | clear =>
      exact .pure sound.leads ⟨⟨fun _ _ => .rfl, .rfl⟩, fun ref none => nomatch none⟩
  | subarray new =>
      cases new with
      | none => exact .pure sound.leads ⟨⟨fun _ _ => .rfl, .rfl⟩, fun ref none => nomatch none⟩
      | some pair =>
          refine (descriptor_after sound pair.1).map fun ref t _ inside => ?_
          refine ⟨⟨fun _ _ => .rfl, .rfl⟩, fun other member => ?_⟩
          rw [List.mem_singleton.1 member]
          exact inside
  | interval source =>
      refine (settle_after sound source.interval).map fun i t after holds => ?_
      exact ⟨⟨fun _ _ => .rfl, .rfl⟩, fun ref none => nomatch none⟩
  | fields list plans =>
      have entries := Ensures.mapM sound.leads entryPlan
        (fun _ settled t => settled.descriptor < t.store.heap.size)
        (fun _ _ _ _ after inside => after.lt inside) plans
        fun plan _ t after =>
          (entryPlan_after (after.sound sound) plan).imp fun _ _ _ holds => holds.2
      refine entries.map fun settled t _ all => ?_
      refine ⟨⟨fun _ _ => .rfl, .rfl⟩, fun ref member => ?_⟩
      obtain ⟨plan, listed, rfl⟩ := List.mem_map.1 member
      exact forall_of_forall₂ all plan listed
  | put plan =>
      refine (entryPlan_after sound plan).map fun settled t _ holds => ?_
      refine ⟨⟨fun d key => ?_, .rfl⟩, fun ref member => ?_⟩
      · simp only [Edit.Rewrites, holds.1]
      · rw [List.mem_singleton.1 member]
        exact holds.2
  | retarget key d =>
      refine (descriptor_after sound d).map fun ref t _ inside => ?_
      refine ⟨⟨fun _ _ => .rfl, .rfl⟩, fun other member => ?_⟩
      rw [List.mem_singleton.1 member]
      exact inside

end Settling

end Script

end ElementTypes
