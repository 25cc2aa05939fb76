import ElementTypes.Proofs.Store.Growth

/-! # Stores that keep their cells -/

namespace ElementTypes

namespace Store

structure Keeps (old new : Store) : Prop where
  size : old.heap.size ≤ new.heap.size
  kept : ∀ ref < old.heap.size, old.heap.KeptAt new.heap ref
  users : ∀ (n : UInt16) (ref : Ref), old.registry.find? n = some ref →
    new.registry.find? n = some ref
  ample : old.Ample → new.Ample

structure Follows (old new : Store) : Prop where
  before : old.Sound
  sound : new.Sound
  keeps : old.Keeps new

structure Serves (old new : Store) : Prop extends Follows old new where
  registered : new.registry = old.registry

theorem Grows.keeps {old new : Store} (grows : old.Grows new) : old.Keeps new where
  size := grows.heap.size
  kept ref inside := .inl (grows.heap.get ref inside)
  users n ref found := by rw [grows.registry, found]
  ample := grows.ample

theorem Sound.follows {store : Store} (sound : store.Sound) : store.Follows store :=
  ⟨sound, sound, (Grows.refl store).keeps⟩

theorem Leads.follows {old new : Store} (leads : old.Leads new) (before : old.Sound) :
    old.Follows new :=
  ⟨before, leads.sound, leads.grows.keeps⟩

theorem Follows.part {old new : Store} (follows : old.Follows new) :
    Heap.PartKept (· < old.heap.size) old.heap new.heap :=
  ⟨fun a b _ points => follows.before.closed a b points, follows.keeps.kept⟩

theorem Follows.trans {a b c : Store} (first : a.Follows b) (second : b.Follows c) :
    a.Follows c where
  before := first.before
  sound := second.sound
  keeps := {
    size := Nat.le_trans first.keeps.size second.keeps.size
    kept := fun ref inside => first.part.trans inside
      (second.keeps.kept ref (Nat.lt_of_lt_of_le inside first.keeps.size))
    users := fun n ref found => second.keeps.users n ref (first.keeps.users n ref found)
    ample := second.keeps.ample ∘ first.keeps.ample }

instance : Onward Follows where
  trans := Follows.trans
  here after := after.sound.follows

instance : Onward Serves where
  trans first second := ⟨first.toFollows.trans second.toFollows,
    second.registered.trans first.registered⟩
  here after := ⟨after.sound.follows, rfl⟩

theorem Leads.serves {old new : Store} (leads : old.Leads new) (before : old.Sound) :
    old.Serves new :=
  ⟨leads.follows before, leads.grows.registry⟩

end Store

theorem Ensures.follows {α : Type} {run : Run α} {store : Store} {good : α → Store → Prop}
    (h : Ensures Store.Leads run store good) (sound : store.Sound) :
    Ensures Store.Follows run store good :=
  h.mono (fun _ leads => leads.follows sound) fun _ _ _ => id

theorem Ensures.serves {α : Type} {run : Run α} {store : Store} {good : α → Store → Prop}
    (h : Ensures Store.Leads run store good) (sound : store.Sound) :
    Ensures Store.Serves run store good :=
  h.mono (fun _ leads => leads.serves sound) fun _ _ _ => id

theorem Store.Follows.lt {old new : Store} (follows : old.Follows new) {ref : Ref}
    (inside : ref < old.heap.size) : ref < new.heap.size :=
  Nat.lt_of_lt_of_le inside follows.keeps.size

section Following

variable {store : Store} (sound : store.Sound)
include sound

theorem Heap.Flagged.builtin {heap : Heap} (flagged : store.heap.Flagged heap) {code : Code}
    (builtin : code.isBuiltin) : heap.get code.number = .canonical code := by
  have canonical := sound.builtin code builtin
  rcases flagged.kept code.number with same | ⟨bears, raised⟩
  · rw [same, canonical]
  · rw [canonical] at bears raised
    -- no built-in code has fields, so it bears objects by its own mark, and has the flags already
    cases bears with
    | through link => cases link
    | marked marks =>
        have object : code = .object := by
          cases code <;>
            first | rfl | exact absurd marks (by decide) | exact absurd builtin Bool.false_ne_true
        rw [raised, object]
        decide

theorem flagged_follows {heap : Heap} (flagged : store.heap.Flagged heap) :
    store.Follows { store with heap } where
  before := sound
  sound := {
    closed := flagged.closed sound.closed
    acyclic := flagged.acyclic sound.acyclic
    room := flagged.size ▸ sound.room
    builtin := fun _ => flagged.builtin sound
    users := fun ref member => flagged.size ▸ sound.users ref member
    numbered := sound.numbered }
  keeps := ⟨Nat.le_of_eq flagged.size.symm, fun ref _ => flagged.kept ref, fun _ _ => id,
    id⟩

theorem findObjects_serves {d : Descriptor} (fits : d.Fits store.heap) :
    store.Serves { store with heap := (store.heap.findObjects d).2 } :=
  ⟨flagged_follows sound (Heap.flagged_findObjects sound.closed sound.acyclic fits), rfl⟩

theorem build_serves {plan : Blueprint Ref} (fits : ∀ field ∈ plan.fields, field.Fits store.heap) :
    Ensures Store.Serves (build plan) store fun d t => d.Fits t.heap := by
  have built := build_built sound fits
  rcases run : (build plan).run store with ⟨r, t⟩
  rw [run] at built
  cases built with
  | refused after => exact .of_run run (after.serves sound) fun _ none => nomatch none
  | @made record t after fits =>
      refine .of_run run
        (Onward.trans (after.serves sound) (findObjects_serves after.sound fits)) ?_
      rintro d same
      have flagged := Heap.flagged_findObjects after.sound.closed after.sound.acyclic fits
      refine flagged.fits (fits.of_subset ?_)
      rw [← Except.ok.inj same]
      split <;> exact fun _ => id

theorem register_follows {d : Descriptor} (fits : d.Fits store.heap) :
    Ensures Store.Follows (register d) store fun _ _ => True := by
  have registered := register_registered store d
  rcases run : (register d).run store with ⟨r, t⟩
  rw [run] at registered
  cases registered with
  | refused => exact .of_run run sound.follows fun _ none => nomatch none
  | entered room =>
      have adopted := (adopt_leads sound (d := { d with code := .user store.registry.next })
        (fits.of_subset fun _ => id)).later
      refine .of_run run ⟨sound, { adopted.sound with users := ?_, numbered := ?_ },
        adopted.grows.heap.size, adopted.grows.keeps.kept, ?_, id⟩ fun _ _ => trivial
      · intro ref member
        rw [Store.entered, Heap.size_alloc]
        rcases Registry.mem_cells_enter member with rfl | old
        · exact Nat.lt_succ_self _
        · exact Nat.lt_succ_of_lt (sound.users ref old)
      · exact sound.numbered.enter room _
      · intro n ref found
        exact (Registry.find?_enter_of_ne _ _ (sound.numbered.ne_next found)).trans found

theorem registerCopies_follows {ref : Ref} (inside : ref < store.heap.size) (n : Nat) :
    Ensures Store.Follows (registerCopies ref n) store fun _ _ => True := by
  induction n generalizing store with
  | zero => exact .pure sound.follows trivial
  | succ n ih =>
      unfold registerCopies
      refine ((duplicate_fits sound ref).follows sound).bind fun copy t after fits => ?_
      refine (register_follows after.sound fits).bind fun code u after' _ => ?_
      by_cases last : n = 0
      · simp only [if_pos last]
        exact .pure after'.sound.follows trivial
      · simp only [if_neg last]
        exact ih after'.sound (after'.lt (after.lt inside))

omit sound in
theorem adopting_serves {run : Run Descriptor}
    (h : Ensures Store.Serves run store fun d t => d.Fits t.heap) :
    Ensures Store.Serves (do adopt (← run)) store fun ref t => ref < t.heap.size :=
  h.bind fun _ _ after fits => (adopt_lt after.sound fits).serves after.sound

end Following

end ElementTypes
