import ElementTypes.Proofs.Session.Settle
import ElementTypes.Proofs.Store.Exclusive

/-! # Access

A handle that is given exclusive access is the one owner of what it then points at, so the last test
of `Script.makePrivate` never fails.
-/

namespace ElementTypes

namespace Session

def Live (session : Session) (cell : Ref) : Prop :=
  ∃ root ∈ session.held ++ session.store.owned, session.store.heap.Reaches root cell

def Has (session : Session) : Handle → Prop
  | .name _ => True
  | .code _ => True
  | .entry cell _ => session.Live cell
  | .base cell => session.Live cell

def OwnsAlone (session : Session) (args : List Ref) (ref : Ref) : Prop :=
  session.store.heap.owners (session.roots args) ref = 1

section Handles

variable {session : Session} (sound : session.Sound)
include sound

theorem Live.lt {cell : Ref} (live : session.Live cell) : cell < session.store.heap.size := by
  obtain ⟨root, member, path⟩ := live
  exact sound.store.closed.reaches_lt path (sound.store.roots_lt sound.held root member)

theorem lt_of_follow? {handle : Handle} {ref : Ref} (found : session.follow? handle = some ref) :
    ref < session.store.heap.size := by
  cases handle with
  | name name => exact sound.held ref (mem_held_of_find? found)
  | code code => exact sound.store.owned_lt ref (Store.mem_owned_of_cellOf? found)
  | entry cell key =>
      obtain ⟨entry, here, rfl⟩ := Option.map_eq_some_iff.1 found
      exact sound.store.closed cell _ (Descriptor.mem_links_of_find? here)
  | base cell =>
      obtain ⟨subarray, here, rfl⟩ := Option.map_eq_some_iff.1 found
      exact sound.store.closed cell _ (Descriptor.mem_links_iff.2 (.inr ⟨subarray, here, rfl⟩))

end Handles

theorem follow?_at (session : Session) (cell : Ref) (place : Place) :
    session.follow? (.at cell place) = (session.store.heap.get cell).at? place := by
  cases place <;> rfl

theorem point_at (session : Session) (cell : Ref) (place : Place) (ref : Ref) :
    session.point (.at cell place) ref =
      session.write cell ((session.store.heap.get cell).redirect place ref) := by
  cases place <;> rfl

theorem name_or_at {handle : Handle} (free : ∀ code, handle ≠ .code code) :
    (∃ name, handle = .name name) ∨ ∃ cell place, handle = .at cell place := by
  cases handle with
  | code code => exact absurd rfl (free code)
  | name name => exact .inl ⟨name, rfl⟩
  | entry cell key => exact .inr ⟨cell, .entry key, rfl⟩
  | base cell => exact .inr ⟨cell, .base, rfl⟩

theorem has_at {session : Session} {cell : Ref} {place : Place} :
    session.Has (.at cell place) ↔ session.Live cell := by
  cases place <;> exact .rfl

section Owners

variable {session : Session} (sound : session.Sound) {args : List Ref}
  (inside : ∀ ref ∈ args, ref < session.store.heap.size)
include sound inside

theorem roots_lt : ∀ root ∈ session.roots args, root < session.store.heap.size :=
  sound.store.roots_lt fun ref member =>
    (List.mem_append.1 member).elim (sound.held ref) (inside ref)

section Sole

variable {old : Ref} (sole : session.OwnsAlone args old)
include sole

theorem owners_bind_sole {name : String} (found : session.find? name = some old) :
    (session.bind name old).OwnsAlone args old := by
  have held : old ∈ session.roots args :=
    List.mem_append_left _ (List.mem_append_left _ (mem_held_of_find? found))
  have once := Heap.count_of_sole_owner held sole
  have roots := roots_lt sound inside
  have fewer := count_held_erase found
  have part : (session.bind name old).roots args ⊆ session.roots args := by
    refine List.cons_subset.2 ⟨held, ?_⟩
    exact (((held_erase_sublist session name).append_right args).append_right _).subset
  refine (Heap.owners_of_unlinked sound.store.closed (fun root member => roots root (part member))
    fun root member cell path => ?_).trans ?_
  · exact Heap.not_points_of_sole_owner held sole sound.store.closed roots (part member) path
  · change (old :: ((session.erase name).held ++ args ++ session.store.owned)).count old = 1
    rw [Session.roots, List.count_append, List.count_append] at once
    rw [List.count_cons_self, List.count_append, List.count_append]
    omega

omit inside sole in
theorem point_self {cell : Ref} {place : Place} (live : session.Live cell)
    (follows : session.follow? (.at cell place) = some old) :
    session.point (.at cell place) old = session := by
  rw [follow?_at] at follows
  rw [point_at, Descriptor.redirect_self follows, write, Heap.set_get _ (live.lt sound)]

theorem owners_point_sole {handle : Handle} (free : ∀ code, handle ≠ .code code)
    (has : session.Has handle) (follows : session.follow? handle = some old) :
    (session.point handle old).OwnsAlone args old := by
  obtain ⟨name, rfl⟩ | ⟨cell, place, rfl⟩ := name_or_at free
  · exact owners_bind_sole sound inside sole follows
  · rw [point_self sound (has_at.1 has) follows]
    exact sole

end Sole

omit sound inside in
def withCopy (session : Session) (ref : Ref) (companion : Option String) (offers : List Offer)
    (memory : Memory) : Session :=
  { session with store := session.store.withCopy ref companion offers memory }

section Copies

variable (old : Ref) (companion : Option String) (offers : List Offer)
  (memory : Memory)

theorem owners_bind_copy (name : String) :
    ((session.withCopy old companion offers memory).bind name session.store.heap.size).OwnsAlone
      args session.store.heap.size := by
  have closed := (Store.withCopy_sound old companion offers sound.store memory).closed
  have size := session.store.size_withCopy old companion offers memory
  have rest : ∀ root ∈ (session.erase name).held ++ args ++ session.store.owned,
      root < session.store.heap.size := fun root member => roots_lt sound inside root
    ((((held_erase_sublist session name).append_right args).append_right _).subset member)
  have apart : session.store.heap.size ∉ (session.erase name).held ++ args ++ session.store.owned :=
    fun member => Nat.lt_irrefl _ (rest _ member)
  refine (Heap.owners_of_unlinked closed ?_ fun _ _ cell _ => ?_).trans ?_
  · exact List.forall_mem_cons.2
      ⟨size.symm ▸ Nat.lt_succ_self _, fun root member => Store.lt_withCopy (rest root member)⟩
  · exact Store.not_points_withCopy old companion offers sound.store memory cell
  · exact (List.count_cons_self ..).trans (congrArg (· + 1) (List.count_eq_zero.2 apart))

theorem owners_write_copy {cell : Ref} (live : session.Live cell) {place : Place}
    (here : (session.store.heap.get cell).at? place = some old) :
    ((session.withCopy old companion offers memory).write cell
      ((session.store.heap.get cell).redirect place session.store.heap.size)).OwnsAlone
        args session.store.heap.size := by
  have grown : session.store.heap.Extends
      (session.store.withCopy old companion offers memory).heap := .alloc session.store.heap _
  have closed := (Store.withCopy_sound old companion offers sound.store memory).closed
  have roots := roots_lt sound inside
  have size := session.store.size_withCopy old companion offers memory
  have bound := live.lt sound
  obtain ⟨root, member, path⟩ := live
  have held : root ∈ session.roots args := by
    rcases List.mem_append.1 member with left | right
    · exact List.mem_append_left _ (List.mem_append_left _ left)
    · exact List.mem_append_right _ right
  have fresh : session.store.heap.size ∉ (session.store.heap.get cell).links := fun link =>
    Nat.lt_irrefl _ (sound.store.closed cell _ link)
  have fits : ((session.store.heap.get cell).redirect place session.store.heap.size).Fits
      (session.store.withCopy old companion offers memory).heap := by
    intro ref link
    rcases Descriptor.links_redirect link with rfl | kept
    · rw [size]
      exact Nat.lt_succ_self _
    · exact Store.lt_withCopy (sound.store.closed cell ref kept)
  have path' := (grown.reaches_iff sound.store.closed (roots root held)).2 path
  refine (Heap.owners_of_link (Heap.closed_set closed fits) (fun root member => ?_) held
    (Heap.reaches_set_iff.2 path') fun other differs points => ?_).trans ?_
  · rw [Heap.size_set]
    exact Store.lt_withCopy (roots root member)
  · exact Store.not_points_withCopy old companion offers sound.store memory other
      ((Heap.points_set_of_ne differs).1 points)
  · have apart : session.store.heap.size ∉ session.roots args := fun member =>
      Nat.lt_irrefl _ (roots _ member)
    rw [List.count_eq_zero.2 apart, Nat.zero_add, Heap.get_set_self _ (Store.lt_withCopy bound)]
    exact Descriptor.count_links_redirect here fresh

omit inside in
theorem point_withCopy {cell : Ref} (live : session.Live cell) (place : Place) :
    (session.withCopy old companion offers memory).point (.at cell place) session.store.heap.size =
      (session.withCopy old companion offers memory).write cell
        ((session.store.heap.get cell).redirect place session.store.heap.size) := by
  have same : (session.withCopy old companion offers memory).store.heap.get cell =
    session.store.heap.get cell := Store.get_withCopy_of_lt (live.lt sound)
  rw [point_at, same]

theorem owners_point_copy {handle : Handle} (free : ∀ code, handle ≠ .code code)
    (has : session.Has handle) (follows : session.follow? handle = some old) :
    ((session.withCopy old companion offers memory).point handle
      session.store.heap.size).OwnsAlone args session.store.heap.size := by
  obtain ⟨name, rfl⟩ | ⟨cell, place, rfl⟩ := name_or_at free
  · exact owners_bind_copy sound inside old companion offers memory name
  · rw [point_withCopy sound old companion offers memory (has_at.1 has)]
    rw [follow?_at] at follows
    exact owners_write_copy sound inside old companion offers memory (has_at.1 has) follows

end Copies

omit sound inside in
def given (session : Session) (handle : Handle) :
    Except Error Ref × Store → Except Failure Ref × Session
  | (.ok new, t) => (.ok new, ({ session with store := t } : Session).point handle new)
  | (.error error, t) => (.error (.refused error), { session with store := t })

theorem makePrivate_run {handle : Handle} (free : ∀ code, handle ≠ .code code)
    (has : session.Has handle) {old : Ref} (follows : session.follow? handle = some old) :
    (Script.makePrivate args handle).run session =
      session.given handle ((privateCell (session.held ++ args) old).run session.store) := by
  have parted := privateCell_parted sound.store (session.held ++ args) old
  unfold Script.makePrivate
  rw [run_get_bind]
  simp only [follows]
  rcases ran : (privateCell (session.held ++ args) old).run session.store with ⟨result, t⟩
  rw [ran] at parted
  cases parted with
  | denied => rw [run_bind_error _ _ _ (Script.run_perform session ran), given]
  | sole one =>
      rw [run_bind_ok _ _ _ (Script.run_perform session ran), given, run_modify_bind, run_get_bind]
      have owner := owners_point_sole sound inside one free has follows
      exact congrArg (fun script : Script Ref => script.run _) (if_pos owner)
  | @copied companion offers memory shared copied kept =>
      rw [run_bind_ok _ _ _ (Script.run_perform session ran), given, run_modify_bind, run_get_bind]
      have owner := owners_point_copy sound inside old companion offers memory free has follows
      exact congrArg (fun script : Script Ref => script.run _) (if_pos owner)

end Owners

end Session

end ElementTypes
