import ElementTypes.Proofs.Heap.Equivalence
import ElementTypes.Proofs.Heap.Scans
import ElementTypes.Proofs.Session.Isolation
import ElementTypes.Proofs.Store.Exclusive

/-! # Exclusive handles -/

namespace ElementTypes

namespace Heap

theorem equal_of_companion {heap : Heap} {a b : Ref} {companion : Option String}
    (same : heap.get a = { heap.get b with companion }) : heap.equal a b = true := by
  rw [equal, depth, equalWithin_succ, same]
  exact { Descriptor.Matches.refl (equalWithin_self heap heap.size) (heap.get b) with }

end Heap

namespace Session

/-- What it means that a handle of `old` was given exclusive access and is a handle of `new` now. -/
structure Exclusive (session : Session) (args : List Ref) (handle : Handle) (old new : Ref)
    (after : Session) : Prop where
  follow : after.follow? handle = some new
  owners : after.store.heap.owners (after.roots args) new = 1
  equal : after.store.heap.equal new old = true
  layout : (after.store.heap.get new).layout = (session.store.heap.get old).layout
  subarray : (after.store.heap.get new).subarray = (session.store.heap.get old).subarray
  others : ∀ other ref, other ≠ handle → session.Has other → session.follow? other = some ref →
    after.follow? other = some ref
  sole : session.store.heap.owners (session.roots args) old = 1 →
    new = old ∧ after.store = session.store
  copied : session.store.heap.owners (session.roots args) old ≠ 1 →
    session.store.heap.size ≤ new ∧
      session.store.Copied old (after.store.heap.get new).companion after.store.offers

theorem follow?_write_of_ne {session : Session} {cell : Ref}
    (inside : cell < session.store.heap.size) {place : Place} {other : Handle}
    (differs : other ≠ .at cell place) (ref : Ref) :
    (session.write cell ((session.store.heap.get cell).redirect place ref)).follow? other =
      session.follow? other := by
  have apart : ∀ cell' place', other = .at cell' place' →
      (session.write cell ((session.store.heap.get cell).redirect place ref)).follow? other =
        session.follow? other := by
    rintro cell' place' rfl
    rw [follow?_at, follow?_at, write]
    by_cases here : cell' = cell
    · subst here
      have elsewhere : place' ≠ place := fun same => differs (same ▸ rfl)
      rw [Heap.get_set_self _ inside, Descriptor.at?_redirect_of_ne _ _ elsewhere]
    · rw [Heap.get_set_of_ne _ _ here]
  cases other with
  | name name => rfl
  | code code => rfl
  | entry cell' key => exact apart cell' (.entry key) rfl
  | base cell' => exact apart cell' .base rfl

section Access

variable {session : Session} (sound : session.Sound) {args : List Ref}
  (inside : ∀ ref ∈ args, ref < session.store.heap.size)
include sound inside

theorem exclusive_sole {old : Ref} (sole : session.OwnsAlone args old) {handle : Handle}
    (free : ∀ code, handle ≠ .code code) (has : session.Has handle)
    (follows : session.follow? handle = some old) :
    session.Exclusive args handle old old (session.point handle old) := by
  obtain ⟨name, rfl⟩ | ⟨cell, place, rfl⟩ := name_or_at free
  · refine ⟨find?_bind_self session name old, owners_bind_sole sound inside sole follows,
      Heap.equalWithin_self _ _ old, rfl, rfl, fun other ref differs _ kept => ?_,
      fun _ => ⟨rfl, rfl⟩, fun shared => absurd sole shared⟩
    cases other with
    | name name' =>
        exact (find?_bind_of_ne session old fun taken => differs (congrArg _ taken)).trans kept
    | code | entry | base => exact kept
  · rw [point_self sound (has_at.1 has) follows]
    exact ⟨follows, sole, Heap.equalWithin_self _ _ old, rfl, rfl, fun _ _ _ _ kept => kept,
      fun _ => ⟨rfl, rfl⟩, fun shared => absurd sole shared⟩

section Copied

variable {old : Ref} {companion : Option String} {offers : List Offer} {memory : Memory}
  (enough : session.store.Ample → memory = .ample)
include enough

omit inside in
theorem follow?_withCopy {other : Handle} {ref : Ref} (has : session.Has other)
    (found : session.follow? other = some ref) :
    (session.withCopy old companion offers memory).follow? other = some ref := by
  have after := Store.withCopy_leads old companion offers sound.store enough
  have isolated : session.Isolated (session.withCopy old companion offers memory) other ref :=
    isolated_of_follows sound (after.follows sound.store) found has fun _ _ => rfl
  exact isolated.follow

variable (shared : session.store.heap.owners (session.roots args) old ≠ 1)
  (copied : session.store.Copied old companion offers)
include shared copied

theorem exclusive_write_copy {cell : Ref} (live : session.Live cell) {place : Place}
    (here : (session.store.heap.get cell).at? place = some old) :
    session.Exclusive args (.at cell place) old session.store.heap.size
      ((session.withCopy old companion offers memory).point (.at cell place)
        session.store.heap.size) := by
  have within := live.lt sound
  have bound : cell < (session.withCopy old companion offers memory).store.heap.size :=
    Store.lt_withCopy within
  have same : (session.withCopy old companion offers memory).store.heap.get cell =
    session.store.heap.get cell := Store.get_withCopy_of_lt within
  have other : old ≠ cell := by
    rintro rfl
    exact sound.store.acyclic old (.single (Descriptor.mem_links_of_at? here))
  have before := lt_of_follow? sound ((follow?_at session cell place).trans here)
  rw [point_withCopy sound old companion offers memory live]
  generalize written : (session.withCopy old companion offers memory).write cell
    ((session.store.heap.get cell).redirect place session.store.heap.size) = after
  have new : after.store.heap.get session.store.heap.size =
      { session.store.heap.get old with companion } := by
    rw [← written, write, Heap.get_set_of_ne _ _ (Nat.ne_of_gt within)]
    exact session.store.get_withCopy_self old companion offers memory
  have kept : after.store.heap.get old = session.store.heap.get old := by
    rw [← written, write, Heap.get_set_of_ne _ _ other]
    exact Store.get_withCopy_of_lt before
  exact {
    follow := by
      rw [← written, follow?_at, write, Heap.get_set_self _ bound]
      exact Descriptor.at?_redirect_self here _
    owners := by
      rw [← written]
      exact owners_write_copy sound inside old companion offers memory live here
    equal := Heap.equal_of_companion (by rw [new, kept])
    layout := by rw [new]
    subarray := by rw [new]
    others := fun handle ref differs has found => by
      rw [← written, ← same, follow?_write_of_ne bound differs]
      exact follow?_withCopy sound enough has found
    sole := fun one => absurd one shared
    copied := fun _ => ⟨Nat.le_refl _, by
      rw [new, ← written]
      exact copied⟩ }

theorem exclusive_bind_copy {name : String} (found : session.find? name = some old) :
    session.Exclusive args (.name name) old session.store.heap.size
      ((session.withCopy old companion offers memory).bind name session.store.heap.size) := by
  have new : ((session.withCopy old companion offers memory).bind name
      session.store.heap.size).store.heap.get session.store.heap.size =
        { session.store.heap.get old with companion } :=
    session.store.get_withCopy_self old companion offers memory
  have kept : ((session.withCopy old companion offers memory).bind name
      session.store.heap.size).store.heap.get old = session.store.heap.get old :=
    Store.get_withCopy_of_lt (sound.held old (mem_held_of_find? found))
  exact {
    follow := find?_bind_self _ name _
    owners := owners_bind_copy sound inside old companion offers memory name
    equal := Heap.equal_of_companion (by rw [new, kept])
    layout := by rw [new]
    subarray := by rw [new]
    others := fun other ref differs has found => by
      have still : (session.withCopy old companion offers memory).follow? other = some ref :=
        follow?_withCopy sound enough has found
      cases other with
      | name name' =>
          exact (find?_bind_of_ne _ _ fun taken => differs (congrArg _ taken)).trans still
      | code | entry | base => exact still
    sole := fun one => absurd one shared
    copied := fun _ => ⟨Nat.le_refl _, by
      rw [new]
      exact copied⟩ }

end Copied

theorem exclusive_of_makePrivate {handle : Handle} (free : ∀ code, handle ≠ .code code)
    (has : session.Has handle) {old new : Ref} (follows : session.follow? handle = some old)
    {after : Session} (ran : (Script.makePrivate args handle).run session = (.ok new, after)) :
    session.Exclusive args handle old new after := by
  have access := makePrivate_run sound inside free has follows
  have parted := privateCell_parted sound.store (session.held ++ args) old
  rw [ran] at access
  generalize (privateCell (session.held ++ args) old).run session.store = out at access parted
  cases parted with
  | denied => cases access
  | sole one =>
      cases access
      exact exclusive_sole sound inside one free has follows
  | copied shared copied enough =>
      cases access
      obtain ⟨name, rfl⟩ | ⟨cell, place, rfl⟩ := name_or_at free
      · exact exclusive_bind_copy sound inside enough shared copied follows
      · rw [follow?_at] at follows
        exact exclusive_write_copy sound inside enough shared copied (has_at.1 has) follows

end Access

/-- Unless the hook turns down the copy, a handle is given exclusive access: right afterwards it is
the one owner of what it points at. -/
theorem access_exclusive (commands : List Command) {args : List Ref}
    (inside : ∀ ref ∈ args, ref < (initial.run commands).store.heap.size) {handle : Handle}
    (free : ∀ code, handle ≠ .code code) (has : (initial.run commands).Has handle) {old : Ref}
    (follows : (initial.run commands).follow? handle = some old)
    (accepts : (initial.run commands).store.Accepts old) :
    ∃ new after, (Script.makePrivate args handle).run (initial.run commands) = (.ok new, after) ∧
      (initial.run commands).Exclusive args handle old new after := by
  have sound := sound_run sound_initial commands
  have ample := ample_run commands
  generalize initial.run commands = session at *
  have access := makePrivate_run sound inside free has follows
  have parted := privateCell_parted sound.store (session.held ++ args) old
  generalize (privateCell (session.held ++ args) old).run session.store = out at access parted
  cases parted with
  | denied reason => exact (reason.elim (· ample) (· accepts)).elim
  | sole | copied =>
      exact ⟨_, _, access, exclusive_of_makePrivate sound inside free has follows access⟩

def watchedField : List Command := .install (some .pairing) :: sharedField

theorem access_exclusive_watchedField :
    (initial.run watchedField).follow? (.entry 24 "x") = some 23 ∧
    ∃ new after, (Script.makePrivate [] (.entry 24 "x")).run (initial.run watchedField) =
        (.ok new, after) ∧ 25 ≤ new ∧ after.follow? (.name "i") = some 23 ∧
      after.store.offers = ⟨23, { (initial.run watchedField).store.heap.get 23 with companion := none }⟩ ::
        (initial.run watchedField).store.offers := by
  have follows : (initial.run watchedField).follow? (.entry 24 "x") = some 23 := by decide
  have has : (initial.run watchedField).Has (.entry 24 "x") := ⟨24, by decide, .refl⟩
  have accepts : (initial.run watchedField).store.Accepts 23 := by
    intro hook installed
    obtain rfl : Hook.pairing = hook := Option.some.inj installed
    exact ⟨_, rfl⟩
  have shared : (initial.run watchedField).store.heap.owners
      ((initial.run watchedField).roots []) 23 ≠ 1 := by decide +kernel
  have none : ∀ ref ∈ ([] : List Ref), ref < (initial.run watchedField).store.heap.size :=
    List.forall_mem_nil _
  have free : ∀ code, Handle.entry 24 "x" ≠ .code code := by simp
  obtain ⟨new, after, ran, exclusive⟩ := access_exclusive watchedField none free has follows accepts
  obtain ⟨fresh, copied⟩ := exclusive.copied shared
  have other := exclusive.others (.name "i") 23 (by simp) trivial (by decide)
  exact ⟨follows, new, after, ran, fresh, other, copied.asked_once rfl⟩

end Session

end ElementTypes
