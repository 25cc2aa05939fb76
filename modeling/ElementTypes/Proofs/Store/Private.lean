import ElementTypes.Proofs.Heap.Objects
import ElementTypes.Proofs.Heap.Owners
import ElementTypes.Proofs.Store.Sound
import ElementTypes.Store.Private

/-! # What exclusive access excludes -/

namespace ElementTypes.Store

/-- How exclusive access to a cell is granted: with the cell itself, where its holder is its one
owner, or with a copy in a new cell. -/
inductive Granted (held : List Ref) (old : Ref) (store : Store) : Ref → Store → Prop
  | sole (one : store.heap.owners (held ++ store.owned) old = 1) (memory : Memory) :
      Granted held old store old { store with memory }
  | copied {new : Ref} {t : Store} (grown : store.heap.Extends t.heap)
      (fresh : store.heap.size ≤ new)
      (inside : new < t.heap.size)
      (copy : ∃ companion, t.heap.get new = { store.heap.get old with companion }) :
      Granted held old store new t

theorem privateCell_grants {store : Store} (sound : store.Sound) (held : List Ref) (ref : Ref) :
    Ensures Leads (privateCell held ref) store (store.Granted held ref) := by
  unfold privateCell
  refine Ensures.get_bind ?_
  by_cases sole : store.heap.owners (held ++ store.owned) ref = 1
  · simp only [if_pos sole]
    exact .pure sound.leads (.sole sole store.memory)
  · simp only [if_neg sole]
    refine (duplicate_leads sound ref).bind ?_
    rintro copy t after ⟨⟨companion, rfl⟩, same⟩
    have fits : ({ store.heap.get ref with companion } : Descriptor).Fits t.heap := by
      rw [same]
      exact (sound.closed.fits ref).of_subset fun _ => id
    refine (adopt_leads after.sound fits).imp ?_
    rintro new u last ⟨fresh, inside, here⟩
    rw [same] at fresh
    exact .copied (after.grows.heap.trans last.grows.heap) fresh inside ⟨companion, here⟩

theorem Sound.roots_lt {held : List Ref} {store : Store} (sound : store.Sound)
    (within : ∀ ref ∈ held, ref < store.heap.size) :
    ∀ root ∈ held ++ store.owned, root < store.heap.size := fun root member =>
  (List.mem_append.1 member).elim (within root) (sound.owned_lt root)

namespace Granted

variable {held : List Ref} {old new : Ref} {store t : Store}
  (granted : store.Granted held old new t)
include granted

theorem spend (memory : Memory) : store.Granted held old new { t with memory } := by
  cases granted with
  | sole one => exact .sole one memory
  | copied grown fresh inside copy => exact .copied grown fresh inside copy

theorem grown : store.heap.Extends t.heap := by
  cases granted with
  | sole => exact .refl _
  | copied grown => exact grown

theorem layout : (t.heap.get new).layout = (store.heap.get old).layout := by
  cases granted with
  | sole => rfl
  | copied _ _ _ copy =>
      obtain ⟨companion, same⟩ := copy
      rw [same]

variable (sound : store.Sound) (within : ∀ ref ∈ held, ref < store.heap.size)
  (holds : old ∈ held)
include sound within holds

omit sound in
theorem lt : new < t.heap.size := by
  cases granted with
  | sole => exact within old holds
  | copied _ _ inside => exact inside

theorem not_leads {root cell : Ref} (member : root ∈ held ++ store.owned)
    (live : store.heap.Reaches root cell) : ¬ Relation.TransGen t.heap.Points cell new := by
  intro path
  have roots := sound.roots_lt within
  cases granted with
  | sole one =>
      obtain ⟨last, before, points⟩ := Relation.TransGen.tail'_iff.1 path
      exact Heap.not_points_of_sole_owner (List.mem_append_left _ holds) one sound.closed roots
        member (live.trans before) points
  | copied grown fresh =>
      have inside := sound.closed.reaches_lt live (roots root member)
      have bound := grown.reaches_lt sound.closed path.to_reflTransGen inside
      exact absurd bound (Nat.not_lt.2 fresh)

theorem apart {others : List Ref} (part : others ⊆ held)
    (fewer : others.count old < held.count old) {root : Ref}
    (member : root ∈ others ++ store.owned) : ¬ t.heap.Reaches root new := by
  intro path
  have all : root ∈ held ++ store.owned := (List.mem_append.1 member).elim
    (fun other => List.mem_append_left _ (part other)) (List.mem_append_right _)
  rcases Relation.reflTransGen_iff_eq_or_transGen.1 path with same | proper
  · rw [← same] at member all
    cases granted with
    | sole one =>
        have once := Heap.count_of_sole_owner (List.mem_append_left _ holds) one
        rw [List.count_append] at once
        -- the one time that the cell is held is not among the others
        have none : (others ++ store.owned).count old = 0 := by
          rw [List.count_append]
          omega
        exact List.count_eq_zero.1 none member
    | copied _ fresh =>
        exact absurd (sound.roots_lt within new all) (Nat.not_lt.2 fresh)
  · exact granted.not_leads sound within holds all .refl proper

theorem sound_set {others : List Ref} (part : others ⊆ held)
    (fewer : others.count old < held.count old) (after : t.Sound)
    {d : Descriptor}
    (targets : ∀ ref ∈ d.links, ref ∈ (t.heap.get new).links ∨ ref ∈ others) :
    Sound { t with heap := t.heap.set new d } := by
  have inside := granted.lt within holds
  have known : ∀ ref ∈ others, ref < t.heap.size := fun ref member =>
    Nat.lt_of_lt_of_le (within ref (part member)) granted.grown.size
  have fits : d.Fits t.heap := fun ref link =>
    (targets ref link).elim (after.closed new ref) (known ref)
  have cleared : ∀ ref ∈ d.links, ¬ t.heap.Reaches ref new := by
    intro ref link path
    rcases targets ref link with kept | other
    · exact after.acyclic new (.head' kept path)
    · exact granted.apart sound within holds part fewer (List.mem_append_left _ other) path
  have acyclic := Heap.acyclic_set after.acyclic inside cleared
  refine ⟨Heap.closed_set after.closed fits, acyclic, ?_, ?_, ?_, after.numbered⟩
  · rw [Heap.size_set]
    exact after.room
  · intro code builtin
    have owned : code.number ∈ others ++ store.owned := List.mem_append_right _
      (List.mem_append_left _ (List.mem_range.2 (Code.number_lt builtin)))
    have other : code.number ≠ new := fun same =>
      granted.apart sound within holds part fewer owned (same ▸ .refl)
    rw [Heap.get_set_of_ne _ _ other]
    exact after.builtin code builtin
  · intro ref member
    rw [Heap.size_set]
    exact after.users ref member

omit sound within holds in
theorem treeKept_set {ref : Ref} (closed : store.heap.Closed) (inside : ref < store.heap.size)
    (apart : ¬ t.heap.Reaches ref new) (d : Descriptor) :
    store.heap.TreeKept (t.heap.set new d) ref := by
  intro cell path
  have other : cell ≠ new := by
    rintro rfl
    exact apart ((granted.grown.reaches_iff closed inside).2 path)
  refine .inl ?_
  rw [Heap.get_set_of_ne _ _ other]
  exact granted.grown.get cell (closed.reaches_lt path inside)

end Granted

end ElementTypes.Store
