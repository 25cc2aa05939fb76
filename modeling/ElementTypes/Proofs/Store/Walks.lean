import ElementTypes.Proofs.Heap.Walks
import ElementTypes.Proofs.Store.Reorder

/-! # Walks in a sound store -/

namespace ElementTypes

def reorderStep (change : OrderChange) (below : Ref → Run Descriptor) (ref : Ref) :
    Run Descriptor := do
  let copy ← duplicate ref
  let layout ← copy.layout.mapM fun layout => do
    let renewed ← layout.table.primary.mapM fun entry =>
      return (entry, ← adopt (← below entry.target))
    return { layout with table := layout.table.relink renewed }
  let subarray ← copy.subarray.mapM fun subarray =>
    return { subarray with base := ← adopt (← below subarray.base) }
  return { copy with order := change.apply copy.order, layout, subarray }

theorem reorderWithin_eq_step (change : OrderChange) (n : Nat) (ref : Ref) :
    reorderWithin change (n + 1) ref = reorderStep change (reorderWithin change n) ref := rfl

section Levels

variable (change : OrderChange) {heap : Heap} {n : Nat}

def Follows (heap : Heap) (n : Nat) (ref : Ref) (run : Run Descriptor) : Prop :=
  ∀ store : Store, store.Sound → heap.Extends store.heap →
    run.run store = (reorderWithin change n ref).run store

def Heap.Bounded (heap : Heap) (n : Nat) (ref : Ref) : Prop :=
  ref < heap.size ∧ heap.Within n (heap.get ref)

variable {change} {below : Ref → Run Descriptor} (closed : heap.Closed)
  (follows : ∀ ref, heap.Bounded n ref → Follows change heap n ref (below ref))
include follows

theorem renew_congr {store : Store} (sound : store.Sound) (grown : heap.Extends store.heap)
    {target : Ref} (bounded : heap.Bounded n target) :
    (do adopt (← below target) : Run Ref).run store =
      (do adopt (← reorderWithin change n target) : Run Ref).run store :=
  run_bind_congr_left (follows target bounded store sound grown)

include closed

theorem renewFields_congr {store : Store} (sound : store.Sound) (grown : heap.Extends store.heap)
    {table : Table} (bounded : ∀ e ∈ table.entries, heap.Bounded n e.target) :
    (table.primary.mapM fun (entry : Entry) =>
        return (entry, ← adopt (← below entry.target)) : Run (List (Entry × Ref))).run store =
      (table.primary.mapM fun (entry : Entry) =>
        return (entry, ← adopt (← reorderWithin change n entry.target))).run store := by
  refine run_mapM_congr sound.leads _ ?_ ?_
  · intro entry primary t after
    have inside := bounded entry (Table.mem_primary.1 primary).1
    rw [← bind_assoc]
    exact (renew_leads change (reorderWithin_leads change closed n) inside.1 inside.2 after.sound
      (grown.trans after.grows.heap)).map fun _ _ _ _ => trivial
  · intro entry primary t after
    rw [← bind_assoc, ← bind_assoc]
    exact run_bind_congr_left (renew_congr follows after.sound (grown.trans after.grows.heap)
      (bounded entry (Table.mem_primary.1 primary).1))

theorem reorderStep_follows {ref : Ref} (bounded : heap.Bounded (n + 1) ref) :
    Follows change heap (n + 1) ref (reorderStep change below ref) := by
  intro store sound grown
  have links : ∀ target ∈ (heap.get ref).links, heap.Bounded n target := fun target link =>
    ⟨closed ref target link, bounded.2 target link⟩
  have fields (l : Layout) (record : (heap.get ref).layout = some l) :
      ∀ e ∈ l.table.entries, heap.Bounded n e.target := fun e listed =>
    links _ (Descriptor.mem_links_iff.2 (.inl ⟨l, record, e, listed, rfl⟩))
  have base (s : Subarray) (array : (heap.get ref).subarray = some s) : heap.Bounded n s.base :=
    links _ (Descriptor.mem_links_iff.2 (.inr ⟨s, array, rfl⟩))
  rw [reorderWithin_eq_step]
  unfold reorderStep
  refine run_bind_congr rfl (duplicate_leads sound ref) ?_
  rintro copy t after ⟨⟨companion, rfl⟩, -⟩
  rw [grown.get ref bounded.1]
  have grown' := grown.trans after.grows.heap
  have reorders := reorderWithin_leads change closed n
  refine run_bind_congr ?_ (renewLayout_leads change reorders fields after.sound grown') ?_
  · exact run_optionMapM_congr _ fun l record =>
      run_bind_congr_left (renewFields_congr closed follows after.sound grown' (fields l record))
  · intro layout u after' _
    refine run_bind_congr_left (run_optionMapM_congr _ fun s array => ?_)
    rw [← bind_assoc, ← bind_assoc]
    exact run_bind_congr_left (renew_congr follows after'.sound
      (grown'.trans after'.grows.heap) (base s array))

end Levels

theorem reorder_ends (change : OrderChange) {store : Store} (sound : store.Sound) {ref : Ref}
    (inside : ref < store.heap.size) :
    EndsWithin (reorderStep change) store.heap.depth ref
      fun run => run.run store = (reorder change ref).run store := by
  have within := Heap.within_depth sound.closed sound.acyclic (sound.closed.fits ref)
  have ends := endsWithin_of_bound store.heap.Bounded (Follows change store.heap)
    (fun _ bounded => bounded.2)
    (fun _ _ _ bounded follows => reorderStep_follows sound.closed follows bounded)
    ⟨inside, within⟩
  exact fun m enough deeper => ends m enough deeper store sound (.refl _)

/-- No cell reaches itself, no path goes on for ever, and every walk ends within the depth of the
heap, in the answer that it is defined to have. -/
structure WalksEnd (store : Store) : Prop where
  acyclic : ∀ ref, ¬ Relation.TransGen store.heap.Points ref ref
  founded : WellFounded fun next ref => store.heap.Points ref next
  native : ∀ ref, EndsWithin store.heap.nativeStep store.heap.depth (store.heap.get ref)
    fun b => b = store.heap.isNative ref
  objects : ∀ ref, EndsWithin Heap.findStep store.heap.depth (store.heap.get ref)
    fun search : StateM Heap Bool => search.run store.heap = store.heap.findObjects (store.heap.get ref)
  equivalent : ∀ a b, EndsWithin store.heap.equivalentStep store.heap.depth (a, b)
    fun same => same = store.heap.equivalent a b
  equal : ∀ a b, EndsWithin store.heap.equalStep store.heap.depth (a, b)
    fun same => same = store.heap.equal a b
  reorder : ∀ change ref, ref < store.heap.size →
    EndsWithin (reorderStep change) store.heap.depth ref
      fun run => run.run store = (reorder change ref).run store

theorem Store.Sound.walksEnd {store : Store} (sound : store.Sound) : WalksEnd store := by
  have within := fun ref =>
    Heap.within_depth sound.closed sound.acyclic (sound.closed.fits ref)
  exact {
    acyclic := sound.acyclic
    founded := Heap.founded sound.closed sound.acyclic
    native := fun ref => Heap.nativeWithin_ends (within ref)
    objects := fun ref => Heap.findWithin_ends (within ref)
    equivalent := fun a _ => Heap.equivalentWithin_ends (within a)
    equal := fun a _ => Heap.equalWithin_ends (within a)
    reorder := fun change _ inside => reorder_ends change sound inside }

end ElementTypes
