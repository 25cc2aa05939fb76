import ElementTypes.Proofs.Record.Table
import ElementTypes.Proofs.Store.Private
import ElementTypes.Session.Handle

/-! # How exclusive access is given -/

namespace ElementTypes

namespace Table

variable {table : Table} {key : String} {entry : Entry}

theorem retarget_self (found : table.find? key = some entry) :
    table.retarget key entry.target = table := by
  have same : (table.retarget key entry.target).entries = table.entries := by
    refine (List.map_congr_left fun other member => ?_).trans (List.map_id _)
    by_cases here : other.key = key
    · have listed := List.mem_of_find?_eq_some found
      obtain rfl := eq_of_key_eq member listed (here.trans (key_of_find? found).symm)
      simp only [if_pos here]
      rfl
    · simp [here]
  obtain ⟨entries, distinct⟩ := table
  exact (Table.mk.injEq ..).mpr same

theorem count_retarget (found : table.find? key = some entry) {new : Ref}
    (fresh : new ∉ table.entries.map (·.target)) :
    ((table.retarget key new).entries.map (·.target)).count new = 1 := by
  have here : key ∈ table.keys := by
    rw [← key_of_find? found]
    exact List.mem_map_of_mem (List.mem_of_find?_eq_some found)
  rw [← List.count_eq_one_of_mem table.distinct here, List.count, List.count, retarget, mapFields,
    List.map_map, List.countP_map, List.countP_map]
  refine List.countP_congr fun other member => ?_
  have apart : other.target ≠ new := fun same => fresh (same ▸ List.mem_map_of_mem member)
  by_cases same : other.key = key
  · simp [same]
  · simp [same, apart]

end Table

namespace Descriptor

variable {d : Descriptor} {place other : Place} {old new : Ref}

theorem mem_links_of_at? (here : d.at? place = some old) : old ∈ d.links := by
  cases place with
  | entry key =>
      obtain ⟨entry, found, rfl⟩ := Option.map_eq_some_iff.1 here
      exact mem_links_of_find? found
  | base =>
      obtain ⟨subarray, array, rfl⟩ := Option.map_eq_some_iff.1 here
      exact mem_links_iff.2 (.inr ⟨subarray, array, rfl⟩)

theorem at?_redirect_self (here : d.at? place = some old) (new : Ref) :
    (d.redirect place new).at? place = some new := by
  cases place with
  | entry key =>
      obtain ⟨entry, found, rfl⟩ := Option.map_eq_some_iff.1 here
      obtain ⟨layout, record, listed⟩ := Option.bind_eq_some_iff.1 found
      simp [at?, find?, redirect, record, Table.find?_retarget_self listed]
  | base =>
      obtain ⟨subarray, array, rfl⟩ := Option.map_eq_some_iff.1 here
      simp [at?, redirect, array]

theorem at?_redirect_of_ne (d : Descriptor) (new : Ref) (h : other ≠ place) :
    (d.redirect place new).at? other = d.at? other := by
  cases place with
  | base =>
      cases other with
      | base => exact absurd rfl h
      | entry => rfl
  | entry key =>
      cases other with
      | base => rfl
      | entry key' =>
          have differs : key' ≠ key := fun same => h (congrArg _ same)
          cases record : d.layout with
          | none => simp [at?, find?, redirect, record]
          | some layout =>
              simp [at?, find?, redirect, record, Table.find?_retarget_of_ne _ new differs]

theorem redirect_self (here : d.at? place = some old) : d.redirect place old = d := by
  cases place with
  | entry key =>
      obtain ⟨entry, found, rfl⟩ := Option.map_eq_some_iff.1 here
      obtain ⟨layout, record, listed⟩ := Option.bind_eq_some_iff.1 found
      have same : (d.layout.map fun layout =>
          { layout with table := layout.table.retarget key entry.target }) = d.layout := by
        rw [record, Option.map_some, Table.retarget_self listed]
      rw [redirect, same]
  | base =>
      obtain ⟨subarray, array, rfl⟩ := Option.map_eq_some_iff.1 here
      have same : (d.subarray.map fun other => { other with base := subarray.base }) =
          d.subarray := by
        rw [array, Option.map_some]
      rw [redirect, same]

theorem links_redirect {ref : Ref} (link : ref ∈ (d.redirect place new).links) :
    ref = new ∨ ref ∈ d.links := by
  rw [mem_links_iff] at link
  cases place with
  | entry key =>
      rcases link with ⟨layout', record', entry, member, rfl⟩ | base
      · obtain ⟨layout, record, rfl⟩ := Option.map_eq_some_iff.1 record'
        refine (Table.mem_retarget member).imp_right fun kept => ?_
        exact mem_links_iff.2 (.inl ⟨layout, record, entry, kept, rfl⟩)
      · exact .inr (mem_links_iff.2 (.inr base))
  | base =>
      rcases link with field | ⟨subarray', array', rfl⟩
      · exact .inr (mem_links_iff.2 (.inl field))
      · obtain ⟨subarray, array, rfl⟩ := Option.map_eq_some_iff.1 array'
        exact .inl rfl

theorem count_links_redirect (here : d.at? place = some old) (fresh : new ∉ d.links) :
    (d.redirect place new).links.count new = 1 := by
  rw [links, List.mem_append, not_or] at fresh
  obtain ⟨fields, bases⟩ := fresh
  rw [links, List.count_append]
  cases place with
  | entry key =>
      obtain ⟨entry, found, rfl⟩ := Option.map_eq_some_iff.1 here
      obtain ⟨layout, record, listed⟩ := Option.bind_eq_some_iff.1 found
      have kept : (d.redirect (.entry key) new).bases = d.bases := rfl
      rw [kept, List.count_eq_zero.2 bases]
      simp only [entries, redirect, record, Option.map_some] at fields ⊢
      rw [Table.count_retarget listed fields]
  | base =>
      obtain ⟨subarray, array, rfl⟩ := Option.map_eq_some_iff.1 here
      have kept : (d.redirect .base new).entries = d.entries := rfl
      rw [kept, List.count_eq_zero.2 fields]
      simp [Descriptor.bases, redirect, array]

end Descriptor

namespace Store

/-- What a copy is given for a companion and which offers there have been then: without a hook none
and the same, and otherwise what the hook answers to one more. -/
inductive Copied (store : Store) (ref : Ref) : Option String → List Offer → Prop
  | unasked (bare : store.hook = none) : Copied store ref none store.offers
  | asked {hook : Hook} {companion : Option String} (installed : store.hook = some hook)
      (answer : hook.answer store.heap store.offers
        ⟨ref, { store.heap.get ref with companion := none }⟩ = .ok companion) :
      Copied store ref companion (⟨ref, { store.heap.get ref with companion := none }⟩ ::
        store.offers)

variable {store : Store} {ref : Ref} {companion : Option String} {offers : List Offer}

def Accepts (store : Store) (ref : Ref) : Prop :=
  ∀ hook, store.hook = some hook → ∃ companion, hook.answer store.heap store.offers
    ⟨ref, { store.heap.get ref with companion := none }⟩ = .ok companion

theorem Copied.asked_once (copied : store.Copied ref companion offers) {hook : Hook}
    (installed : store.hook = some hook) :
    offers = ⟨ref, { store.heap.get ref with companion := none }⟩ :: store.offers := by
  cases copied with
  | unasked bare => cases bare.symm.trans installed
  | asked => rfl

def withCopy (store : Store) (ref : Ref) (companion : Option String) (offers : List Offer)
    (memory : Memory) : Store :=
  { store with
    heap := (store.heap.alloc { store.heap.get ref with companion }).2
    offers, memory }

section Copies

variable (store : Store) (ref : Ref) (companion : Option String) (offers : List Offer)
  (memory : Memory)

theorem get_withCopy_self :
    (store.withCopy ref companion offers memory).heap.get store.heap.size =
      { store.heap.get ref with companion } :=
  Heap.get_alloc_self ..

theorem size_withCopy :
    (store.withCopy ref companion offers memory).heap.size = store.heap.size + 1 :=
  Heap.size_alloc ..

variable {store ref companion offers memory}

theorem get_withCopy_of_lt {cell : Ref} (inside : cell < store.heap.size) :
    (store.withCopy ref companion offers memory).heap.get cell = store.heap.get cell :=
  Heap.get_alloc_of_lt _ inside

theorem lt_withCopy {cell : Ref} (inside : cell < store.heap.size) :
    cell < (store.withCopy ref companion offers memory).heap.size := by
  rw [size_withCopy]
  exact Nat.lt_succ_of_lt inside

variable (ref companion offers) (sound : store.Sound)
include sound

theorem withCopy_fits : Descriptor.Fits { store.heap.get ref with companion } store.heap :=
  (sound.closed.fits ref).of_subset fun _ => id

theorem withCopy_sound (memory : Memory) :
    (store.withCopy ref companion offers memory).Sound :=
  { (adopt_leads sound (withCopy_fits ref companion sound)).later.sound with }

theorem withCopy_leads (kept : store.Ample → memory = .ample) :
    store.Leads (store.withCopy ref companion offers memory) where
  sound := withCopy_sound ref companion offers sound memory
  grows := ⟨.alloc store.heap _, rfl, rfl, kept⟩

theorem not_points_withCopy (memory : Memory) (cell : Ref) :
    ¬ (store.withCopy ref companion offers memory).heap.Points cell store.heap.size :=
  fun points => Nat.lt_irrefl _
    (Heap.points_alloc sound.closed (withCopy_fits ref companion sound) points)

end Copies

end Store

section Runs

variable {store : Store} {ref : Ref}

inductive Duplicated (store : Store) (ref : Ref) : Except Error Descriptor × Store → Prop
  | copied {companion : Option String} {offers : List Offer} {memory : Memory}
      (copied : store.Copied ref companion offers) (kept : store.Ample → memory = .ample) :
      Duplicated store ref
        (.ok { store.heap.get ref with companion }, { store with offers, memory })
  | denied {error : Error} {t : Store} (reason : ¬ store.Ample ∨ ¬ store.Accepts ref)
      (other : error ≠ .stillShared) : Duplicated store ref (.error error, t)

theorem offerCopy_duplicated (store : Store) (ref : Ref) :
    Duplicated store ref ((offerCopy ref).run store) := by
  unfold offerCopy
  rw [run_get_bind]
  cases installed : store.hook with
  | none => exact .copied (.unasked installed) id
  | some hook =>
      simp only
      cases answer : hook.answer store.heap store.offers
          ⟨ref, { store.heap.get ref with companion := none }⟩ with
      | ok companion =>
          have copied : Duplicated store ref (.ok { store.heap.get ref with companion }, _) :=
            .copied (.asked installed answer) id
          rwa [← installed]
      | error message =>
          refine .denied (.inr fun accepts => ?_) (by simp)
          obtain ⟨companion, accepted⟩ := accepts hook installed
          rw [answer] at accepted
          cases accepted

theorem duplicate_duplicated (sound : store.Sound) (ref : Ref) :
    Duplicated store ref ((duplicate ref).run store) := by
  unfold duplicate
  rw [run_get_bind]
  have leads := makeRoom_leads sound (store.heap.get ref)
  rcases room : (makeRoom (store.heap.get ref)).run store with ⟨_ | _, roomy⟩
  · rename_i error
    rw [run_bind_error _ _ _ room]
    refine .denied (.inl fun ample => ?_) ?_
    · rw [makeRoom_run_ample ample] at room
      cases room
    · rcases makeRoom_eq_error room with rfl | rfl <;> simp
  · obtain ⟨after, memory, rfl⟩ := leads.of_ok room
    rw [run_bind_ok _ _ _ room]
    have made := offerCopy_duplicated { store with memory } ref
    generalize (offerCopy ref).run { store with memory } = out at made
    cases made with
    | copied copied kept =>
        refine .copied ?_ fun ample => ?_
        · cases copied with
          | unasked bare => exact .unasked bare
          | asked installed answer => exact .asked installed answer
        · exact kept (after.grows.ample ample)
    | denied reason other =>
        refine .denied (reason.imp_left fun scarce ample => ?_) other
        exact scarce (after.grows.ample ample)

/-- How exclusive access to a cell is given, or denied. -/
inductive Parted (store : Store) (held : List Ref) (ref : Ref) : Except Error Ref × Store → Prop
  | sole (one : store.heap.owners (held ++ store.owned) ref = 1) :
      Parted store held ref (.ok ref, store)
  | copied {companion : Option String} {offers : List Offer} {memory : Memory}
      (shared : store.heap.owners (held ++ store.owned) ref ≠ 1)
      (copied : store.Copied ref companion offers) (kept : store.Ample → memory = .ample) :
      Parted store held ref
        (.ok store.heap.size, store.withCopy ref companion offers memory)
  | denied {error : Error} {t : Store} (reason : ¬ store.Ample ∨ ¬ store.Accepts ref)
      (other : error ≠ .stillShared) (after : store.Leads t) :
      Parted store held ref (.error error, t)

theorem privateCell_parted (sound : store.Sound) (held : List Ref) (ref : Ref) :
    Parted store held ref ((privateCell held ref).run store) := by
  have leads := (Store.privateCell_grants sound held ref).later
  unfold privateCell at leads ⊢
  rw [run_get_bind] at leads ⊢
  by_cases sole : store.heap.owners (held ++ store.owned) ref = 1
  · simp only [if_pos sole]
    exact .sole sole
  · simp only [if_neg sole] at leads ⊢
    have made := duplicate_duplicated sound ref
    rcases ran : (duplicate ref).run store with ⟨result, t⟩
    rw [ran] at made
    cases made with
    | copied copied kept =>
        rw [run_bind_ok _ _ _ ran]
        exact .copied sole copied kept
    | denied reason other =>
        rw [run_bind_error _ _ _ ran] at leads ⊢
        exact .denied reason other leads

end Runs

end ElementTypes
