import ElementTypes.Proofs.Heap.Reach
import ElementTypes.Proofs.Outcome
import ElementTypes.Proofs.Memory
import ElementTypes.Proofs.Store.Numbers
import ElementTypes.Store.Basic

/-! # Sound stores -/

namespace ElementTypes

namespace Store

structure Sound (store : Store) : Prop where
  closed : store.heap.Closed
  acyclic : store.heap.Acyclic
  room : Code.builtin.length ≤ store.heap.size
  builtin : ∀ code : Code, code.isBuiltin → store.heap.get code.number = .canonical code
  users : ∀ ref ∈ store.registry.cells, ref < store.heap.size
  numbered : store.registry.Numbered

def Ample (store : Store) : Prop := store.memory = .ample

structure Grows (old new : Store) : Prop where
  heap : old.heap.Extends new.heap
  registry : new.registry = old.registry
  hook : new.hook = old.hook
  ample : old.Ample → new.Ample

structure Leads (old new : Store) : Prop where
  sound : new.Sound
  grows : old.Grows new

theorem Grows.refl (store : Store) : store.Grows store := ⟨.refl _, rfl, rfl, id⟩

theorem Grows.trans {a b c : Store} (first : a.Grows b) (second : b.Grows c) : a.Grows c where
  heap := first.heap.trans second.heap
  registry := second.registry.trans first.registry
  hook := second.hook.trans first.hook
  ample := second.ample ∘ first.ample

theorem Sound.leads {store : Store} (sound : store.Sound) : store.Leads store :=
  ⟨sound, .refl store⟩

theorem Leads.spend {old new : Store} (leads : old.Leads new) {memory : Memory}
    (kept : new.Ample → memory = .ample) : old.Leads { new with memory } where
  sound := { leads.sound with }
  grows := { leads.grows with ample := kept ∘ leads.grows.ample }

instance : Onward Leads where
  trans first second := ⟨second.sound, first.grows.trans second.grows⟩
  here after := after.sound.leads

end Store

theorem Code.number_lt {code : Code} (h : code.isBuiltin) : code.number < Code.builtin.length := by
  have present := Code.getElem?_builtin h
  exact (List.getElem?_eq_some_iff.1 present).1

theorem Descriptor.links_canonical (code : Code) : (Descriptor.canonical code).links = [] := rfl

namespace Store

theorem get_initial {code : Code} (h : code.isBuiltin) :
    Store.initial.heap.get code.number = .canonical code := by
  have present := Code.getElem?_builtin h
  simp [initial, Heap.ofCodes, Heap.get, present]

theorem exists_get_initial (ref : Ref) :
    ∃ code : Code, code.isBuiltin = true ∧ initial.heap.get ref = .canonical code := by
  by_cases inside : ref < Code.builtin.length
  · have builtin : ∀ code ∈ Code.builtin, code.isBuiltin = true := by decide
    refine ⟨Code.builtin[ref], builtin _ (List.getElem_mem inside), ?_⟩
    simp [initial, Heap.ofCodes, Heap.get, inside]
  · refine ⟨.void, rfl, Heap.get_of_size_le ?_⟩
    simpa [initial, Heap.ofCodes, Heap.size] using inside

theorem not_points_initial (a b : Ref) : ¬ Store.initial.heap.Points a b := by
  intro points
  obtain ⟨code, -, canonical⟩ := exists_get_initial a
  rw [Heap.Points, canonical, Descriptor.links_canonical] at points
  cases points

theorem sound_initial : Store.initial.Sound where
  closed a b points := absurd points (not_points_initial a b)
  acyclic a cycle := by
    obtain ⟨b, points, -⟩ := Relation.TransGen.head'_iff.1 cycle
    exact not_points_initial a b points
  room := by simp [initial, Heap.ofCodes, Heap.size]
  builtin _ := get_initial
  users ref none := nomatch none
  numbered := Registry.numbered_empty

variable {store : Store}

theorem Sound.owned_lt (sound : store.Sound) : ∀ ref ∈ store.owned, ref < store.heap.size := by
  intro ref member
  rcases List.mem_append.1 member with builtin | user
  · exact Nat.lt_of_lt_of_le (List.mem_range.1 builtin) sound.room
  · exact sound.users ref user

theorem cellOf?_builtin (store : Store) {code : Code} (builtin : code.isBuiltin = true) :
    store.cellOf? code = some code.number := by
  cases code with
  | user => cases builtin
  | _ => rfl

theorem mem_owned_of_cellOf? {code : Code} {ref : Ref} (found : store.cellOf? code = some ref) :
    ref ∈ store.owned := by
  by_cases builtin : code.isBuiltin = true
  · have cell : ref = code.number := by
      cases code <;> simp_all [cellOf?, Code.isBuiltin]
    rw [cell]
    exact List.mem_append_left _ (List.mem_range.2 (Code.number_lt builtin))
  · cases code with
    | user n => exact List.mem_append_right _ (Registry.mem_cells_of_find? found)
    | _ => exact absurd rfl builtin

end Store

theorem shared_run {store : Store} {code : Code} {ref : Ref}
    (cell : store.cellOf? code = some ref) : (shared code).run store = (.ok ref, store) := by
  unfold shared
  rw [run_get_bind, cell]
  rfl

section Room

theorem reserve_run (n : Nat) (error : Error) (store : Store) : (reserve n error).run store =
    (if (store.memory.ask n).1 then .ok () else .error error,
      { store with memory := (store.memory.ask n).2 }) := by
  unfold reserve
  rw [run_get_bind]
  dsimp only
  rcases store.memory.ask n with ⟨_ | _, left⟩ <;> rfl

theorem reserve_eq_error {n : Nat} {error e : Error} {store t : Store}
    (ran : (reserve n error).run store = (.error e, t)) : e = error := by
  rw [reserve_run] at ran
  split at ran
  · cases congrArg Prod.fst ran
  · exact (Except.error.inj (congrArg Prod.fst ran)).symm

theorem makeRoom_eq_error {d : Descriptor} {e : Error} {store t : Store}
    (ran : (makeRoom d).run store = (.error e, t)) :
    e = .outOfMemory .denied ∨ e = .tableOutOfMemory .denied := by
  unfold makeRoom at ran
  rcases (run_bind_eq_error ..).1 ran with record | ⟨_, roomy, -, shape⟩
  · cases layout : d.layout with
    | none => rw [layout] at record; cases congrArg Prod.fst record
    | some layout' =>
        rw [layout] at record
        rcases (run_bind_eq_error ..).1 record with names | ⟨_, _, -, table⟩
        · exact .inl (reserve_eq_error names)
        · exact .inr (reserve_eq_error table)
  · cases subarray : d.subarray with
    | none => rw [subarray] at shape; cases congrArg Prod.fst shape
    | some subarray' =>
        rw [subarray] at shape
        exact .inl (reserve_eq_error shape)

variable {store : Store}

theorem reserve_run_ample (ample : store.Ample) (n : Nat) (error : Error) :
    (reserve n error).run store = (.ok (), store) := by
  obtain ⟨heap, registry, hook, offers, memory⟩ := store
  obtain rfl : memory = .ample := ample
  rw [reserve_run, Memory.ask_ample]
  rfl

theorem makeRoom_run_ample (ample : store.Ample) (d : Descriptor) :
    (makeRoom d).run store = (.ok (), store) := by
  have granted := reserve_run_ample ample
  have record : (d.layout.forM fun layout => do
      reserve layout.names.length (.outOfMemory .denied)
      reserve layout.table.size (.tableOutOfMemory .denied) : Run Unit).run store =
        (.ok (), store) := by
    cases d.layout with
    | none => rfl
    | some layout => exact (run_bind_ok _ _ _ (granted _ _)).trans (granted _ _)
  unfold makeRoom
  rw [run_bind_ok _ _ _ record]
  cases d.subarray with
  | none => rfl
  | some subarray => exact granted _ _

theorem makeRoom_run_plain {d : Descriptor} (layout : d.layout = none)
    (subarray : d.subarray = none) (store : Store) : (makeRoom d).run store = (.ok (), store) := by
  unfold makeRoom
  rw [layout, subarray]
  rfl

theorem fresh_run_offerCopy (sound : store.Sound) {code : Code} (builtin : code.isBuiltin = true) :
    (fresh code).run store = (offerCopy code.number).run store := by
  unfold fresh duplicate
  rw [run_bind_ok _ _ _ (shared_run (store.cellOf?_builtin builtin)), run_get_bind,
    sound.builtin code builtin, run_bind_ok _ _ _ (makeRoom_run_plain rfl rfl store)]

theorem duplicate_run_ample (ample : store.Ample) (ref : Ref) :
    (duplicate ref).run store = (offerCopy ref).run store := by
  unfold duplicate
  rw [run_get_bind, run_bind_ok _ _ _ (makeRoom_run_ample ample _)]

end Room

section Primitives

variable {store : Store} (sound : store.Sound)
include sound

theorem reserve_leads (n : Nat) (error : Error) :
    Ensures Store.Leads (reserve n error) store fun _ t => ∃ memory, t = { store with memory } := by
  refine Ensures.of_run (reserve_run n error store) ?_ fun _ _ => ⟨_, rfl⟩
  refine ⟨{ sound with }, .refl _, rfl, rfl, fun ample => ?_⟩
  have memory : store.memory = .ample := ample
  rw [Store.Ample, memory, Memory.ask_ample]

theorem makeRoom_leads (d : Descriptor) :
    Ensures Store.Leads (makeRoom d) store fun _ t => ∃ memory, t = { store with memory } := by
  unfold makeRoom
  have record : Ensures Store.Leads (d.layout.forM fun layout => do
      reserve layout.names.length (.outOfMemory .denied)
      reserve layout.table.size (.tableOutOfMemory .denied) : Run Unit) store
        fun _ t => ∃ memory, t = { store with memory } := by
    cases d.layout with
    | none => exact .pure sound.leads ⟨store.memory, rfl⟩
    | some layout =>
        refine (reserve_leads sound _ _).bind ?_
        rintro _ _ after ⟨memory, rfl⟩
        exact reserve_leads after.sound _ _
  refine record.bind ?_
  rintro _ _ after ⟨memory, rfl⟩
  cases d.subarray with
  | none => exact .pure after.sound.leads ⟨memory, rfl⟩
  | some subarray => exact reserve_leads after.sound _ _

theorem shared_leads (code : Code) :
    Ensures Store.Leads (shared code) store fun ref t => ref < t.heap.size ∧ t = store := by
  unfold shared
  refine Ensures.get_bind ?_
  cases found : store.cellOf? code with
  | none => exact .throw sound.leads
  | some ref => exact .pure sound.leads ⟨sound.owned_lt ref (Store.mem_owned_of_cellOf? found), rfl⟩

theorem shared_lt (code : Code) :
    Ensures Store.Leads (shared code) store fun ref t => ref < t.heap.size :=
  (shared_leads sound code).imp fun _ _ _ holds => holds.2 ▸ holds.1

theorem adopt_leads {d : Descriptor} (fits : d.Fits store.heap) :
    Ensures Store.Leads (adopt d) store fun ref t =>
      store.heap.size ≤ ref ∧ ref < t.heap.size ∧ t.heap.get ref = d := by
  have extends_alloc := Heap.Extends.alloc store.heap d
  refine Ensures.of_run rfl ⟨?_, extends_alloc, rfl, rfl, id⟩ ?_
  · exact {
      closed := Heap.closed_alloc sound.closed fits
      acyclic := Heap.acyclic_alloc sound.closed sound.acyclic fits
      room := Nat.le_trans sound.room extends_alloc.size
      builtin := fun code builtin => by
        have inside := Nat.lt_of_lt_of_le (Code.number_lt builtin) sound.room
        exact (extends_alloc.get _ inside).trans (sound.builtin code builtin)
      users := fun ref member => Nat.lt_of_lt_of_le (sound.users ref member) extends_alloc.size
      numbered := sound.numbered }
  · rintro ref same
    obtain rfl : store.heap.size = ref := Except.ok.inj same
    exact ⟨Nat.le_refl _, by simp [Heap.size], Heap.get_alloc_self store.heap d⟩

theorem adopt_lt {d : Descriptor} (fits : d.Fits store.heap) :
    Ensures Store.Leads (adopt d) store fun ref t => ref < t.heap.size :=
  (adopt_leads sound fits).imp fun _ _ _ holds => holds.2.1

omit sound in
theorem adopting_leads {run : Run Descriptor}
    (h : Ensures Store.Leads run store fun d t => d.Fits t.heap) :
    Ensures Store.Leads (do adopt (← run)) store fun ref t => ref < t.heap.size :=
  h.bind fun _ _ after fits => adopt_lt after.sound fits

theorem offerCopy_leads (ref : Ref) :
    Ensures Store.Leads (offerCopy ref) store fun d t =>
      (∃ companion, d = { store.heap.get ref with companion }) ∧ t.heap = store.heap := by
  unfold offerCopy
  refine Ensures.get_bind ?_
  cases installed : store.hook with
  | none => exact .pure sound.leads ⟨⟨none, rfl⟩, rfl⟩
  | some hook =>
      have after : ∀ offers, store.Leads { store with hook := some hook, offers } := fun offers =>
        ⟨{ sound with }, .refl _, rfl, installed.symm, id⟩
      simp only
      cases answer : hook.answer store.heap store.offers _ with
      | error message =>
          exact Ensures.of_run rfl (after _) fun _ none => nomatch none
      | ok companion =>
          refine Ensures.of_run rfl (after _) ?_
          rintro d same
          exact ⟨⟨companion, (Except.ok.inj same).symm⟩, rfl⟩

theorem duplicate_leads (ref : Ref) :
    Ensures Store.Leads (duplicate ref) store fun d t =>
      (∃ companion, d = { store.heap.get ref with companion }) ∧ t.heap = store.heap := by
  unfold duplicate
  refine Ensures.get_bind ((makeRoom_leads sound _).bind ?_)
  rintro _ _ after ⟨memory, rfl⟩
  exact offerCopy_leads after.sound ref

theorem duplicate_fits (ref : Ref) :
    Ensures Store.Leads (duplicate ref) store fun d t => d.Fits t.heap := by
  refine (duplicate_leads sound ref).imp ?_
  rintro d t - ⟨⟨companion, rfl⟩, same⟩
  rw [same]
  exact (sound.closed.fits ref).of_subset fun _ => id

theorem fresh_leads (code : Code) :
    Ensures Store.Leads (fresh code) store fun d t => d.Fits t.heap :=
  (shared_lt sound code).bind fun ref _ after _ => duplicate_fits after.sound ref

end Primitives

end ElementTypes
