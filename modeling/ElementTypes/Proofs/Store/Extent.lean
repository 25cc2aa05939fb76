import ElementTypes.Proofs.Store.Acts

/-! # Where nested bytes lie -/

namespace ElementTypes

structure Descriptor.Holds (d : Descriptor) (heap : Heap) : Prop where
  formed : ∀ layout, d.layout = some layout → layout.WellFormed
  fields : ∀ e ∈ d.entries, e.offset.toNat + (heap.get e.target).size.toNat ≤ d.size.toNat
  elements : ∀ subarray, d.subarray = some subarray →
    (heap.get subarray.base).size.toNat * subarray.count ≤ d.size.toNat

theorem Descriptor.mem_entries {d : Descriptor} {e : Entry} :
    e ∈ d.entries ↔ ∃ layout, d.layout = some layout ∧ e ∈ layout.table.entries := by
  unfold entries
  cases d.layout <;> simp

theorem Descriptor.mem_links_of_mem_entries {d : Descriptor} {e : Entry} (member : e ∈ d.entries) :
    e.target ∈ d.links :=
  List.mem_append_left _ (List.mem_map_of_mem member)

namespace Descriptor.Holds

variable {d d' : Descriptor} {heap later : Heap}

theorem plain (unnamed : d.layout = none) (single : d.subarray = none) : d.Holds heap where
  formed layout record := by rw [unnamed] at record; cases record
  fields e member := by
    obtain ⟨layout, record, -⟩ := mem_entries.1 member
    rw [unnamed] at record
    cases record
  elements subarray array := by rw [single] at array; cases array

theorem copy (holds : d.Holds heap) (layout : d'.layout = d.layout)
    (subarray : d'.subarray = d.subarray) (size : d'.size = d.size) : d'.Holds heap where
  formed := by rw [layout]; exact holds.formed
  fields := by rw [entries, layout, size]; exact holds.fields
  elements := by rw [subarray, size]; exact holds.elements

theorem resize (holds : d.Holds heap)
    (sizes : ∀ ref ∈ d.links, (later.get ref).size = (heap.get ref).size) : d.Holds later where
  formed := holds.formed
  fields e member := by
    rw [sizes _ (mem_links_of_mem_entries member)]
    exact holds.fields e member
  elements subarray array := by
    rw [sizes _ (mem_links_iff.2 (.inr ⟨subarray, array, rfl⟩))]
    exact holds.elements subarray array

theorem renew {change : OrderChange} (holds : d.Holds heap) (closed : heap.Closed)
    {ref : Ref} (cell : heap.get ref = d) (grown : heap.Extends later)
    (renews : heap.Renews change later d d') : d'.Holds later := by
  have sizes : ∀ target ∈ d.links, (later.get target).size = (heap.get target).size := by
    intro target link
    rw [← cell] at link
    rw [grown.get target (closed ref target link)]
  cases renews with
  | node same newFields fields newBase base =>
      have formed : ∀ layout, d'.layout = some layout → layout.WellFormed := by
        intro layout record
        obtain ⟨old, before, renewed⟩ := optionRel_of_eq_some (optionRel_symm same.layout) record
        exact renewed.wellFormed (holds.formed old before)
      have own : ∀ layout, d'.layout = some layout → ∀ f ∈ layout.table.primary,
          f.offset.toNat + (later.get f.target).size.toNat ≤ d'.size.toNat := by
        intro layout record f member
        obtain ⟨old, before, renewed⟩ := optionRel_of_eq_some (optionRel_symm same.layout) record
        obtain ⟨e, listed, key, offset, -⟩ := renewed.primary_before member
        obtain ⟨present, own⟩ := Table.mem_primary.1 listed
        have present' : e ∈ d.entries := mem_entries.2 ⟨old, before, present⟩
        have found : d'.find? e.key = some f := by
          rw [find?, record, Option.bind_some, ← key]
          exact Table.find?_of_mem (Table.mem_primary.1 member).1
        rw [offset, (fields e present' own f found).renewed.size, same.size]
        exact holds.fields e present'
      refine ⟨formed, fun f member => ?_, fun subarray array => ?_⟩
      · obtain ⟨layout, record, present⟩ := mem_entries.1 member
        by_cases foreign : f.isAlias = true
        · -- an alias lies where its field does
          obtain ⟨owner, listed, -, target, offset, -⟩ :=
            (formed layout record).owned f present foreign
          rw [← target, ← offset]
          exact own layout record owner listed
        · exact own layout record f
            (Table.mem_primary.2 ⟨present, Bool.eq_false_of_not_eq_true foreign⟩)
      · obtain ⟨old, before, shape⟩ := optionRel_of_eq_some (optionRel_symm same.shape) array
        have left : old.base ∈ d.bases := by simp [bases, before]
        have right : subarray.base ∈ d'.bases := by simp [bases, array]
        rw [(base _ left _ right).renewed.size, same.size, Subarray.count, shape]
        exact holds.elements old before

end Descriptor.Holds

theorem Descriptor.Made.holds {limits : Limits} {heap : Heap} {d : Descriptor}
    (made : d.Made limits heap) (all : ∀ ref, (heap.get ref).Holds heap) : d.Holds heap := by
  cases made with
  | copied ref => exact (all ref).copy rfl rfl rfl
  | worded | string | unicode | promoted => exact .plain rfl rfl
  | array subarray inside total companion =>
      refine ⟨(fun _ none => nomatch none), (fun _ none => nomatch none), fun _ same => ?_⟩
      obtain rfl := Option.some.inj same
      exact Nat.le_of_eq total.symm
  | record formed holds =>
      refine ⟨fun _ same => ?_, fun e member => (holds e member).2, fun _ none => nomatch none⟩
      obtain rfl := Option.some.inj same
      exact formed
  | @reordered before change ref _ closed grown inside renews =>
      have here := all ref
      rw [grown.get ref inside] at here
      refine Holds.renew (here.resize fun target link => ?_) closed rfl grown renews
      rw [grown.get target (closed ref target link)]

def EditForm.sparing : List EditForm :=
  [.nothing, .alignment, .order, .flags, .interval, .rename, .clear]

def Limits.sparing : Limits := { Limits.any with edit := (· ∈ EditForm.sparing) }

theorem EditForm.ne_size_of_sparing {form : EditForm} (spares : form ∈ sparing) :
    form ≠ .size := by
  rintro rfl
  exact absurd spares (by decide)

theorem Edit.holds_of_sparing {edit : Edit Ref Interval} {d d' : Descriptor} {value : EditValue}
    {heap : Heap} (spares : edit.form ∈ EditForm.sparing)
    (applied : edit.outcome d = .ok (value, d')) (holds : d.Holds heap) : d'.Holds heap := by
  cases edit with
  | nothing | alignment | order | flags =>
      obtain ⟨-, rfl⟩ := Prod.mk.inj (Except.ok.inj applied)
      exact holds.copy rfl rfl rfl
  | interval =>
      obtain rfl := interval_eq_ok applied
      exact holds.copy rfl rfl rfl
  | clear =>
      obtain ⟨-, rfl⟩ := Prod.mk.inj (Except.ok.inj applied)
      exact ⟨(fun _ none => nomatch none), (fun _ none => nomatch none), holds.elements⟩
  | rename names =>
      cases record : d.layout with
      | none =>
          rcases rename_eq_ok applied with ⟨-, rfl⟩ | ⟨_, _, some, -⟩
          · exact holds
          · rw [record] at some; cases some
      | some layout =>
          have formed := holds.formed layout record
          obtain ⟨old, new, before, -, accepted, rfl⟩ :=
            Edit.rename_of_wellLaid ⟨layout, record, formed⟩ applied
          refine ⟨fun _ same => ?_, fun f member => ?_, holds.elements⟩
          · obtain rfl := Option.some.inj same
            exact (holds.formed old before).rename accepted
          · have member : f ∈ new.table.entries := member
            rw [Layout.entries_rename accepted] at member
            obtain ⟨e, present, rfl⟩ := List.mem_map.1 member
            exact holds.fields e (Descriptor.mem_entries.2 ⟨old, before, present⟩)
  | _ => simp [form, EditForm.sparing] at spares

namespace Store

def Holding (store : Store) : Prop := ∀ ref, (store.heap.get ref).Holds store.heap

theorem holding_initial : initial.Holding := by
  intro ref
  obtain ⟨code, -, canonical⟩ := exists_get_initial ref
  rw [canonical]
  exact .plain rfl rfl

theorem Holding.alloc {store : Store} (sound : store.Sound) (holding : store.Holding)
    {d : Descriptor} (fits : d.Fits store.heap) (holds : d.Holds store.heap) (ref : Ref) :
    ((store.heap.alloc d).2.get ref).Holds (store.heap.alloc d).2 := by
  have later : ∀ {x : Descriptor}, x.Fits store.heap → x.Holds store.heap →
      x.Holds (store.heap.alloc d).2 := fun inside holds =>
    holds.resize fun target link => by rw [Heap.get_alloc_of_lt d (inside target link)]
  exact Heap.forall_get_alloc (P := fun x => x.Holds (store.heap.alloc d).2)
    (fun ref => later (sound.closed.fits ref) (holding ref)) (later fits holds) ref

theorem Holding.act {store t : Store} (sound : store.Sound) (holding : store.Holding)
    (act : store.Act .sparing t) : t.Holding := by
  cases act with
  | hooked => exact holding
  | adopted fits made => exact holding.alloc sound fits (made.holds holding)
  | entered next ref companion =>
      exact holding.alloc sound ((sound.closed.fits ref).of_subset fun _ => id)
        ((holding ref).copy rfl rfl rfl)
  | flagged flagged =>
      intro ref
      have kept := flagged.kept ref
      exact ((holding ref).copy kept.layout kept.subarray kept.size).resize
        fun target _ => (flagged.kept target).size
  | @edited cell edit value d inside own allowed applied =>
      have sizes : ∀ ref, ((store.heap.set cell d).get ref).size = (store.heap.get ref).size := by
        intro ref
        by_cases here : ref = cell
        · rw [here, Heap.get_set_self d inside]
          exact Edit.size_outcome (EditForm.ne_size_of_sparing allowed) applied
        · rw [Heap.get_set_of_ne _ _ here]
      refine fun ref => Descriptor.Holds.resize ?_ fun target _ => sizes target
      exact Heap.forall_get_set (P := fun x => x.Holds store.heap) holding
        (Edit.holds_of_sparing allowed applied (holding cell)) ref

end Store

/-- What lies where in a descriptor: the descriptor itself, the fields of whatever lies in it,
aliases included, and the elements of its sub-arrays one after the other. -/
inductive Heap.Lies (heap : Heap) (root : Ref) : Nat → Ref → Prop
  | here : heap.Lies root 0 root
  | field {start : Nat} {ref : Ref} {e : Entry} (before : heap.Lies root start ref)
      (member : e ∈ (heap.get ref).entries) : heap.Lies root (start + e.offset.toNat) e.target
  | element {start k : Nat} {ref : Ref} {subarray : Subarray} (before : heap.Lies root start ref)
      (array : (heap.get ref).subarray = some subarray) (below : k < subarray.count) :
      heap.Lies root (start + k * (heap.get subarray.base).size.toNat) subarray.base

theorem Store.Holding.lies_within {store : Store} (holding : store.Holding) {root ref : Ref}
    {start : Nat} (lies : store.heap.Lies root start ref) :
    start + (store.heap.get ref).size.toNat ≤ (store.heap.get root).size.toNat := by
  induction lies with
  | here => exact Nat.le_of_eq (Nat.zero_add _)
  | @field start ref e _ member ih =>
      have ends := (holding ref).fields e member
      omega
  | @element start k ref subarray _ array below ih =>
      have ends := (holding ref).elements subarray array
      have next : (k + 1) * (store.heap.get subarray.base).size.toNat ≤
          (store.heap.get subarray.base).size.toNat * subarray.count := by
        rw [Nat.mul_comm]
        exact Nat.mul_le_mul_left _ below
      rw [Nat.add_mul, Nat.one_mul] at next
      omega

end ElementTypes
