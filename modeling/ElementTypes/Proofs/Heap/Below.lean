import ElementTypes.Proofs.Heap.Native
import ElementTypes.Proofs.Outcome
import ElementTypes.Proofs.Record.Table

/-! # What lies below a descriptor -/

namespace ElementTypes

inductive Turn
  | field (key : String)
  | base

namespace Descriptor

def turn? (d : Descriptor) : Turn → Option Ref
  | .field key => ((d.find? key).filter fun entry => !entry.isAlias).map (·.target)
  | .base => d.subarray.map (·.base)

theorem turn?_field {d : Descriptor} {key : String} {entry : Entry}
    (found : d.find? key = some entry) (own : entry.isAlias = false) :
    d.turn? (.field key) = some entry.target := by
  simp [turn?, found, own]

theorem turn?_base {d : Descriptor} {subarray : Subarray} (array : d.subarray = some subarray) :
    d.turn? .base = some subarray.base := by
  simp [turn?, array]

theorem mem_primaryLinks_iff_turn? {d : Descriptor} {ref : Ref} :
    ref ∈ d.primaryLinks ↔ ∃ turn, d.turn? turn = some ref := by
  rw [mem_primaryLinks_iff]
  constructor
  · rintro (⟨layout, record, entry, member, rfl⟩ | ⟨subarray, array, rfl⟩)
    · obtain ⟨present, own⟩ := Table.mem_primary.1 member
      refine ⟨.field entry.key, turn?_field ?_ own⟩
      simp [find?, record, Table.find?_of_mem present]
    · exact ⟨.base, turn?_base array⟩
  · rintro ⟨key | _, here⟩
    · obtain ⟨entry, kept, rfl⟩ := Option.map_eq_some_iff.1 here
      obtain ⟨found, own⟩ := Option.filter_eq_some_iff.1 kept
      obtain ⟨layout, record, listed⟩ := Option.bind_eq_some_iff.1 found
      exact .inl ⟨layout, record, entry, Table.mem_primary.2
        ⟨List.mem_of_find?_eq_some listed, by simpa using own⟩, rfl⟩
    · obtain ⟨subarray, array, rfl⟩ := Option.map_eq_some_iff.1 here
      exact .inr ⟨subarray, array, rfl⟩

end Descriptor

namespace Heap

def below? (heap : Heap) (d : Descriptor) : List Turn → Option Descriptor
  | [] => some d
  | turn :: path => (d.turn? turn).bind fun ref => heap.below? (heap.get ref) path

theorem below?_cons {heap : Heap} {d : Descriptor} {turn : Turn} {ref : Ref} (path : List Turn)
    (here : d.turn? turn = some ref) :
    heap.below? d (turn :: path) = heap.below? (heap.get ref) path := by
  rw [below?, here, Option.bind_some]

def down? (heap : Heap) (ref : Ref) : List Turn → Option Ref
  | [] => some ref
  | turn :: path => ((heap.get ref).turn? turn).bind fun next => heap.down? next path

theorem below?_get (heap : Heap) (ref : Ref) (path : List Turn) :
    heap.below? (heap.get ref) path = (heap.down? ref path).map heap.get := by
  induction path generalizing ref with
  | nil => rfl
  | cons turn path ih =>
      rw [below?, down?]
      cases (heap.get ref).turn? turn with
      | none => rfl
      | some next => exact ih next

theorem down?_lt {heap : Heap} (closed : heap.Closed) {ref cell : Ref} {path : List Turn}
    (inside : ref < heap.size) (leads : heap.down? ref path = some cell) : cell < heap.size := by
  induction path generalizing ref with
  | nil => exact Option.some.inj leads ▸ inside
  | cons turn path ih =>
      obtain ⟨next, here, later⟩ := Option.bind_eq_some_iff.1 leads
      refine ih (closed ref next (Descriptor.links_of_primaryLinks ?_)) later
      exact Descriptor.mem_primaryLinks_iff_turn?.2 ⟨turn, here⟩

theorem Extends.below?_eq {old new : Heap} (grown : old.Extends new) (closed : old.Closed)
    {d : Descriptor} (fits : d.Fits old) (path : List Turn) :
    new.below? d path = old.below? d path := by
  induction path generalizing d with
  | nil => rfl
  | cons turn path ih =>
      cases here : d.turn? turn with
      | none => rw [below?, below?, here]; rfl
      | some ref =>
          have link := Descriptor.mem_primaryLinks_iff_turn?.2 ⟨turn, here⟩
          rw [below?_cons path here, below?_cons path here,
            grown.get ref (fits ref (Descriptor.links_of_primaryLinks link))]
          exact ih (closed.fits ref)

theorem exists_below?_through {heap : Heap} {P : Descriptor → Prop} {d : Descriptor} {ref : Ref}
    (link : ref ∈ d.primaryLinks)
    (leads : ∃ path x, heap.below? (heap.get ref) path = some x ∧ P x) :
    ∃ path x, heap.below? d path = some x ∧ P x := by
  obtain ⟨turn, here⟩ := Descriptor.mem_primaryLinks_iff_turn?.1 link
  obtain ⟨path, x, leads, holds⟩ := leads
  exact ⟨turn :: path, x, (below?_cons path here).trans leads, holds⟩

theorem of_below? {heap : Heap} {P : Descriptor → Prop}
    (through : ∀ d : Descriptor, ∀ ref ∈ d.primaryLinks, P (heap.get ref) → P d)
    {d x : Descriptor} {path : List Turn} (leads : heap.below? d path = some x) (holds : P x) :
    P d := by
  induction path generalizing d with
  | nil => exact Option.some.inj leads ▸ holds
  | cons turn path ih =>
      obtain ⟨ref, here, rest⟩ := Option.bind_eq_some_iff.1 leads
      exact through d ref (Descriptor.mem_primaryLinks_iff_turn?.2 ⟨turn, here⟩) (ih rest)

def Pairs (heap heap' : Heap) (related : Descriptor → Descriptor → Prop) (d d' : Descriptor) :
    Prop :=
  ∀ path, Option.Rel related (heap.below? d path) (heap'.below? d' path)

namespace Pairs

variable {heap heap' : Heap} {related : Descriptor → Descriptor → Prop} {d d' : Descriptor}
  (same : heap.Pairs heap' related d d')
include same

theorem here : related d d' := by
  cases same [] with
  | some holds => exact holds

theorem turn {turn : Turn} {s t : Ref} (left : d.turn? turn = some s)
    (right : d'.turn? turn = some t) :
    heap.Pairs heap' related (heap.get s) (heap'.get t) := by
  intro path
  rw [← below?_cons path left, ← below?_cons path right]
  exact same (turn :: path)

theorem symm : heap'.Pairs heap (fun y x => related x y) d' d :=
  fun path => optionRel_symm (same path)

theorem exists_below? {P Q : Descriptor → Prop} (imp : ∀ x y, related x y → P x → Q y)
    (found : ∃ path x, heap.below? d path = some x ∧ P x) :
    ∃ path y, heap'.below? d' path = some y ∧ Q y := by
  obtain ⟨path, x, leads, holds⟩ := found
  obtain ⟨y, leads', alike⟩ := optionRel_of_eq_some (same path) leads
  exact ⟨path, y, leads', imp x y alike holds⟩

end Pairs

def Corresponds (heap : Heap) (related : Descriptor → Descriptor → Prop) (d d' : Descriptor) :
    Prop :=
  ∀ path, Option.Rel related (heap.below? d path) (heap.below? d' path)

namespace Corresponds

variable {heap : Heap} {related : Descriptor → Descriptor → Prop} {d d' : Descriptor}
  (same : heap.Corresponds related d d')
include same

theorem pairs : heap.Pairs heap related d d' := same

theorem here : related d d' := same.pairs.here

theorem turn {turn : Turn} {s t : Ref} (left : d.turn? turn = some s)
    (right : d'.turn? turn = some t) : heap.Corresponds related (heap.get s) (heap.get t) :=
  same.pairs.turn left right

theorem symm : heap.Corresponds (fun y x => related x y) d' d := same.pairs.symm

end Corresponds

theorem foreign_iff_below? {heap : Heap} {d : Descriptor} : heap.Foreign d ↔
    ∃ path x, heap.below? d path = some x ∧ x.layout = none ∧ x.order.isNative = false := by
  constructor
  · intro foreign
    induction foreign with
    | @ordered d plain foreign => exact ⟨[], d, rfl, plain, foreign⟩
    | through link _ ih => exact exists_below?_through link ih
  · rintro ⟨path, x, leads, plain, foreign⟩
    exact of_below? (fun _ _ link => .through link) leads (.ordered plain foreign)

theorem Corresponds.foreign {heap : Heap} {related : Descriptor → Descriptor → Prop}
    {d d' : Descriptor} (same : heap.Corresponds related d d')
    (native : ∀ x y, related x y → x.layout = none → x.order.isNative = false →
      y.layout = none ∧ y.order.isNative = false) (foreign : heap.Foreign d) :
    heap.Foreign d' :=
  foreign_iff_below?.2 (same.pairs.exists_below? (fun x y holds own => native x y holds own.1 own.2)
    (foreign_iff_below?.1 foreign))

/-- An order that counts: that of a node that is no record. -/
def Counts (heap : Heap) (d : Descriptor) (order : ByteOrder) : Prop :=
  ∃ path x, heap.below? d path = some x ∧ x.layout = none ∧ x.order = order

theorem isNative_iff_counts {heap : Heap} (closed : heap.Closed) (acyclic : heap.Acyclic)
    (ref : Ref) : heap.isNative ref = true ↔
      ∀ order, heap.Counts (heap.get ref) order → order ≠ .foreign := by
  rw [isNative_iff closed acyclic, foreign_iff_below?]
  constructor
  · rintro native order ⟨path, x, leads, plain, rfl⟩ foreign
    exact native ⟨path, x, leads, plain, by rw [foreign]; rfl⟩
  · rintro native ⟨path, x, leads, plain, foreign⟩
    exact native x.order ⟨path, x, leads, plain, rfl⟩ (by simpa [ByteOrder.isNative] using foreign)

end Heap

end ElementTypes
