import ElementTypes.Proofs.Heap.Equivalence
import Mathlib.Logic.Function.Iterate

/-! # Walks come to an end

A walk is a recursion, and its `step` is one level of it. `EndsWithin` says that so many levels are
enough, whatever is taken for the answers below the last.
-/

namespace ElementTypes

section Recursion

variable {σ β : Type}

/-- From `s` the recursion goes down at most `n` levels and gives a good result. -/
def EndsWithin (step : (σ → β) → σ → β) (n : Nat) (s : σ) (good : β → Prop) : Prop :=
  ∀ m, n ≤ m → ∀ deeper, good (step^[m] deeper s)

theorem endsWithin_of_bound {step : (σ → β) → σ → β} (bound : Nat → σ → Prop)
    (good : Nat → σ → β → Prop) (positive : ∀ s, ¬ bound 0 s)
    (level : ∀ n s below, bound (n + 1) s → (∀ t, bound n t → good n t (below t)) →
      good (n + 1) s (step below s))
    {n : Nat} {s : σ} (within : bound n s) : EndsWithin step n s (good n s) := by
  intro m enough deeper
  induction n generalizing m s with
  | zero => exact absurd within (positive s)
  | succ n ih =>
      obtain ⟨m, rfl⟩ := Nat.exists_eq_add_of_le' (Nat.lt_of_lt_of_le n.succ_pos enough)
      rw [Function.iterate_succ_apply']
      exact level n s _ within fun t inside => ih inside m (Nat.le_of_succ_le_succ enough)

theorem endsWithin_of_answer {step : (σ → β) → σ → β} (bound : Nat → σ → Prop)
    (answer : Nat → σ → β) (positive : ∀ s, ¬ bound 0 s)
    (level : ∀ n s below, bound (n + 1) s → (∀ t, bound n t → below t = answer n t) →
      step below s = answer (n + 1) s)
    {n : Nat} {s : σ} (within : bound n s) : EndsWithin step n s fun b => b = answer n s :=
  endsWithin_of_bound bound (fun n s b => b = answer n s) positive level within

end Recursion

section Congruence

variable {α β : Type} {list : List α}

theorem all_congr_of_mem {p q : α → Bool} (same : ∀ a ∈ list, p a = q a) :
    list.all p = list.all q := by
  induction list with
  | nil => rfl
  | cons a list ih =>
      rw [List.all_cons, List.all_cons, same a (by simp),
        ih fun b member => same b (by simp [member])]

end Congruence

namespace Heap

theorem bothOrNeither_congr {α : Type} {agree agree' : α → α → Bool} {a b : Option α}
    (same : ∀ x, a = some x → ∀ y, b = some y → agree x y = agree' x y) :
    bothOrNeither agree a b = bothOrNeither agree' a b := by
  cases a <;> cases b
  · rfl
  · rfl
  · rfl
  · exact same _ rfl _ rfl

variable (heap : Heap)

def nativeStep (below : Descriptor → Bool) (d : Descriptor) : Bool :=
  (match d.layout with
    | none => d.order.isNative
    | some layout => layout.table.primary.all fun entry => below (heap.get entry.target)) &&
  d.bases.all fun base => below (heap.get base)

theorem nativeWithin_eq_step (n : Nat) (d : Descriptor) :
    heap.nativeWithin (n + 1) d = heap.nativeStep (heap.nativeWithin n) d := rfl

def equivalentStep (below : Ref × Ref → Bool) (pair : Ref × Ref) : Bool :=
  let x := heap.get pair.1
  let y := heap.get pair.2
  pair.1 = pair.2 ||
    (x.code = y.code && x.size = y.size && heap.isNative pair.1 = heap.isNative pair.2 &&
      bothOrNeither (fun (l m : Layout) =>
        l.names = m.names && l.names.all fun name =>
          bothOrNeither (fun (f g : Entry) =>
            f.offset = g.offset && f.title = g.title &&
              (f.target = g.target || below (f.target, g.target)))
            (l.table.find? name) (m.table.find? name))
        x.layout y.layout &&
      bothOrNeither (fun (s t : Subarray) => s.shape = t.shape && below (s.base, t.base))
        x.subarray y.subarray &&
      x.interval = y.interval)

theorem equivalentWithin_eq_step (n : Nat) (pair : Ref × Ref) :
    heap.equivalentWithin (n + 1) pair.1 pair.2 =
      heap.equivalentStep (fun pair => heap.equivalentWithin n pair.1 pair.2) pair := rfl

def equalStep (below : Ref × Ref → Bool) (pair : Ref × Ref) : Bool :=
  let x := heap.get pair.1
  let y := heap.get pair.2
  x.code = y.code && x.kind = y.kind && x.letter = y.letter && x.order = y.order &&
    x.size = y.size && x.alignment = y.alignment && x.flags = y.flags &&
    bothOrNeither (fun (l m : Layout) =>
      l.names = m.names && l.table.size = m.table.size && l.table.entries.all fun (f : Entry) =>
        match m.table.find? f.key with
        | none => false
        | some g => f.offset = g.offset && f.title = g.title && below (f.target, g.target))
      x.layout y.layout &&
    bothOrNeither (fun (s t : Subarray) => s.shape = t.shape && below (s.base, t.base))
      x.subarray y.subarray &&
    x.interval = y.interval

theorem equalWithin_eq_step (n : Nat) (pair : Ref × Ref) :
    heap.equalWithin (n + 1) pair.1 pair.2 =
      heap.equalStep (fun pair => heap.equalWithin n pair.1 pair.2) pair := rfl

section Levels

variable {heap}

theorem nativeStep_congr {f g : Descriptor → Bool} {d : Descriptor}
    (same : ∀ ref ∈ d.links, f (heap.get ref) = g (heap.get ref)) :
    heap.nativeStep f d = heap.nativeStep g d := by
  have bases : (d.bases.all fun base => f (heap.get base)) =
      d.bases.all fun base => g (heap.get base) :=
    all_congr_of_mem fun base member => same base (List.mem_append_right _ member)
  unfold nativeStep
  rw [bases]
  cases record : d.layout with
  | none => rfl
  | some layout =>
      congr 1
      refine all_congr_of_mem fun entry primary => same entry.target ?_
      exact Descriptor.mem_links_iff.2
        (.inl ⟨layout, record, entry, (Table.mem_primary.1 primary).1, rfl⟩)

theorem bases_congr {f g : Ref × Ref → Bool} {x y : Descriptor}
    (same : ∀ s ∈ x.links, ∀ t, f (s, t) = g (s, t)) :
    bothOrNeither (fun (s t : Subarray) => s.shape = t.shape && f (s.base, t.base))
        x.subarray y.subarray =
      bothOrNeither (fun (s t : Subarray) => s.shape = t.shape && g (s.base, t.base))
        x.subarray y.subarray :=
  bothOrNeither_congr fun s array t _ => by
    rw [same s.base (Descriptor.mem_links_iff.2 (.inr ⟨s, array, rfl⟩))]

theorem equivalentStep_congr {f g : Ref × Ref → Bool} {a b : Ref}
    (same : ∀ s ∈ (heap.get a).links, ∀ t, f (s, t) = g (s, t)) :
    heap.equivalentStep f (a, b) = heap.equivalentStep g (a, b) := by
  unfold equivalentStep
  simp only [bases_congr same]
  congr 4
  refine bothOrNeither_congr fun l record m _ => ?_
  congr 1
  refine all_congr_of_mem fun name _ => bothOrNeither_congr fun e here e' _ => ?_
  rw [same e.target (Descriptor.mem_links_of_find? (by
    rw [Descriptor.find?, record]; exact here))]

theorem equalStep_congr {f g : Ref × Ref → Bool} {a b : Ref}
    (same : ∀ s ∈ (heap.get a).links, ∀ t, f (s, t) = g (s, t)) :
    heap.equalStep f (a, b) = heap.equalStep g (a, b) := by
  unfold equalStep
  simp only [bases_congr same]
  congr 3
  refine bothOrNeither_congr fun l record m _ => ?_
  congr 1
  refine all_congr_of_mem fun e listed => ?_
  simp only [same e.target (Descriptor.mem_links_iff.2 (.inl ⟨l, record, e, listed, rfl⟩))]

variable {n : Nat}

theorem nativeWithin_ends {d : Descriptor} (within : heap.Within n d) :
    EndsWithin heap.nativeStep n d fun b => b = heap.nativeWithin n d := by
  refine endsWithin_of_answer heap.Within heap.nativeWithin (fun _ => id) ?_ within
  intro n d below within same
  rw [nativeWithin_eq_step]
  exact nativeStep_congr fun ref link => same _ (within ref link)

theorem findWithin_ends {d : Descriptor} (within : heap.Within n d) :
    EndsWithin findStep n d fun search : StateM Heap Bool =>
      search.run heap = (findWithin n d).run heap := by
  refine endsWithin_of_bound heap.Within
    (fun n d (search : StateM Heap Bool) => search.run heap = (findWithin n d).run heap)
    (fun _ => id) ?_ within
  intro n d below within same
  rw [findWithin_run]
  refine findStep_run fun ref link => ?_
  rw [same _ (within ref (Descriptor.links_of_primaryLinks link)), findWithin_run]

theorem equivalentWithin_ends {pair : Ref × Ref} (within : heap.Within n (heap.get pair.1)) :
    EndsWithin heap.equivalentStep n pair fun b => b = heap.equivalentWithin n pair.1 pair.2 := by
  refine endsWithin_of_answer (fun n (pair : Ref × Ref) => heap.Within n (heap.get pair.1))
    (fun n pair => heap.equivalentWithin n pair.1 pair.2) (fun _ => id) ?_ within
  intro n pair below within same
  rw [equivalentWithin_eq_step]
  exact equivalentStep_congr fun s link t => same (s, t) (within s link)

theorem equalWithin_ends {pair : Ref × Ref} (within : heap.Within n (heap.get pair.1)) :
    EndsWithin heap.equalStep n pair fun b => b = heap.equalWithin n pair.1 pair.2 := by
  refine endsWithin_of_answer (fun n (pair : Ref × Ref) => heap.Within n (heap.get pair.1))
    (fun n pair => heap.equalWithin n pair.1 pair.2) (fun _ => id) ?_ within
  intro n pair below within same
  rw [equalWithin_eq_step]
  exact equalStep_congr fun s link t => same (s, t) (within s link)

theorem acc_of_within {ref : Ref} (within : heap.Within n (heap.get ref)) :
    Acc (fun next ref => heap.Points ref next) ref := by
  induction n generalizing ref with
  | zero => exact absurd within id
  | succ n ih => exact .intro ref fun next points => ih (within next points)

theorem founded (closed : heap.Closed) (acyclic : heap.Acyclic) :
    WellFounded fun next ref => heap.Points ref next :=
  ⟨fun ref => acc_of_within (within_depth closed acyclic (closed.fits ref))⟩

end Levels

end Heap

end ElementTypes
