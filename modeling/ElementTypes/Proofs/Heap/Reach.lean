import ElementTypes.Heap.Basic
import Mathlib.Data.Finset.Card
import Mathlib.Data.Finset.Range
import Mathlib.Logic.Relation

/-! # Paths in a heap

A heap is closed when no reference leads outside it, and acyclic when no cell reaches itself. In
such a heap no path is longer than the steps that walks are given (`within_depth`).
-/

namespace ElementTypes

namespace Descriptor

theorem mem_links_iff {d : Descriptor} {ref : Ref} :
    ref ∈ d.links ↔ (∃ layout, d.layout = some layout ∧
        ∃ entry ∈ layout.table.entries, entry.target = ref) ∨
      ∃ subarray, d.subarray = some subarray ∧ subarray.base = ref := by
  unfold links entries bases
  cases d.layout <;> cases d.subarray <;> simp [eq_comm]

theorem mem_primaryLinks_iff {d : Descriptor} {ref : Ref} :
    ref ∈ d.primaryLinks ↔ (∃ layout, d.layout = some layout ∧
        ∃ entry ∈ layout.table.primary, entry.target = ref) ∨
      ∃ subarray, d.subarray = some subarray ∧ subarray.base = ref := by
  unfold primaryLinks fieldTargets bases
  cases d.layout <;> cases d.subarray <;> simp [eq_comm]

theorem links_of_primaryLinks {d : Descriptor} {ref : Ref} (h : ref ∈ d.primaryLinks) :
    ref ∈ d.links := by
  rw [mem_primaryLinks_iff] at h
  rw [mem_links_iff]
  rcases h with ⟨layout, some, entry, member, same⟩ | base
  · exact .inl ⟨layout, some, entry, List.mem_of_mem_filter member, same⟩
  · exact .inr base

theorem mem_links_of_find? {d : Descriptor} {key : String} {entry : Entry}
    (found : d.find? key = some entry) : entry.target ∈ d.links := by
  obtain ⟨layout, record, here⟩ := Option.bind_eq_some_iff.1 found
  exact mem_links_iff.2 (.inl ⟨layout, record, entry, List.mem_of_find?_eq_some here, rfl⟩)

end Descriptor

def Descriptor.Fits (d : Descriptor) (heap : Heap) : Prop := ∀ ref ∈ d.links, ref < heap.size

theorem Descriptor.Fits.of_subset {d d' : Descriptor} {heap : Heap} (fits : d.Fits heap)
    (fewer : ∀ ref ∈ d'.links, ref ∈ d.links) : d'.Fits heap :=
  fun ref link => fits ref (fewer ref link)

namespace Heap

def Points (heap : Heap) (a b : Ref) : Prop := b ∈ (heap.get a).links

def Reaches (heap : Heap) : Ref → Ref → Prop := Relation.ReflTransGen heap.Points

def Closed (heap : Heap) : Prop := ∀ a b, heap.Points a b → b < heap.size

def Acyclic (heap : Heap) : Prop := ∀ a, ¬ Relation.TransGen heap.Points a a

theorem get_of_size_le {heap : Heap} {ref : Ref} (outside : heap.size ≤ ref) :
    heap.get ref = .canonical .void := by
  have absent : heap.cells[ref]? = none := Array.getElem?_eq_none outside
  simp [get, absent]

theorem Points.lt_size {heap : Heap} {a b : Ref} (h : heap.Points a b) : a < heap.size := by
  by_contra outside
  rw [Points, get_of_size_le (Nat.le_of_not_lt outside)] at h
  cases h

theorem Closed.fits {heap : Heap} (closed : heap.Closed) (ref : Ref) : (heap.get ref).Fits heap :=
  fun target member => closed ref target member

theorem Closed.reaches_lt {heap : Heap} (closed : heap.Closed) {a b : Ref}
    (reaches : heap.Reaches a b) (inside : a < heap.size) : b < heap.size := by
  cases Relation.ReflTransGen.cases_tail reaches with
  | inl same => exact same ▸ inside
  | inr last =>
      obtain ⟨c, -, points⟩ := last
      exact closed c b points

structure Extends (old new : Heap) : Prop where
  size : old.size ≤ new.size
  get : ∀ ref < old.size, new.get ref = old.get ref

namespace Extends

theorem refl (heap : Heap) : heap.Extends heap := ⟨Nat.le_refl _, fun _ _ => rfl⟩

theorem trans {a b c : Heap} (first : a.Extends b) (second : b.Extends c) : a.Extends c where
  size := Nat.le_trans first.size second.size
  get ref inside := by
    rw [second.get ref (Nat.lt_of_lt_of_le inside first.size), first.get ref inside]

theorem alloc (heap : Heap) (d : Descriptor) : heap.Extends (heap.alloc d).2 where
  size := by rw [size_alloc]; omega
  get _ inside := get_alloc_of_lt d inside

variable {old new : Heap}

theorem fits (grown : old.Extends new) {d : Descriptor} (fits : d.Fits old) : d.Fits new :=
  fun ref member => Nat.lt_of_lt_of_le (fits ref member) grown.size

theorem points_iff (grown : old.Extends new) {a b : Ref} (inside : a < old.size) :
    new.Points a b ↔ old.Points a b := by
  rw [Points, Points, grown.get a inside]

theorem points_of_points (grown : old.Extends new) {a b : Ref} (h : old.Points a b) :
    new.Points a b :=
  (grown.points_iff h.lt_size).2 h

theorem reaches_lt (grown : old.Extends new) (closed : old.Closed) {a b : Ref}
    (reaches : new.Reaches a b) (inside : a < old.size) : b < old.size := by
  induction reaches with
  | refl => exact inside
  | tail _ points ih => exact closed _ _ ((grown.points_iff ih).1 points)

theorem reaches_iff (grown : old.Extends new) (closed : old.Closed) {a b : Ref}
    (inside : a < old.size) : new.Reaches a b ↔ old.Reaches a b := by
  constructor
  · intro reaches
    induction reaches with
    | refl => exact .refl
    | tail before points ih =>
        exact ih.tail ((grown.points_iff (grown.reaches_lt closed before inside)).1 points)
  · intro reaches
    exact Relation.ReflTransGen.mono (fun _ _ => grown.points_of_points) _ _ reaches

end Extends

theorem points_alloc {heap : Heap} {d : Descriptor} (closed : heap.Closed) (fits : d.Fits heap)
    {a b : Ref} (h : (heap.alloc d).2.Points a b) : b < heap.size := by
  have bound := h.lt_size
  rw [size_alloc] at bound
  rcases Nat.lt_or_eq_of_le (Nat.le_of_lt_succ bound) with inside | rfl
  · exact closed a b (((Extends.alloc heap d).points_iff inside).1 h)
  · rw [Points, get_alloc_self] at h
    exact fits b h

theorem closed_alloc {heap : Heap} {d : Descriptor} (closed : heap.Closed) (fits : d.Fits heap) :
    (heap.alloc d).2.Closed := by
  intro a b h
  rw [size_alloc]
  exact Nat.lt_succ_of_lt (points_alloc closed fits h)

theorem acyclic_alloc {heap : Heap} {d : Descriptor} (closed : heap.Closed)
    (acyclic : heap.Acyclic) (fits : d.Fits heap) : (heap.alloc d).2.Acyclic := by
  intro a cycle
  -- a cell on a cycle is pointed at, so it is an old one, and its links are the old links
  have old : ∀ b, Relation.TransGen (heap.alloc d).2.Points a b →
      a < heap.size → Relation.TransGen heap.Points a b := by
    intro b path inside
    induction path with
    | single points => exact .single (((Extends.alloc heap d).points_iff inside).1 points)
    | @tail b c before points ih =>
        have bound : b < heap.size := by
          obtain ⟨x, -, last⟩ := Relation.TransGen.tail'_iff.1 before
          exact points_alloc closed fits last
        exact ih.tail (((Extends.alloc heap d).points_iff bound).1 points)
  obtain ⟨x, -, last⟩ := Relation.TransGen.tail'_iff.1 cycle
  exact acyclic a (old a cycle (points_alloc closed fits last))

theorem forall_get_alloc {heap : Heap} {d : Descriptor} {P : Descriptor → Prop}
    (old : ∀ ref, P (heap.get ref)) (new : P d) (ref : Ref) : P ((heap.alloc d).2.get ref) := by
  rcases Nat.lt_trichotomy ref heap.size with inside | rfl | outside
  · rw [get_alloc_of_lt d inside]
    exact old ref
  · rw [get_alloc_self]
    exact new
  · rw [get_of_size_le (by rw [size_alloc]; exact outside)]
    have missing := old heap.size
    rw [get_of_size_le (Nat.le_refl _)] at missing
    exact missing

theorem forall_get_set {heap : Heap} {cell : Ref} {d : Descriptor} {P : Descriptor → Prop}
    (old : ∀ ref, P (heap.get ref)) (new : P d) (ref : Ref) : P ((heap.set cell d).get ref) := by
  by_cases inside : cell < heap.size
  · by_cases here : ref = cell
    · rw [here, get_set_self d inside]
      exact new
    · rw [get_set_of_ne heap d here]
      exact old ref
  · have same : heap.set cell d = heap := by
      rw [size] at inside
      rw [set, Array.setIfInBounds, dif_neg inside]
    rw [same]
    exact old ref

theorem ext_get {a b : Heap} (size : a.size = b.size) (get : ∀ ref, a.get ref = b.get ref) :
    a = b := by
  obtain ⟨cells⟩ := a
  obtain ⟨cells'⟩ := b
  congr 1
  apply Array.ext size
  intro i left right
  have here := get i
  simpa [Heap.get, left, right] using here

theorem set_get (heap : Heap) {cell : Ref} (inside : cell < heap.size) :
    heap.set cell (heap.get cell) = heap := by
  refine ext_get (size_set ..) fun ref => ?_
  by_cases here : ref = cell
  · rw [here, get_set_self _ inside]
  · rw [get_set_of_ne _ _ here]

theorem points_set_of_ne {heap : Heap} {cell a b : Ref} {d : Descriptor} (other : a ≠ cell) :
    (heap.set cell d).Points a b ↔ heap.Points a b := by
  rw [Points, Points, get_set_of_ne heap d other]

theorem closed_set {heap : Heap} {cell : Ref} {d : Descriptor} (closed : heap.Closed)
    (fits : d.Fits heap) : (heap.set cell d).Closed := by
  intro a b h
  have bound := h.lt_size
  rw [size_set] at bound ⊢
  by_cases same : a = cell
  · subst same
    rw [Points, get_set_self d bound] at h
    exact fits b h
  · exact closed a b ((points_set_of_ne same).1 h)

theorem arrives_of_arrives {before after : Ref → Ref → Prop} {cell a : Ref}
    (agree : ∀ a b, a ≠ cell → before a b → after a b)
    (path : Relation.ReflTransGen before a cell) : Relation.ReflTransGen after a cell := by
  -- until it first arrives, the path runs through unchanged cells
  induction path using Relation.ReflTransGen.head_induction_on with
  | refl => exact .refl
  | @head a b step _ ih =>
      by_cases same : a = cell
      · exact same ▸ .refl
      · exact ih.head (agree a b same step)

theorem reaches_set_iff {heap : Heap} {cell a : Ref} {d : Descriptor} :
    (heap.set cell d).Reaches a cell ↔ heap.Reaches a cell :=
  ⟨arrives_of_arrives fun _ _ other => (points_set_of_ne other).1,
    arrives_of_arrives fun _ _ other => (points_set_of_ne other).2⟩

theorem acyclic_set {heap : Heap} {cell : Ref} {d : Descriptor} (acyclic : heap.Acyclic)
    (inside : cell < heap.size) (apart : ∀ ref ∈ d.links, ¬ heap.Reaches ref cell) :
    (heap.set cell d).Acyclic := by
  -- either a path avoids leaving the changed cell, or it can be split there
  have split : ∀ a b, Relation.TransGen (heap.set cell d).Points a b →
      Relation.TransGen heap.Points a b ∨
        ((heap.set cell d).Reaches a cell ∧ Relation.TransGen (heap.set cell d).Points cell b) := by
    intro a b path
    induction path with
    | @single b points =>
        by_cases same : a = cell
        · subst same
          exact .inr ⟨.refl, .single points⟩
        · exact .inl (.single ((points_set_of_ne same).1 points))
    | @tail b c before points ih =>
        rcases ih with kept | ⟨arrives, leaves⟩
        · by_cases same : b = cell
          · subst same
            exact .inr ⟨before.to_reflTransGen, .single points⟩
          · exact .inl (kept.tail ((points_set_of_ne same).1 points))
        · exact .inr ⟨arrives, leaves.tail points⟩
  intro a cycle
  rcases split a a cycle with kept | ⟨arrives, leaves⟩
  · exact acyclic a kept
  · have loop : Relation.TransGen (heap.set cell d).Points cell cell := leaves.trans_left arrives
    obtain ⟨ref, points, rest⟩ := Relation.TransGen.head'_iff.1 loop
    rw [Points, get_set_self d inside] at points
    exact apart ref points (reaches_set_iff.1 rest)

theorem points_eq {old new : Heap} (links : ∀ ref, (new.get ref).links = (old.get ref).links) :
    new.Points = old.Points := by
  funext a b
  rw [Points, Points, links a]

def Within (heap : Heap) : Nat → Descriptor → Prop
  | 0, _ => False
  | n + 1, d => ∀ ref ∈ d.links, heap.Within n (heap.get ref)

theorem within_of_visited {heap : Heap} (closed : heap.Closed) (acyclic : heap.Acyclic) (n : Nat)
    (visited : Finset Ref) (inside : visited ⊆ Finset.range heap.size) {ref : Ref}
    (bound : ref < heap.size) (enough : heap.size ≤ n + visited.card)
    (before : ∀ a ∈ visited, Relation.TransGen heap.Points a ref) :
    heap.Within n (heap.get ref) := by
  have new : ref ∉ visited := fun member => acyclic ref (before ref member)
  have more : insert ref visited ⊆ Finset.range heap.size :=
    Finset.insert_subset (Finset.mem_range.2 bound) inside
  have card := Finset.card_le_card more
  rw [Finset.card_insert_of_notMem new, Finset.card_range] at card
  induction n generalizing ref visited with
  | zero => omega
  | succ n ih =>
      intro next points
      have later : ∀ a ∈ insert ref visited, Relation.TransGen heap.Points a next := by
        intro a member
        rcases Finset.mem_insert.1 member with rfl | old
        · exact .single points
        · exact (before a old).tail points
      have fresh : next ∉ insert ref visited := fun member => acyclic next (later next member)
      have all := Finset.insert_subset (Finset.mem_range.2 (closed ref next points)) more
      have size := Finset.card_le_card all
      rw [Finset.card_insert_of_notMem fresh, Finset.card_range] at size
      refine ih (insert ref visited) more (closed ref next points) ?_ later fresh all size
      rw [Finset.card_insert_of_notMem new]
      omega

theorem within_depth {heap : Heap} (closed : heap.Closed) (acyclic : heap.Acyclic)
    {d : Descriptor} (fits : d.Fits heap) : heap.Within heap.depth d := by
  intro ref member
  exact within_of_visited closed acyclic heap.size ∅ (Finset.empty_subset _) (fits ref member)
    (by simp) (by simp)

end Heap

end ElementTypes
