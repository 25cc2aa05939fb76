import ElementTypes.Heap.Equivalence
import ElementTypes.Proofs.Heap.Native
import ElementTypes.Proofs.Outcome
import ElementTypes.Proofs.Record.Table
import Mathlib.Data.List.Perm.Subperm

/-! # The laws of equivalence and equality -/

namespace ElementTypes

/-! ## One step -/

structure Layout.Alike (below : Ref → Ref → Prop) (l m : Layout) : Prop where
  names : l.names = m.names
  fields : ∀ name ∈ l.names, Option.Rel (fun f g : Entry =>
    f.offset = g.offset ∧ f.title = g.title ∧ below f.target g.target)
      (l.table.find? name) (m.table.find? name)

structure Descriptor.Alike (below : Ref → Ref → Prop) (x y : Descriptor) : Prop where
  code : x.code = y.code
  size : x.size = y.size
  layout : Option.Rel (Layout.Alike below) x.layout y.layout
  subarray : Option.Rel (fun s t : Subarray => s.shape = t.shape ∧ below s.base t.base)
    x.subarray y.subarray
  interval : x.interval = y.interval

namespace Descriptor.Alike

variable {below other both : Ref → Ref → Prop} {x y z : Descriptor}

theorem refl (same : ∀ ref, below ref ref) (x : Descriptor) : x.Alike below x where
  code := rfl
  size := rfl
  layout := optionRel_refl (fun _ => ⟨rfl, fun _ _ =>
    optionRel_refl (fun f => ⟨rfl, rfl, same f.target⟩) _⟩) _
  subarray := optionRel_refl (fun s => ⟨rfl, same s.base⟩) _
  interval := rfl

theorem symm (alike : x.Alike below y) : y.Alike (fun a b => below b a) x where
  code := alike.code.symm
  size := alike.size.symm
  layout := by
    refine optionRel_imp (optionRel_symm alike.layout) fun m l holds => ?_
    refine ⟨holds.names.symm, fun name member => ?_⟩
    rw [← holds.names] at member
    exact optionRel_imp (optionRel_symm (holds.fields name member))
      fun g f holds => ⟨holds.1.symm, holds.2.1.symm, holds.2.2⟩
  subarray := optionRel_imp (optionRel_symm alike.subarray)
    fun t s holds => ⟨holds.1.symm, holds.2⟩
  interval := alike.interval.symm

theorem trans (first : x.Alike below y) (second : y.Alike other z)
    (links : ∀ a b c, below a b → other b c → both a c) : x.Alike both z where
  code := first.code.trans second.code
  size := first.size.trans second.size
  layout := by
    refine optionRel_trans first.layout second.layout fun l m k left right => ?_
    refine ⟨left.names.trans right.names, fun name member => ?_⟩
    refine optionRel_trans (left.fields name member) (right.fields name (left.names ▸ member)) ?_
    rintro f g e ⟨offset, title, target⟩ ⟨offset', title', target'⟩
    exact ⟨offset.trans offset', title.trans title', links _ _ _ target target'⟩
  subarray := by
    refine optionRel_trans first.subarray second.subarray ?_
    rintro s t u ⟨shape, base⟩ ⟨shape', base'⟩
    exact ⟨shape.trans shape', links _ _ _ base base'⟩
  interval := first.interval.trans second.interval

theorem imp (alike : x.Alike below y)
    (links : ∀ a ∈ x.links, ∀ b ∈ y.links, below a b → other a b) : x.Alike other y where
  code := alike.code
  size := alike.size
  layout := by
    refine optionRel_imp_of_mem alike.layout fun l left m right holds => ⟨holds.names, ?_⟩
    refine fun name member => optionRel_imp_of_mem (holds.fields name member) ?_
    rintro f here g there ⟨offset, title, target⟩
    exact ⟨offset, title, links _ (mem_links_iff.2 (.inl ⟨l, left, f,
      List.mem_of_find?_eq_some here, rfl⟩)) _ (mem_links_iff.2 (.inl ⟨m, right, g,
        List.mem_of_find?_eq_some there, rfl⟩)) target⟩
  subarray := by
    refine optionRel_imp_of_mem alike.subarray ?_
    rintro s left t right ⟨shape, base⟩
    exact ⟨shape, links _ (mem_links_iff.2 (.inr ⟨s, left, rfl⟩)) _
      (mem_links_iff.2 (.inr ⟨t, right, rfl⟩)) base⟩
  interval := alike.interval

end Descriptor.Alike

structure Layout.Matches (below : Ref → Ref → Prop) (l m : Layout) : Prop where
  names : l.names = m.names
  size : l.table.size = m.table.size
  fields : ∀ f ∈ l.table.entries, ∃ g, m.table.find? f.key = some g ∧
    f.offset = g.offset ∧ f.title = g.title ∧ below f.target g.target

structure Descriptor.Matches (below : Ref → Ref → Prop) (x y : Descriptor) : Prop where
  code : x.code = y.code
  kind : x.kind = y.kind
  letter : x.letter = y.letter
  order : x.order = y.order
  size : x.size = y.size
  alignment : x.alignment = y.alignment
  flags : x.flags = y.flags
  layout : Option.Rel (Layout.Matches below) x.layout y.layout
  subarray : Option.Rel (fun s t : Subarray => s.shape = t.shape ∧ below s.base t.base)
    x.subarray y.subarray
  interval : x.interval = y.interval

namespace Layout.Matches

variable {below : Ref → Ref → Prop} {l m : Layout} (same : l.Matches below m)
include same

theorem keys_perm : l.table.keys.Perm m.table.keys := by
  have part : l.table.keys ⊆ m.table.keys := by
    intro key member
    obtain ⟨f, listed, rfl⟩ := List.mem_map.1 member
    obtain ⟨g, found, -⟩ := same.fields f listed
    by_contra absent
    rw [Table.find?_eq_none.2 absent] at found
    cases found
  -- the tables are of one size, so the second has no key of its own
  refine (l.table.distinct.subperm part).perm_of_length_le (Nat.le_of_eq ?_)
  simpa [Table.size, Table.keys] using same.size.symm

theorem find? (key : String) : Option.Rel (fun f g : Entry =>
    f.offset = g.offset ∧ f.title = g.title ∧ below f.target g.target)
      (l.table.find? key) (m.table.find? key) := by
  cases here : l.table.find? key with
  | none =>
      rw [Table.find?_eq_none, same.keys_perm.mem_iff, ← Table.find?_eq_none] at here
      rw [here]
      exact .none
  | some f =>
      obtain rfl := Table.key_of_find? here
      obtain ⟨g, found, holds⟩ := same.fields f (List.mem_of_find?_eq_some here)
      rw [found]
      exact .some holds

theorem symm : m.Matches (fun a b => below b a) l where
  names := same.names.symm
  size := same.size.symm
  fields g listed := by
    obtain ⟨f, found, offset, title, target⟩ :=
      optionRel_of_eq_some (optionRel_symm (same.find? g.key)) (Table.find?_of_mem listed)
    exact ⟨f, found, offset.symm, title.symm, target⟩

end Layout.Matches

namespace Descriptor.Matches

variable {below other : Ref → Ref → Prop} {x y : Descriptor}

theorem symm (same : x.Matches below y) : y.Matches (fun a b => below b a) x where
  code := same.code.symm
  kind := same.kind.symm
  letter := same.letter.symm
  order := same.order.symm
  size := same.size.symm
  alignment := same.alignment.symm
  flags := same.flags.symm
  layout := optionRel_imp (optionRel_symm same.layout) fun _ _ holds => holds.symm
  subarray := optionRel_imp (optionRel_symm same.subarray)
    fun _ _ holds => ⟨holds.1.symm, holds.2⟩
  interval := same.interval.symm

theorem imp (same : x.Matches below y)
    (links : ∀ a ∈ x.links, ∀ b ∈ y.links, below a b → other a b) : x.Matches other y :=
  { same with
    layout := by
      refine optionRel_imp_of_mem same.layout fun l left m right holds =>
        ⟨holds.names, holds.size, fun f listed => ?_⟩
      obtain ⟨g, found, offset, title, target⟩ := holds.fields f listed
      exact ⟨g, found, offset, title, links _ (mem_links_iff.2 (.inl ⟨l, left, f, listed, rfl⟩)) _
        (mem_links_iff.2 (.inl ⟨m, right, g, List.mem_of_find?_eq_some found, rfl⟩)) target⟩
    subarray := by
      refine optionRel_imp_of_mem same.subarray ?_
      rintro s left t right ⟨shape, base⟩
      exact ⟨shape, links _ (mem_links_iff.2 (.inr ⟨s, left, rfl⟩)) _
        (mem_links_iff.2 (.inr ⟨t, right, rfl⟩)) base⟩ }

theorem refl (same : ∀ ref, below ref ref) (x : Descriptor) : x.Matches below x where
  code := rfl
  kind := rfl
  letter := rfl
  order := rfl
  size := rfl
  alignment := rfl
  flags := rfl
  layout := optionRel_refl (fun _ => ⟨rfl, rfl, fun f listed =>
    ⟨f, Table.find?_of_mem listed, rfl, rfl, same f.target⟩⟩) _
  subarray := optionRel_refl (fun s => ⟨rfl, same s.base⟩) _
  interval := rfl

theorem primaryLink (same : x.Matches below y) {ref : Ref} (link : ref ∈ x.primaryLinks) :
    ∃ target ∈ y.primaryLinks, below ref target := by
  rcases mem_primaryLinks_iff.1 link with ⟨l, record, f, primary, rfl⟩ | ⟨s, array, rfl⟩
  · obtain ⟨m, record', holds⟩ := optionRel_of_eq_some same.layout record
    obtain ⟨present, own⟩ := Table.mem_primary.1 primary
    obtain ⟨g, found, -, title, target⟩ := holds.fields f present
    refine ⟨g.target, mem_primaryLinks_iff.2 (.inl ⟨m, record', g, ?_, rfl⟩), target⟩
    rw [Table.mem_primary, Entry.isAlias, ← title, Table.key_of_find? found, ← Entry.isAlias]
    exact ⟨List.mem_of_find?_eq_some found, own⟩
  · obtain ⟨t, array', holds⟩ := optionRel_of_eq_some same.subarray array
    exact ⟨t.base, mem_primaryLinks_iff.2 (.inr ⟨t, array', rfl⟩), holds.2⟩

theorem alike (same : x.Matches below y) : x.Alike below y where
  code := same.code
  size := same.size
  layout := optionRel_imp same.layout fun _ _ holds =>
    ⟨holds.names, fun name _ => holds.find? name⟩
  subarray := same.subarray
  interval := same.interval

end Descriptor.Matches

namespace Heap

/-! ## Comparisons within so many steps -/

theorem bothOrNeither_iff {α : Type} {agree : α → α → Bool} {a b : Option α} :
    bothOrNeither agree a b = true ↔ Option.Rel (fun x y => agree x y = true) a b := by
  constructor
  · intro holds
    cases a <;> cases b
    · exact .none
    · cases holds
    · cases holds
    · exact .some holds
  · intro related
    cases related with
    | none => rfl
    | some holds => exact holds

/-- One step of the comparison that makes no use of identity. -/
def comparePlainly (heap : Heap) (below : Ref → Ref → Bool) (a b : Ref) : Bool :=
  let x := heap.get a
  let y := heap.get b
  x.code = y.code && x.size = y.size && heap.isNative a = heap.isNative b &&
    bothOrNeither (fun (l m : Layout) =>
      l.names = m.names && l.names.all fun name =>
        bothOrNeither (fun (f g : Entry) =>
          f.offset = g.offset && f.title = g.title && below f.target g.target)
          (l.table.find? name) (m.table.find? name))
      x.layout y.layout &&
    bothOrNeither (fun (s t : Subarray) => s.shape = t.shape && below s.base t.base)
      x.subarray y.subarray &&
    x.interval = y.interval

theorem comparePlainly_iff {heap : Heap} {below : Ref → Ref → Bool} {a b : Ref} :
    heap.comparePlainly below a b = true ↔ heap.isNative a = heap.isNative b ∧
      (heap.get a).Alike (fun s t => below s t = true) (heap.get b) := by
  simp only [comparePlainly, Bool.and_eq_true, decide_eq_true_eq, bothOrNeither_iff,
    List.all_eq_true]
  constructor
  · rintro ⟨⟨⟨⟨⟨code, size⟩, native⟩, layout⟩, subarray⟩, interval⟩
    exact ⟨native, code, size, optionRel_imp layout fun l m holds => ⟨holds.1, fun name member =>
      optionRel_imp (holds.2 name member) fun f g holds => ⟨holds.1.1, holds.1.2, holds.2⟩⟩,
      subarray, interval⟩
  · rintro ⟨native, code, size, layout, subarray, interval⟩
    exact ⟨⟨⟨⟨⟨code, size⟩, native⟩, optionRel_imp layout fun l m holds =>
      ⟨holds.names, fun name member => optionRel_imp (holds.fields name member)
        fun f g holds => ⟨⟨holds.1, holds.2.1⟩, holds.2.2⟩⟩⟩, subarray⟩, interval⟩

theorem equivalentWithin_self (heap : Heap) (n : Nat) (a : Ref) :
    heap.equivalentWithin n a a = true := by
  cases n <;> simp [equivalentWithin]

theorem equivalentWithin_succ (heap : Heap) (n : Nat) (a b : Ref) :
    heap.equivalentWithin (n + 1) a b = true ↔ a = b ∨ heap.isNative a = heap.isNative b ∧
      (heap.get a).Alike (fun s t => heap.equivalentWithin n s t = true) (heap.get b) := by
  -- the test of identity below is one that the step itself begins with
  have targets : ∀ s t : Ref, (decide (s = t) || heap.equivalentWithin n s t) =
      heap.equivalentWithin n s t := by
    intro s t
    by_cases same : s = t
    · rw [same, equivalentWithin_self, Bool.or_true]
    · rw [decide_eq_false same, Bool.false_or]
  rw [← comparePlainly_iff, ← decide_eq_true_iff (p := a = b), ← Bool.or_eq_true]
  simp only [equivalentWithin, targets]
  rfl

theorem equalWithin_succ (heap : Heap) (n : Nat) (a b : Ref) :
    heap.equalWithin (n + 1) a b = true ↔
      (heap.get a).Matches (fun s t => heap.equalWithin n s t = true) (heap.get b) := by
  rw [equalWithin]
  simp only [Bool.and_eq_true, decide_eq_true_eq, bothOrNeither_iff, List.all_eq_true]
  constructor
  · rintro ⟨⟨⟨⟨⟨⟨⟨⟨⟨code, kind⟩, letter⟩, order⟩, size⟩, alignment⟩, flags⟩, layout⟩, subarray⟩,
      interval⟩
    refine ⟨code, kind, letter, order, size, alignment, flags, ?_, subarray, interval⟩
    refine optionRel_imp layout fun l m holds => ⟨holds.1.1, holds.1.2, fun f listed => ?_⟩
    have field := holds.2 f listed
    cases found : m.table.find? f.key with
    | none => simp [found] at field
    | some g =>
        simp only [found, Bool.and_eq_true, decide_eq_true_eq] at field
        exact ⟨g, rfl, field.1.1, field.1.2, field.2⟩
  · rintro ⟨code, kind, letter, order, size, alignment, flags, layout, subarray, interval⟩
    refine ⟨⟨⟨⟨⟨⟨⟨⟨⟨code, kind⟩, letter⟩, order⟩, size⟩, alignment⟩, flags⟩, ?_⟩, subarray⟩,
      interval⟩
    refine optionRel_imp layout fun l m holds => ⟨⟨holds.names, holds.size⟩, fun f listed => ?_⟩
    obtain ⟨g, found, offset, title, target⟩ := holds.fields f listed
    simp [found, offset, title, target]

theorem equalWithin_self (heap : Heap) (n : Nat) (a : Ref) : heap.equalWithin n a a = true := by
  induction n generalizing a with
  | zero => rfl
  | succ n ih => exact (equalWithin_succ heap n a a).2 (.refl ih _)

theorem equalWithin_symm {heap : Heap} {n : Nat} {a b : Ref}
    (h : heap.equalWithin n a b = true) : heap.equalWithin n b a = true := by
  induction n generalizing a b with
  | zero => rfl
  | succ n ih =>
      rw [equalWithin_succ] at h ⊢
      exact h.symm.imp fun _ _ _ _ same => ih same

/-! ## An equivalence relation -/

theorem equivalentWithin_symm {heap : Heap} {n : Nat} {a b : Ref}
    (h : heap.equivalentWithin n a b = true) : heap.equivalentWithin n b a = true := by
  induction n generalizing a b with
  | zero => rfl
  | succ n ih =>
      rw [equivalentWithin_succ] at h ⊢
      rcases h with rfl | ⟨native, alike⟩
      · exact .inl rfl
      · exact .inr ⟨native.symm, alike.symm.imp fun _ _ _ _ same => ih same⟩

theorem equivalentWithin_trans {heap : Heap} {n : Nat} {a b c : Ref}
    (first : heap.equivalentWithin n a b = true) (second : heap.equivalentWithin n b c = true) :
    heap.equivalentWithin n a c = true := by
  induction n generalizing a b c with
  | zero => rfl
  | succ n ih =>
      rcases (equivalentWithin_succ ..).1 first with rfl | ⟨native, alike⟩
      · exact second
      · rcases (equivalentWithin_succ ..).1 second with rfl | ⟨native', alike'⟩
        · exact first
        · exact (equivalentWithin_succ ..).2 (.inr ⟨native.trans native',
            alike.trans alike' fun _ _ _ left right => ih left right⟩)

theorem equivalent_equivalence (heap : Heap) :
    Equivalence fun a b => heap.equivalent a b = true where
  refl a := equivalentWithin_self heap heap.depth a
  symm h := equivalentWithin_symm h
  trans first second := equivalentWithin_trans first second

/-! ## Identity is a short cut -/

def plainlyEquivalentWithin (heap : Heap) : Nat → Ref → Ref → Bool
  | 0, _, _ => true
  | steps + 1, a, b => heap.comparePlainly (heap.plainlyEquivalentWithin steps) a b

def plainlyEquivalent (heap : Heap) (a b : Ref) : Bool :=
  heap.plainlyEquivalentWithin heap.depth a b

theorem plainlyEquivalentWithin_self (heap : Heap) (n : Nat) (a : Ref) :
    heap.plainlyEquivalentWithin n a a = true := by
  induction n generalizing a with
  | zero => rfl
  | succ n ih => exact comparePlainly_iff.2 ⟨rfl, .refl ih _⟩

theorem equivalentWithin_eq_plainly (heap : Heap) (n : Nat) (a b : Ref) :
    heap.equivalentWithin n a b = heap.plainlyEquivalentWithin n a b := by
  induction n generalizing a b with
  | zero => rfl
  | succ n ih =>
      have below : (fun s t => heap.equivalentWithin n s t = true) =
          fun s t => heap.plainlyEquivalentWithin n s t = true := by
        funext s t
        rw [ih]
      rw [Bool.eq_iff_iff, equivalentWithin_succ, below, ← comparePlainly_iff]
      exact or_iff_right_of_imp fun same =>
        same ▸ plainlyEquivalentWithin_self heap (n + 1) a

/-! ## Steps do not matter -/

theorem Within.mono {heap : Heap} {n m : Nat} {d : Descriptor} (within : heap.Within n d)
    (more : n ≤ m) : heap.Within m d := by
  induction n generalizing m d with
  | zero => exact absurd within id
  | succ n ih =>
      obtain ⟨m, rfl⟩ := Nat.exists_eq_add_of_le' (Nat.lt_of_lt_of_le n.succ_pos more)
      exact fun ref link => ih (within ref link) (Nat.le_of_succ_le_succ more)

theorem Extends.equivalentWithin_eq {old new : Heap} (grown : old.Extends new)
    (closed : old.Closed) (native : ∀ ref < old.size, new.isNative ref = old.isNative ref)
    {n m : Nat} {a b : Ref} (left : a < old.size) (right : b < old.size)
    (within : old.Within n (old.get a)) (within' : old.Within m (old.get a)) :
    new.equivalentWithin m a b = old.equivalentWithin n a b := by
  induction n generalizing m a b with
  | zero => exact absurd within id
  | succ n ih =>
      cases m with
      | zero => exact absurd within' id
      | succ m =>
          have below : ∀ s ∈ (old.get a).links, ∀ t ∈ (old.get b).links,
              new.equivalentWithin m s t = old.equivalentWithin n s t := fun s first t second =>
            ih (closed a s first) (closed b t second) (within s first) (within' s first)
          rw [Bool.eq_iff_iff, equivalentWithin_succ, equivalentWithin_succ, native a left,
            native b right, grown.get a left, grown.get b right]
          refine or_congr_right (and_congr_right fun _ => ⟨fun alike => ?_, fun alike => ?_⟩)
          · exact alike.imp fun s first t second same => (below s first t second).symm.trans same
          · exact alike.imp fun s first t second same => (below s first t second).trans same

section Laws

variable {heap : Heap} (closed : heap.Closed) (acyclic : heap.Acyclic)
include closed acyclic

theorem equivalentWithin_of_depth_le {n : Nat} (enough : heap.depth ≤ n) {a b : Ref}
    (left : a < heap.size) (right : b < heap.size) :
    heap.equivalentWithin n a b = heap.equivalent a b := by
  have within := within_depth closed acyclic (closed.fits a)
  exact (Extends.refl heap).equivalentWithin_eq closed (fun _ _ => rfl) left right within
    (within.mono enough)

theorem equivalent_iff {a b : Ref} (left : a < heap.size) (right : b < heap.size) :
    heap.equivalent a b = true ↔ heap.isNative a = heap.isNative b ∧
      (heap.get a).Alike (fun s t => heap.equivalent s t = true) (heap.get b) := by
  rw [← equivalentWithin_of_depth_le closed acyclic (Nat.le_succ _) left right,
    equivalentWithin_succ]
  refine or_iff_right_of_imp fun same => ?_
  subst same
  exact ⟨rfl, .refl (equivalentWithin_self heap heap.depth) _⟩

theorem plainlyEquivalent_eq {a b : Ref} (left : a < heap.size) (right : b < heap.size) :
    heap.plainlyEquivalent a b = heap.comparePlainly heap.plainlyEquivalent a b := by
  -- `equivalent_iff` is this law for the comparison with the short cut
  have same : heap.plainlyEquivalent = heap.equivalent := by
    funext s t
    exact (equivalentWithin_eq_plainly heap heap.depth s t).symm
  rw [same, Bool.eq_iff_iff, equivalent_iff closed acyclic left right, comparePlainly_iff]

theorem Extends.equivalent_eq {new : Heap} (grown : heap.Extends new) (closed' : new.Closed)
    (acyclic' : new.Acyclic) {a b : Ref} (left : a < heap.size) (right : b < heap.size) :
    new.equivalent a b = heap.equivalent a b := by
  have within := within_depth closed acyclic (closed.fits a)
  exact grown.equivalentWithin_eq closed
    (fun _ inside => grown.isNative_eq closed acyclic closed' acyclic' inside) left right within
    (within.mono (Nat.succ_le_succ grown.size))

/-! ## Equal descriptors are equivalent -/

omit closed acyclic in
theorem foreign_of_equalWithin {n : Nat} {a b : Ref} (within : heap.Within n (heap.get a))
    (same : heap.equalWithin n a b = true) (foreign : heap.Foreign (heap.get a)) :
    heap.Foreign (heap.get b) := by
  induction n generalizing a b with
  | zero => exact absurd within id
  | succ n ih =>
      have parts := (equalWithin_succ ..).1 same
      cases foreign with
      | ordered plain foreign =>
          exact .ordered (optionRel_of_eq_none parts.layout plain) (parts.order ▸ foreign)
      | @through _ ref link foreign =>
          have below := within ref (Descriptor.links_of_primaryLinks link)
          obtain ⟨target, link', same⟩ := parts.primaryLink link
          exact .through link' (ih below same foreign)

theorem isNative_of_equalWithin {n : Nat} {a b : Ref} (within : heap.Within n (heap.get a))
    (within' : heap.Within n (heap.get b)) (same : heap.equalWithin n a b = true) :
    heap.isNative a = heap.isNative b :=
  isNative_eq_of_foreign_iff closed acyclic closed acyclic
    ⟨foreign_of_equalWithin within same,
      foreign_of_equalWithin within' (equalWithin_symm same)⟩

theorem equivalentWithin_of_equalWithin {n : Nat} {a b : Ref}
    (within : heap.Within n (heap.get a)) (within' : heap.Within n (heap.get b))
    (same : heap.equalWithin n a b = true) : heap.equivalentWithin n a b = true := by
  induction n generalizing a b with
  | zero => rfl
  | succ n ih =>
      have parts := (equalWithin_succ ..).1 same
      refine (equivalentWithin_succ ..).2 (.inr ⟨?_, ?_⟩)
      · exact isNative_of_equalWithin closed acyclic within within' same
      · exact parts.alike.imp fun s left t right => ih (within s left) (within' t right)

theorem equivalent_of_equal {a b : Ref} (same : heap.equal a b = true) :
    heap.equivalent a b = true :=
  equivalentWithin_of_equalWithin closed acyclic
    (within_depth closed acyclic (closed.fits a)) (within_depth closed acyclic (closed.fits b)) same

end Laws

end Heap

end ElementTypes
