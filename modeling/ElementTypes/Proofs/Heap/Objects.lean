import ElementTypes.Heap.Objects
import ElementTypes.Proofs.Heap.Reach

/-! # Which descriptors hold objects -/

namespace ElementTypes

theorem Flags.holdsObjects_union_object (flags : Flags) :
    (flags.union .object).holdsObjects = true := by
  have counted : Flags.counted.bits &&& Flags.object.bits = Flags.counted.bits := by decide
  have kept : (flags.bits ||| Flags.object.bits) &&& Flags.counted.bits = Flags.counted.bits := by
    apply UInt32.toNat_inj.1
    apply Nat.eq_of_testBit_eq
    intro i
    have bit := congrArg (fun bits : UInt32 => bits.toNat.testBit i) counted
    simp only [UInt32.toNat_or, UInt32.toNat_and, Nat.testBit_or, Nat.testBit_and] at bit ⊢
    rw [Bool.and_or_distrib_right, Bool.and_comm (Flags.object.bits.toNat.testBit i), bit]
    cases flags.bits.toNat.testBit i <;> simp
  simp only [Flags.holdsObjects, Flags.contains, Flags.union, kept, decide_true]

theorem Flags.union_object_idem (flags : Flags) :
    (flags.union .object).union .object = flags.union .object := by
  simp only [Flags.union, UInt32.or_assoc, UInt32.or_self]

namespace Descriptor

def raised (d : Descriptor) : Descriptor := { d with flags := d.flags.union .object }

theorem marksObjects_raised (d : Descriptor) : d.raised.marksObjects = true := by
  simp [marksObjects, raised, Flags.holdsObjects_union_object]

theorem raised_raised (d : Descriptor) : d.raised.raised = d.raised := by
  simp only [raised, Flags.union_object_idem]

end Descriptor

namespace Heap

/-- The descriptor, or one below it other than through aliases, marks objects. -/
inductive Bears (heap : Heap) : Descriptor → Prop
  | marked {d : Descriptor} (marks : d.marksObjects = true) : Bears heap d
  | through {d : Descriptor} {ref : Ref} (link : ref ∈ d.primaryLinks)
      (bears : Bears heap (heap.get ref)) : Bears heap d

/-- The way from a descriptor through the first bearing link of each, down to the first mark. -/
inductive Trail (heap : Heap) : Descriptor → List Ref → Prop
  | arrived {d : Descriptor} (marks : d.marksObjects = true) : Trail heap d []
  | onward {d : Descriptor} {passed rest : List Ref} {ref : Ref} {refs : List Ref}
      (unmarked : d.marksObjects = false) (links : d.primaryLinks = passed ++ ref :: rest)
      (clean : ∀ other ∈ passed, ¬ heap.Bears (heap.get other))
      (later : Trail heap (heap.get ref) refs) : Trail heap d (ref :: refs)

theorem Bears.of_trail {heap : Heap} {d : Descriptor} {refs : List Ref} (h : heap.Trail d refs) :
    heap.Bears d := by
  induction h with
  | arrived marks => exact .marked marks
  | onward _ links _ _ ih => exact .through (by simp [links]) ih

theorem Trail.bears {heap : Heap} {d : Descriptor} {refs : List Ref} (h : heap.Trail d refs) :
    ∀ ref ∈ refs, heap.Bears (heap.get ref) := by
  induction h with
  | arrived => intro ref member; cases member
  | onward _ _ _ later ih =>
      intro ref member
      rcases List.mem_cons.1 member with rfl | member
      · exact .of_trail later
      · exact ih ref member

theorem Trail.lt_size {heap : Heap} (closed : heap.Closed) {d : Descriptor} {refs : List Ref}
    (h : heap.Trail d refs) (fits : d.Fits heap) : ∀ ref ∈ refs, ref < heap.size := by
  induction h with
  | arrived => intro ref member; cases member
  | @onward d passed rest next refs _ links _ _ ih =>
      have link : next ∈ d.primaryLinks := by simp [links]
      intro ref member
      rcases List.mem_cons.1 member with rfl | member
      · exact fits ref (Descriptor.links_of_primaryLinks link)
      · exact ih (closed.fits next) ref member

theorem first_bearing_unique {heap : Heap} {before before' after after' : List Ref} {a b : Ref}
    (same : before ++ a :: after = before' ++ b :: after')
    (clean : ∀ other ∈ before, ¬ heap.Bears (heap.get other))
    (clean' : ∀ other ∈ before', ¬ heap.Bears (heap.get other))
    (bears : heap.Bears (heap.get a)) (bears' : heap.Bears (heap.get b)) : a = b := by
  induction before generalizing before' with
  | nil =>
      cases before' with
      | nil => exact (List.cons.inj same).1
      | cons c before' =>
          obtain ⟨rfl, -⟩ := List.cons.inj same
          exact absurd bears (clean' a (by simp))
  | cons c before ih =>
      cases before' with
      | nil =>
          obtain ⟨rfl, -⟩ := List.cons.inj same
          exact absurd bears' (clean c (by simp))
      | cons c' before' =>
          exact ih (List.cons.inj same).2 (fun other member => clean other (by simp [member]))
            fun other member => clean' other (by simp [member])

theorem Trail.unique {heap : Heap} {d : Descriptor} {refs refs' : List Ref}
    (h : heap.Trail d refs) (h' : heap.Trail d refs') : refs = refs' := by
  induction h generalizing refs' with
  | arrived marks =>
      cases h' with
      | arrived => rfl
      | onward unmarked => simp [marks] at unmarked
  | onward unmarked links clean later ih =>
      cases h' with
      | arrived marks => simp [marks] at unmarked
      | onward _ links' clean' later' =>
          obtain rfl := first_bearing_unique (links.symm.trans links') clean clean'
            (.of_trail later) (.of_trail later')
          rw [ih later']

theorem Extends.bears_iff {old new : Heap} (grown : old.Extends new) (closed : old.Closed)
    {d : Descriptor} (fits : d.Fits old) : new.Bears d ↔ old.Bears d := by
  constructor
  · intro bears
    induction bears with
    | marked marks => exact .marked marks
    | @through d ref link _ ih =>
        rw [grown.get ref (fits ref (Descriptor.links_of_primaryLinks link))] at ih
        exact .through link (ih (closed.fits ref))
  · intro bears
    induction bears with
    | marked marks => exact .marked marks
    | @through d ref link _ ih =>
        refine .through link ?_
        rw [grown.get ref (fits ref (Descriptor.links_of_primaryLinks link))]
        exact ih (closed.fits ref)

def trailWithin (heap : Heap) : Nat → Descriptor → Option (List Ref)
  | 0, _ => none
  | steps + 1, d =>
    if d.marksObjects then some []
    else d.primaryLinks.findSome? fun ref =>
      (heap.trailWithin steps (heap.get ref)).map (ref :: ·)

def trail? (heap : Heap) (d : Descriptor) : Option (List Ref) := heap.trailWithin heap.depth d

def flagAll (heap : Heap) (refs : List Ref) : Heap := refs.foldr (fun ref heap => heap.flag ref) heap

def searched (heap : Heap) : Option (List Ref) → Bool × Heap
  | none => (false, heap)
  | some refs => (true, heap.flagAll refs)

def findStep (below : Descriptor → StateM Heap Bool) (d : Descriptor) : StateM Heap Bool :=
  if d.marksObjects then return true else d.primaryLinks.anyM (visit below)

theorem run_visit {below : Descriptor → StateM Heap Bool} {heap after : Heap} {ref : Ref}
    {found : Bool} (ran : (below (heap.get ref)).run heap = (found, after)) :
    (visit below ref).run heap = (found, if found then after.flag ref else after) := by
  unfold visit
  rw [StateT.run_bind]
  change (StateT.run (below (heap.get ref) >>= _) heap) = _
  rw [StateT.run_bind, ran]
  cases found <;> rfl

theorem findStep_run {heap : Heap} {n : Nat} {below : Descriptor → StateM Heap Bool}
    {d : Descriptor} (same : ∀ ref ∈ d.primaryLinks,
      (below (heap.get ref)).run heap = heap.searched (heap.trailWithin n (heap.get ref))) :
    (findStep below d).run heap = heap.searched (heap.trailWithin (n + 1) d) := by
  unfold findStep trailWithin
  split
  · rfl
  · generalize d.primaryLinks = links at same
    induction links with
    | nil => rfl
    | cons ref links ih =>
        obtain ⟨here, later⟩ := List.forall_mem_cons.1 same
        rw [List.anyM_cons, List.findSome?_cons, StateT.run_bind, run_visit here]
        cases trail : heap.trailWithin n (heap.get ref) with
        | none => exact ih later
        | some refs => rfl

theorem findWithin_run (heap : Heap) (n : Nat) (d : Descriptor) :
    (findWithin n d).run heap = heap.searched (heap.trailWithin n d) := by
  induction n generalizing d with
  | zero => rfl
  | succ n ih => exact findStep_run fun ref _ => ih (heap.get ref)

theorem findObjects_eq (heap : Heap) (d : Descriptor) :
    heap.findObjects d = heap.searched (heap.trail? d) := findWithin_run heap heap.depth d

theorem trailWithin_spec {heap : Heap} {n : Nat} {d : Descriptor} (within : heap.Within n d) :
    (∀ refs, heap.trailWithin n d = some refs → heap.Trail d refs) ∧
      (heap.trailWithin n d = none → ¬ heap.Bears d) := by
  induction n generalizing d with
  | zero => exact absurd within id
  | succ n ih =>
      have below : ∀ ref ∈ d.primaryLinks, heap.Within n (heap.get ref) := fun ref member =>
        within ref (Descriptor.links_of_primaryLinks member)
      by_cases marks : d.marksObjects = true
      · simp only [trailWithin, marks, if_true, Option.some.injEq, reduceCtorEq, false_implies,
          and_true]
        rintro refs rfl
        exact .arrived marks
      · simp only [trailWithin, marks, Bool.false_eq_true, if_false]
        constructor
        · intro refs found
          obtain ⟨before, ref, after, links, here, missed⟩ := List.findSome?_eq_some_iff.1 found
          obtain ⟨later, trail, rfl⟩ := Option.map_eq_some_iff.1 here
          have later := (ih (below ref (by simp [links]))).1 _ trail
          refine .onward (by simpa using marks) links ?_ later
          intro other member
          exact (ih (below other (by simp [links, member]))).2 (by simpa using missed other member)
        · intro missed bears
          cases bears with
          | marked marks' => exact marks marks'
          | through link bears =>
              have none := List.findSome?_eq_none_iff.1 missed _ link
              exact (ih (below _ link)).2 (by simpa using none) bears

section Search

variable {heap : Heap} (closed : heap.Closed) (acyclic : heap.Acyclic)
include closed acyclic

theorem trail?_eq_none_iff {d : Descriptor} (fits : d.Fits heap) :
    heap.trail? d = none ↔ ¬ heap.Bears d := by
  have spec := trailWithin_spec (within_depth closed acyclic fits)
  constructor
  · exact spec.2
  · intro clean
    cases found : heap.trail? d with
    | none => rfl
    | some refs => exact absurd (.of_trail (spec.1 refs found)) clean

theorem trail?_eq_some_iff {d : Descriptor} (fits : d.Fits heap) {refs : List Ref} :
    heap.trail? d = some refs ↔ heap.Trail d refs := by
  have spec := trailWithin_spec (within_depth closed acyclic fits)
  constructor
  · exact spec.1 refs
  · intro trail
    cases found : heap.trail? d with
    | none => exact absurd (.of_trail trail) (spec.2 found)
    | some found' => rw [trail.unique (spec.1 found' found)]

theorem exists_trail {d : Descriptor} (fits : d.Fits heap) (bears : heap.Bears d) :
    ∃ refs, heap.Trail d refs := by
  cases found : heap.trail? d with
  | none => exact absurd bears ((trail?_eq_none_iff closed acyclic fits).1 found)
  | some refs => exact ⟨refs, (trail?_eq_some_iff closed acyclic fits).1 found⟩

theorem findObjects_of_not_bears {d : Descriptor} (fits : d.Fits heap) (clean : ¬ heap.Bears d) :
    heap.findObjects d = (false, heap) := by
  rw [findObjects_eq, (trail?_eq_none_iff closed acyclic fits).2 clean, searched]

theorem findObjects_of_trail {d : Descriptor} (fits : d.Fits heap) {refs : List Ref}
    (trail : heap.Trail d refs) : heap.findObjects d = (true, heap.flagAll refs) := by
  rw [findObjects_eq, (trail?_eq_some_iff closed acyclic fits).2 trail, searched]

theorem findObjects_true_iff {d : Descriptor} (fits : d.Fits heap) :
    (heap.findObjects d).1 = true ↔ heap.Bears d := by
  constructor
  · intro found
    by_contra clean
    rw [findObjects_of_not_bears closed acyclic fits clean] at found
    cases found
  · intro bears
    obtain ⟨refs, trail⟩ := exists_trail closed acyclic fits bears
    rw [findObjects_of_trail closed acyclic fits trail]

end Search

theorem size_flagAll (heap : Heap) (refs : List Ref) : (heap.flagAll refs).size = heap.size := by
  induction refs with
  | nil => rfl
  | cons ref refs ih => rw [flagAll, List.foldr_cons, ← flagAll, flag, size_set, ih]

theorem get_flag (heap : Heap) {ref : Ref} (inside : ref < heap.size) (cell : Ref) :
    (heap.flag ref).get cell = if cell = ref then (heap.get cell).raised else heap.get cell := by
  by_cases same : cell = ref
  · subst same
    rw [if_pos rfl, flag, get_set_self _ inside]
    rfl
  · rw [if_neg same, flag, get_set_of_ne _ _ same]

theorem get_flagAll (heap : Heap) (refs : List Ref) (inside : ∀ ref ∈ refs, ref < heap.size)
    (cell : Ref) : (heap.flagAll refs).get cell =
      if cell ∈ refs then (heap.get cell).raised else heap.get cell := by
  induction refs with
  | nil => rfl
  | cons ref refs ih =>
      obtain ⟨bound, others⟩ := List.forall_mem_cons.1 inside
      rw [flagAll, List.foldr_cons, ← flagAll, get_flag _ (size_flagAll heap refs ▸ bound),
        ih others]
      by_cases same : cell = ref
      · subst same
        rw [if_pos rfl, if_pos List.mem_cons_self]
        split
        · exact Descriptor.raised_raised _
        · rfl
      · simp [same]

/-- What becomes of a cell that nobody edits: at most the flags for objects are raised on it, and
only if it bears them. -/
def KeptAt (old new : Heap) (ref : Ref) : Prop :=
  new.get ref = old.get ref ∨ old.Bears (old.get ref) ∧ new.get ref = (old.get ref).raised

theorem KeptAt.exists_flags {old new : Heap} {ref : Ref} (kept : old.KeptAt new ref) :
    ∃ flags, new.get ref = { old.get ref with flags } := by
  rcases kept with same | ⟨-, raised⟩
  · exact ⟨_, same⟩
  · exact ⟨_, raised⟩

theorem KeptAt.code {old new : Heap} {ref : Ref} (kept : old.KeptAt new ref) :
    (new.get ref).code = (old.get ref).code := by
  obtain ⟨flags, same⟩ := kept.exists_flags
  rw [same]

theorem KeptAt.size {old new : Heap} {ref : Ref} (kept : old.KeptAt new ref) :
    (new.get ref).size = (old.get ref).size := by
  obtain ⟨flags, same⟩ := kept.exists_flags
  rw [same]

theorem KeptAt.interval {old new : Heap} {ref : Ref} (kept : old.KeptAt new ref) :
    (new.get ref).interval = (old.get ref).interval := by
  obtain ⟨flags, same⟩ := kept.exists_flags
  rw [same]

theorem KeptAt.layout {old new : Heap} {ref : Ref} (kept : old.KeptAt new ref) :
    (new.get ref).layout = (old.get ref).layout := by
  obtain ⟨flags, same⟩ := kept.exists_flags
  rw [same]

theorem KeptAt.subarray {old new : Heap} {ref : Ref} (kept : old.KeptAt new ref) :
    (new.get ref).subarray = (old.get ref).subarray := by
  obtain ⟨flags, same⟩ := kept.exists_flags
  rw [same]

theorem KeptAt.links {old new : Heap} {ref : Ref} (kept : old.KeptAt new ref) :
    (new.get ref).links = (old.get ref).links := by
  simp only [Descriptor.links, Descriptor.entries, Descriptor.bases, kept.layout, kept.subarray]

/-- A part of a heap that leads nowhere else, and of which every cell is kept. -/
structure PartKept (part : Ref → Prop) (old new : Heap) : Prop where
  down : ∀ a b, part a → old.Points a b → part b
  cells : ∀ ref, part ref → old.KeptAt new ref

namespace PartKept

variable {part : Ref → Prop} {a b c : Heap} (kept : PartKept part a b)
include kept

theorem inside {ref : Ref} (here : part ref) : ∀ target ∈ (b.get ref).links, part target := by
  intro target link
  rw [(kept.cells ref here).links] at link
  exact kept.down ref target here link

theorem bears_of {d : Descriptor} (bears : b.Bears d) (within : ∀ ref ∈ d.links, part ref) :
    a.Bears d := by
  induction bears with
  | marked marks => exact .marked marks
  | @through d ref link _ ih =>
      have here := within ref (Descriptor.links_of_primaryLinks link)
      rcases kept.cells ref here with same | ⟨bore, -⟩
      · exact .through link (same ▸ ih (kept.inside here))
      · exact .through link bore

theorem trans {ref : Ref} (here : part ref) (next : b.KeptAt c ref) : a.KeptAt c ref := by
  rcases next with same | ⟨bears, raised⟩
  · rw [KeptAt, same]
    exact kept.cells ref here
  · have bore := kept.bears_of bears (kept.inside here)
    rcases kept.cells ref here with same | ⟨bore', raised'⟩
    · exact .inr ⟨same ▸ bore, by rw [raised, same]⟩
    · exact .inr ⟨bore', by rw [raised, raised', Descriptor.raised_raised]⟩

theorem reaches {root ref : Ref} (here : part root) (path : a.Reaches root ref) :
    b.Reaches root ref ∧ part ref := by
  induction path with
  | refl => exact ⟨.refl, here⟩
  | @tail x y _ points ih =>
      refine ⟨ih.1.tail ?_, kept.down x y ih.2 points⟩
      rw [Points, (kept.cells x ih.2).links]
      exact points

end PartKept

def TreeKept (old new : Heap) (root : Ref) : Prop :=
  ∀ ref, old.Reaches root ref → old.KeptAt new ref

theorem TreeKept.refl (heap : Heap) (root : Ref) : heap.TreeKept heap root := fun _ _ => .inl rfl

theorem TreeKept.trans {a b c : Heap} {root : Ref} (first : a.TreeKept b root)
    (second : b.TreeKept c root) : a.TreeKept c root := by
  have kept : PartKept (a.Reaches root) a b := ⟨fun _ _ path points => path.tail points, first⟩
  intro ref path
  exact kept.trans path (second ref (kept.reaches .refl path).1)

/-- Nothing has happened to a heap but the flagging of cells that bear objects. -/
structure Flagged (old new : Heap) : Prop where
  size : new.size = old.size
  kept : ∀ ref, old.KeptAt new ref

namespace Flagged

theorem refl (heap : Heap) : heap.Flagged heap := ⟨rfl, fun _ => .inl rfl⟩

variable {old new : Heap} (flagged : old.Flagged new)
include flagged

theorem all : PartKept (fun _ => True) old new :=
  ⟨fun _ _ _ _ => trivial, fun ref _ => flagged.kept ref⟩

theorem points : new.Points = old.Points := points_eq fun ref => (flagged.kept ref).links

theorem closed (closed : old.Closed) : new.Closed := by
  intro a b points
  rw [flagged.points] at points
  rw [flagged.size]
  exact closed a b points

theorem acyclic (acyclic : old.Acyclic) : new.Acyclic := by
  rw [Acyclic, flagged.points]
  exact acyclic

theorem fits {d : Descriptor} (fits : d.Fits old) : d.Fits new := by
  intro ref member
  rw [flagged.size]
  exact fits ref member

theorem bears_iff {d : Descriptor} : new.Bears d ↔ old.Bears d := by
  -- a raised flag says at once what a search below it would have found
  constructor
  · exact fun bears => flagged.all.bears_of bears fun _ _ => trivial
  · intro bears
    induction bears with
    | marked marks => exact .marked marks
    | @through d ref link bears ih =>
        rcases flagged.kept ref with same | ⟨-, raised⟩
        · exact .through link (same ▸ ih)
        · exact .through link (raised ▸ .marked (Descriptor.marksObjects_raised _))

theorem bears_get_iff (ref : Ref) : new.Bears (new.get ref) ↔ old.Bears (old.get ref) := by
  rcases flagged.kept ref with same | ⟨bore, raised⟩
  · rw [same]
    exact flagged.bears_iff
  · rw [raised]
    exact ⟨fun _ => bore, fun _ => .marked (Descriptor.marksObjects_raised _)⟩

theorem trans {last : Heap} (next : new.Flagged last) : old.Flagged last where
  size := next.size.trans flagged.size
  kept ref := flagged.all.trans trivial (next.kept ref)

end Flagged

theorem flagged_flagAll {heap : Heap} {refs : List Ref} (inside : ∀ ref ∈ refs, ref < heap.size)
    (bears : ∀ ref ∈ refs, heap.Bears (heap.get ref)) : heap.Flagged (heap.flagAll refs) where
  size := size_flagAll heap refs
  kept ref := by
    by_cases member : ref ∈ refs
    · exact .inr ⟨bears ref member, by rw [get_flagAll heap refs inside, if_pos member]⟩
    · exact .inl (by rw [get_flagAll heap refs inside, if_neg member])

theorem flagged_findObjects {heap : Heap} (closed : heap.Closed) (acyclic : heap.Acyclic)
    {d : Descriptor} (fits : d.Fits heap) : heap.Flagged (heap.findObjects d).2 := by
  by_cases bears : heap.Bears d
  · obtain ⟨refs, trail⟩ := exists_trail closed acyclic fits bears
    rw [findObjects_of_trail closed acyclic fits trail]
    exact flagged_flagAll (trail.lt_size closed fits) trail.bears
  · rw [findObjects_of_not_bears closed acyclic fits bears]
    exact .refl heap

end Heap

end ElementTypes
