import ElementTypes.Proofs.Heap.Objects

/-! # Searching over and over -/

namespace ElementTypes.Heap

def scanAll (heap : Heap) : List Ref → List Bool × Heap
  | [] => ([], heap)
  | ref :: refs =>
    let (found, next) := heap.findObjects (heap.get ref)
    let (answers, last) := next.scanAll refs
    (found :: answers, last)

/-- What a search leaves behind: the descriptor bears no objects, marks them itself, or finds its
first bearing link flagged already. -/
inductive Remembers (heap : Heap) (d : Descriptor) : Prop
  | clean (clean : ¬ heap.Bears d)
  | marked (marks : d.marksObjects = true)
  | flagged {passed rest : List Ref} {ref : Ref} (unmarked : d.marksObjects = false)
      (links : d.primaryLinks = passed ++ ref :: rest)
      (clean : ∀ other ∈ passed, ¬ heap.Bears (heap.get other))
      (raised : (heap.get ref).raised = heap.get ref)

theorem remembers_of_flagged {old new : Heap} (flagged : old.Flagged new) {d : Descriptor}
    (remembers : old.Remembers d) : new.Remembers d := by
  cases remembers with
  | clean clean => exact .clean fun bears => clean (flagged.bears_iff.1 bears)
  | marked marks => exact .marked marks
  | @flagged passed rest ref unmarked links clean raised =>
      refine .flagged unmarked links (fun other member bears => ?_) ?_
      · exact clean other member ((flagged.bears_get_iff other).1 bears)
      · rcases flagged.kept ref with same | ⟨-, again⟩
        · rw [same, raised]
        · rw [again, Descriptor.raised_raised]

theorem remembers_get_of_flagged {old new : Heap} (flagged : old.Flagged new) {ref : Ref}
    (remembers : old.Remembers (old.get ref)) : new.Remembers (new.get ref) := by
  rcases flagged.kept ref with same | ⟨-, raised⟩
  · rw [same]
    exact remembers_of_flagged flagged remembers
  · rw [raised]
    exact .marked (Descriptor.marksObjects_raised _)

section Search

variable {heap : Heap} (closed : heap.Closed) (acyclic : heap.Acyclic)
include closed acyclic

theorem remembers_findObjects {d : Descriptor} (fits : d.Fits heap) :
    (heap.findObjects d).2.Remembers d := by
  by_cases bears : heap.Bears d
  · obtain ⟨refs, trail⟩ := exists_trail closed acyclic fits bears
    have flagged := flagged_findObjects closed acyclic fits
    have inside := trail.lt_size closed fits
    rw [findObjects_of_trail closed acyclic fits trail] at flagged ⊢
    cases trail with
    | arrived marks => exact .marked marks
    | @onward _ passed rest ref refs unmarked links clean later =>
        refine .flagged unmarked links (fun other member bears => ?_) ?_
        · exact clean other member ((flagged.bears_get_iff other).1 bears)
        · rw [get_flagAll heap _ inside, if_pos (List.mem_cons_self ..), Descriptor.raised_raised]
  · rw [findObjects_of_not_bears closed acyclic fits bears]
    exact .clean bears

theorem findObjects_of_remembers {d : Descriptor} (fits : d.Fits heap)
    (remembers : heap.Remembers d) : (heap.findObjects d).2 = heap := by
  cases remembers with
  | clean clean => rw [findObjects_of_not_bears closed acyclic fits clean]
  | marked marks =>
      rw [findObjects_of_trail closed acyclic fits (.arrived marks)]
      rfl
  | @flagged passed rest ref unmarked links clean raised =>
      have marks : (heap.get ref).marksObjects = true := by
        rw [← raised]
        exact Descriptor.marksObjects_raised _
      have trail : heap.Trail d [ref] := .onward unmarked links clean (.arrived marks)
      rw [findObjects_of_trail closed acyclic fits trail]
      refine ext_get (size_flagAll heap _) fun cell => ?_
      rw [get_flagAll heap _ (trail.lt_size closed fits)]
      by_cases here : cell ∈ [ref]
      · rw [if_pos here, List.mem_singleton.1 here, raised]
      · rw [if_neg here]

theorem findObjects_of_flagged {new : Heap} (flagged : heap.Flagged new) (ref : Ref) :
    (new.findObjects (new.get ref)).1 = (heap.findObjects (heap.get ref)).1 := by
  have later := findObjects_true_iff (flagged.closed closed) (flagged.acyclic acyclic)
    ((flagged.closed closed).fits ref)
  have before := findObjects_true_iff closed acyclic (closed.fits ref)
  rw [Bool.eq_iff_iff, later, before, flagged.bears_get_iff]

theorem flagged_scanAll (refs : List Ref) : heap.Flagged (heap.scanAll refs).2 := by
  induction refs generalizing heap with
  | nil => exact .refl heap
  | cons ref refs ih =>
      have first := flagged_findObjects closed acyclic (closed.fits ref)
      exact first.trans (ih (first.closed closed) (first.acyclic acyclic))

theorem scanAll_answers (refs : List Ref) :
    (heap.scanAll refs).1 = refs.map fun ref => (heap.findObjects (heap.get ref)).1 := by
  suffices same : ∀ now : Heap, heap.Flagged now →
      (now.scanAll refs).1 = refs.map fun ref => (heap.findObjects (heap.get ref)).1 from
    same heap (.refl heap)
  induction refs with
  | nil => exact fun _ _ => rfl
  | cons ref refs ih =>
      intro now flagged
      have next := flagged_findObjects (flagged.closed closed) (flagged.acyclic acyclic)
        ((flagged.closed closed).fits ref)
      rw [List.map_cons, ← findObjects_of_flagged closed acyclic flagged ref,
        ← ih _ (flagged.trans next)]
      rfl

theorem remembers_scanAll {refs : List Ref} {ref : Ref} (member : ref ∈ refs) :
    (heap.scanAll refs).2.Remembers ((heap.scanAll refs).2.get ref) := by
  induction refs generalizing heap with
  | nil => cases member
  | cons other refs ih =>
      have first := flagged_findObjects closed acyclic (closed.fits other)
      have closed' := first.closed closed
      have acyclic' := first.acyclic acyclic
      rcases List.mem_cons.1 member with rfl | rest
      · have here : (heap.findObjects (heap.get ref)).2.Remembers
            ((heap.findObjects (heap.get ref)).2.get ref) := by
          rcases first.kept ref with same | ⟨-, raised⟩
          · rw [same]
            exact remembers_findObjects closed acyclic (closed.fits ref)
          · rw [raised]
            exact .marked (Descriptor.marksObjects_raised _)
        exact remembers_get_of_flagged (flagged_scanAll closed' acyclic' refs) here
      · exact ih closed' acyclic' rest

theorem scanAll_again {refs : List Ref} {ref : Ref} (member : ref ∈ refs) :
    (heap.scanAll refs).2.findObjects ((heap.scanAll refs).2.get ref) =
      ((heap.findObjects (heap.get ref)).1, (heap.scanAll refs).2) := by
  have flagged := flagged_scanAll closed acyclic refs
  have closed' := flagged.closed closed
  refine Prod.ext (findObjects_of_flagged closed acyclic flagged ref) ?_
  exact findObjects_of_remembers closed' (flagged.acyclic acyclic) (closed'.fits ref)
    (remembers_scanAll closed acyclic member)

end Search

/-- Searches are pure but for flags: none turns the answer of another, and none that has been made
flags anything again. -/
structure ScansPurely (heap : Heap) : Prop where
  answer : ∀ d : Descriptor, d.Fits heap → ((heap.findObjects d).1 = true ↔ heap.Bears d)
  clean : ∀ d : Descriptor, d.Fits heap → (heap.findObjects d).1 = false →
    (heap.findObjects d).2 = heap
  trail : ∀ d : Descriptor, d.Fits heap → (heap.findObjects d).1 = true →
    ∃ refs, heap.Trail d refs ∧ (∀ ref ∈ refs, heap.Bears (heap.get ref)) ∧
      (heap.findObjects d).2.size = heap.size ∧ ∀ cell, (heap.findObjects d).2.get cell =
        if cell ∈ refs then (heap.get cell).raised else heap.get cell
  sequence : ∀ refs, (heap.scanAll refs).1 =
    refs.map fun ref => (heap.findObjects (heap.get ref)).1
  again : ∀ refs, ∀ ref ∈ refs,
    (heap.scanAll refs).2.findObjects ((heap.scanAll refs).2.get ref) =
      ((heap.findObjects (heap.get ref)).1, (heap.scanAll refs).2)

theorem scansPurely {heap : Heap} (closed : heap.Closed) (acyclic : heap.Acyclic) :
    heap.ScansPurely where
  answer d fits := findObjects_true_iff closed acyclic fits
  clean d fits missed := by
    have clean : ¬ heap.Bears d := fun bears => by
      simp [(findObjects_true_iff closed acyclic fits).2 bears] at missed
    rw [findObjects_of_not_bears closed acyclic fits clean]
  trail d fits found := by
    have bears := (findObjects_true_iff closed acyclic fits).1 found
    obtain ⟨refs, trail⟩ := exists_trail closed acyclic fits bears
    rw [findObjects_of_trail closed acyclic fits trail]
    exact ⟨refs, trail, trail.bears, size_flagAll heap refs,
      get_flagAll heap refs (trail.lt_size closed fits)⟩
  sequence refs := scanAll_answers closed acyclic refs
  again _ _ member := scanAll_again closed acyclic member

end ElementTypes.Heap
