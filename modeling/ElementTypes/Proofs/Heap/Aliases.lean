import ElementTypes.Proofs.Heap.Below
import ElementTypes.Proofs.Heap.Equivalence

/-! # Aliases are passed over

Two descriptors are the same but for their aliases when the same paths lead down from both, to
descriptors that differ in nothing but the cells they refer to. A cell that two paths lead to is
flagged on both of them, so that flags can differ where cells are not shared alike.
-/

namespace ElementTypes

/-! ## One descriptor -/

structure Layout.Retargeted (old new : Layout) : Prop where
  names : new.names = old.names
  entries : List.Forall₂ (fun e f : Entry => f.key = e.key ∧ f.offset = e.offset ∧
    f.title = e.title) old.table.entries new.table.entries

namespace Layout.Retargeted

variable {old new : Layout} (same : old.Retargeted new)
include same

theorem find? (key : String) :
    Option.Rel (fun e f : Entry => f.key = e.key ∧ f.offset = e.offset ∧ f.title = e.title)
      (old.table.find? key) (new.table.find? key) :=
  optionRel_find? same.entries fun e f alike => by rw [alike.1]

theorem primary :
    List.Forall₂ (fun e f : Entry => f.key = e.key ∧ f.offset = e.offset ∧ f.title = e.title)
      old.table.primary new.table.primary := by
  refine List.rel_filter ?_ same.entries
  intro e f alike
  simp only [Entry.isAlias_eq alike.1 alike.2.2]

theorem symm : new.Retargeted old where
  names := same.names.symm
  entries := same.entries.flip.imp fun _ _ alike =>
    ⟨alike.1.symm, alike.2.1.symm, alike.2.2.symm⟩

end Layout.Retargeted

structure Descriptor.Retargeted (old new : Descriptor) : Prop where
  rest : new = { old with layout := new.layout, subarray := new.subarray }
  layout : Option.Rel Layout.Retargeted old.layout new.layout
  shape : Option.Rel (fun a b : Subarray => b.shape = a.shape) old.subarray new.subarray

namespace Descriptor

def NamesFields (d : Descriptor) : Prop :=
  ∀ layout, d.layout = some layout → ∀ name ∈ layout.names, ∀ entry,
    layout.table.find? name = some entry → entry.isAlias = false

theorem find?_of_layout {d : Descriptor} {layout : Layout} {key : String} {entry : Entry}
    (record : d.layout = some layout) (found : layout.table.find? key = some entry) :
    d.find? key = some entry := by
  rw [find?, record, Option.bind_some, found]

theorem turn?_of_primary {d : Descriptor} {layout : Layout} {entry : Entry}
    (record : d.layout = some layout) (member : entry ∈ layout.table.primary) :
    d.turn? (.field entry.key) = some entry.target := by
  obtain ⟨present, own⟩ := Table.mem_primary.1 member
  exact turn?_field (find?_of_layout record (Table.find?_of_mem present)) own

theorem turn?_rel {d d' : Descriptor} {R : Ref → Ref → Prop}
    (fields : Option.Rel (fun l m : Layout => List.Forall₂ (fun e f : Entry => f.key = e.key ∧
      f.title = e.title ∧ (e.isAlias = false → R e.target f.target)) l.table.entries
        m.table.entries) d.layout d'.layout)
    (bases : Option.Rel (fun s t : Subarray => R s.base t.base) d.subarray d'.subarray)
    (turn : Turn) : Option.Rel R (d.turn? turn) (d'.turn? turn) := by
  cases turn with
  | base =>
      simp only [turn?]
      generalize d.subarray = s at bases ⊢
      generalize d'.subarray = t at bases ⊢
      cases bases with
      | none => exact .none
      | some same => exact .some same
  | field key =>
      have found : Option.Rel (fun e f : Entry => f.key = e.key ∧ f.title = e.title ∧
          (e.isAlias = false → R e.target f.target)) (d.find? key) (d'.find? key) :=
        optionRel_bind fields fun _ _ _ _ paired =>
          optionRel_find? paired fun e f alike => by rw [alike.1]
      simp only [turn?]
      generalize d.find? key = e at found ⊢
      generalize d'.find? key = f at found ⊢
      cases found with
      | none => exact .none
      | @some e f alike =>
          rw [Option.filter_some, Option.filter_some, Entry.isAlias_eq alike.1 alike.2.1]
          cases own : e.isAlias with
          | true => exact .none
          | false => exact .some (alike.2.2 own)

theorem primaryLinks_paired {d d' : Descriptor}
    (layout : Option.Rel Layout.Retargeted d.layout d'.layout)
    (shape : Option.Rel (fun a b : Subarray => b.shape = a.shape) d.subarray d'.subarray) :
    List.Forall₂ (fun s t => ∃ turn, d.turn? turn = some s ∧ d'.turn? turn = some t)
      d.primaryLinks d'.primaryLinks := by
  refine List.rel_append ?_ ?_
  · unfold fieldTargets
    cases record : d.layout with
    | none =>
        rw [optionRel_of_eq_none layout record]
        exact .nil
    | some l =>
        obtain ⟨m, record', same⟩ := optionRel_of_eq_some layout record
        rw [record']
        simp only [List.forall₂_map_left_iff, List.forall₂_map_right_iff]
        refine (forall₂_with_mem same.primary).imp ?_
        rintro e f ⟨left, right, key, -⟩
        refine ⟨.field e.key, turn?_of_primary record left, ?_⟩
        rw [← key]
        exact turn?_of_primary record' right
  · unfold bases
    cases array : d.subarray with
    | none =>
        rw [optionRel_of_eq_none shape array]
        exact .nil
    | some s =>
        obtain ⟨t, array', -⟩ := optionRel_of_eq_some shape array
        rw [array']
        exact .cons ⟨.base, turn?_base array, turn?_base array'⟩ .nil

namespace Retargeted

theorem refl (d : Descriptor) : d.Retargeted d where
  rest := rfl
  layout := optionRel_refl (fun _ => ⟨rfl, List.forall₂_same.2 fun _ _ => ⟨rfl, rfl, rfl⟩⟩) _
  shape := optionRel_refl (R := fun a b : Subarray => b.shape = a.shape) (fun _ => rfl) _

variable {d d' : Descriptor} (same : d.Retargeted d')
include same

theorem symm : d'.Retargeted d where
  rest := by rw [same.rest]
  layout := optionRel_imp (optionRel_symm same.layout) fun _ _ holds => holds.symm
  shape := optionRel_imp (optionRel_symm same.shape) fun _ _ holds => holds.symm

theorem plain_iff : d'.layout = none ↔ d.layout = none := optionRel_eq_none_iff same.layout

theorem order : d'.order = d.order := by rw [same.rest]

theorem flags : d'.flags = d.flags := by rw [same.rest]

theorem marksObjects : d'.marksObjects = d.marksObjects := by
  rw [same.rest]
  rfl

theorem namesFields (named : d.NamesFields) : d'.NamesFields := by
  intro m record' name member f found'
  obtain ⟨l, record, renamed⟩ := optionRel_of_eq_some (optionRel_symm same.layout) record'
  obtain ⟨e, found, key, -, title⟩ :=
    optionRel_of_eq_some (optionRel_symm (renamed.find? name)) found'
  exact (Entry.isAlias_eq key title).trans
    (named l record name (renamed.names ▸ member) e found)

end Retargeted

end Descriptor

namespace Heap

theorem bears_iff_below? {heap : Heap} {d : Descriptor} : heap.Bears d ↔
    ∃ path x, heap.below? d path = some x ∧ x.marksObjects = true := by
  constructor
  · intro bears
    induction bears with
    | @marked d marks => exact ⟨[], d, rfl, marks⟩
    | through link _ ih => exact exists_below?_through link ih
  · rintro ⟨path, x, leads, marks⟩
    exact of_below? (fun _ _ link => .through link) leads (.marked marks)

def visits (heap : Heap) (ref : Ref) : List Turn → List Ref
  | [] => []
  | turn :: way =>
    match (heap.get ref).turn? turn with
    | none => []
    | some next => next :: heap.visits next way

theorem mem_visits {heap : Heap} {ref cell : Ref} {way : List Turn} :
    cell ∈ heap.visits ref way ↔
      ∃ path, path ≠ [] ∧ path <+: way ∧ heap.down? ref path = some cell := by
  induction way generalizing ref with
  | nil =>
      simp only [visits, List.not_mem_nil, List.prefix_nil, false_iff]
      rintro ⟨path, some, none, -⟩
      exact some none
  | cons turn way ih =>
      rw [visits]
      constructor
      · intro member
        split at member
        · cases member
        · rename_i next here
          rcases List.mem_cons.1 member with rfl | later
          · exact ⟨[turn], by simp, by simp, by simp [down?, here]⟩
          · obtain ⟨path, -, before, leads⟩ := ih.1 later
            refine ⟨turn :: path, by simp, List.cons_prefix_cons.2 ⟨rfl, before⟩, ?_⟩
            rw [down?, here]
            exact leads
      · rintro ⟨path, some, before, leads⟩
        cases path with
        | nil => exact absurd rfl some
        | cons first path =>
            obtain ⟨rfl, earlier⟩ := List.cons_prefix_cons.1 before
            obtain ⟨next, here, leads⟩ := Option.bind_eq_some_iff.1 leads
            rw [here]
            cases path with
            | nil => exact List.mem_cons.2 (.inl (Option.some.inj leads).symm)
            | cons second path =>
                exact List.mem_cons_of_mem _ (ih.2 ⟨_, by simp, earlier, leads⟩)

theorem visits_lt {heap : Heap} (closed : heap.Closed) (ref : Ref) (way : List Turn) :
    ∀ cell ∈ heap.visits ref way, cell < heap.size := by
  induction way generalizing ref with
  | nil => exact fun _ none => nomatch none
  | cons turn way ih =>
      intro cell member
      rw [visits] at member
      split at member
      · cases member
      · rename_i next here
        rcases List.mem_cons.1 member with rfl | later
        · exact closed ref cell (Descriptor.links_of_primaryLinks
            (Descriptor.mem_primaryLinks_iff_turn?.2 ⟨turn, here⟩))
        · exact ih next cell later

/-! ## Two descriptors -/

/-- Nothing but what aliases refer to differs below the two cells. -/
def SameButAliases (heap heap' : Heap) (a b : Ref) : Prop :=
  heap.Pairs heap' Descriptor.Retargeted (heap.get a) (heap'.get b)

/-- Two paths that lead to one cell from the first do so from the second, and the other way
round. -/
def SharesAlike (heap heap' : Heap) (a b : Ref) : Prop :=
  ∀ p q, heap.down? a p = heap.down? a q ↔ heap'.down? b p = heap'.down? b q

theorem SameButAliases.refl (heap : Heap) (a : Ref) : heap.SameButAliases heap a a :=
  fun _ => optionRel_refl Descriptor.Retargeted.refl _

namespace SameButAliases

variable {heap heap' : Heap} {a b : Ref} (same : heap.SameButAliases heap' a b)
include same

theorem pairs : heap.Pairs heap' Descriptor.Retargeted (heap.get a) (heap'.get b) := same

theorem symm : heap'.SameButAliases heap b a :=
  fun path => optionRel_imp (optionRel_symm (same path)) fun _ _ holds => holds.symm

theorem here : (heap.get a).Retargeted (heap'.get b) := same.pairs.here

theorem turn {turn : Turn} {s t : Ref} (left : (heap.get a).turn? turn = some s)
    (right : (heap'.get b).turn? turn = some t) : heap.SameButAliases heap' s t :=
  same.pairs.turn left right

theorem named (named : ∀ path x, heap.below? (heap.get a) path = some x → x.NamesFields) :
    ∀ path y, heap'.below? (heap'.get b) path = some y → y.NamesFields := by
  intro path y leads
  obtain ⟨x, before, alike⟩ := optionRel_of_eq_some (same.symm path) leads
  exact alike.symm.namesFields (named path x before)

theorem foreign (foreign : heap.Foreign (heap.get a)) : heap'.Foreign (heap'.get b) := by
  refine foreign_iff_below?.2 (same.pairs.exists_below? ?_ (foreign_iff_below?.1 foreign))
  intro x y alike own
  rw [alike.plain_iff, alike.order]
  exact own

theorem bears (bears : heap.Bears (heap.get a)) : heap'.Bears (heap'.get b) := by
  refine bears_iff_below?.2 (same.pairs.exists_below? ?_ (bears_iff_below?.1 bears))
  intro x y alike marks
  rw [alike.marksObjects]
  exact marks

theorem trail {refs : List Ref} (trail : heap.Trail (heap.get a) refs) :
    ∃ way, heap.visits a way = refs ∧ heap'.Trail (heap'.get b) (heap'.visits b way) := by
  generalize start : heap.get a = d at trail
  induction trail generalizing a b with
  | arrived marks =>
      refine ⟨[], rfl, .arrived ?_⟩
      rw [same.here.marksObjects, start]
      exact marks
  | @onward _ passed rest ref refs unmarked links clean _ ih =>
      have paired := Descriptor.primaryLinks_paired same.here.layout same.here.shape
      rw [start, links, ← start] at paired
      obtain ⟨passed', target, rest', links', before, turn, left, right⟩ :=
        exists_split_of_forall₂ paired
      obtain ⟨way, rfl, later'⟩ := ih (same.turn left right) rfl
      refine ⟨turn :: way, by rw [visits, left], ?_⟩
      rw [visits, right]
      refine .onward ?_ links' (fun other member bears => ?_) later'
      · rw [same.here.marksObjects, start]
        exact unmarked
      · obtain ⟨origin, listed, turn, left, right⟩ := exists_of_forall₂ before.flip member
        exact clean origin listed ((same.turn left right).symm.bears bears)

end SameButAliases

theorem sameButAliases_of_get {heap : Heap} {a b : Ref}
    (here : (heap.get a).Retargeted (heap.get b))
    (below : ∀ turn, Option.Rel (heap.SameButAliases heap) ((heap.get a).turn? turn)
      ((heap.get b).turn? turn)) : heap.SameButAliases heap a b := by
  rintro (_ | ⟨turn, path⟩)
  · exact .some here
  · exact optionRel_bind (below turn) fun _ _ _ _ same => same path

section Turns

variable {heap heap' : Heap}
  (turns : ∀ ref turn, (heap'.get ref).turn? turn = (heap.get ref).turn? turn)
include turns

theorem down?_of_turns (ref : Ref) (path : List Turn) :
    heap'.down? ref path = heap.down? ref path := by
  induction path generalizing ref with
  | nil => rfl
  | cons turn path ih =>
      rw [down?, down?, turns]
      cases (heap.get ref).turn? turn with
      | none => rfl
      | some next => exact ih next

theorem sharesAlike_of_turns (ref : Ref) : heap.SharesAlike heap' ref ref := by
  intro p q
  simp only [down?_of_turns turns]

theorem sameButAliases_of_turns (cells : ∀ ref, (heap.get ref).Retargeted (heap'.get ref))
    (ref : Ref) : heap.SameButAliases heap' ref ref := by
  intro path
  rw [below?_get, below?_get, down?_of_turns turns]
  cases heap.down? ref path with
  | none => exact .none
  | some cell => exact .some (cells cell)

end Turns

section Retarget

variable {heap : Heap} {cell : Ref} {layout : Layout} {entry : Entry}
  (record : (heap.get cell).layout = some layout)
include record

theorem lt_of_layout : cell < heap.size := by
  by_contra outside
  rw [get_of_size_le (Nat.le_of_not_lt outside)] at record
  cases record

variable (listed : entry ∈ layout.table.entries) (foreign : entry.isAlias = true) (target : Ref)
include listed foreign

theorem turn?_retarget (ref : Ref) (turn : Turn) :
    ((heap.set cell { heap.get cell with
      layout := some { layout with table := layout.table.retarget entry.key target } }).get
        ref).turn? turn = (heap.get ref).turn? turn := by
  by_cases here : ref = cell
  · rw [here, get_set_self _ (lt_of_layout record)]
    cases turn with
    | base => rfl
    | field key =>
        simp only [Descriptor.turn?, Descriptor.find?, record, Option.bind_some]
        by_cases same : key = entry.key
        · have found := Table.find?_of_mem listed
          have foreign' : ({ entry with target } : Entry).isAlias = true := foreign
          rw [same, found, Table.find?_retarget_self found target, Option.filter, Option.filter,
            foreign, foreign']
          rfl
        · rw [Table.find?_retarget_of_ne _ _ same]
  · rw [get_set_of_ne _ _ here]

theorem sameButAliases_retarget (ref : Ref) :
    heap.SameButAliases
      (heap.set cell { heap.get cell with
        layout := some { layout with table := layout.table.retarget entry.key target } })
      ref ref := by
  refine sameButAliases_of_turns (turn?_retarget record listed foreign target) (fun other => ?_) ref
  by_cases here : other = cell
  · rw [here, get_set_self _ (lt_of_layout record)]
    refine ⟨rfl, ?_, optionRel_refl (R := fun a b : Subarray => b.shape = a.shape)
      (fun _ => rfl) _⟩
    rw [record]
    exact .some ⟨rfl, Table.retarget_entries layout.table entry.key target⟩
  · rw [get_set_of_ne _ _ here]
    exact .refl _

end Retarget

section Scans

variable {heap heap' : Heap} (closed : heap.Closed) (acyclic : heap.Acyclic)
  (closed' : heap'.Closed) (acyclic' : heap'.Acyclic) {a b : Ref}
include closed acyclic

theorem findObjects_visits (ref : Ref) : ∃ found way,
    heap.findObjects (heap.get ref) = (found, heap.flagAll (heap.visits ref way)) := by
  by_cases bears : heap.Bears (heap.get ref)
  · obtain ⟨refs, trail⟩ := exists_trail closed acyclic (closed.fits ref) bears
    obtain ⟨way, rfl, -⟩ := (SameButAliases.refl heap ref).trail trail
    exact ⟨true, way, findObjects_of_trail closed acyclic (closed.fits ref) trail⟩
  · exact ⟨false, [], findObjects_of_not_bears closed acyclic (closed.fits ref) bears⟩

theorem get_findObjects_of_aside {cell : Ref} (aside : ∀ path, heap.down? a path ≠ some cell) :
    (heap.findObjects (heap.get a)).2.get cell = heap.get cell := by
  obtain ⟨found, way, search⟩ := findObjects_visits closed acyclic a
  rw [search, get_flagAll heap _ (visits_lt closed a way), if_neg]
  intro member
  obtain ⟨path, -, -, leads⟩ := mem_visits.1 member
  exact aside path leads

variable (same : heap.SameButAliases heap' a b)
include closed' acyclic' same

theorem isNative_of_sameButAliases : heap'.isNative b = heap.isNative a :=
  isNative_eq_of_foreign_iff closed acyclic closed' acyclic' ⟨same.symm.foreign, same.foreign⟩

theorem findObjects_of_sameButAliases : ∃ found way,
    heap.findObjects (heap.get a) = (found, heap.flagAll (heap.visits a way)) ∧
      heap'.findObjects (heap'.get b) = (found, heap'.flagAll (heap'.visits b way)) := by
  by_cases bears : heap.Bears (heap.get a)
  · obtain ⟨refs, trail⟩ := exists_trail closed acyclic (closed.fits a) bears
    obtain ⟨way, rfl, trail'⟩ := same.trail trail
    exact ⟨true, way, findObjects_of_trail closed acyclic (closed.fits a) trail,
      findObjects_of_trail closed' acyclic' (closed'.fits b) trail'⟩
  · exact ⟨false, [], findObjects_of_not_bears closed acyclic (closed.fits a) bears,
      findObjects_of_not_bears closed' acyclic' (closed'.fits b) fun bears' =>
        bears (same.symm.bears bears')⟩

theorem flags_of_sameButAliases (shared : heap.SharesAlike heap' a b) {path : List Turn}
    {s t : Ref} (left : heap.down? a path = some s) (right : heap'.down? b path = some t) :
    ((heap'.findObjects (heap'.get b)).2.get t).flags =
      ((heap.findObjects (heap.get a)).2.get s).flags := by
  obtain ⟨found, way, search, search'⟩ :=
    findObjects_of_sameButAliases closed acyclic closed' acyclic' same
  have visited : t ∈ heap'.visits b way ↔ s ∈ heap.visits a way := by
    simp only [mem_visits, ← left, ← right, shared _ path]
  have alike : (heap.get s).Retargeted (heap'.get t) := by
    have here := same path
    rw [below?_get, below?_get, left, right] at here
    cases here with
    | some holds => exact holds
  rw [search, search', get_flagAll heap _ (visits_lt closed a way),
    get_flagAll heap' _ (visits_lt closed' b way)]
  by_cases member : s ∈ heap.visits a way
  · rw [if_pos member, if_pos (visited.2 member), Descriptor.raised, Descriptor.raised, alike.flags]
  · rw [if_neg member, if_neg (mt visited.1 member), alike.flags]

/-! ## Comparisons with a third -/

omit closed acyclic closed' acyclic' same in
theorem alike_of_retargeted {below below' : Ref → Ref → Prop} {x x' y y' : Descriptor}
    (left : x.Retargeted x') (right : y.Retargeted y') (named : x.NamesFields)
    (turns : ∀ turn s s' t t', x.turn? turn = some s → x'.turn? turn = some s' →
      y.turn? turn = some t → y'.turn? turn = some t' → below s t → below' s' t')
    (alike : x.Alike below y) : x'.Alike below' y' where
  code := by rw [left.rest, right.rest]; exact alike.code
  size := by rw [left.rest, right.rest]; exact alike.size
  interval := by rw [left.rest, right.rest]; exact alike.interval
  layout := by
    refine optionRel_across left.layout right.layout alike.layout ?_
    intro l record m other l' record' m' other' same same' fields
    refine ⟨by rw [same.names, same'.names, fields.names], fun name member => ?_⟩
    rw [same.names] at member
    refine optionRel_across (same.find? name) (same'.find? name) (fields.fields name member) ?_
    rintro e found f there e' found' f' there' ⟨key, offset, title⟩ ⟨key', offset', title'⟩
      ⟨offsets, titles, target⟩
    have own := named l record name member e found
    -- with the same title under the same name, the other one is no alias either
    have own' : f.isAlias = false := by
      refine (Entry.isAlias_eq ?_ titles.symm).trans own
      rw [Table.key_of_find? there, Table.key_of_find? found]
    exact ⟨offset.trans (offsets.trans offset'.symm), title.trans (titles.trans title'.symm),
      turns (.field name) _ _ _ _
        (Descriptor.turn?_field (Descriptor.find?_of_layout record found) own)
        (Descriptor.turn?_field (Descriptor.find?_of_layout record' found')
          ((Entry.isAlias_eq key title).trans own))
        (Descriptor.turn?_field (Descriptor.find?_of_layout other there) own')
        (Descriptor.turn?_field (Descriptor.find?_of_layout other' there')
          ((Entry.isAlias_eq key' title').trans own')) target⟩
  subarray := by
    refine optionRel_across left.shape right.shape alike.subarray ?_
    intro s array t other s' array' t' other' shape shape' ⟨shapes, base⟩
    exact ⟨shape.trans (shapes.trans shape'.symm), turns .base _ _ _ _
      (Descriptor.turn?_base array) (Descriptor.turn?_base array')
      (Descriptor.turn?_base other) (Descriptor.turn?_base other') base⟩

variable (named : ∀ path x, heap.below? (heap.get a) path = some x → x.NamesFields)
  {c c' : Ref} (third : heap.SameButAliases heap' c c')
include named third

theorem plainlyEquivalentWithin_of_sameButAliases {n : Nat}
    (holds : heap.plainlyEquivalentWithin n a c = true) :
    heap'.plainlyEquivalentWithin n b c' = true := by
  induction n generalizing a b c c' with
  | zero => rfl
  | succ n ih =>
      obtain ⟨native, alike⟩ := comparePlainly_iff.1 holds
      refine comparePlainly_iff.2 ⟨?_, alike_of_retargeted same.here third.here
        (named [] _ rfl) (fun turn s s' t t' left left' right right' below => ?_) alike⟩
      · rw [isNative_of_sameButAliases closed acyclic closed' acyclic' same,
          isNative_of_sameButAliases closed acyclic closed' acyclic' third]
        exact native
      · refine ih (same.turn left left') (fun path x leads => ?_) (third.turn right right') below
        exact named (turn :: path) x ((below?_cons path left).trans leads)

theorem equivalent_of_sameButAliases (left : a < heap.size) (left' : b < heap'.size)
    (right : c < heap.size) (right' : c' < heap'.size) :
    heap'.equivalent b c' = heap.equivalent a c := by
  have enough : heap.depth ≤ max heap.depth heap'.depth := Nat.le_max_left ..
  have enough' : heap'.depth ≤ max heap.depth heap'.depth := Nat.le_max_right ..
  rw [← equivalentWithin_of_depth_le closed acyclic enough left right,
    ← equivalentWithin_of_depth_le closed' acyclic' enough' left' right',
    equivalentWithin_eq_plainly, equivalentWithin_eq_plainly, Bool.eq_iff_iff]
  exact ⟨plainlyEquivalentWithin_of_sameButAliases closed' acyclic' closed acyclic same.symm
      (same.named named) third.symm,
    plainlyEquivalentWithin_of_sameButAliases closed acyclic closed' acyclic' same named third⟩

end Scans

/-- What aliases refer to is not noticed by any walk, except by a comparison whose names lists
mention aliases. Flags on corresponding paths are the same wherever cells are shared alike. -/
structure PassesAliases (heap heap' : Heap) (a b : Ref) : Prop where
  native : heap'.isNative b = heap.isNative a
  objects : ∃ found way,
    heap.findObjects (heap.get a) = (found, heap.flagAll (heap.visits a way)) ∧
      heap'.findObjects (heap'.get b) = (found, heap'.flagAll (heap'.visits b way))
  flags : heap.SharesAlike heap' a b → ∀ path s t, heap.down? a path = some s →
    heap'.down? b path = some t → ((heap'.findObjects (heap'.get b)).2.get t).flags =
      ((heap.findObjects (heap.get a)).2.get s).flags
  aside : ∀ cell, (∀ path, heap.down? a path ≠ some cell) →
    (heap.findObjects (heap.get a)).2.get cell = heap.get cell
  equivalent : (∀ path x, heap.below? (heap.get a) path = some x → x.NamesFields) →
    ∀ c c', c < heap.size → c' < heap'.size → heap.SameButAliases heap' c c' →
      heap'.equivalent b c' = heap.equivalent a c ∧ heap'.equivalent c' b = heap.equivalent c a

theorem equivalent_comm (heap : Heap) (a b : Ref) : heap.equivalent a b = heap.equivalent b a :=
  Bool.eq_iff_iff.2 ⟨equivalentWithin_symm, equivalentWithin_symm⟩

theorem passesAliases {heap heap' : Heap} (closed : heap.Closed) (acyclic : heap.Acyclic)
    (closed' : heap'.Closed) (acyclic' : heap'.Acyclic) {a b : Ref} (inside : a < heap.size)
    (inside' : b < heap'.size) (same : heap.SameButAliases heap' a b) :
    heap.PassesAliases heap' a b where
  native := isNative_of_sameButAliases closed acyclic closed' acyclic' same
  objects := findObjects_of_sameButAliases closed acyclic closed' acyclic' same
  flags shared _ _ _ := flags_of_sameButAliases closed acyclic closed' acyclic' same shared
  aside _ := get_findObjects_of_aside closed acyclic
  equivalent named c c' right right' third := by
    have answer := equivalent_of_sameButAliases closed acyclic closed' acyclic' same named third
      inside inside' right right'
    exact ⟨answer, by rw [equivalent_comm, answer, equivalent_comm]⟩

end Heap

end ElementTypes
