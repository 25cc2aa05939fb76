import ElementTypes.Proofs.Store.Layouts

/-! # Swapping byte orders again and again -/

namespace ElementTypes

theorem OrderChange.resolve_swap_swap (order : ByteOrder) :
    (swap.apply (swap.apply order)).resolve = order.resolve := by
  cases order <;> rfl

theorem OrderChange.swap_swap_swap (order : ByteOrder) :
    swap.apply (swap.apply (swap.apply order)) = swap.apply order := by
  cases order <;> rfl

theorem ByteOrder.isNative_of_resolve {a b : ByteOrder} (same : a.resolve = b.resolve) :
    a.isNative = b.isNative := by
  cases a <;> cases b <;> first | rfl | cases same

namespace Layout

def Linked (layout : Layout) : Prop :=
  ∀ e ∈ layout.table.entries, e.isAlias = true → ∀ owner,
    layout.table.primary.find? (fun field => field.title = some e.key) = some owner →
      e.target = owner.target

namespace Renewed

variable {old mid new : Layout}

theorem owner (renewed : old.Renewed new) (key : String) :
    Option.Rel (fun e f : Entry => f.key = e.key ∧ f.offset = e.offset ∧ f.title = e.title)
      (old.table.primary.find? fun field => field.title = some key)
      (new.table.primary.find? fun field => field.title = some key) :=
  optionRel_find? renewed.retargeted.primary fun e f same => by rw [same.2.2]

theorem trans (first : old.Renewed mid) (second : mid.Renewed new) : old.Renewed new where
  names := second.names.trans first.names
  entries := forall₂_trans first.entries second.entries fun _ _ _ left right =>
    ⟨right.1.trans left.1, right.2.1.trans left.2.1, right.2.2.trans left.2.2⟩
  aliases e member foreign := by
    obtain ⟨e', present, key, -, title⟩ := first.entry_after member
    have rule := second.aliases e' present ((Entry.isAlias_eq key title).trans foreign)
    rw [key] at rule
    rw [rule]
    have owners := first.owner e.key
    cases found : old.table.primary.find? fun field => field.title = some e.key with
    | none =>
        rw [optionRel_of_eq_none owners found]
        have kept := first.aliases e member foreign
        rw [found, ← key, Table.find?_of_mem present] at kept
        exact kept
    | some field =>
        obtain ⟨field', found', key', -⟩ := optionRel_of_eq_some owners found
        rw [found']
        simp only [key']

theorem isAlias_of_find? (renewed : old.Renewed new) {e f : Entry}
    (present : e ∈ old.table.entries) (found : new.table.find? e.key = some f) :
    f.isAlias = e.isAlias := by
  obtain ⟨g, found', key, -, title⟩ :=
    optionRel_of_eq_some (renewed.retargeted.find? e.key) (Table.find?_of_mem present)
  rw [Option.some.inj (found.symm.trans found')]
  exact Entry.isAlias_eq key title

theorem below_of_fields (renewed : old.Renewed new) (linked : old.Linked)
    (below : Ref → Ref → Prop) (same : ∀ ref, below ref ref)
    (fields : ∀ e ∈ old.table.primary, ∀ f, new.table.find? e.key = some f →
      below e.target f.target) {e f : Entry} (present : e ∈ old.table.entries)
    (found : new.table.find? e.key = some f) : below e.target f.target := by
  cases foreign : e.isAlias with
  | false => exact fields e (Table.mem_primary.2 ⟨present, foreign⟩) f found
  | true =>
      have rule := renewed.aliases e present foreign
      rw [found, Option.map_some] at rule
      cases owner : old.table.primary.find? fun field => field.title = some e.key with
      | none =>
          rw [owner] at rule
          rw [Option.some.inj rule]
          exact same e.target
      | some field =>
          simp only [owner] at rule
          obtain ⟨field', found', target⟩ := Option.map_eq_some_iff.1 rule.symm
          rw [linked e present foreign field owner, ← target]
          exact fields field (List.mem_of_find?_eq_some owner) field' found'

theorem linked (renewed : old.Renewed new) : new.Linked := by
  intro f present foreign owner' found'
  obtain ⟨e, member, key, -, title⟩ := renewed.entry_before present
  have rule := renewed.aliases e member ((Entry.isAlias_eq key title).symm.trans foreign)
  obtain ⟨owner, found, key', -⟩ :=
    optionRel_of_eq_some (optionRel_symm (renewed.owner f.key)) found'
  rw [key] at found
  have listed := (Table.mem_primary.1 (List.mem_of_find?_eq_some found')).1
  rw [found, ← key, Table.find?_of_mem present] at rule
  simp only [← key', Table.find?_of_mem listed] at rule
  exact Option.some.inj rule

end Renewed

end Layout

structure Descriptor.Recast (old new : Descriptor) : Prop where
  rest : new = { old with
    order := new.order, layout := new.layout, subarray := new.subarray, companion := new.companion }
  layout : Option.Rel Layout.Renewed old.layout new.layout
  shape : Option.Rel (fun a b : Subarray => b.shape = a.shape) old.subarray new.subarray

theorem Descriptor.Renewed.recast {change : OrderChange} {old new : Descriptor}
    (renewed : old.Renewed change new) : old.Recast new where
  rest := by
    obtain ⟨-, code, kind, letter, size, alignment, flags, interval, -, -⟩ := renewed
    simp only [← code, ← kind, ← letter, ← size, ← alignment, ← flags, ← interval]
  layout := renewed.layout
  shape := renewed.shape

theorem Descriptor.Recast.trans {old mid new : Descriptor} (first : old.Recast mid)
    (second : mid.Recast new) : old.Recast new where
  rest := by
    rw [second.rest, first.rest]
  layout := optionRel_trans first.layout second.layout fun _ _ _ => .trans
  shape := optionRel_trans first.shape second.shape fun _ _ _ left right => right.trans left

theorem Descriptor.Renewed.find? {change : OrderChange} {d d' : Descriptor}
    (same : d.Renewed change d') (key : String) : Option.Rel (fun e f : Entry =>
      e ∈ d.entries ∧ d'.find? e.key = some f ∧ f.isAlias = e.isAlias)
        (d.find? key) (d'.find? key) := by
  unfold Descriptor.find? Descriptor.entries
  refine optionRel_bind same.layout fun l record l' record' renewed => ?_
  rw [record, record']
  refine optionRel_imp_of_mem (renewed.retargeted.find? key) fun e here f there holds => ?_
  refine ⟨List.mem_of_find?_eq_some here, ?_, Entry.isAlias_eq holds.1 holds.2.2⟩
  rw [Table.key_of_find? here]
  exact there

namespace Heap

theorem Renews.turn? {change : OrderChange} {old new : Heap} {d d' : Descriptor}
    (renews : old.Renews change new d d') (turn : Turn) :
    Option.Rel (fun s t => old.Renews change new (old.get s) (new.get t))
      (d.turn? turn) (d'.turn? turn) := by
  cases renews with
  | node same _ fields _ base =>
      cases turn with
      | field key =>
          have entries := same.find? key
          simp only [Descriptor.turn?]
          generalize d.find? key = left, d'.find? key = right at entries ⊢
          cases entries with
          | none => exact .none
          | @some e f holds =>
              obtain ⟨member, found, foreign⟩ := holds
              simp only [Option.filter_some, foreign]
              cases own : e.isAlias with
              | true => exact .none
              | false => exact .some (fields e member own f found)
      | base =>
          simp only [Descriptor.turn?]
          unfold Descriptor.bases at base
          cases array : d.subarray with
          | none =>
              rw [optionRel_of_eq_none same.shape array]
              exact .none
          | some s =>
              obtain ⟨t, array', -⟩ := optionRel_of_eq_some same.shape array
              rw [array, array'] at base
              rw [array']
              exact .some (base _ (List.mem_singleton_self _) _ (List.mem_singleton_self _))

theorem Renews.corresponds {change : OrderChange} {old new : Heap} {d d' : Descriptor}
    (renews : old.Renews change new d d') (grown : old.Extends new) (closed : old.Closed)
    (fits : d.Fits old) : new.Corresponds (Descriptor.Renewed change) d d' := by
  intro path
  induction path generalizing d d' with
  | nil =>
      cases renews with
      | node same => exact .some same
  | cons turn path ih =>
      refine optionRel_bind (renews.turn? turn) fun s here t _ below => ?_
      have inside := fits s (Descriptor.links_of_primaryLinks
        (Descriptor.mem_primaryLinks_iff_turn?.2 ⟨turn, here⟩))
      rw [grown.get s inside]
      exact ih below (closed.fits s)

theorem Renews.pairs {change : OrderChange} {old new : Heap} {d d' : Descriptor}
    (renews : old.Renews change new d d') (grown : old.Extends new) (closed : old.Closed)
    (fits : d.Fits old) : old.Pairs new (Descriptor.Renewed change) d d' := by
  intro path
  rw [← grown.below?_eq closed fits path]
  exact renews.corresponds grown closed fits path

end Heap

/-- As it was, but for the spelling of its order, its companion and the cells below it. -/
structure Descriptor.Restored (old new : Descriptor) : Prop extends Descriptor.Recast old new where
  order : new.order.resolve = old.order.resolve

namespace Heap

section Restored

variable {heap : Heap} (closed : heap.Closed) (acyclic : heap.Acyclic) {a b : Ref}
  (same : heap.Corresponds Descriptor.Restored (heap.get a) (heap.get b))
include closed acyclic same

theorem isNative_of_restored : heap.isNative b = heap.isNative a := by
  refine isNative_eq_of_foreign_iff closed acyclic closed acyclic
    ⟨same.symm.foreign ?_, same.foreign ?_⟩
  · intro y x restored plain foreign
    refine ⟨(optionRel_eq_none_iff restored.layout).1 plain, ?_⟩
    rw [← ByteOrder.isNative_of_resolve restored.order, foreign]
  · intro x y restored plain foreign
    refine ⟨(optionRel_eq_none_iff restored.layout).2 plain, ?_⟩
    rw [ByteOrder.isNative_of_resolve restored.order, foreign]

theorem equivalentWithin_of_restored (n : Nat)
    (named : ∀ path x, heap.below? (heap.get a) path = some x → x.NamesFields) :
    heap.equivalentWithin n a b = true := by
  induction n generalizing a b with
  | zero => rfl
  | succ n ih =>
      -- aliases are no turns, which is why the names must not list any
      have below : ∀ {turn s t}, (heap.get a).turn? turn = some s →
          (heap.get b).turn? turn = some t → heap.equivalentWithin n s t = true := by
        intro turn s t left right
        refine ih (same.turn left right) fun path x leads => named (turn :: path) x ?_
        rw [below?_cons path left, leads]
      have native := isNative_of_restored closed acyclic same
      have here := same.here
      refine (equivalentWithin_succ ..).2 (.inr ⟨native.symm, ?_⟩)
      exact {
        code := by rw [here.rest]
        size := by rw [here.rest]
        layout := by
          refine optionRel_imp_of_mem here.layout fun l record m record' renewed => ?_
          refine ⟨renewed.names.symm, fun name member => ?_⟩
          refine optionRel_imp_of_mem (renewed.retargeted.find? name) ?_
          rintro f found g found' ⟨key, offset, title⟩
          have own := named [] _ rfl l record name member f found
          have own' : g.isAlias = false := (Entry.isAlias_eq key title).trans own
          exact ⟨offset.symm, title.symm, below
            (Descriptor.turn?_field (Descriptor.find?_of_layout record found) own)
            (Descriptor.turn?_field (Descriptor.find?_of_layout record' found') own')⟩
        subarray := by
          refine optionRel_imp_of_mem here.shape fun s array t array' shape => ?_
          exact ⟨shape.symm, below (Descriptor.turn?_base array) (Descriptor.turn?_base array')⟩
        interval := by rw [here.rest] }

end Restored

end Heap

structure Descriptor.Repeated (old new : Descriptor) : Prop extends Descriptor.Recast old new where
  order : new.order = old.order
  linked : ∀ layout, old.layout = some layout → layout.Linked

theorem Heap.equalWithin_of_repeated {heap : Heap} (n : Nat) {a b : Ref}
    (same : heap.Corresponds Descriptor.Repeated (heap.get a) (heap.get b)) :
    heap.equalWithin n a b = true := by
  induction n generalizing a b with
  | zero => rfl
  | succ n ih =>
      have below : ∀ {turn s t}, (heap.get a).turn? turn = some s →
          (heap.get b).turn? turn = some t → heap.equalWithin n s t = true :=
        fun left right => ih (same.turn left right)
      have here := same.here
      refine (equalWithin_succ ..).2 ?_
      exact {
        code := by rw [here.rest]
        kind := by rw [here.rest]
        letter := by rw [here.rest]
        order := here.order.symm
        size := by rw [here.rest]
        alignment := by rw [here.rest]
        flags := by rw [here.rest]
        layout := by
          refine optionRel_imp_of_mem here.layout fun l record m record' renewed => ?_
          refine ⟨renewed.names.symm, renewed.entries.length_eq, fun f present => ?_⟩
          obtain ⟨g, found, key, offset, title⟩ :=
            optionRel_of_eq_some (renewed.retargeted.find? f.key) (Table.find?_of_mem present)
          refine ⟨g, found, offset.symm, title.symm, ?_⟩
          refine renewed.below_of_fields (here.linked l record)
            (fun s t => heap.equalWithin n s t = true) (equalWithin_self heap n)
            (fun e listed e' found' => ?_) present found
          obtain ⟨member, own⟩ := Table.mem_primary.1 listed
          exact below (Descriptor.turn?_field (Descriptor.find?_of_layout record
            (Table.find?_of_mem member)) own)
            (Descriptor.turn?_field (Descriptor.find?_of_layout record' found')
              ((renewed.isAlias_of_find? member found').trans own))
        subarray := by
          refine optionRel_imp_of_mem here.shape fun s array t array' shape => ?_
          exact ⟨shape.symm, below (Descriptor.turn?_base array) (Descriptor.turn?_base array')⟩
        interval := by rw [here.rest] }

def swap (ref : Ref) : Run Ref := do adopt (← reorder .swap ref)

def swapThrice (ref : Ref) : Run (Ref × Ref × Ref) := do
  let once ← swap ref
  let twice ← swap once
  let thrice ← swap twice
  return (once, twice, thrice)

structure SwapsBack (heap : Heap) (ref once twice thrice : Ref) : Prop where
  restored : heap.Corresponds Descriptor.Restored (heap.get ref) (heap.get twice)
  native : heap.isNative twice = heap.isNative ref
  equivalent : (∀ path x, heap.below? (heap.get ref) path = some x → x.NamesFields) →
    heap.equivalent ref twice = true
  equal : heap.equal thrice once = true

theorem swap_succeeds {store : Store} (sound : store.Sound) (ready : store.Ready)
    {ref : Ref} (inside : ref < store.heap.size) : Succeeds (swap ref) store fun new t =>
      store.Leads t ∧ t.Ready ∧ new < t.heap.size ∧ ∀ heap, t.heap.Extends heap →
        heap.Corresponds (Descriptor.Renewed .swap) (heap.get ref) (heap.get new) := by
  obtain ⟨new, t, ran, after, ready, -, bound, renews⟩ :=
    reorderCell_succeeds .swap sound ready inside
  refine ⟨new, t, ran, after, ready, bound, fun heap grown => ?_⟩
  have all := after.grows.heap.trans grown
  rw [all.get ref inside, grown.get new bound]
  exact (renews.extend grown).corresponds all sound.closed (sound.closed.fits ref)

theorem swapThrice_succeeds {store : Store} (sound : store.Sound) (ready : store.Ready)
    {ref : Ref} (inside : ref < store.heap.size) : Succeeds (swapThrice ref) store fun refs t =>
      store.heap.Extends t.heap ∧ SwapsBack t.heap ref refs.1 refs.2.1 refs.2.2 := by
  unfold swapThrice
  refine (swap_succeeds sound ready inside).bind ?_
  rintro once t ⟨after, ready, bound, first⟩
  refine (swap_succeeds after.sound ready bound).bind ?_
  rintro twice u ⟨after', ready, bound', second⟩
  refine (swap_succeeds after'.sound ready bound').bind ?_
  rintro thrice v ⟨after'', -, -, third⟩
  have grown := after'.grows.heap.trans after''.grows.heap
  have first := first v.heap grown
  have second := second v.heap after''.grows.heap
  have third := third v.heap (.refl _)
  have restored : v.heap.Corresponds Descriptor.Restored (v.heap.get ref) (v.heap.get twice) := by
    refine fun path => optionRel_trans (first path) (second path) fun x y z left right => ?_
    refine ⟨left.recast.trans right.recast, ?_⟩
    rw [right.order, left.order, OrderChange.resolve_swap_swap]
  have repeated : v.heap.Corresponds Descriptor.Repeated (v.heap.get once) (v.heap.get thrice) := by
    intro path
    -- that aliases share the targets of their fields comes from the first swap
    cases here : v.heap.below? (v.heap.get once) path with
    | none =>
        rw [optionRel_of_eq_none (third path) (optionRel_of_eq_none (second path) here)]
        exact .none
    | some x =>
        obtain ⟨_, -, before⟩ := optionRel_of_eq_some (optionRel_symm (first path)) here
        obtain ⟨y, there, left⟩ := optionRel_of_eq_some (second path) here
        obtain ⟨z, last, right⟩ := optionRel_of_eq_some (third path) there
        rw [last]
        refine .some ⟨left.recast.trans right.recast, ?_, fun layout record => ?_⟩
        · rw [right.order, left.order, before.order, OrderChange.swap_swap_swap]
        · obtain ⟨_, -, renewed⟩ := optionRel_of_eq_some (optionRel_symm before.layout) record
          exact renewed.linked
  have sound := after''.sound
  refine .pure ⟨after.grows.heap.trans grown, restored, ?_, fun named => ?_, ?_⟩
  · exact Heap.isNative_of_restored sound.closed sound.acyclic restored
  · exact Heap.equivalentWithin_of_restored sound.closed sound.acyclic restored _ named
  · exact Heap.equalWithin_symm (Heap.equalWithin_of_repeated _ repeated)

end ElementTypes
