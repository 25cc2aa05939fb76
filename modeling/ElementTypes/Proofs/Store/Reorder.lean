import ElementTypes.Proofs.Record.Relink
import ElementTypes.Proofs.Store.Sound

/-! # What a change of byte order makes -/

namespace ElementTypes

structure Layout.Renewed (old new : Layout) : Prop where
  names : new.names = old.names
  entries : List.Forall₂ (fun e f : Entry => f.key = e.key ∧ f.offset = e.offset ∧
    f.title = e.title) old.table.entries new.table.entries
  aliases : ∀ e ∈ old.table.entries, e.isAlias = true →
    (new.table.find? e.key).map (·.target) =
      match old.table.primary.find? fun field => field.title = some e.key with
      | some field => (new.table.find? field.key).map (·.target)
      | none => some e.target

/-- One node against its renewal: only the order, the companion and what is referred to may
differ. -/
structure Descriptor.Renewed (change : OrderChange) (old new : Descriptor) : Prop where
  order : new.order = change.apply old.order
  code : new.code = old.code
  kind : new.kind = old.kind
  letter : new.letter = old.letter
  size : new.size = old.size
  alignment : new.alignment = old.alignment
  flags : new.flags = old.flags
  interval : new.interval = old.interval
  layout : Option.Rel Layout.Renewed old.layout new.layout
  shape : Option.Rel (fun a b : Subarray => b.shape = a.shape) old.subarray new.subarray

namespace Heap

inductive Renews (change : OrderChange) (old new : Heap) : Descriptor → Descriptor → Prop
  | node {d d' : Descriptor} (same : d.Renewed change d')
      (newFields : ∀ e ∈ d.entries, e.isAlias = false → ∀ f, d'.find? e.key = some f →
        old.size ≤ f.target ∧ f.target < new.size)
      (fields : ∀ e ∈ d.entries, e.isAlias = false → ∀ f, d'.find? e.key = some f →
        Renews change old new (old.get e.target) (new.get f.target))
      (newBase : ∀ a ∈ d.bases, ∀ b ∈ d'.bases, old.size ≤ b ∧ b < new.size)
      (base : ∀ a ∈ d.bases, ∀ b ∈ d'.bases,
        Renews change old new (old.get a) (new.get b)) : Renews change old new d d'

theorem Renews.renewed {change : OrderChange} {old new : Heap} {d d' : Descriptor}
    (renews : old.Renews change new d d') : d.Renewed change d' := by
  cases renews with
  | node same => exact same

theorem Renews.extend {change : OrderChange} {old new last : Heap} {d d' : Descriptor}
    (renews : old.Renews change new d d') (grown : new.Extends last) :
    old.Renews change last d d' := by
  induction renews with
  | node same newFields _ newBase _ fieldsIh baseIh =>
      refine .node same ?_ ?_ ?_ ?_
      · intro e member own f found
        have bounds := newFields e member own f found
        exact ⟨bounds.1, Nat.lt_of_lt_of_le bounds.2 grown.size⟩
      · intro e member own f found
        rw [grown.get _ (newFields e member own f found).2]
        exact fieldsIh e member own f found
      · intro a left b right
        have bounds := newBase a left b right
        exact ⟨bounds.1, Nat.lt_of_lt_of_le bounds.2 grown.size⟩
      · intro a left b right
        rw [grown.get _ (newBase a left b right).2]
        exact baseIh a left b right

end Heap

section Renewal

variable (change : OrderChange) {heap : Heap} (closed : heap.Closed)

def Heap.RenewedAt (heap : Heap) (target ref : Ref) (store : Store) : Prop :=
  heap.size ≤ ref ∧ ref < store.heap.size ∧
    heap.Renews change store.heap (heap.get target) (store.heap.get ref)

theorem Heap.RenewedAt.lead {change : OrderChange} {heap : Heap} {target ref : Ref}
    {store later : Store} (renewed : heap.RenewedAt change target ref store)
    (after : store.Leads later) : heap.RenewedAt change target ref later := by
  obtain ⟨new, inside, renews⟩ := renewed
  refine ⟨new, Nat.lt_of_lt_of_le inside after.grows.heap.size, ?_⟩
  rw [after.grows.heap.get ref inside]
  exact renews.extend after.grows.heap

def Reorders (heap : Heap) (n : Nat) : Prop :=
  ∀ ref store, ref < heap.size → heap.Within n (heap.get ref) → store.Sound →
    heap.Extends store.heap →
    Ensures Store.Leads (reorderWithin change n ref) store fun d t =>
      d.Fits t.heap ∧ heap.Renews change t.heap (heap.get ref) d

theorem renew_leads {n : Nat} (reorders : Reorders change heap n) {target : Ref}
    (inside : target < heap.size) (within : heap.Within n (heap.get target)) {store : Store}
    (sound : store.Sound) (grown : heap.Extends store.heap) :
    Ensures Store.Leads (do adopt (← reorderWithin change n target)) store
      (heap.RenewedAt change target) := by
  refine (reorders target store inside within sound grown).bind ?_
  rintro d t after ⟨fits, renews⟩
  refine (adopt_leads after.sound fits).imp ?_
  rintro ref u last ⟨new, bound, rfl⟩
  exact ⟨Nat.le_trans (grown.trans after.grows.heap).size new, bound,
    renews.extend last.grows.heap⟩

theorem renewFields_leads {n : Nat} (reorders : Reorders change heap n) {table : Table}
    (inside : ∀ e ∈ table.entries, e.target < heap.size ∧ heap.Within n (heap.get e.target))
    {store : Store} (sound : store.Sound) (grown : heap.Extends store.heap) :
    Ensures Store.Leads
      (table.primary.mapM fun entry =>
        return (entry, ← adopt (← reorderWithin change n entry.target))) store
      fun renewed t => renewed.map Prod.fst = table.primary ∧
        ∀ pair ∈ renewed, heap.RenewedAt change pair.1.target pair.2 t := by
  have each := Ensures.mapM sound.leads
    (fun entry : Entry => return (entry, ← adopt (← reorderWithin change n entry.target)))
    (fun entry pair t => pair.1 = entry ∧ heap.RenewedAt change entry.target pair.2 t)
    (fun _ _ _ _ after holds => ⟨holds.1, holds.2.lead after⟩) table.primary
    fun entry member t after => by
      have bounds := inside entry (Table.mem_primary.1 member).1
      rw [← bind_assoc]
      exact (renew_leads change reorders bounds.1 bounds.2 after.sound
        (grown.trans after.grows.heap)).map fun ref u _ renewed => ⟨rfl, renewed⟩
  refine each.imp ?_
  intro renewed t _ all
  generalize table.primary = fields at all
  induction all with
  | nil => simp
  | @cons entry pair fields pairs holds _ ih =>
      obtain ⟨rfl, here⟩ := holds
      refine ⟨by rw [List.map_cons, ih.1], ?_⟩
      intro other member
      rcases List.mem_cons.1 member with rfl | member
      · exact here
      · exact ih.2 other member

def Layout.RelinkedIn (heap : Heap) (old new : Layout) (store : Store) : Prop :=
  ∃ renewed, renewed.map Prod.fst = old.table.primary ∧
    (∀ pair ∈ renewed, heap.RenewedAt change pair.1.target pair.2 store) ∧
    new = { old with table := old.table.relink renewed }

theorem Layout.RelinkedIn.lead {change : OrderChange} {heap : Heap} {old new : Layout}
    {store later : Store} (relinked : old.RelinkedIn change heap new store)
    (after : store.Leads later) : old.RelinkedIn change heap new later := by
  obtain ⟨renewed, all, cells, same⟩ := relinked
  exact ⟨renewed, all, fun pair member => (cells pair member).lead after, same⟩

theorem Layout.RelinkedIn.renewed {change : OrderChange} {heap : Heap} {old new : Layout}
    {store : Store} (relinked : old.RelinkedIn change heap new store) : old.Renewed new := by
  obtain ⟨renewed, all, -, rfl⟩ := relinked
  exact {
    names := rfl
    entries := old.table.relink_entries renewed
    aliases := fun _ present foreign => Table.find?_relink_alias all present foreign }

theorem renewLayout_leads {n : Nat} (reorders : Reorders change heap n) {layout : Option Layout}
    (inside : ∀ l, layout = some l → ∀ e ∈ l.table.entries,
      e.target < heap.size ∧ heap.Within n (heap.get e.target))
    {store : Store} (sound : store.Sound) (grown : heap.Extends store.heap) :
    Ensures Store.Leads
      (layout.mapM fun layout => do
        let renewed ← layout.table.primary.mapM fun entry =>
          return (entry, ← adopt (← reorderWithin change n entry.target))
        return { layout with table := layout.table.relink renewed }) store
      fun out t => Option.Rel (fun l l' => l.RelinkedIn change heap l' t) layout out := by
  refine Ensures.optionMapM sound.leads _ (fun l l' t => l.RelinkedIn change heap l' t) layout ?_
  intro l some
  exact (renewFields_leads change reorders (inside l some) sound grown).map
    fun renewed t _ holds => ⟨renewed, holds.1, holds.2, rfl⟩

theorem renewBase_leads {n : Nat} (reorders : Reorders change heap n) {subarray : Option Subarray}
    (inside : ∀ a, subarray = some a → a.base < heap.size ∧ heap.Within n (heap.get a.base))
    {store : Store} (sound : store.Sound) (grown : heap.Extends store.heap) :
    Ensures Store.Leads
      (subarray.mapM fun subarray =>
        return { subarray with base := ← adopt (← reorderWithin change n subarray.base) }) store
      fun out t => Option.Rel (fun a b : Subarray => b.shape = a.shape ∧
        heap.RenewedAt change a.base b.base t) subarray out := by
  refine Ensures.optionMapM sound.leads _
    (fun a (b : Subarray) t => b.shape = a.shape ∧ heap.RenewedAt change a.base b.base t)
    subarray ?_
  intro a some
  have bounds := inside a some
  rw [← bind_assoc]
  exact (renew_leads change reorders bounds.1 bounds.2 sound grown).map
    fun base t _ renewed => ⟨rfl, renewed⟩

section Parts

variable {change : OrderChange} {heap : Heap} {old new : Descriptor} {store : Store}
  (layouts : Option.Rel (fun l l' => l.RelinkedIn change heap l' store) old.layout new.layout)
  (subarrays : Option.Rel (fun a b : Subarray => b.shape = a.shape ∧
    heap.RenewedAt change a.base b.base store) old.subarray new.subarray)

include layouts in
theorem renewed_field {e f : Entry} (member : e ∈ old.entries) (own : e.isAlias = false)
    (found : new.find? e.key = some f) : heap.RenewedAt change e.target f.target store := by
  unfold Descriptor.entries at member
  unfold Descriptor.find? at found
  cases before : old.layout with
  | none => simp [before] at member
  | some l =>
      rw [before] at layouts member
      cases after : new.layout with
      | none => simp [after] at found
      | some l' =>
          rw [after] at layouts found
          cases layouts with
          | some relinked =>
              obtain ⟨renewed, all, cells, rfl⟩ := relinked
              have present : e ∈ renewed.map Prod.fst := all ▸ Table.mem_primary.2 ⟨member, own⟩
              obtain ⟨pair, listed, rfl⟩ := List.mem_map.1 present
              rw [Option.bind_some, Table.find?_relink_field all listed] at found
              rw [← Option.some.inj found]
              exact cells pair listed

include subarrays in
theorem renewed_base {a b : Ref} (left : a ∈ old.bases) (right : b ∈ new.bases) :
    heap.RenewedAt change a b store := by
  unfold Descriptor.bases at left right
  cases before : old.subarray with
  | none => simp [before] at left
  | some s =>
      cases after : new.subarray with
      | none => simp [after] at right
      | some s' =>
          rw [before, after] at subarrays
          cases subarrays with
          | some holds =>
              simp only [before, after, List.mem_singleton] at left right
              rw [left, right]
              exact holds.2

include layouts subarrays in
theorem fits_of_parts (fits : old.Fits store.heap) : new.Fits store.heap := by
  intro ref link
  rcases Descriptor.mem_links_iff.1 link with ⟨l', after, entry, member, rfl⟩ | ⟨s', after, rfl⟩
  · rw [after] at layouts
    cases before : old.layout with
    | none => rw [before] at layouts; cases layouts
    | some l =>
        rw [before] at layouts
        cases layouts with
        | some relinked =>
            obtain ⟨renewed, -, cells, rfl⟩ := relinked
            rcases Table.mem_relink member with ⟨pair, listed, same⟩ | ⟨e, present, same⟩
            · exact same ▸ (cells pair listed).2.1
            · exact same ▸ fits _ (Descriptor.mem_links_iff.2 (.inl ⟨l, before, e, present, rfl⟩))
  · rw [after] at subarrays
    cases before : old.subarray with
    | none => rw [before] at subarrays; cases subarrays
    | some s =>
        rw [before] at subarrays
        cases subarrays with
        | some holds => exact holds.2.2.1

include layouts subarrays in
theorem renews_of_parts (same : new = { old with
      order := change.apply old.order, layout := new.layout, subarray := new.subarray,
      companion := new.companion }) : heap.Renews change store.heap old new := by
  have fields : ∀ e ∈ old.entries, e.isAlias = false → ∀ f, new.find? e.key = some f →
      heap.RenewedAt change e.target f.target store :=
    fun _ member own _ found => renewed_field layouts member own found
  have bases : ∀ a ∈ old.bases, ∀ b ∈ new.bases, heap.RenewedAt change a b store :=
    fun _ left _ right => renewed_base subarrays left right
  refine .node ?_ (fun e member own f found => ?_) (fun e member own f found => ?_)
    (fun a left b right => ?_) fun a left b right => ?_
  · rw [same]
    refine ⟨rfl, rfl, rfl, rfl, rfl, rfl, rfl, rfl, ?_, ?_⟩
    · exact optionRel_imp layouts fun _ _ relinked => relinked.renewed
    · exact optionRel_imp subarrays fun _ _ holds => holds.1
  · exact ⟨(fields e member own f found).1, (fields e member own f found).2.1⟩
  · exact (fields e member own f found).2.2
  · exact ⟨(bases a left b right).1, (bases a left b right).2.1⟩
  · exact (bases a left b right).2.2

end Parts

include closed in
theorem reorderWithin_leads (n : Nat) : Reorders change heap n := by
  induction n with
  | zero => exact fun _ _ _ within => absurd within id
  | succ n ih =>
      intro ref store inside within sound grown
      have below : ∀ target ∈ (heap.get ref).links,
          target < heap.size ∧ heap.Within n (heap.get target) := fun target link =>
        ⟨closed ref target link, within target link⟩
      unfold reorderWithin
      refine (duplicate_leads sound ref).bind ?_
      rintro copy t after ⟨⟨companion, rfl⟩, -⟩
      rw [grown.get ref inside]
      refine (renewLayout_leads change ih (fun l some e member => ?_) after.sound
        (grown.trans after.grows.heap)).bind ?_
      · exact below _ (Descriptor.mem_links_iff.2 (.inl ⟨l, some, e, member, rfl⟩))
      intro layout u after' relinked
      have grown' := (grown.trans after.grows.heap).trans after'.grows.heap
      refine (renewBase_leads change ih (fun a some => ?_) after'.sound grown').bind ?_
      · exact below _ (Descriptor.mem_links_iff.2 (.inr ⟨a, some, rfl⟩))
      intro subarray v after'' bases
      have last := grown'.trans after''.grows.heap
      have layouts' : Option.Rel (fun l l' => l.RelinkedIn change heap l' v)
          (heap.get ref).layout layout := optionRel_imp relinked fun _ _ holds => holds.lead after''
      refine .pure after''.sound.leads ⟨?_, ?_⟩
      · exact fits_of_parts layouts' bases (last.fits (closed.fits ref))
      · exact renews_of_parts layouts' bases rfl

end Renewal

theorem reorder_leads (change : OrderChange) {store : Store} (sound : store.Sound) {ref : Ref}
    (inside : ref < store.heap.size) :
    Ensures Store.Leads (reorder change ref) store fun d t =>
      d.Fits t.heap ∧ store.heap.Renews change t.heap (store.heap.get ref) d := by
  unfold reorder
  refine Ensures.get_bind ?_
  exact reorderWithin_leads change sound.closed _ ref store inside
    (Heap.within_depth sound.closed sound.acyclic (sound.closed.fits ref)) sound (.refl _)

theorem reorder_renewedAt (change : OrderChange) {store : Store} (sound : store.Sound) {ref : Ref}
    (inside : ref < store.heap.size) :
    Ensures Store.Leads (do adopt (← reorder change ref)) store
      (store.heap.RenewedAt change ref) := by
  refine (reorder_leads change sound inside).bind ?_
  rintro d t after ⟨fits, renews⟩
  refine (adopt_leads after.sound fits).imp ?_
  rintro new u last ⟨fresh, bound, rfl⟩
  exact ⟨Nat.le_trans after.grows.heap.size fresh, bound, renews.extend last.grows.heap⟩

def Hook.Accepts (hook : Hook) : Prop :=
  ∀ heap earlier offer, ∃ companion, hook.answer heap earlier offer = .ok companion

def Store.Accepting (store : Store) : Prop := ∀ hook, store.hook = some hook → hook.Accepts

theorem Store.accepting_of_bare {store : Store} (bare : store.hook = none) : store.Accepting := by
  intro hook installed
  rw [bare] at installed
  cases installed

theorem Store.accepting_of_pairing {store : Store} (installed : store.hook = some .pairing) :
    store.Accepting := by
  intro hook same
  obtain rfl := Option.some.inj (installed.symm.trans same)
  exact fun heap earlier offer => ⟨_, rfl⟩

structure Store.Ready (store : Store) : Prop where
  accepting : store.Accepting
  ample : store.Ample

theorem adopt_succeeds {store : Store} (ready : store.Ready) (d : Descriptor) :
    Succeeds (adopt d) store fun _ t => t.Ready :=
  ⟨_, _, rfl, ready.accepting, ready.ample⟩

theorem offerCopy_succeeds {store : Store} (accepting : store.Accepting) (ref : Ref) :
    Succeeds (offerCopy ref) store fun _ t => t.Accepting ∧ t.memory = store.memory := by
  unfold offerCopy
  refine Succeeds.get_bind ?_
  cases installed : store.hook with
  | none => exact .pure ⟨accepting, rfl⟩
  | some hook =>
      obtain ⟨companion, answer⟩ := accepting hook installed store.heap store.offers
        ⟨ref, { store.heap.get ref with companion := none }⟩
      simp only [answer]
      exact ⟨_, _, rfl, fun other same => accepting other (installed.trans same), rfl⟩

theorem duplicate_succeeds {store : Store} (ready : store.Ready) (ref : Ref) :
    Succeeds (duplicate ref) store fun _ t => t.Ready := by
  obtain ⟨d, t, ran, accepting, memory⟩ := offerCopy_succeeds ready.accepting ref
  refine ⟨d, t, (duplicate_run_ample ready.ample ref).trans ran, accepting, ?_⟩
  exact memory.trans ready.ample

theorem reorderWithin_succeeds (change : OrderChange) (n : Nat) {store : Store}
    (ready : store.Ready) (ref : Ref) :
    Succeeds (reorderWithin change n ref) store fun _ t => t.Ready := by
  induction n generalizing store ref with
  | zero => exact duplicate_succeeds ready ref
  | succ n ih =>
      have renew : ∀ target store, store.Ready →
          Succeeds (do adopt (← reorderWithin change n target)) store fun _ t => t.Ready :=
        fun target store ready =>
          (ih ready target).bind fun d _ ready => adopt_succeeds ready d
      unfold reorderWithin
      refine (duplicate_succeeds ready ref).bind fun copy t ready => ?_
      refine Succeeds.bind (P := fun _ u => u.Ready) ?_ fun layout u ready => ?_
      · cases copy.layout with
        | none => exact .pure ready
        | some l =>
            refine Succeeds.bind (Succeeds.bind ?_ fun _ _ ready => .pure ready)
              fun _ _ ready => .pure ready
            refine Succeeds.mapM Store.Ready l.table.primary ready
              fun entry _ store ready => ?_
            rw [← bind_assoc]
            exact (renew entry.target store ready).bind fun _ _ ready => .pure ready
      · refine Succeeds.bind (P := fun _ v => v.Ready) ?_ fun _ _ ready => .pure ready
        cases copy.subarray with
        | none => exact .pure ready
        | some s =>
            refine Succeeds.bind ?_ fun _ _ ready => .pure ready
            beta_reduce
            rw [← bind_assoc]
            exact (renew s.base u ready).bind fun _ _ ready => .pure ready

theorem reorder_succeeds (change : OrderChange) {store : Store} (ready : store.Ready)
    (ref : Ref) : Succeeds (reorder change ref) store fun _ t => t.Ready := by
  unfold reorder
  refine Succeeds.get_bind ?_
  exact reorderWithin_succeeds change _ ready ref

def reorderCell (change : OrderChange) (ref : Ref) : Run Ref := do adopt (← reorder change ref)

theorem reorderCell_succeeds (change : OrderChange) {store : Store} (sound : store.Sound)
    (ready : store.Ready) {ref : Ref} (inside : ref < store.heap.size) :
    Succeeds (reorderCell change ref) store fun new t =>
      store.Leads t ∧ t.Ready ∧ store.heap.RenewedAt change ref new t := by
  refine Succeeds.ensuring ?_ (reorder_renewedAt change sound inside)
  exact (reorder_succeeds change ready ref).bind fun d t ready => adopt_succeeds ready d

end ElementTypes
