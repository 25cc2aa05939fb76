import ElementTypes.Proofs.Store.Keeps
import ElementTypes.Proofs.Store.Layouts
import ElementTypes.Proofs.Store.Promote
import ElementTypes.Proofs.Text.TypeText

/-! # What operations do to a store

All operations come down to a few acts on the store. What every act keeps is kept by any sequence of
them (`Acts.keeps`).
-/

namespace ElementTypes

inductive EditForm
  | nothing | size | alignment | order | flags | subarray | interval
  | fields | put | retarget | erase | rekey | rename | names | clear
  deriving DecidableEq

def Edit.form {α β : Type} : Edit α β → EditForm
  | nothing => .nothing
  | size _ => .size
  | alignment _ => .alignment
  | order _ => .order
  | flags _ => .flags
  | subarray _ => .subarray
  | interval _ => .interval
  | fields _ _ => .fields
  | put _ => .put
  | retarget _ _ => .retarget
  | erase _ => .erase
  | rekey _ _ => .rekey
  | rename _ => .rename
  | names _ => .names
  | clear => .clear

theorem Edit.size_outcome {edit : Edit Ref Interval} {d d' : Descriptor} {value : EditValue}
    (other : edit.form ≠ .size) (applied : edit.outcome d = .ok (value, d')) : d'.size = d.size := by
  cases edit with
  | size => exact absurd rfl other
  | nothing | alignment | order | flags | subarray | fields | names | clear =>
      obtain ⟨-, rfl⟩ := Prod.mk.inj (Except.ok.inj applied)
      rfl
  | interval =>
      obtain rfl := interval_eq_ok applied
      rfl
  | put | retarget | erase | rekey =>
      unfold outcome at applied
      rcases tableOutcome_eq_ok applied with ⟨-, rfl⟩ | ⟨_, _, -, -, rfl⟩ <;> rfl
  | rename => rcases rename_eq_ok applied with ⟨-, rfl⟩ | ⟨_, _, -, -, rfl⟩ <;> rfl

/-- How many characters fields may be given, what may be promoted, and which edits may be made. -/
structure Limits where
  characters : Size → Prop
  pair : Descriptor → Descriptor → Prop
  edit : EditForm → Prop

def Limits.any : Limits := ⟨fun _ => True, fun _ _ => True, fun _ => True⟩

variable (limits : Limits)

inductive Descriptor.Made (heap : Heap) : Descriptor → Prop
  | copied (ref : Ref) (companion : Option String) : Made heap { heap.get ref with companion }
  | worded (w : Wording) (companion : Option String) : Made heap { w.descriptor with companion }
  | string (bytes : Size) (companion : Option String) :
      Made heap { Descriptor.canonical .string with size := bytes, companion }
  | unicode {n : Size} (allowed : limits.characters n) (companion : Option String) :
      Made heap { Descriptor.canonical .unicode with
        size := n.mulSaturating Code.characterSize, companion }
  | array (subarray : Subarray) {size : Size} (inside : subarray.base < heap.size)
      (total : size.toNat = (heap.get subarray.base).size.toNat * subarray.count)
      (companion : Option String) :
      Made heap { Descriptor.canonical .void with
        size, alignment := (heap.get subarray.base).alignment
        flags := (heap.get subarray.base).flags, subarray := some subarray, companion }
  | record {layout : Layout} {size : Size} (formed : layout.WellFormed)
      (holds : ∀ e ∈ layout.table.entries, e.target < heap.size ∧
        e.offset.toNat + (heap.get e.target).size.toNat ≤ size.toNat)
      (alignment : Size) (flags : Flags) (companion : Option String) :
      Made heap { Descriptor.canonical .void with
        size, alignment, flags, layout := some layout, companion }
  | promoted {a b : Ref} (allowed : limits.pair (heap.get a) (heap.get b))
      (sizable : ((heap.get a).goal (heap.get b)).isSizable = true) (companion : Option String) :
      Made heap { Descriptor.canonical ((heap.get a).goal (heap.get b)) with
        size := (heap.get a).goalSize (heap.get b), companion }
  | reordered {before : Heap} {change : OrderChange} {ref : Ref} {d : Descriptor}
      (closed : before.Closed) (grown : before.Extends heap) (inside : ref < before.size)
      (renews : before.Renews change heap (before.get ref) d) : Made heap d

namespace Store

inductive Act (store : Store) : Store → Prop
  | hooked (hook : Option Hook) (offers : List Offer) (memory : Memory) :
      Act store { store with hook, offers, memory }
  | adopted {d : Descriptor} (fits : d.Fits store.heap) (made : d.Made limits store.heap) :
      Act store { store with heap := (store.heap.alloc d).2 }
  | flagged {heap : Heap} (flagged : store.heap.Flagged heap) : Act store { store with heap }
  | entered (room : store.registry.next ≠ 65535) (ref : Ref) (companion : Option String) :
      Act store (store.entered { store.heap.get ref with companion })
  | edited {cell : Ref} {edit : Edit Ref Interval} {value : EditValue} {d : Descriptor}
      (inside : cell < store.heap.size) (own : cell ∉ store.owned)
      (allowed : limits.edit edit.form)
      (applied : edit.outcome (store.heap.get cell) = .ok (value, d)) :
      Act store { store with heap := store.heap.set cell d }

structure Step (old new : Store) : Prop where
  act : old.Act limits new
  sound : new.Sound

def Acts : Store → Store → Prop := Relation.ReflTransGen (Step limits)

variable {limits} {old new : Store}

instance : Onward (Acts limits) where
  trans := Relation.ReflTransGen.trans
  here _ := .refl

theorem Acts.sound (acts : Acts limits old new) (sound : old.Sound) : new.Sound := by
  cases acts with
  | refl => exact sound
  | tail _ last => exact last.sound

theorem Acts.keeps {P : Store → Prop}
    (step : ∀ s t, s.Sound → P s → s.Act limits t → t.Sound → P t)
    (acts : Acts limits old new) (sound : old.Sound) (holds : P old) : P new := by
  induction acts with
  | refl => exact holds
  | tail before last ih => exact step _ _ (Acts.sound before sound) ih last.act last.sound

theorem Acts.size_le (acts : Acts limits old new) (sound : old.Sound) :
    old.heap.size ≤ new.heap.size := by
  refine acts.keeps (P := fun t => old.heap.size ≤ t.heap.size) ?_ sound (Nat.le_refl _)
  intro s t _ bound act _
  cases act with
  | hooked => exact bound
  | adopted | entered =>
      simp only [entered, Heap.size_alloc]
      exact Nat.le_succ_of_le bound
  | flagged flagged =>
      rw [flagged.size]
      exact bound
  | edited =>
      rw [Heap.size_set]
      exact bound

end Store

open Store (Acts)

/-! ## Primitive runs -/

theorem Ensures.also {α σ ε : Type} {later other : σ → σ → Prop} {x : ExceptT ε (StateM σ) α}
    {s : σ} {good better : α → σ → Prop} (first : Ensures later x s good)
    (second : Ensures other x s better) :
    Ensures later x s fun a t => good a t ∧ better a t ∧ other s t :=
  ⟨first.later, fun a same => ⟨first.good a same, second.good a same, second.later⟩⟩

theorem Ensures.traced {α σ ε : Type} {later : σ → σ → Prop} {x : ExceptT ε (StateM σ) α}
    {s : σ} {good : α → σ → Prop} (h : Ensures later x s good) :
    Ensures later x s fun a t => good a t ∧ x.run s = (.ok a, t) :=
  ⟨h.later, fun a same => ⟨h.good a same, Prod.ext same rfl⟩⟩

theorem Ensures.of_eq {α σ ε : Type} {later : σ → σ → Prop} {x y : ExceptT ε (StateM σ) α}
    {s : σ} {good : α → σ → Prop} (same : x.run s = y.run s) (h : Ensures later y s good) :
    Ensures later x s good := by
  constructor <;> rw [same]
  · exact h.later
  · exact h.good

section Operations

variable {limits : Limits} {store : Store}

theorem shared_acts (code : Code) : Ensures (Acts limits) (shared code) store fun ref t =>
    t = store ∧ store.cellOf? code = some ref := by
  unfold shared
  refine .get_bind ?_
  cases found : store.cellOf? code with
  | none => exact .throw .refl
  | some ref => exact .pure .refl ⟨rfl, rfl⟩

variable (sound : store.Sound)
include sound

theorem adopt_acts {d : Descriptor} (fits : d.Fits store.heap) (made : d.Made limits store.heap) :
    Ensures (Acts limits) (adopt d) store fun ref t =>
      store.heap.size ≤ ref ∧ ref < t.heap.size ∧ t.heap.get ref = d :=
  have leads := adopt_leads sound fits
  ⟨.single ⟨.adopted fits made, leads.later.sound⟩, leads.good⟩

omit sound in
theorem adopting_acts (sound : store.Sound) {run : Run Descriptor}
    (h : Ensures (Acts limits) run store fun d t => d.Fits t.heap ∧ d.Made limits t.heap) :
    Ensures (Acts limits) (do adopt (← run)) store fun _ _ => True :=
  h.bind fun _ _ after holds =>
    (adopt_acts (after.sound sound) holds.1 holds.2).imp fun _ _ _ _ => trivial

theorem reserve_acts (n : Nat) (error : Error) : Ensures (Acts limits) (reserve n error) store
    fun _ t => ∃ memory, t = { store with memory } := by
  have leads := (reserve_leads sound n error).later
  rw [reserve_run] at leads
  refine .of_run (reserve_run n error store) (.single ⟨?_, leads.sound⟩) fun _ _ => ⟨_, rfl⟩
  exact .hooked store.hook store.offers _

theorem makeRoom_acts (d : Descriptor) : Ensures (Acts limits) (makeRoom d) store
    fun _ t => ∃ memory, t = { store with memory } := by
  unfold makeRoom
  have record : Ensures (Acts limits) (d.layout.forM fun layout => do
      reserve layout.names.length (.outOfMemory .denied)
      reserve layout.table.size (.tableOutOfMemory .denied) : Run Unit) store
        fun _ t => ∃ memory, t = { store with memory } := by
    cases d.layout with
    | none => exact .pure .refl ⟨store.memory, rfl⟩
    | some layout =>
        refine (reserve_acts sound _ _).bind ?_
        rintro _ _ after ⟨memory, rfl⟩
        exact reserve_acts (after.sound sound) _ _
  refine record.bind ?_
  rintro _ _ after ⟨memory, rfl⟩
  cases d.subarray with
  | none => exact .pure .refl ⟨memory, rfl⟩
  | some subarray => exact reserve_acts (after.sound sound) _ _

theorem offerCopy_acts (ref : Ref) :
    Ensures (Acts limits) (offerCopy ref) store fun d t =>
      (∃ companion, d = { store.heap.get ref with companion }) ∧ t.heap = store.heap := by
  have leads := offerCopy_leads sound ref
  have asked : ∃ offers, ((offerCopy ref).run store).2 = { store with offers } := by
    unfold offerCopy
    rw [run_get_bind]
    dsimp only
    split
    · exact ⟨store.offers, rfl⟩
    · rename_i hook _
      cases hook.answer store.heap store.offers _ <;> exact ⟨_, rfl⟩
  obtain ⟨offers, asked⟩ := asked
  refine ⟨.single ⟨?_, leads.later.sound⟩, leads.good⟩
  rw [asked]
  exact .hooked store.hook offers store.memory

theorem duplicate_acts (ref : Ref) :
    Ensures (Acts limits) (duplicate ref) store fun d t =>
      (∃ companion, d = { store.heap.get ref with companion }) ∧ t.heap = store.heap := by
  refine .get_bind ((makeRoom_acts sound _).bind ?_)
  rintro _ _ after ⟨memory, rfl⟩
  exact offerCopy_acts (after.sound sound) ref

theorem duplicate_made (ref : Ref) :
    Ensures (Acts limits) (duplicate ref) store fun d t =>
      d.Fits t.heap ∧ d.Made limits t.heap := by
  refine ((duplicate_acts sound ref).also (duplicate_fits sound ref)).imp ?_
  rintro d t - ⟨⟨⟨companion, rfl⟩, same⟩, fits, -⟩
  exact ⟨fits, same ▸ .copied ref companion⟩

theorem fresh_made (code : Code) :
    Ensures (Acts limits) (fresh code) store fun d t =>
      d.Fits t.heap ∧ d.Made limits t.heap :=
  (shared_acts code).bind fun ref _ after _ => duplicate_made (after.sound sound) ref

theorem fresh_acts (code : Code) (builtin : code.isBuiltin = true) :
    Ensures (Acts limits) (fresh code) store fun d t =>
      (∃ companion, d = { Descriptor.canonical code with companion }) ∧ t.heap = store.heap := by
  refine (shared_acts code).bind ?_
  rintro ref _ - ⟨rfl, cell⟩
  rw [Store.cellOf?_builtin _ builtin] at cell
  obtain rfl := Option.some.inj cell
  refine (duplicate_acts sound code.number).imp fun d t _ => ?_
  rw [sound.builtin code builtin]
  exact id

theorem readType_made (text : String) :
    Ensures (Acts limits) (readType text) store fun d t =>
      d.Fits t.heap ∧ d.Made limits t.heap := by
  suffices worded : Ensures (Acts limits) (readType text) store fun d _ =>
      ∃ (w : Wording) (companion : Option String), d = { w.descriptor with companion } by
    refine (worded.also (readType_leads sound text)).imp ?_
    rintro d t - ⟨⟨w, companion, rfl⟩, fits, -⟩
    exact ⟨fits, .worded w companion⟩
  unfold readType
  cases read : TypeText.read? text with
  | none => exact .throw .refl
  | some said =>
      obtain ⟨-, kind, size, -, found⟩ := TypeText.shaped_of_read? read
      have builtin := (TypeText.sized?_eq_some found).1
      have worded : ∀ companion interval, said.interval text = .ok interval →
          ∃ (w : Wording) (c : Option String), { w.descriptor with companion := c } =
            { Descriptor.canonical said.code with
              size := said.size, order := TypeText.settle said.code.order said.order, interval,
              companion } := by
        intro companion interval asked
        obtain ⟨temporal, refined⟩ := TypeText.interval_eq_ok asked
        exact ⟨.ofSized found said.order interval temporal refined, companion, rfl⟩
      refine (fresh_acts sound _ builtin).bind ?_
      rintro plain t after ⟨⟨companion, rfl⟩, -⟩
      cases given : said.scale with
      | none =>
          obtain ⟨w, c, same⟩ := worded companion (Descriptor.canonical said.code).interval
            (by rw [TypeText.interval, given])
          exact .pure .refl ⟨w, c, same.symm⟩
      | some scale =>
          by_cases temporal : said.code.isTemporal = true
          · simp only [temporal, if_true]
            refine (Ensures.lift .refl _).bind ?_
            rintro interval _ - ⟨parsed, rfl⟩
            obtain ⟨w, c, same⟩ := worded companion (some interval)
              (by simp [TypeText.interval, given, temporal, parsed, Except.map])
            exact .pure .refl ⟨w, c, same.symm⟩
          · simp only [temporal, Bool.false_eq_true, if_false]
            exact .throw .refl

/-! ## Promotions -/

theorem promote_acts {a b : Ref} (allowed : limits.pair (store.heap.get a) (store.heap.get b)) :
    Ensures (Acts limits) (promote a b) store fun _ _ => True := by
  cases same : store.heap.equivalent a b with
  | true => exact .of_run (promote_run_equivalent same) .refl fun _ _ => trivial
  | false =>
      refine .of_eq (promote_run same) ?_
      unfold promoteTo
      split
      · rename_i sizable
        have builtin := Code.isBuiltin_of_isSizable sizable
        refine (shared_acts _).bind ?_
        rintro ref _ - ⟨rfl, cell⟩
        rw [Store.cellOf?_builtin _ builtin] at cell
        obtain rfl := Option.some.inj cell
        refine .get_bind ?_
        split
        · exact .pure .refl trivial
        · refine (duplicate_acts sound _).bind ?_
          rintro copy t after ⟨⟨companion, rfl⟩, same⟩
          rw [sound.builtin _ builtin]
          rw [← same] at allowed sizable ⊢
          refine (adopt_acts (after.sound sound) ?_ (.promoted allowed sizable companion)).imp
            fun _ _ _ _ => trivial
          exact fun _ link => nomatch link
      · exact (shared_acts _).imp fun _ _ _ _ => trivial

theorem combine_acts {a : Ref} {least : Option Ref}
    (allowed : ∀ b, least = some b → limits.pair (store.heap.get a) (store.heap.get b)) :
    Ensures (Acts limits) (combine a least) store fun _ _ => True := by
  unfold combine
  cases least with
  | none => exact .pure .refl trivial
  | some least =>
      refine (promote_acts sound (allowed least rfl)).bind fun result t _ _ => .get_bind ?_
      dsimp only
      split
      · exact (shared_acts _).imp fun _ _ _ _ => trivial
      · exact .pure .refl trivial

/-! ## Records -/

theorem sizedText_acts {code : Code} {size : Size} (builtin : code.isBuiltin = true)
    (made : ∀ (heap : Heap) (companion : Option String),
      { Descriptor.canonical code with size, companion }.Made limits heap) :
    Ensures (Acts limits) (sizedText code size) store fun _ _ => True := by
  refine (fresh_acts sound _ builtin).bind ?_
  rintro d t after ⟨⟨companion, rfl⟩, -⟩
  refine (adopt_acts (after.sound sound) ?_ (made t.heap companion)).imp fun _ _ _ _ => trivial
  exact fun _ link => nomatch link

theorem arrayOf_acts {base : Ref} (inside : base < store.heap.size) (shape : List Size) :
    Ensures (Acts limits) (arrayOf base shape) store fun _ _ => True := by
  refine .get_bind ?_
  dsimp only
  split
  · rename_i size total
    refine (fresh_acts sound .void rfl).bind ?_
    rintro d t after ⟨⟨companion, rfl⟩, same⟩
    rw [← same] at inside total ⊢
    refine (adopt_acts (after.sound sound) (fun ref link => ?_)
      (.array ⟨base, shape⟩ inside (Size.ofNat?_eq_some.1 total) companion)).imp
        fun _ _ _ _ => trivial
    obtain rfl : ref = base := List.mem_singleton.1 link
    exact inside
  · exact .throw .refl

omit sound in
def FieldType.Within {α : Type} (limits : Limits) (type : FieldType α) : Prop :=
  ∀ n, type = .unicode n → limits.characters n

theorem realize_acts {plan : FieldPlan Ref} (fits : plan.Fits store.heap)
    (within : plan.type.Within limits) :
    Ensures (Acts limits) plan.realize store fun _ _ => True := by
  have element : Ensures (Acts limits) plan.type.realize store fun ref t =>
      ref < t.heap.size := by
    unfold FieldType.realize
    cases type : plan.type with
    | scalar code =>
        refine (shared_acts code).imp ?_
        rintro ref _ - ⟨rfl, cell⟩
        exact sound.owned_lt ref (Store.mem_owned_of_cellOf? cell)
    | string bytes =>
        refine ((sizedText_acts sound rfl fun _ => .string bytes).also
          (sizedText_leads sound .string bytes)).imp ?_
        exact fun _ _ _ holds => holds.2.1
    | unicode n =>
        refine ((sizedText_acts sound rfl fun _ => .unicode (within n type)).also
          (sizedText_leads sound .unicode _)).imp ?_
        exact fun _ _ _ holds => holds.2.1
    | existing ref => exact .pure .refl (fits ref type)
  refine element.bind fun ref t after inside => ?_
  split
  · exact .pure .refl trivial
  · exact arrayOf_acts (after.sound sound) inside _

omit sound in
structure Draft.Holds (draft : Draft) (heap : Heap) : Prop where
  alignment : 0 < draft.alignment.toNat
  fields : ∀ e ∈ draft.table.entries, e.target < heap.size ∧
    e.offset.toNat + (heap.get e.target).size.toNat ≤ draft.size.toNat

omit sound in
theorem Draft.holds_empty (heap : Heap) : Draft.empty.Holds heap where
  alignment := by decide
  fields e member := nomatch member

omit sound in
theorem Draft.Holds.extend {draft : Draft} {heap later : Heap} (holds : draft.Holds heap)
    (grown : heap.Extends later) : draft.Holds later := by
  refine ⟨holds.alignment, fun e member => ?_⟩
  obtain ⟨inside, bound⟩ := holds.fields e member
  rw [grown.get _ inside]
  exact ⟨Nat.lt_of_lt_of_le inside grown.size, bound⟩

omit sound in
theorem Draft.Holds.flag {draft : Draft} {heap later : Heap} (holds : draft.Holds heap)
    (flagged : heap.Flagged later) : draft.Holds later := by
  refine ⟨holds.alignment, fun e member => ?_⟩
  rw [flagged.size, (flagged.kept _).size]
  exact holds.fields e member

omit sound in
theorem Draft.Holds.fits {draft : Draft} {heap : Heap} (holds : draft.Holds heap)
    {d : Descriptor} (names : Names) (record : d.layout = some ⟨names, draft.table⟩)
    (single : d.subarray = none) : d.Fits heap := by
  intro ref link
  rcases Descriptor.mem_links_iff.1 link with ⟨_, same, e, member, rfl⟩ | ⟨_, none, -⟩
  · obtain rfl := Option.some.inj (record.symm.trans same)
    exact (holds.fields e member).1
  · rw [single] at none
    cases none

omit sound in
theorem Draft.Holds.place {draft next : Draft} {heap : Heap} {plan : FieldPlan Ref} {target : Ref}
    {alignment : Size} (holds : draft.Holds heap) (inside : target < heap.size)
    (placed : draft.place plan target (heap.get target).size alignment = .ok next) :
    next.Holds heap := by
  obtain ⟨-, -, offset, cursor, -, fits, rfl⟩ := Draft.place_eq_ok placed
  have total := Size.add?_eq_some.1 fits
  have new : ∀ e : Entry, e.toField = ⟨target, offset, plan.title⟩ → e.target < heap.size ∧
      e.offset.toNat + (heap.get e.target).size.toNat ≤ (max draft.size cursor).toNat := by
    rintro ⟨_, key⟩ ⟨⟩
    rw [Size.toNat_max, ← total]
    exact ⟨inside, Nat.le_max_right ..⟩
  have old : ∀ e ∈ draft.table.entries, e.target < heap.size ∧
      e.offset.toNat + (heap.get e.target).size.toNat ≤ (max draft.size cursor).toNat := by
    intro e member
    obtain ⟨inside, bound⟩ := holds.fields e member
    rw [Size.toNat_max]
    exact ⟨inside, Nat.le_trans bound (Nat.le_max_left ..)⟩
  refine ⟨?_, fun e member => ?_⟩
  · rw [Size.toNat_max]
    exact Nat.lt_of_lt_of_le holds.alignment (Nat.le_max_left ..)
  dsimp only at member
  split at member
  · rcases Table.mem_put member with written | before
    · exact new e (by rw [written])
    · exact old e before
  · rcases Table.mem_put member with written | member
    · exact new e (by rw [written])
    · rcases Table.mem_put member with written | before
      · exact new e (by rw [written])
      · exact old e before

theorem extend_acts {plan : FieldPlan Ref} (fits : plan.Fits store.heap)
    (within : plan.type.Within limits) (aligned : Bool) {draft : Draft}
    (holds : draft.Holds store.heap) :
    Ensures (Acts limits) (draft.extend aligned plan) store fun next t =>
      next.Holds t.heap := by
  refine ((realize_acts sound fits within).also (realize_leads sound fits)).bind ?_
  rintro target t after ⟨-, inside, leads⟩
  refine .get_bind ((Ensures.lift .refl _).imp ?_)
  rintro next _ - ⟨placed, rfl⟩
  exact (holds.extend leads.grows.heap).place inside placed

omit sound in
theorem Size.le_of_roundUp? {n unit m : Size} (h : roundUp? n unit = some m)
    (positive : 0 < unit.toNat) : n.toNat ≤ m.toNat := by
  have split := Nat.div_add_mod' (n.toNat + (unit.toNat - 1)) unit.toNat
  have rest := Nat.mod_lt (n.toNat + (unit.toNat - 1)) positive
  rw [toNat_roundUp h]
  omega

theorem search_made {record : Descriptor} (fits : record.Fits store.heap)
    (made : ∀ heap flags, store.heap.Flagged heap → { record with flags }.Made limits heap) :
    Ensures (Acts limits) (do
      let store ← get
      set { store with heap := (store.heap.findObjects record).2 }
      return if (store.heap.findObjects record).1 then { record with flags := .object }
        else record : Run Descriptor) store fun d t => d.Fits t.heap ∧ d.Made limits t.heap := by
  have flagged := Heap.flagged_findObjects sound.closed sound.acyclic fits
  refine .get_bind (.of_run rfl (.single ⟨.flagged flagged, (flagged_follows sound flagged).sound⟩)
    fun d value => ?_)
  rw [← Except.ok.inj value]
  refine ⟨flagged.fits (fits.of_subset ?_), ?_⟩
  · split <;> exact fun _ => id
  · split <;> exact made _ _ flagged

omit sound in
theorem Draft.Holds.made {draft : Draft} {names : Names} {heap : Heap} (holds : draft.Holds heap)
    (formed : Layout.WellFormed ⟨names, draft.table⟩) {size : Size}
    (padded : draft.size.toNat ≤ size.toNat) (alignment : Size) (flags : Flags)
    (companion : Option String) :
    Descriptor.Made limits heap { Descriptor.canonical .void with
      size, alignment, flags, layout := some ⟨names, draft.table⟩, companion } :=
  .record formed (fun e member => ⟨(holds.fields e member).1,
    Nat.le_trans (holds.fields e member).2 padded⟩) alignment flags companion

theorem build_made {plan : Blueprint Ref} (fits : ∀ field ∈ plan.fields, field.Fits store.heap)
    (within : ∀ field ∈ plan.fields, field.type.Within limits) :
    Ensures (Acts limits) (build plan) store fun d t =>
      d.Fits t.heap ∧ d.Made limits t.heap := by
  unfold build
  refine (reserve_acts sound _ _).bind ?_
  rintro _ _ roomy ⟨memory, rfl⟩
  have sound := roomy.sound sound
  refine (Ensures.foldlM .refl (fun draft t => draft.Holds t.heap) plan.fields
    (Draft.holds_empty _) ?_).traced.bind ?_
  · intro field member draft t after holds
    refine extend_acts (after.sound sound) (fun ref same => ?_) (within field member) _ holds
    exact Nat.lt_of_lt_of_le (fits field member ref same) (after.size_le sound)
  · rintro draft t after ⟨holds, ran⟩
    have formed := Draft.fields_wellFormed .empty ran
    refine (fresh_acts (after.sound sound) .void rfl).bind ?_
    rintro plain u after' ⟨⟨companion, rfl⟩, same⟩
    rw [← same] at holds
    have sound' := after'.sound (after.sound sound)
    have made : ∀ {size : Size}, draft.size.toNat ≤ size.toNat → ∀ heap flags,
        u.heap.Flagged heap → Descriptor.Made limits heap { Descriptor.canonical .void with
          size, alignment := draft.alignment, flags
          layout := some ⟨plan.fields.map (·.name), draft.table⟩, companion } :=
      fun padded _ flags flagged =>
        (holds.flag flagged).made formed padded draft.alignment flags companion
    dsimp only
    split
    · split
      · rename_i size rounded
        exact search_made sound' (holds.fits _ rfl rfl)
          (made (Size.le_of_roundUp? rounded holds.alignment))
      · exact .throw .refl
    · exact search_made sound' (holds.fits _ rfl rfl) (made (Nat.le_refl _))

/-! ## Copies -/

section Reordering

variable (limits) (change : OrderChange)

omit sound in
structure Store.Adds (old new : Store) : Prop where
  acts : Acts limits old new
  leads : old.Leads new

omit sound in
instance : Onward (Store.Adds limits) where
  trans first second := ⟨Onward.trans first.acts second.acts, Onward.trans first.leads second.leads⟩
  here after := ⟨.refl, after.leads.sound.leads⟩

omit sound in
variable {limits} in
theorem Ensures.adds {α : Type} {run : Run α} {good better : α → Store → Prop}
    (acts : Ensures (Acts limits) run store good) (leads : Ensures Store.Leads run store better) :
    Ensures (Store.Adds limits) run store fun a t => good a t ∧ better a t :=
  ⟨⟨acts.later, leads.later⟩, fun a same => ⟨acts.good a same, leads.good a same⟩⟩

omit sound in
def ReordersBy (heap : Heap) (n : Nat) : Prop :=
  ∀ ref store, ref < heap.size → heap.Within n (heap.get ref) → store.Sound →
    heap.Extends store.heap →
    Ensures (Store.Adds limits) (reorderWithin change n ref) store fun d t =>
      d.Fits t.heap ∧ d.Made limits t.heap

variable {limits}

omit sound in
theorem renew_adds {heap : Heap} {n : Nat} (reorders : ReordersBy limits change heap n)
    {target : Ref} (inside : target < heap.size) (within : heap.Within n (heap.get target))
    {store : Store} (sound : store.Sound) (grown : heap.Extends store.heap) :
    Ensures (Store.Adds limits) (do adopt (← reorderWithin change n target)) store
      fun _ _ => True := by
  refine (reorders target store inside within sound grown).bind ?_
  rintro d t after ⟨fits, made⟩
  have sound' := after.leads.sound
  exact ((adopt_acts sound' fits made).adds (adopt_leads sound' fits)).imp fun _ _ _ _ => trivial

omit sound in
theorem reorderWithin_adds {heap : Heap} (closed : heap.Closed) (n : Nat) :
    ReordersBy limits change heap n := by
  induction n with
  | zero => exact fun _ _ _ within => absurd within id
  | succ n ih =>
      intro ref store inside within sound grown
      have renew : ∀ target ∈ (heap.get ref).links, ∀ t, store.Adds limits t →
          Ensures (Store.Adds limits) (do adopt (← reorderWithin change n target)) t
            fun _ _ => True := fun target link t after =>
        renew_adds change ih (closed ref target link) (within target link) after.leads.sound
          (grown.trans after.leads.grows.heap)
      suffices runs : Ensures (Store.Adds limits) (reorderWithin change (n + 1) ref) store
          fun _ _ => True by
        refine ⟨runs.later, fun d same => ?_⟩
        have ⟨fits, renews⟩ :=
          (reorderWithin_leads change closed (n + 1) ref store inside within sound grown).good
            d same
        exact ⟨fits, .reordered closed (grown.trans runs.later.leads.grows.heap) inside renews⟩
      unfold reorderWithin
      refine ((duplicate_acts sound ref).adds (duplicate_leads sound ref)).bind ?_
      rintro copy t after ⟨⟨⟨companion, rfl⟩, -⟩, -⟩
      rw [grown.get ref inside]
      refine (Ensures.optionMapM (Onward.here after) _ (fun _ _ _ => True) (heap.get ref).layout
        fun layout record => ?_).bind fun layout u after' _ => ?_
      · refine (Ensures.mapM (Onward.here after) _ (fun _ _ _ => True) (fun _ _ _ _ _ => id)
          layout.table.primary fun entry member v later => ?_).map fun _ _ _ _ => trivial
        have link := Descriptor.mem_links_iff.2
          (.inl ⟨layout, record, entry, (Table.mem_primary.1 member).1, rfl⟩)
        rw [← bind_assoc]
        exact (renew entry.target link v (Onward.trans after later)).map fun _ _ _ _ => trivial
      · have later := Onward.trans after after'
        refine (Ensures.optionMapM (Onward.here later) _ (fun _ _ _ => True) (heap.get ref).subarray
          fun subarray based => ?_).map fun _ _ _ _ => trivial
        have link := Descriptor.mem_links_iff.2 (.inr ⟨subarray, based, rfl⟩)
        rw [← bind_assoc]
        exact (renew subarray.base link u later).map fun _ _ _ _ => trivial

end Reordering

theorem reorder_made (change : OrderChange) {ref : Ref} (inside : ref < store.heap.size) :
    Ensures (Acts limits) (reorder change ref) store fun d t =>
      d.Fits t.heap ∧ d.Made limits t.heap := by
  refine .get_bind ((reorderWithin_adds change sound.closed _ ref store inside ?_ sound
    (.refl _)).mono (fun _ after => after.acts) fun _ _ _ => id)
  exact Heap.within_depth sound.closed sound.acyclic (sound.closed.fits ref)

theorem privateCell_acts (held : List Ref) (ref : Ref) :
    Ensures (Acts limits) (privateCell held ref) store fun _ _ => True := by
  refine .get_bind ?_
  split
  · exact .pure .refl trivial
  · exact adopting_acts sound (duplicate_made sound ref)

theorem register_acts (ref : Ref) :
    Ensures (Acts limits) (do register (← duplicate ref)) store fun _ _ => True := by
  refine ((duplicate_acts sound ref).also (duplicate_fits sound ref)).bind ?_
  rintro d t after ⟨⟨⟨companion, rfl⟩, same⟩, fits, -⟩
  have sound' := after.sound sound
  rw [← same] at fits ⊢
  have follows := (register_follows sound' fits).later
  have registered := register_registered t { t.heap.get ref with companion }
  rcases run : (register { t.heap.get ref with companion }).run t with ⟨r, u⟩
  rw [run] at follows registered
  cases registered with
  | refused => exact .of_run run .refl fun _ none => nomatch none
  | entered room =>
      exact .of_run run (.single ⟨.entered room ref companion, follows.sound⟩) fun _ _ => trivial

theorem registerCopies_acts (ref : Ref) (n : Nat) :
    Ensures (Acts limits) (registerCopies ref n) store fun _ _ => True := by
  induction n generalizing store with
  | zero => exact .pure .refl trivial
  | succ n ih =>
      unfold registerCopies
      rw [← bind_assoc]
      refine (register_acts sound ref).bind fun code t after _ => ?_
      split
      · exact .pure .refl trivial
      · exact ih (after.sound sound)

end Operations

end ElementTypes
