import ElementTypes.Proofs.Heap.Aliases
import ElementTypes.Proofs.Session.Step
import ElementTypes.Proofs.Store.Forced
import ElementTypes.Proofs.Store.Offers

/-! # Trees of descriptors in every session -/

namespace ElementTypes.Session

/-- A descriptor is native unless an order that counts is foreign. So it is native once the native
order is forced on it, and once the foreign order is, only if none of its orders was relevant. -/
structure NativeByOrders (store : Store) (ref : Ref) : Prop where
  native : store.heap.isNative ref = true ↔
    ∀ order, store.heap.Counts (store.heap.get ref) order → order ≠ .foreign
  changed : store.Accepting → ∀ change,
    Succeeds (reorderCell change ref) store fun new t => (t.heap.isNative new = true ↔
      ∀ order, store.heap.Counts (store.heap.get ref) order → change.apply order ≠ .foreign)
  forcedNative : store.Accepting →
    Succeeds (reorderCell (.force .native) ref) store fun new t => t.heap.isNative new = true
  forcedForeign : store.Accepting →
    Succeeds (reorderCell (.force .foreign) ref) store fun new t => (t.heap.isNative new = true ↔
      ∀ order, store.heap.Counts (store.heap.get ref) order → order = .irrelevant)

theorem native_by_orders (commands : List Command) {ref : Ref}
    (inside : ref < (initial.run commands).store.heap.size) :
    NativeByOrders (initial.run commands).store ref := by
  have sound := (sound_run sound_initial commands).store
  have changed := fun (accepting : (initial.run commands).store.Accepting) change =>
    reorderCell_native change sound ⟨accepting, ample_run commands⟩ inside
  refine ⟨Heap.isNative_iff_counts sound.closed sound.acyclic ref, changed, fun accepting => ?_,
    fun accepting => ?_⟩
  · obtain ⟨new, t, ran, native⟩ := changed accepting (.force .native)
    exact ⟨new, t, ran, native.2 fun order _ => OrderChange.apply_native_ne order⟩
  · obtain ⟨new, t, ran, native⟩ := changed accepting (.force .foreign)
    refine ⟨new, t, ran, native.trans (forall₂_congr fun order _ => ?_)⟩
    exact OrderChange.apply_foreign_ne_iff

def foreignRow : List Command :=
  [.make "i" (.same (.written ">i4")),
    .make "r" (.build ⟨false, [⟨"a", none, .existing (.named "i"), [2], none⟩,
      ⟨"b", none, .scalar .byte, [], none⟩]⟩),
    .edit "r" (.order .big)]

theorem native_by_orders_foreignRow : 25 < (initial.run foreignRow).store.heap.size ∧
    (initial.run foreignRow).store.heap.isNative 25 = false ∧
    (initial.run foreignRow).store.Accepting ∧
    NativeByOrders (initial.run foreignRow).store 25 := by
  have inside : 25 < (initial.run foreignRow).store.heap.size := by decide +kernel
  have bare : (initial.run foreignRow).store.hook = none :=
    Option.isNone_iff_eq_none.1 (by decide +kernel)
  exact ⟨inside, by decide +kernel, Store.accepting_of_bare bare, native_by_orders foreignRow inside⟩

/-- Descriptors that are the same but for what their aliases refer to, of one session or of two, get
the same answers. -/
theorem aliases_passed_over (commands commands' : List Command) {a b : Ref}
    (inside : a < (initial.run commands).store.heap.size)
    (inside' : b < (initial.run commands').store.heap.size)
    (same : (initial.run commands).store.heap.SameButAliases
      (initial.run commands').store.heap a b) :
    (initial.run commands).store.heap.PassesAliases (initial.run commands').store.heap a b := by
  have sound := (sound_run sound_initial commands).store
  have sound' := (sound_run sound_initial commands').store
  exact Heap.passesAliases sound.closed sound.acyclic sound'.closed sound'.acyclic inside inside'
    same

def titledObject : List Command :=
  [.make "in" (.build ⟨false, [⟨"o", none, .scalar .object, [], none⟩]⟩),
    .edit "in" (.flags .empty), .make "out" (.fresh .void),
    .edit "out" (.fields ["x"] [⟨"x", .named "in", 0, some "t"⟩, ⟨"t", .named "in", 0, some "t"⟩])]

def pointedElsewhere : List Command :=
  titledObject ++ [.edit "out" (.retarget "t" (.shared .int))]

set_option maxRecDepth 2000 in
theorem aliases_passed_over_pointedElsewhere :
    24 < (initial.run titledObject).store.heap.size ∧
    24 < (initial.run pointedElsewhere).store.heap.size ∧
    ((initial.run titledObject).store.heap.get 24).find? "t" = some ⟨⟨23, 0, some "t"⟩, "t"⟩ ∧
    ((initial.run pointedElsewhere).store.heap.get 24).find? "t" = some ⟨⟨5, 0, some "t"⟩, "t"⟩ ∧
    ((initial.run titledObject).store.heap.findObjects
      ((initial.run titledObject).store.heap.get 24)).1 = true ∧
    (initial.run titledObject).store.heap.SharesAlike (initial.run pointedElsewhere).store.heap
      24 24 ∧
    (((initial.run pointedElsewhere).store.heap.findObjects
      ((initial.run pointedElsewhere).store.heap.get 24)).2.get 23).flags =
    (((initial.run titledObject).store.heap.findObjects
      ((initial.run titledObject).store.heap.get 24)).2.get 23).flags ∧
    (initial.run titledObject).store.heap.PassesAliases (initial.run pointedElsewhere).store.heap
      24 24 := by
  have record : ((initial.run titledObject).store.heap.get 24).layout = some ⟨["x"],
    (Table.empty.put "x" ⟨23, 0, some "t"⟩).put "t" ⟨23, 0, some "t"⟩⟩ := rfl
  have listed : (⟨⟨23, 0, some "t"⟩, "t"⟩ : Entry) ∈
    ((Table.empty.put "x" ⟨23, 0, some "t"⟩).put "t" ⟨23, 0, some "t"⟩).entries := by decide
  have same : (initial.run titledObject).store.heap.SameButAliases
      (initial.run pointedElsewhere).store.heap 24 24 :=
    Heap.sameButAliases_retarget record listed rfl 5 24
  have shared : (initial.run titledObject).store.heap.SharesAlike
      (initial.run pointedElsewhere).store.heap 24 24 :=
    Heap.sharesAlike_of_turns (Heap.turn?_retarget record listed rfl 5) 24
  have inside : 24 < (initial.run titledObject).store.heap.size := by decide +kernel
  have inside' : 24 < (initial.run pointedElsewhere).store.heap.size := by decide +kernel
  have passes := aliases_passed_over titledObject pointedElsewhere inside inside' same
  exact ⟨inside, inside', by decide +kernel, by decide +kernel, by decide +kernel, shared,
    passes.flags shared [.field "x"] 23 23 (by decide +kernel) (by decide +kernel), passes⟩

def oneAndTwo : List Command :=
  [.make "one" (.build ⟨false, [⟨"o", none, .scalar .object, [], none⟩]⟩),
    .edit "one" (.flags .empty),
    .make "two" (.build ⟨false, [⟨"o", none, .scalar .object, [], none⟩]⟩),
    .edit "two" (.flags .empty), .make "a" (.fresh .void),
    .edit "a" (.fields ["x", "y"] [⟨"x", .named "one", 0, none⟩, ⟨"y", .named "one", 0, some "t"⟩,
      ⟨"t", .shared .int, 0, some "t"⟩]),
    .make "b" (.fresh .void),
    .edit "b" (.fields ["x", "y"] [⟨"x", .named "one", 0, none⟩, ⟨"y", .named "two", 0, some "t"⟩,
      ⟨"t", .shared .short, 0, some "t"⟩])]

/-- Both records are the same but for their aliases, but the cells are not shared alike. A search
ends at the first field, which is the second one too in the first record and not in the other. -/
theorem flags_apart_oneAndTwo :
    25 < (initial.run oneAndTwo).store.heap.size ∧ 26 < (initial.run oneAndTwo).store.heap.size ∧
    (initial.run oneAndTwo).store.heap.SameButAliases (initial.run oneAndTwo).store.heap 25 26 ∧
    (initial.run oneAndTwo).store.heap.down? 25 [.field "y"] = some 23 ∧
    (initial.run oneAndTwo).store.heap.down? 26 [.field "y"] = some 24 ∧
    (((initial.run oneAndTwo).store.heap.findObjects
      ((initial.run oneAndTwo).store.heap.get 25)).2.get 23).flags = .object ∧
    (((initial.run oneAndTwo).store.heap.findObjects
      ((initial.run oneAndTwo).store.heap.get 26)).2.get 24).flags = .empty := by
  have cells : ((initial.run oneAndTwo).store.heap.get 25).layout =
        some ⟨["x", "y"], ((Table.empty.put "x" ⟨23, 0, none⟩).put "y" ⟨23, 0, some "t"⟩).put "t"
          ⟨5, 0, some "t"⟩⟩ ∧
      ((initial.run oneAndTwo).store.heap.get 26).layout =
        some ⟨["x", "y"], ((Table.empty.put "x" ⟨23, 0, none⟩).put "y" ⟨24, 0, some "t"⟩).put "t"
          ⟨3, 0, some "t"⟩⟩ ∧
      ((initial.run oneAndTwo).store.heap.get 25).subarray = none ∧
      ((initial.run oneAndTwo).store.heap.get 26).subarray = none ∧
      (initial.run oneAndTwo).store.heap.get 26 =
        { (initial.run oneAndTwo).store.heap.get 25 with
          layout := ((initial.run oneAndTwo).store.heap.get 26).layout
          subarray := ((initial.run oneAndTwo).store.heap.get 26).subarray } ∧
      (initial.run oneAndTwo).store.heap.get 24 = (initial.run oneAndTwo).store.heap.get 23 := by
    decide +kernel
  have same : (initial.run oneAndTwo).store.heap.SameButAliases
      (initial.run oneAndTwo).store.heap 25 26 := by
    generalize (initial.run oneAndTwo).store.heap = heap at *
    obtain ⟨left, right, plain, plain', rest, equal⟩ := cells
    have below : heap.SameButAliases heap 23 24 := by
      unfold Heap.SameButAliases
      rw [equal]
      exact Heap.SameButAliases.refl heap 23
    refine Heap.sameButAliases_of_get ⟨rest, ?_, ?_⟩ (Descriptor.turn?_rel ?_ ?_)
    · rw [left, right]
      exact .some ⟨rfl, .cons ⟨rfl, rfl, rfl⟩ (.cons ⟨rfl, rfl, rfl⟩ (.cons ⟨rfl, rfl, rfl⟩ .nil))⟩
    · rw [plain, plain']
      exact .none
    · rw [left, right]
      exact .some (.cons ⟨rfl, rfl, fun _ => .refl heap 23⟩ (.cons ⟨rfl, rfl, fun _ => below⟩
        (.cons ⟨rfl, rfl, fun own => absurd own (by decide)⟩ .nil)))
    · rw [plain, plain']
      exact .none
  have reached : 25 < (initial.run oneAndTwo).store.heap.size ∧
      26 < (initial.run oneAndTwo).store.heap.size ∧
      (initial.run oneAndTwo).store.heap.down? 25 [.field "y"] = some 23 ∧
      (initial.run oneAndTwo).store.heap.down? 26 [.field "y"] = some 24 ∧
      (((initial.run oneAndTwo).store.heap.findObjects
        ((initial.run oneAndTwo).store.heap.get 25)).2.get 23).flags = .object ∧
      (((initial.run oneAndTwo).store.heap.findObjects
        ((initial.run oneAndTwo).store.heap.get 26)).2.get 24).flags = .empty := by decide +kernel
  obtain ⟨inside, inside', down, down', raised, kept⟩ := reached
  exact ⟨inside, inside', same, down, down', raised, kept⟩

/-- A change of byte order offers the hook one copy of every node for each path to it, in preorder.
The first refusal ends it and is its error. Otherwise it succeeds, and every node of the new tree
has the companion that was returned for its copy. -/
structure AsksInOrder (store : Store) (change : OrderChange) (ref : Ref) : Prop where
  order : ∀ cell < store.heap.size, store.heap.preorder cell =
    cell :: (store.heap.get cell).primaryLinks.flatMap store.heap.preorder
  asked : Asked store.hook store.heap store.offers
    ((store.heap.preorder ref).map store.heap.offer)
    (fun new companions t =>
      companions = (t.heap.preorder new).map (fun cell => (t.heap.get cell).companion) ∧
        List.Forall₂ (fun old cell => (store.heap.get old).Renewed change (t.heap.get cell))
          (store.heap.preorder ref) (t.heap.preorder new))
    ((reorderCell change ref).run store)
  offered : ∀ hook new t, store.hook = some hook →
    (reorderCell change ref).run store = (.ok new, t) →
    t.offers = ((store.heap.preorder ref).map store.heap.offer).reverse ++ store.offers
  refusing : ∀ hook code, store.hook = some hook → hook.Refuses code →
    ((∃ error, ((reorderCell change ref).run store).1 = .error error) ↔
      ∃ path x, store.heap.below? (store.heap.get ref) path = some x ∧ x.code = code)

theorem offers_in_order (commands : List Command) (change : OrderChange) {ref : Ref}
    (inside : ref < (initial.run commands).store.heap.size) :
    AsksInOrder (initial.run commands).store change ref := by
  have sound := (sound_run sound_initial commands).store
  have asked := (reorderCell_asks change sound (ample_run commands) inside).asked
  refine ⟨fun cell => Heap.preorder_eq sound.closed sound.acyclic, asked, ?_, ?_⟩
  · intro hook new t installed ran
    rw [installed] at asked
    obtain ⟨companions, heard, -⟩ := asked.of_ok ran
    exact heard.log_eq
  · intro hook code installed refuses
    rw [installed] at asked
    simp only [asked.fails_iff refuses, Heap.mem_preorder sound.closed sound.acyclic,
      Heap.below?_get, Option.map_eq_some_iff]
    constructor
    · rintro ⟨cell, ⟨path, leads⟩, here⟩
      exact ⟨path, _, ⟨cell, leads, rfl⟩, here⟩
    · rintro ⟨path, _, ⟨cell, leads, rfl⟩, here⟩
      exact ⟨cell, ⟨path, leads⟩, here⟩

def refusedShort : List Command :=
  [.make "i" (.fresh .int),
    .make "r" (.build ⟨false, [⟨"x", some "t", .existing (.named "i"), [2], none⟩,
      ⟨"y", none, .scalar .short, [], none⟩]⟩),
    .install (some (.refusing (some .short) "no"))]

theorem offers_in_order_refusedShort : 25 < (initial.run refusedShort).store.heap.size ∧
    (Hook.refusing (some .short) "no").Refuses .short ∧
    (initial.run refusedShort).store.heap.preorder 25 = [25, 24, 23, 3] ∧
    ((reorderCell .swap 25).run (initial.run refusedShort).store).1 = .error (.refused "no") ∧
    AsksInOrder (initial.run refusedShort).store .swap 25 := by
  have inside : 25 < (initial.run refusedShort).store.heap.size := by decide +kernel
  have visited : (initial.run refusedShort).store.heap.preorder 25 = [25, 24, 23, 3] := by
    decide +kernel
  exact ⟨inside, Hook.refuses_refusing .short "no", visited, by decide +kernel,
    offers_in_order refusedShort .swap inside⟩

end ElementTypes.Session
