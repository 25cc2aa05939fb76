import ElementTypes.Proofs.Heap.Preorder
import ElementTypes.Proofs.Store.Swap

/-! # What hooks are offered

A change of byte order offers the hook a copy of every node, in preorder, and stops at the first one
that is turned down.
-/

namespace ElementTypes

/-! ## Hearings -/

def Heap.offer (heap : Heap) (ref : Ref) : Offer := ⟨ref, { heap.get ref with companion := none }⟩

/-- Offers that are accepted one after the other, and the companion each is accepted with. The hook
sees a heap that has grown from the given one, and all offers before. -/
inductive Heard (hook : Option Hook) (heap : Heap) :
    List Offer → List Offer → List Offer → List (Option String) → Prop
  | done {log : List Offer} : Heard hook heap log [] log []
  | unasked {log last rest : List Offer} {companions : List (Option String)} {offer : Offer}
      (absent : hook = none) (later : Heard hook heap log rest last companions) :
      Heard hook heap log (offer :: rest) last (none :: companions)
  | accepted {log last rest : List Offer} {companions : List (Option String)} {offer : Offer}
      {h : Hook} {now : Heap} {companion : Option String} (installed : hook = some h)
      (seen : heap.Extends now) (answer : h.answer now log offer = .ok companion)
      (later : Heard hook heap (offer :: log) rest last companions) :
      Heard hook heap log (offer :: rest) last (companion :: companions)

/-- Offers of which one is turned down: those before it are accepted, and those after it are not
made. -/
inductive TurnedDown (hook : Option Hook) (heap : Heap) (log : List Offer) :
    List Offer → List Offer → String → Prop
  | refused {before after mid : List Offer} {companions : List (Option String)} {offer : Offer}
      {h : Hook} {now : Heap} {message : String}
      (earlier : Heard hook heap log before mid companions) (installed : hook = some h)
      (seen : heap.Extends now) (answer : h.answer now mid offer = .error message) :
      TurnedDown hook heap log (before ++ offer :: after) (offer :: mid) message

section Hearings

variable {hook : Option Hook} {heap : Heap} {log mid last offers more : List Offer}
  {companions others : List (Option String)} {message : String}

theorem Heard.append (first : Heard hook heap log offers mid companions)
    (second : Heard hook heap mid more last others) :
    Heard hook heap log (offers ++ more) last (companions ++ others) := by
  induction first with
  | done => exact second
  | unasked absent _ ih => exact .unasked absent (ih second)
  | accepted installed seen answer _ ih => exact .accepted installed seen answer (ih second)

theorem TurnedDown.append (down : TurnedDown hook heap log offers last message)
    (more : List Offer) : TurnedDown hook heap log (offers ++ more) last message := by
  obtain ⟨earlier, installed, seen, answer⟩ := down
  rw [List.append_assoc, List.cons_append]
  exact .refused earlier installed seen answer

theorem Heard.append_turnedDown (first : Heard hook heap log offers mid companions)
    (down : TurnedDown hook heap mid more last message) :
    TurnedDown hook heap log (offers ++ more) last message := by
  obtain ⟨earlier, installed, seen, answer⟩ := down
  rw [← List.append_assoc]
  exact .refused (first.append earlier) installed seen answer

theorem Heard.log_eq {h : Hook} (heard : Heard (some h) heap log offers last companions) :
    last = offers.reverse ++ log := by
  generalize same : some h = hook at heard
  induction heard with
  | done => rfl
  | unasked absent => rw [absent] at same; cases same
  | accepted _ _ _ _ ih => rw [ih, List.reverse_cons, List.append_assoc]; rfl

end Hearings

/-! ## Runs that ask -/

inductive Asked {α : Type} (hook : Option Hook) (heap : Heap) (log offers : List Offer)
    (good : α → List (Option String) → Store → Prop) : Except Error α × Store → Prop
  | accepted {a : α} {companions : List (Option String)} {t : Store}
      (heard : Heard hook heap log offers t.offers companions) (value : good a companions t) :
      Asked hook heap log offers good (.ok a, t)
  | refused {message : String} {t : Store}
      (down : TurnedDown hook heap log offers t.offers message) :
      Asked hook heap log offers good (.error (.refused message), t)

theorem Asked.of_ok {α : Type} {hook : Option Hook} {heap : Heap} {log offers : List Offer}
    {good : α → List (Option String) → Store → Prop} {out : Except Error α × Store}
    (asked : Asked hook heap log offers good out) {a : α} {t : Store} (ran : out = (.ok a, t)) :
    ∃ companions, Heard hook heap log offers t.offers companions ∧ good a companions t := by
  cases asked with
  | accepted heard value =>
      cases ran
      exact ⟨_, heard, value⟩
  | refused => cases ran

structure Asks {α : Type} (heap : Heap) (run : Run α) (store : Store) (cells : List Ref)
    (good : α → List (Option String) → Store → Prop) : Prop where
  leads : store.Leads (run.run store).2
  asked : Asked store.hook heap store.offers (cells.map heap.offer) good (run.run store)

namespace Asks

variable {α β : Type} {heap : Heap} {run : Run α} {f : α → Run β} {store : Store}
  {cells more : List Ref} {good : α → List (Option String) → Store → Prop}

theorem of_ok {a : α} {t : Store} (ran : run.run store = (.ok a, t)) (leads : store.Leads t)
    (same : t.offers = store.offers) (value : good a [] t) : Asks heap run store [] good := by
  refine ⟨by rw [ran]; exact leads, ?_⟩
  rw [ran]
  refine .accepted ?_ value
  rw [same]
  exact .done

theorem pure {a : α} (sound : store.Sound) (value : good a [] store) :
    Asks heap (Pure.pure a) store [] good :=
  of_ok rfl sound.leads rfl value

theorem congr {other : Run α} (asks : Asks heap run store cells good)
    (same : other.run store = run.run store) : Asks heap other store cells good := by
  refine ⟨?_, ?_⟩ <;> rw [same]
  · exact asks.leads
  · exact asks.asked

theorem imp {better : α → List (Option String) → Store → Prop}
    (asks : Asks heap run store cells better)
    (value : ∀ a companions t, store.Leads t → better a companions t → good a companions t) :
    Asks heap run store cells good := by
  obtain ⟨leads, asked⟩ := asks
  refine ⟨leads, ?_⟩
  generalize run.run store = out at leads asked
  cases asked with
  | accepted heard holds => exact .accepted heard (value _ _ _ leads holds)
  | refused down => exact .refused down

theorem ensuring {P : α → Store → Prop} (asks : Asks heap run store cells good)
    (ensures : Ensures Store.Leads run store P) :
    Asks heap run store cells fun a companions t => P a t ∧ good a companions t := by
  obtain ⟨leads, asked⟩ := asks
  have holds := ensures.good
  refine ⟨leads, ?_⟩
  generalize run.run store = out at asked holds
  cases asked with
  | accepted heard value => exact .accepted heard ⟨holds _ rfl, value⟩
  | refused down => exact .refused down

theorem bind {last : β → List (Option String) → Store → Prop}
    (first : Asks heap run store cells good)
    (rest : ∀ a companions t, store.Leads t → good a companions t →
      Asks heap (f a) t more fun b others u => last b (companions ++ others) u) :
    Asks heap (run >>= f) store (cells ++ more) last := by
  obtain ⟨leads, asked⟩ := first
  rcases ran : run.run store with ⟨result, t⟩
  rw [ran] at leads asked
  cases asked with
  | @refused message _ down =>
      refine ⟨by rw [run_bind_error run f store ran]; exact leads, ?_⟩
      rw [run_bind_error run f store ran, List.map_append]
      exact .refused (down.append _)
  | @accepted a companions _ heard value =>
      obtain ⟨leads', asked'⟩ := rest a companions t leads value
      refine ⟨by rw [run_bind_ok run f store ran]; exact Onward.trans leads leads', ?_⟩
      rw [run_bind_ok run f store ran, List.map_append]
      rw [leads.grows.hook] at asked'
      generalize (f a).run t = out at asked'
      cases asked' with
      | accepted later value' => exact .accepted (heard.append later) value'
      | refused down => exact .refused (heard.append_turnedDown down)

theorem map {g : α → β} {last : β → List (Option String) → Store → Prop}
    (first : Asks heap run store cells good)
    (value : ∀ a companions t, store.Leads t → good a companions t → last (g a) companions t) :
    Asks heap (do return g (← run)) store cells last := by
  rw [← List.append_nil cells]
  refine first.bind fun a companions t leads holds => .pure leads.sound ?_
  rw [List.append_nil]
  exact value a companions t leads holds

theorem mapM {f : α → Run β} (cells : α → List Ref) (told : β → Store → List (Option String))
    (good : α → β → Store → Prop)
    (stable : ∀ a b t u, t.Leads u → good a b t → good a b u ∧ told b u = told b t)
    (list : List α) (sound : store.Sound)
    (step : ∀ a ∈ list, ∀ t, store.Leads t →
      Asks heap (f a) t (cells a) fun b companions u => companions = told b u ∧ good a b u) :
    Asks heap (list.mapM f) store (list.flatMap cells) fun out companions t =>
      companions = out.flatMap (told · t) ∧ List.Forall₂ (good · · t) list out := by
  induction list generalizing store with
  | nil =>
      rw [List.mapM_nil]
      exact .pure sound ⟨rfl, .nil⟩
  | cons a list ih =>
      rw [List.mapM_cons, List.flatMap_cons]
      refine (step a (by simp) store sound.leads).bind ?_
      rintro b companions t leads ⟨rfl, holds⟩
      refine (ih leads.sound fun c member u next =>
        step c (by simp [member]) u (Onward.trans leads next)).map ?_
      rintro out others u next ⟨rfl, rest⟩
      obtain ⟨kept, same⟩ := stable a b t u next holds
      exact ⟨by rw [List.flatMap_cons, same], .cons kept rest⟩

theorem optionMapM {f : α → Run β} (cells : α → List Ref)
    {good : Option β → List (Option String) → Store → Prop} (option : Option α)
    (sound : store.Sound) (absent : option = none → good none [] store)
    (step : ∀ a, option = some a →
      Asks heap (f a) store (cells a) fun b companions t => good (some b) companions t) :
    Asks heap (option.mapM f) store (option.toList.flatMap cells) good := by
  cases option with
  | none => exact .pure sound (absent rfl)
  | some a =>
      rw [Option.toList_some, List.flatMap_singleton]
      exact (step a rfl).map fun _ _ _ _ holds => holds

end Asks

/-! ## Companions -/

namespace Heap

def companions (heap : Heap) (ref : Ref) : List (Option String) :=
  (heap.preorder ref).map fun cell => (heap.get cell).companion

variable {heap : Heap} (closed : heap.Closed) (acyclic : heap.Acyclic) {ref : Ref}
  (inside : ref < heap.size)
include closed acyclic inside

theorem companions_eq : heap.companions ref =
    (heap.get ref).companion :: (heap.get ref).primaryLinks.flatMap heap.companions := by
  rw [companions, preorder_eq closed acyclic inside, List.map_cons, List.map_flatMap]
  rfl

theorem Extends.companions_eq {new : Heap} (grown : heap.Extends new) :
    new.companions ref = heap.companions ref := by
  rw [companions, companions, grown.preorder_eq closed acyclic inside]
  refine List.map_congr_left fun cell member => ?_
  rw [grown.get cell (preorder_lt closed acyclic inside cell member)]

end Heap

/-! ## Changes of byte order -/

namespace Asks

variable {heap : Heap} {store : Store} (sound : store.Sound) (grown : heap.Extends store.heap)
include sound grown

theorem offerCopy {ref : Ref} (inside : ref < heap.size) :
    Asks heap (ElementTypes.offerCopy ref) store [ref] fun d companions _ =>
      ∃ companion, companions = [companion] ∧ d = { heap.get ref with companion } := by
  have leads := (offerCopy_leads sound ref).later
  have offer : heap.offer ref = ⟨ref, { store.heap.get ref with companion := none }⟩ := by
    rw [Heap.offer, grown.get ref inside]
  refine ⟨leads, ?_⟩
  unfold ElementTypes.offerCopy
  rw [run_get_bind, List.map_singleton, offer]
  cases installed : store.hook with
  | none =>
      refine .accepted (.unasked rfl .done) ⟨none, rfl, ?_⟩
      rw [grown.get ref inside]
  | some hook =>
      simp only
      cases answer : hook.answer store.heap store.offers
          ⟨ref, { store.heap.get ref with companion := none }⟩ with
      | error message => exact .refused (.refused .done rfl grown answer)
      | ok companion =>
          refine .accepted (.accepted rfl grown answer .done) ⟨companion, rfl, ?_⟩
          rw [grown.get ref inside]

theorem duplicate (ample : store.Ample) {ref : Ref} (inside : ref < heap.size) :
    Asks heap (ElementTypes.duplicate ref) store [ref] fun d companions _ =>
      ∃ companion, companions = [companion] ∧ d = { heap.get ref with companion } :=
  (offerCopy sound grown inside).congr (duplicate_run_ample ample ref)

end Asks

section Changes

variable (change : OrderChange) {heap : Heap} (closed : heap.Closed)

def AsksBelow (heap : Heap) (n : Nat) : Prop :=
  ∀ ref store, ref < heap.size → heap.Within n (heap.get ref) → store.Sound → store.Ample →
    heap.Extends store.heap →
    Asks heap (reorderWithin change n ref) store (heap.preorderWithin n ref) fun d companions t =>
      d.Fits t.heap ∧ companions = d.companion :: d.primaryLinks.flatMap t.heap.companions

variable {change} {n : Nat} (below : AsksBelow change heap n) {store : Store} (sound : store.Sound)
  (ample : store.Ample) (grown : heap.Extends store.heap)
include below sound ample grown

theorem renew_asks {target : Ref} (inside : target < heap.size)
    (within : heap.Within n (heap.get target)) :
    Asks heap (do adopt (← reorderWithin change n target)) store (heap.preorderWithin n target)
      fun new companions t => companions = t.heap.companions new ∧ t.Sound ∧ new < t.heap.size := by
  rw [← List.append_nil (heap.preorderWithin n target)]
  refine (below target store inside within sound ample grown).bind ?_
  rintro d companions t leads ⟨fits, rfl⟩
  have adopts := adopt_leads leads.sound fits
  refine .of_ok rfl adopts.later rfl ?_
  obtain ⟨after, -, bound, here⟩ := adopts.of_ok rfl
  refine ⟨?_, after.sound, bound⟩
  rw [List.append_nil, Heap.companions_eq after.sound.closed after.sound.acyclic bound, here]
  refine congrArg _ (List.flatMap_congr fun next link => ?_)
  exact (after.grows.heap.companions_eq leads.sound.closed leads.sound.acyclic
    (fits next (Descriptor.links_of_primaryLinks link))).symm

theorem renewFields_asks {table : Table}
    (inside : ∀ e ∈ table.entries, e.target < heap.size ∧ heap.Within n (heap.get e.target)) :
    Asks heap (table.primary.mapM fun entry =>
        return (entry, ← adopt (← reorderWithin change n entry.target))) store
      (table.primary.flatMap fun entry => heap.preorderWithin n entry.target)
      fun renewed companions t => renewed.map Prod.fst = table.primary ∧
        companions = renewed.flatMap (fun pair => t.heap.companions pair.2) ∧
        ∀ pair ∈ renewed, pair.2 < t.heap.size := by
  refine Asks.imp (Asks.mapM
    (f := fun entry : Entry => return (entry, ← adopt (← reorderWithin change n entry.target)))
    (fun entry => heap.preorderWithin n entry.target)
    (fun pair t => t.heap.companions pair.2)
    (fun entry pair t => pair.1 = entry ∧ t.Sound ∧ pair.2 < t.heap.size)
    ?stable table.primary sound ?each) ?all
  case stable =>
    rintro entry pair t u leads ⟨same, sound, bound⟩
    exact ⟨⟨same, leads.sound, Nat.lt_of_lt_of_le bound leads.grows.heap.size⟩,
      leads.grows.heap.companions_eq sound.closed sound.acyclic bound⟩
  case each =>
    intro entry member t leads
    have bounds := inside entry (Table.mem_primary.1 member).1
    rw [← bind_assoc]
    exact (renew_asks below leads.sound (leads.grows.ample ample)
      (grown.trans leads.grows.heap) bounds.1 bounds.2).map
      fun ref companions u _ holds => ⟨holds.1, rfl, holds.2⟩
  case all =>
    rintro renewed companions t - ⟨told, all⟩
    refine ⟨?_, told, fun pair member => ?_⟩
    · have firsts := List.forall₂_map_right_iff.2 (all.imp fun _ _ holds => holds.1.symm)
      rw [List.forall₂_eq_eq_eq] at firsts
      exact firsts.symm
    · obtain ⟨entry, -, -, -, bound⟩ := exists_of_forall₂ all.flip member
      exact bound

theorem renewLayout_asks {d : Descriptor}
    (inside : ∀ target ∈ d.links, target < heap.size ∧ heap.Within n (heap.get target)) :
    Asks heap (d.layout.mapM fun layout => do
        let renewed ← layout.table.primary.mapM fun entry =>
          return (entry, ← adopt (← reorderWithin change n entry.target))
        return { layout with table := layout.table.relink renewed }) store
      (d.fieldTargets.flatMap (heap.preorderWithin n)) fun layout companions t =>
        companions = ({ d with layout } : Descriptor).fieldTargets.flatMap t.heap.companions ∧
        ∀ target ∈ ({ d with layout } : Descriptor).fieldTargets, target < t.heap.size := by
  have cells : d.fieldTargets.flatMap (heap.preorderWithin n) = d.layout.toList.flatMap
      fun layout => layout.table.primary.flatMap fun e => heap.preorderWithin n e.target := by
    unfold Descriptor.fieldTargets
    cases d.layout <;> simp [List.flatMap_map]
  rw [cells]
  refine Asks.optionMapM _ d.layout sound (fun _ => ⟨rfl, fun _ none => nomatch none⟩) ?_
  intro layout record
  refine (renewFields_asks below sound ample grown fun e member => inside _ ?_).map ?_
  · exact Descriptor.mem_links_iff.2 (.inl ⟨layout, record, e, member, rfl⟩)
  · rintro renewed companions t - ⟨all, rfl, bound⟩
    simp only [Descriptor.fieldTargets, Table.primary_relink all, List.map_map, List.flatMap_map]
    refine ⟨rfl, fun target member => ?_⟩
    obtain ⟨pair, listed, rfl⟩ := List.mem_map.1 member
    exact bound pair listed

theorem renewBase_asks {d : Descriptor}
    (inside : ∀ target ∈ d.links, target < heap.size ∧ heap.Within n (heap.get target)) :
    Asks heap (d.subarray.mapM fun subarray =>
        return { subarray with base := ← adopt (← reorderWithin change n subarray.base) }) store
      (d.bases.flatMap (heap.preorderWithin n)) fun subarray companions t =>
        companions = ({ d with subarray } : Descriptor).bases.flatMap t.heap.companions := by
  have cells : d.bases.flatMap (heap.preorderWithin n) = d.subarray.toList.flatMap
      fun subarray => heap.preorderWithin n subarray.base := by
    unfold Descriptor.bases
    cases d.subarray <;> rfl
  rw [cells]
  refine Asks.optionMapM _ d.subarray sound (fun _ => rfl) ?_
  intro subarray array
  have bounds := inside subarray.base (Descriptor.mem_links_iff.2 (.inr ⟨_, array, rfl⟩))
  rw [← bind_assoc]
  refine (renew_asks below sound ample grown bounds.1 bounds.2).map ?_
  rintro new companions t - ⟨rfl, -⟩
  exact (List.flatMap_singleton ..).symm

omit below sound ample grown in
include closed in
theorem reorderWithin_asks (n : Nat) : AsksBelow change heap n := by
  induction n with
  | zero => exact fun _ _ _ within => absurd within id
  | succ n ih =>
      intro ref store inside within sound ample grown
      have parts : ∀ target ∈ (heap.get ref).links,
          target < heap.size ∧ heap.Within n (heap.get target) := fun target link =>
        ⟨closed ref target link, within target link⟩
      refine Asks.imp (Asks.ensuring ?_
        (reorderWithin_leads change closed (n + 1) ref store inside within sound grown))
        fun d companions t _ holds => ⟨holds.1.1, holds.2⟩
      have cells : heap.preorderWithin (n + 1) ref = [ref] ++
          ((heap.get ref).fieldTargets.flatMap (heap.preorderWithin n) ++
            ((heap.get ref).bases.flatMap (heap.preorderWithin n) ++ [])) := by
        rw [Heap.preorderWithin, Descriptor.primaryLinks, List.flatMap_append, List.append_nil]
        rfl
      rw [cells]
      unfold reorderWithin
      refine (Asks.duplicate sound grown ample inside).bind ?_
      rintro _ _ t leads ⟨companion, rfl, rfl⟩
      have ample := leads.grows.ample ample
      have grown := grown.trans leads.grows.heap
      refine (renewLayout_asks ih leads.sound ample grown parts).bind ?_
      rintro layout _ u leads' ⟨rfl, bound⟩
      have ample := leads'.grows.ample ample
      have grown := grown.trans leads'.grows.heap
      refine (renewBase_asks ih leads'.sound ample grown parts).bind ?_
      rintro subarray _ v leads'' rfl
      refine .pure leads''.sound ?_
      have kept : ∀ target ∈ ({ heap.get ref with companion, layout } : Descriptor).fieldTargets,
          v.heap.companions target = u.heap.companions target := fun target member =>
        leads''.grows.heap.companions_eq leads'.sound.closed leads'.sound.acyclic
          (bound target member)
      rw [List.append_nil, Descriptor.primaryLinks, List.flatMap_append]
      exact congrArg (fun front => companion :: (front ++ _)) (List.flatMap_congr kept).symm

end Changes

theorem reorderCell_asks (change : OrderChange) {store : Store} (sound : store.Sound)
    (ample : store.Ample) {ref : Ref} (inside : ref < store.heap.size) :
    Asks store.heap (reorderCell change ref) store (store.heap.preorder ref)
      fun new companions t => companions = t.heap.companions new ∧
        List.Forall₂ (fun old cell => (store.heap.get old).Renewed change (t.heap.get cell))
          (store.heap.preorder ref) (t.heap.preorder new) := by
  have within := Heap.within_depth sound.closed sound.acyclic (sound.closed.fits ref)
  have same : (reorderCell change ref).run store =
    (do adopt (← reorderWithin change store.heap.depth ref) : Run Ref).run store := rfl
  have below : AsksBelow change store.heap store.heap.depth := reorderWithin_asks sound.closed _
  have asks := (renew_asks below sound ample (.refl _) inside within).congr same
  refine (asks.ensuring (reorder_renewedAt change sound inside)).imp ?_
  rintro new companions t leads ⟨⟨-, bound, renews⟩, told, -⟩
  refine ⟨told, Heap.forall₂_preorder ?_ (fun _ _ renewed => renewed.shape) sound.closed
    sound.acyclic leads.sound.closed leads.sound.acyclic inside bound
    (renews.pairs leads.grows.heap sound.closed (sound.closed.fits ref))⟩
  exact fun _ _ renewed => optionRel_imp renewed.layout fun _ _ holds => holds.retargeted

/-! ## Hooks that refuse a code -/

def Hook.Refuses (hook : Hook) (code : Code) : Prop := ∀ heap earlier offer,
  (∃ message, hook.answer heap earlier offer = .error message) ↔ offer.copy.code = code

theorem Hook.refuses_refusing (code : Code) (message : String) :
    (Hook.refusing (some code) message).Refuses code := by
  intro heap earlier offer
  by_cases same : code = offer.copy.code
  · simp [refusing, same]
  · simp [refusing, pairing, same, Ne.symm same]

section Refusing

variable {h : Hook} {code : Code} (refuses : h.Refuses code) {heap : Heap}
include refuses

theorem Heard.code_ne {log offers last : List Offer} {companions : List (Option String)}
    (heard : Heard (some h) heap log offers last companions) :
    ∀ offer ∈ offers, offer.copy.code ≠ code := by
  generalize same : some h = hook at heard
  induction heard with
  | done => exact fun _ none => nomatch none
  | unasked absent => rw [absent] at same; cases same
  | @accepted log _ _ _ offer _ now companion installed _ answer _ ih =>
      obtain rfl := Option.some.inj (same.trans installed)
      refine List.forall_mem_cons.2 ⟨fun here => ?_, ih⟩
      obtain ⟨message, refused⟩ := (refuses now log offer).2 here
      rw [refused] at answer
      cases answer

theorem Asked.fails_iff {α : Type} {log : List Offer} {cells : List Ref}
    {good : α → List (Option String) → Store → Prop} {out : Except Error α × Store}
    (asked : Asked (some h) heap log (cells.map heap.offer) good out) :
    (∃ error, out.1 = .error error) ↔ ∃ cell ∈ cells, (heap.get cell).code = code := by
  generalize same : cells.map heap.offer = offers at asked
  cases asked with
  | accepted heard _ =>
      simp only [reduceCtorEq, exists_false, false_iff]
      rintro ⟨cell, member, here⟩
      exact heard.code_ne refuses _ (same ▸ List.mem_map_of_mem member) here
  | @refused message t down =>
      generalize t.offers = last at down
      cases down with
      | @refused before after mid _ offer _ now _ _ installed _ answer =>
          obtain rfl := Option.some.inj installed
          have here := (refuses now mid offer).1 ⟨message, answer⟩
          have member : offer ∈ cells.map heap.offer := by rw [same]; simp
          obtain ⟨cell, listed, rfl⟩ := List.mem_map.1 member
          exact ⟨fun _ => ⟨cell, listed, here⟩, fun _ => ⟨_, rfl⟩⟩

end Refusing

end ElementTypes
