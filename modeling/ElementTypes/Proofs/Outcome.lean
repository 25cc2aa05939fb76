import Mathlib.Data.List.Forall2

/-! # What runs ensure

A run changes a state and ends in a value or an error. `Ensures` speaks of either case, `Succeeds`
says that there is a value.
-/

namespace ElementTypes

variable {ε σ α β : Type}

/-- The laws of a relation between a state and those that may come after it. A state need not be
later than itself unless a run has ended in it. -/
class Onward (later : σ → σ → Prop) : Prop where
  trans {s t u : σ} : later s t → later t u → later s u
  here {s t : σ} : later s t → later t t

section Running

variable (x : ExceptT ε (StateM σ) α) (f : α → ExceptT ε (StateM σ) β) (s : σ)

theorem run_pure (a : α) : (pure a : ExceptT ε (StateM σ) α).run s = (.ok a, s) := rfl

theorem run_throw (e : ε) : (throw e : ExceptT ε (StateM σ) α).run s = (.error e, s) := rfl

theorem run_get_bind (g : σ → ExceptT ε (StateM σ) β) :
    (MonadState.get >>= g).run s = (g s).run s := rfl

theorem run_modify_bind (h : σ → σ) (g : PUnit → ExceptT ε (StateM σ) β) :
    (modify h >>= g).run s = (g ⟨⟩).run (h s) := rfl

theorem run_bind_ok {a : α} {t : σ} (h : x.run s = (.ok a, t)) :
    (x >>= f).run s = (f a).run t := by
  change ((x.run >>= ExceptT.bindCont f) : StateM σ (Except ε β)) s = _
  change (match x.run s with | (r, t) => ExceptT.bindCont f r t) = _
  rw [h]
  rfl

theorem run_bind_error {e : ε} {t : σ} (h : x.run s = (.error e, t)) :
    (x >>= f).run s = (.error e, t) := by
  change (match x.run s with | (r, t) => ExceptT.bindCont f r t) = _
  rw [h]
  rfl

theorem run_bind_eq_ok {b : β} {u : σ} : (x >>= f).run s = (.ok b, u) ↔
    ∃ a t, x.run s = (.ok a, t) ∧ (f a).run t = (.ok b, u) := by
  constructor
  · intro ran
    rcases first : x.run s with ⟨r, t⟩
    cases r with
    | error e => rw [run_bind_error x f s first] at ran; cases ran
    | ok a => exact ⟨a, t, rfl, (run_bind_ok x f s first).symm.trans ran⟩
  · rintro ⟨a, t, first, rest⟩
    exact (run_bind_ok x f s first).trans rest

theorem run_bind_eq_error {e : ε} {u : σ} : (x >>= f).run s = (.error e, u) ↔
    x.run s = (.error e, u) ∨ ∃ a t, x.run s = (.ok a, t) ∧ (f a).run t = (.error e, u) := by
  constructor
  · intro ran
    rcases first : x.run s with ⟨r, t⟩
    cases r with
    | error d =>
        rw [run_bind_error x f s first] at ran
        cases ran
        exact .inl rfl
    | ok a => exact .inr ⟨a, t, rfl, (run_bind_ok x f s first).symm.trans ran⟩
  · rintro (first | ⟨a, t, first, rest⟩)
    · exact run_bind_error x f s first
    · exact (run_bind_ok x f s first).trans rest

end Running

structure Ensures (later : σ → σ → Prop) (x : ExceptT ε (StateM σ) α) (s : σ)
    (good : α → σ → Prop) : Prop where
  later : later s (x.run s).2
  good : ∀ a, (x.run s).1 = .ok a → good a (x.run s).2

namespace Ensures

variable {later : σ → σ → Prop} {x : ExceptT ε (StateM σ) α}
  {f : α → ExceptT ε (StateM σ) β} {s : σ}

theorem of_run {r : Except ε α} {t : σ} {good : α → σ → Prop} (run : x.run s = (r, t))
    (after : later s t) (value : ∀ a, r = .ok a → good a t) : Ensures later x s good := by
  constructor
  · rw [run]
    exact after
  · rw [run]
    exact value

theorem of_ok {good : α → σ → Prop} (h : Ensures later x s good) {a : α} {t : σ}
    (ran : x.run s = (.ok a, t)) : later s t ∧ good a t := by
  obtain ⟨after, value⟩ := h
  rw [ran] at after value
  exact ⟨after, value a rfl⟩

theorem pure {a : α} {good : α → σ → Prop} (here : later s s) (value : good a s) :
    Ensures later (Pure.pure a : ExceptT ε (StateM σ) α) s good :=
  of_run (run_pure s a) here fun _ same => Except.ok.inj same ▸ value

theorem throw {e : ε} {good : α → σ → Prop} (here : later s s) :
    Ensures later (MonadExcept.throw e : ExceptT ε (StateM σ) α) s good :=
  of_run (run_throw s e) here fun _ none => nomatch none

theorem lift (here : later s s) (y : Except ε α) :
    Ensures later (liftM y : ExceptT ε (StateM σ) α) s fun a t => y = .ok a ∧ t = s := by
  cases y with
  | error e => exact .of_run (r := .error e) rfl here fun _ none => nomatch none
  | ok a => exact .of_run (r := .ok a) rfl here fun _ same => ⟨congrArg _ (Except.ok.inj same), rfl⟩

theorem get_bind {f : σ → ExceptT ε (StateM σ) β} {good : β → σ → Prop}
    (rest : Ensures later (f s) s good) : Ensures later (MonadState.get >>= f) s good :=
  ⟨rest.later, rest.good⟩

theorem mono {weak : σ → σ → Prop} {good better : α → σ → Prop} (h : Ensures later x s better)
    (weaker : ∀ t, later s t → weak s t) (value : ∀ a t, later s t → better a t → good a t) :
    Ensures weak x s good :=
  ⟨weaker _ h.later, fun a same => value a _ h.later (h.good a same)⟩

theorem imp {good better : α → σ → Prop} (h : Ensures later x s better)
    (value : ∀ a t, later s t → better a t → good a t) : Ensures later x s good :=
  h.mono (fun _ => id) value

theorem run_bind {good : α → σ → Prop} {P : Except ε β × σ → Prop}
    (first : Ensures later x s good) (failed : ∀ e t, later s t → P (.error e, t))
    (rest : ∀ a t, later s t → good a t → P ((f a).run t)) : P ((x >>= f).run s) := by
  obtain ⟨after, value⟩ := first
  rcases run : x.run s with ⟨r, t⟩
  rw [run] at after value
  cases r with
  | error e =>
      rw [run_bind_error x f s run]
      exact failed e t after
  | ok a =>
      rw [run_bind_ok x f s run]
      exact rest a t after (value a rfl)

variable [Onward later]

theorem bind {good : α → σ → Prop} {last : β → σ → Prop} (first : Ensures later x s good)
    (rest : ∀ a t, later s t → good a t → Ensures later (f a) t last) :
    Ensures later (x >>= f) s last := by
  have both := first.run_bind (f := f)
    (P := fun out => later s out.2 ∧ ∀ b, out.1 = .ok b → last b out.2)
    (fun e t after => ⟨after, fun _ none => nomatch none⟩) fun a t after holds =>
      have next := rest a t after holds
      ⟨Onward.trans after next.later, next.good⟩
  exact ⟨both.1, both.2⟩

theorem map {g : α → β} {good : α → σ → Prop} {last : β → σ → Prop}
    (first : Ensures later x s good)
    (value : ∀ a t, later s t → good a t → last (g a) t) :
    Ensures later (do return g (← x)) s last :=
  first.bind fun a t after holds => pure (Onward.here after) (value a t after holds)

end Ensures

theorem Ensures.mapM {later : σ → σ → Prop} [Onward later] {s : σ} (start : later s s)
    (f : α → ExceptT ε (StateM σ) β) (good : α → β → σ → Prop)
    (stable : ∀ a b t u, later t u → good a b t → good a b u) (list : List α)
    (step : ∀ a ∈ list, ∀ t, later s t → Ensures later (f a) t (good a)) :
    Ensures later (list.mapM f) s fun out t => List.Forall₂ (fun a b => good a b t) list out := by
  induction list generalizing s with
  | nil =>
      rw [List.mapM_nil]
      exact .pure start .nil
  | cons a list ih =>
      rw [List.mapM_cons]
      refine (step a (by simp) s start).bind fun b t after holds => ?_
      refine (ih (Onward.here after) fun c member u next =>
        step c (by simp [member]) u (Onward.trans after next)).bind fun out u next rest => ?_
      exact .pure (Onward.here next) (.cons (stable a b t u next holds) rest)

theorem forall_of_forall₂ {good : β → Prop} {list : List α} {out : List β}
    (h : List.Forall₂ (fun _ b => good b) list out) : ∀ b ∈ out, good b := by
  induction h with
  | nil => exact fun b none => nomatch none
  | cons holds _ ih => exact List.forall_mem_cons.2 ⟨holds, ih⟩

theorem exists_of_forall₂ {R : α → β → Prop} {list : List α} {out : List β}
    (h : List.Forall₂ R list out) {a : α} (member : a ∈ list) : ∃ b ∈ out, R a b := by
  induction h with
  | nil => cases member
  | cons holds _ ih =>
      rcases List.mem_cons.1 member with rfl | member
      · exact ⟨_, List.mem_cons_self .., holds⟩
      · obtain ⟨b, listed, holds⟩ := ih member
        exact ⟨b, List.mem_cons_of_mem _ listed, holds⟩

theorem forall₂_with_mem {R : α → β → Prop} {list : List α} {out : List β}
    (h : List.Forall₂ R list out) :
    List.Forall₂ (fun a b => a ∈ list ∧ b ∈ out ∧ R a b) list out := by
  induction h with
  | nil => exact .nil
  | cons holds _ ih =>
      refine .cons ⟨List.mem_cons_self .., List.mem_cons_self .., holds⟩ (ih.imp ?_)
      rintro a b ⟨left, right, holds⟩
      exact ⟨List.mem_cons_of_mem _ left, List.mem_cons_of_mem _ right, holds⟩

theorem exists_split_of_forall₂ {R : α → β → Prop} {before after : List α} {a : α} {out : List β}
    (h : List.Forall₂ R (before ++ a :: after) out) : ∃ before' b after',
      out = before' ++ b :: after' ∧ List.Forall₂ R before before' ∧ R a b := by
  induction before generalizing out with
  | nil =>
      obtain ⟨b, after', holds, -, rfl⟩ := List.forall₂_cons_left_iff.1 h
      exact ⟨[], b, after', rfl, .nil, holds⟩
  | cons c before ih =>
      obtain ⟨d, rest, holds, others, rfl⟩ := List.forall₂_cons_left_iff.1 h
      obtain ⟨before', b, after', rfl, left, here⟩ := ih others
      exact ⟨d :: before', b, after', rfl, .cons holds left, here⟩

theorem forall₂_trans {γ : Type} {R : α → β → Prop} {S : β → γ → Prop} {T : α → γ → Prop}
    {list : List α} {mid : List β} {out : List γ} (first : List.Forall₂ R list mid)
    (second : List.Forall₂ S mid out) (trans : ∀ a b c, R a b → S b c → T a c) :
    List.Forall₂ T list out := by
  induction first generalizing out with
  | nil =>
      cases second with
      | nil => exact .nil
  | cons holds _ ih =>
      cases second with
      | cons holds' rest => exact .cons (trans _ _ _ holds holds') (ih rest)

theorem optionRel_find? {R : α → β → Prop} {p : α → Bool} {q : β → Bool} {list : List α}
    {out : List β} (h : List.Forall₂ R list out) (agree : ∀ a b, R a b → p a = q b) :
    Option.Rel R (list.find? p) (out.find? q) := by
  induction h with
  | nil => exact .none
  | @cons a b _ _ holds _ ih =>
      rw [List.find?_cons, List.find?_cons, agree a b holds]
      cases q b with
      | true => exact .some holds
      | false => exact ih

theorem optionRel_imp_of_mem {R S : α → β → Prop} {a : Option α} {b : Option β}
    (h : Option.Rel R a b) (imp : ∀ x, a = some x → ∀ y, b = some y → R x y → S x y) :
    Option.Rel S a b := by
  cases h with
  | none => exact .none
  | some holds => exact .some (imp _ rfl _ rfl holds)

theorem optionRel_imp {R S : α → β → Prop} {a : Option α} {b : Option β} (h : Option.Rel R a b)
    (imp : ∀ a b, R a b → S a b) : Option.Rel S a b :=
  optionRel_imp_of_mem h fun x _ y _ => imp x y

theorem optionRel_of_eq_some {R : α → β → Prop} {a : Option α} {b : Option β} {x : α}
    (h : Option.Rel R a b) (here : a = some x) : ∃ y, b = some y ∧ R x y := by
  cases h with
  | none => cases here
  | some holds => exact ⟨_, rfl, Option.some.inj here ▸ holds⟩

theorem optionRel_of_eq_none {R : α → β → Prop} {a : Option α} {b : Option β}
    (h : Option.Rel R a b) (none : a = none) : b = Option.none := by
  cases h with
  | none => rfl
  | some => cases none

theorem optionRel_refl {R : α → α → Prop} (refl : ∀ a, R a a) (a : Option α) :
    Option.Rel R a a := by
  cases a with
  | none => exact .none
  | some a => exact .some (refl a)

theorem optionRel_symm {R : α → β → Prop} {a : Option α} {b : Option β} (h : Option.Rel R a b) :
    Option.Rel (fun b a => R a b) b a := by
  cases h with
  | none => exact .none
  | some holds => exact .some holds

theorem optionRel_trans {γ : Type} {R : α → β → Prop} {S : β → γ → Prop} {T : α → γ → Prop}
    {a : Option α} {b : Option β} {c : Option γ} (first : Option.Rel R a b)
    (second : Option.Rel S b c) (trans : ∀ a b c, R a b → S b c → T a c) : Option.Rel T a c := by
  cases first with
  | none => cases second with
    | none => exact .none
  | some left => cases second with
    | some right => exact .some (trans _ _ _ left right)

theorem optionRel_eq_none_iff {R : α → β → Prop} {a : Option α} {b : Option β}
    (h : Option.Rel R a b) : b = none ↔ a = none :=
  ⟨optionRel_of_eq_none (optionRel_symm h), optionRel_of_eq_none h⟩

theorem optionRel_bind {γ δ : Type} {R : α → β → Prop} {S : γ → δ → Prop} {a : Option α}
    {b : Option β} {f : α → Option γ} {g : β → Option δ} (h : Option.Rel R a b)
    (step : ∀ x, a = some x → ∀ y, b = some y → R x y → Option.Rel S (f x) (g y)) :
    Option.Rel S (a.bind f) (b.bind g) := by
  cases h with
  | none => exact .none
  | some holds => exact step _ rfl _ rfl holds

theorem optionRel_across {γ δ : Type} {R : α → γ → Prop} {S : β → δ → Prop} {T : α → β → Prop}
    {U : γ → δ → Prop} {a : Option α} {b : Option β} {c : Option γ} {d : Option δ}
    (left : Option.Rel R a c) (right : Option.Rel S b d) (holds : Option.Rel T a b)
    (step : ∀ x, a = some x → ∀ y, b = some y → ∀ z, c = some z → ∀ w, d = some w →
      R x z → S y w → T x y → U z w) : Option.Rel U c d := by
  cases holds with
  | none =>
      rw [optionRel_of_eq_none left rfl, optionRel_of_eq_none right rfl]
      exact .none
  | @some x y related =>
      obtain ⟨z, rfl, first⟩ := optionRel_of_eq_some left rfl
      obtain ⟨w, rfl, second⟩ := optionRel_of_eq_some right rfl
      exact .some (step x rfl y rfl z rfl w rfl first second related)

theorem Ensures.optionMapM {later : σ → σ → Prop} [Onward later] {s : σ} (start : later s s)
    (f : α → ExceptT ε (StateM σ) β) (good : α → β → σ → Prop) (option : Option α)
    (step : ∀ a, option = some a → Ensures later (f a) s (good a)) :
    Ensures later (option.mapM f) s fun out t => Option.Rel (fun a b => good a b t) option out := by
  cases option with
  | none => exact .pure start .none
  | some a =>
      exact Ensures.map (step a rfl) fun b t _ holds => .some holds

theorem Ensures.foldlM {later : σ → σ → Prop} [Onward later] {s : σ} (start : later s s)
    {f : β → α → ExceptT ε (StateM σ) β} (good : β → σ → Prop) (list : List α) {b : β}
    (holds : good b s)
    (step : ∀ a ∈ list, ∀ b t, later s t → good b t → Ensures later (f b a) t good) :
    Ensures later (list.foldlM f b) s good := by
  induction list generalizing s b with
  | nil => exact .pure start holds
  | cons a list ih =>
      rw [List.foldlM_cons]
      refine (step a (by simp) b s start holds).bind fun c t after holds => ?_
      exact ih (Onward.here after) holds fun d member e u next =>
        step d (by simp [member]) e u (Onward.trans after next)

section Congruence

variable {later : σ → σ → Prop} {s : σ} {x y : ExceptT ε (StateM σ) α}

theorem run_bind_congr {f g : α → ExceptT ε (StateM σ) β} {good : α → σ → Prop}
    (same : x.run s = y.run s) (leads : Ensures later y s good)
    (rest : ∀ a t, later s t → good a t → (f a).run t = (g a).run t) :
    (x >>= f).run s = (y >>= g).run s := by
  obtain ⟨after, value⟩ := leads
  rcases ran : y.run s with ⟨result, t⟩
  rw [ran] at after value same
  cases result with
  | error e => rw [run_bind_error x f s same, run_bind_error y g s ran]
  | ok a =>
      rw [run_bind_ok x f s same, run_bind_ok y g s ran]
      exact rest a t after (value a rfl)

theorem run_bind_congr_left {f : α → ExceptT ε (StateM σ) β} (same : x.run s = y.run s) :
    (x >>= f).run s = (y >>= f).run s := by
  have leads : Ensures (fun _ _ => True) y s fun _ _ => True := ⟨trivial, fun _ _ => trivial⟩
  exact run_bind_congr same leads fun _ _ _ _ => rfl

theorem run_mapM_congr [Onward later] (start : later s s) {f g : α → ExceptT ε (StateM σ) β}
    (list : List α) (leads : ∀ a ∈ list, ∀ t, later s t → Ensures later (g a) t fun _ _ => True)
    (same : ∀ a ∈ list, ∀ t, later s t → (f a).run t = (g a).run t) :
    (list.mapM f).run s = (list.mapM g).run s := by
  induction list generalizing s with
  | nil => rfl
  | cons a list ih =>
      rw [List.mapM_cons, List.mapM_cons]
      refine run_bind_congr (same a (by simp) s start) (leads a (by simp) s start) ?_
      refine fun b t after _ => run_bind_congr_left (ih (Onward.here after) ?_ ?_)
      · exact fun c member u next => leads c (by simp [member]) u (Onward.trans after next)
      · exact fun c member u next => same c (by simp [member]) u (Onward.trans after next)

theorem run_optionMapM_congr {f g : α → ExceptT ε (StateM σ) β} (option : Option α)
    (same : ∀ a, option = some a → (f a).run s = (g a).run s) :
    (option.mapM f).run s = (option.mapM g).run s := by
  cases option with
  | none => rfl
  | some a => exact run_bind_congr_left (same a rfl)

end Congruence

def Succeeds (x : ExceptT ε (StateM σ) α) (s : σ) (good : α → σ → Prop) : Prop :=
  ∃ a t, x.run s = (.ok a, t) ∧ good a t

namespace Succeeds

variable {x : ExceptT ε (StateM σ) α} {f : α → ExceptT ε (StateM σ) β} {s : σ}

theorem pure {a : α} {good : α → σ → Prop} (value : good a s) :
    Succeeds (Pure.pure a : ExceptT ε (StateM σ) α) s good :=
  ⟨a, s, run_pure s a, value⟩

theorem bind {P : α → σ → Prop} {last : β → σ → Prop} (first : Succeeds x s P)
    (rest : ∀ a t, P a t → Succeeds (f a) t last) : Succeeds (x >>= f) s last := by
  obtain ⟨a, t, run, holds⟩ := first
  obtain ⟨b, u, next, value⟩ := rest a t holds
  exact ⟨b, u, (run_bind_ok x f s run).trans next, value⟩

theorem get_bind {f : σ → ExceptT ε (StateM σ) β} {good : β → σ → Prop}
    (rest : Succeeds (f s) s good) : Succeeds (MonadState.get >>= f) s good := rest

theorem ensuring {P good : α → σ → Prop} {later : σ → σ → Prop} (h : Succeeds x s P)
    (ensures : Ensures later x s good) : Succeeds x s fun a t => later s t ∧ P a t ∧ good a t := by
  obtain ⟨a, t, run, holds⟩ := h
  obtain ⟨after, value⟩ := ensures.of_ok run
  exact ⟨a, t, run, after, holds, value⟩

theorem mapM (invariant : σ → Prop) (list : List α) {s : σ} (holds : invariant s)
    (step : ∀ a ∈ list, ∀ t, invariant t → Succeeds (f a) t fun _ u => invariant u) :
    Succeeds (list.mapM f) s fun _ t => invariant t := by
  induction list generalizing s with
  | nil =>
      rw [List.mapM_nil]
      exact .pure holds
  | cons a list ih =>
      rw [List.mapM_cons]
      refine (step a (by simp) s holds).bind fun b t kept => ?_
      refine (ih kept fun c member => step c (by simp [member])).bind fun out u kept => ?_
      exact .pure kept

end Succeeds

end ElementTypes
