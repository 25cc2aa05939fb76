import ElementTypes.Proofs.Scalar.Cast
import ElementTypes.Proofs.Store.Origins

/-! # What promotions hold -/

namespace ElementTypes

namespace Descriptor

/-- How a promotion ends: equivalent descriptors give the second one, others a descriptor of their
goal, whose size is known if the goal is built in. -/
inductive Promotes (x y z : Descriptor) : Prop
  | same (code : x.code = y.code) (size : x.size = y.size) (second : z = y)
  | apart (code : z.code = x.goal y) (size : (x.goal y).isBuiltin = true →
      z.size = if (x.goal y).isSizable then x.goalSize y else (x.goal y).size)

/-- The codes `c` that a promotion of `a` and `b` may come to: where a search takes place, one that
takes in both if any does, and failing that the later of them. -/
structure PromotedTo (c a b : Code) : Prop where
  safe : ¬ a.Unsearched b → (∃ target : Code, target.TakesIn a b) → c.TakesIn a b
  fallback : ¬ c.TakesIn a b → c = a.later b
  unsearched : a.Unsearched b → c = a.later b ∧ ¬ c.TakesIn a b

theorem later_proper {a b : Code} (left : a.Proper) (right : b.Proper) : (a.later b).Proper := by
  rcases a.later_eq_or b with same | same <;> rw [same]
  · exact left
  · exact right

section Goal

variable {x y : Descriptor}

theorem goal_eq_or (x y : Descriptor) : x.goal y = x.code.common y.code ∨ x.goal y = .object ∧
    Code.TakesIn .object x.code y.code ∧ (x.code.later y.code).isBuiltin = true := by
  have text : ∀ {code : Code}, code.isText = true → code = .string ∨ code = .unicode := by
    intro code text
    simpa [Code.isText] using text
  unfold goal
  split
  · rename_i absorbs
    rcases absorbs with ⟨object, texts⟩ | ⟨object, texts⟩ <;>
      rw [of_decide_eq_true object] <;> rcases text texts with same | same <;> rw [same] <;>
      exact .inr ⟨rfl, ⟨by decide, by decide⟩, rfl⟩
  · exact .inl rfl

theorem goal_eq_later (missed : ¬ (x.goal y).TakesIn x.code y.code) :
    x.goal y = x.code.later y.code := by
  rcases goal_eq_or x y with common | ⟨object, both, -⟩
  · rw [common] at missed ⊢
    exact (Code.common_eq_later_or _ _).resolve_right fun found => missed found.2
  · exact absurd (object ▸ both) missed

theorem goal_takesIn (left : x.code.Proper) (right : y.code.Proper)
    (searched : ¬ x.code.Unsearched y.code)
    (target : ∃ c : Code, c.TakesIn x.code y.code) : (x.goal y).TakesIn x.code y.code := by
  rcases goal_eq_or x y with common | ⟨object, both, -⟩
  · rw [common]
    exact Code.common_takesIn (later_proper left right) searched target
  · rw [object]
    exact both

theorem Promotes.promotedTo {z : Descriptor} (left : x.code.Proper) (right : y.code.Proper)
    (ends : x.Promotes y z) : PromotedTo z.code x.code y.code := by
  cases ends with
  | same code _ second =>
      rw [second, ← code]
      have self : Code.TakesIn x.code x.code x.code :=
        ⟨Code.castsTo_self _, Code.castsTo_self _⟩
      exact ⟨fun _ _ => self, fun missed => absurd self missed,
        fun unsearched => absurd rfl unsearched.2.1⟩
  | apart code =>
      rw [code]
      refine ⟨goal_takesIn left right, goal_eq_later, fun unsearched => ?_⟩
      have registered := unsearched.1
      have last : x.goal y = x.code.later y.code := by
        rcases goal_eq_or x y with common | ⟨-, -, builtin⟩
        · rw [common]
          refine Code.common_of_registered ?_
          exact (later_proper left right).resolve_left (by simp [registered])
        · rw [registered] at builtin
          cases builtin
      rw [last]
      exact ⟨rfl, unsearched.not_takesIn⟩

end Goal

/-- With a built-in code that is not temporal, and of that code's size unless there is a choice. -/
structure Ordinary (d : Descriptor) : Prop where
  builtin : d.code.isBuiltin = true
  untimed : d.code.isTemporal = false
  size : d.code.isSizable = false → d.size = d.code.size

section Ordinary

variable {x y z : Descriptor} (left : x.Ordinary) (right : y.Ordinary)
include left right

theorem goal_takesIn_of_ordinary : (x.goal y).TakesIn x.code y.code := by
  refine goal_takesIn (.inl left.builtin) (.inl right.builtin) (fun unsearched => ?_)
    ⟨.void, Code.castsTo_void left.untimed, Code.castsTo_void right.untimed⟩
  have registered := unsearched.1
  rcases x.code.later_eq_or y.code with same | same <;> rw [same] at registered
  · exact absurd left.builtin (by simp [registered])
  · exact absurd right.builtin (by simp [registered])

theorem goal_of_ordinary : (x.goal y).isBuiltin = true ∧ (x.goal y).isTemporal = false := by
  obtain ⟨first, second⟩ := goal_takesIn_of_ordinary left right
  -- only truth values are cast to what is not of this kind, and their goal is their own code
  have bools : x.code = .bool → y.code = .bool → x.goal y = .bool := by
    intro code code'
    rw [goal, code, code']
    rfl
  constructor
  · refine Bool.eq_true_of_not_eq_false fun registered => ?_
    rcases Code.eq_of_castsTo_registered registered first with same | code
    · exact absurd (same ▸ left.builtin) (by rw [registered]; exact Bool.false_ne_true)
    · rcases Code.eq_of_castsTo_registered registered second with same | code'
      · exact absurd (same ▸ right.builtin) (by rw [registered]; exact Bool.false_ne_true)
      · rw [bools code code'] at registered
        cases registered
  · refine Bool.eq_false_iff.2 fun timed => ?_
    rcases Code.eq_of_castsTo_temporal timed first with same | code
    · exact absurd (same ▸ timed) (by rw [left.untimed]; exact Bool.false_ne_true)
    · rcases Code.eq_of_castsTo_temporal timed second with same | code'
      · exact absurd (same ▸ timed) (by rw [right.untimed]; exact Bool.false_ne_true)
      · rw [bools code code'] at timed
        cases timed

theorem Promotes.ordinary (ends : x.Promotes y z) : z.Ordinary := by
  cases ends with
  | same _ _ second => exact second ▸ right
  | apart code size =>
      obtain ⟨builtin, untimed⟩ := goal_of_ordinary left right
      rw [← code] at builtin untimed size
      exact ⟨builtin, untimed, fun fixed => by rw [size builtin, if_neg (by simp [fixed])]⟩

theorem Promotes.takesIn (ends : x.Promotes y z) : z.code.TakesIn x.code y.code := by
  cases ends with
  | same code _ second =>
      rw [second, code]
      exact ⟨Code.castsTo_self _, Code.castsTo_self _⟩
  | apart code =>
      rw [code]
      exact goal_takesIn_of_ordinary left right

end Ordinary

/-- Ordinary but for objects, and a string only if its characters can be counted in bytes. -/
structure Modest (d : Descriptor) : Prop extends Ordinary d where
  scalar : d.code ≠ .object
  short : d.code = .string → 4 * d.size.toNat < UInt64.size

/-- That `d` has room for the elements of `x`. A byte of a string takes a whole character in a
unicode text. -/
structure Covers (d x : Descriptor) : Prop where
  casts : x.code.castsTo d.code = true
  size : x.size.toNat ≤ d.size.toNat
  characters : x.code = .string → d.code = .unicode → 4 * x.size.toNat ≤ d.size.toNat

namespace Covers

variable {x y z : Descriptor}

theorem refl (x : Descriptor) : x.Covers x :=
  ⟨Code.castsTo_self _, Nat.le_refl _, fun string unicode => by
    rw [string] at unicode
    cases unicode⟩

theorem trans (left : x.Ordinary) (middle : y.Ordinary) (right : z.Ordinary) (first : y.Covers x)
    (second : z.Covers y) : z.Covers x where
  casts := Code.castsTo_trans left.builtin middle.builtin right.builtin first.casts second.casts
  size := Nat.le_trans first.size second.size
  characters string unicode := by
    -- what lies between a string and a unicode text is either of them
    have casts := first.casts
    have casts' := second.casts
    rw [string] at casts
    rw [unicode] at casts'
    rcases Code.isText_of_castsTo middle.builtin casts casts' with between | between
    · exact Nat.le_trans (Nat.mul_le_mul_left 4 first.size) (second.characters between unicode)
    · exact Nat.le_trans (first.characters string between) second.size

end Covers

section Modest

variable {x y z : Descriptor} (left : x.Modest) (right : y.Modest)

include left in
theorem Modest.sizeAs (goal : Code) : x.size.toNat ≤ (x.sizeAs goal).toNat ∧
    (x.code = .string → goal = .unicode → 4 * x.size.toNat ≤ (x.sizeAs goal).toNat) := by
  unfold Descriptor.sizeAs
  split
  · rename_i widened
    have fits : x.size.toNat * Code.characterSize.toNat < UInt64.size := by
      rw [Nat.mul_comm]
      exact left.short widened.2
    rw [Size.toNat_mulSaturating fits, Nat.mul_comm]
    exact ⟨Nat.le_mul_of_pos_left _ (by decide), fun _ _ => Nat.le_refl _⟩
  · rename_i kept
    exact ⟨Nat.le_refl _, fun string unicode => absurd ⟨unicode, string⟩ kept⟩

include left in
theorem Modest.covered (casts : x.code.castsTo z.code = true) (builtin : z.code.isBuiltin = true)
    (scalar : z.code ≠ .object) (fixed : z.code.isSizable = false) (size : z.size = z.code.size) :
    z.Covers x := by
  have number : x.code.isSizable = false := by
    refine Bool.eq_false_iff.2 fun chosen => ?_
    rw [Code.isSizable_of_castsTo left.builtin builtin casts chosen scalar] at fixed
    cases fixed
  refine ⟨casts, ?_, fun _ unicode => ?_⟩
  · rw [left.size number, size]
    exact UInt64.le_iff_toNat_le.1
      (Code.size_le_of_castsTo left.builtin builtin casts number fixed scalar)
  · rw [unicode] at fixed
    cases fixed

include left in
theorem Modest.short_sizeAs (casts : x.code.castsTo .string = true) :
    4 * (x.sizeAs .string).toNat < UInt64.size := by
  rw [Descriptor.sizeAs, if_neg (by simp)]
  cases chosen : x.code.isSizable with
  | true => exact left.short (Code.eq_string_of_castsTo left.builtin casts chosen)
  | false =>
      have small : ∀ code ∈ Code.builtin, code.size.toNat ≤ 32 := by decide
      have bound := small x.code (Code.mem_builtin left.builtin)
      have top : UInt64.size = 18446744073709551616 := rfl
      rw [left.size chosen]
      omega

include left right

theorem goal_ne_object : x.goal y ≠ .object := by
  have table : ∀ a ∈ Code.builtin, ∀ b ∈ Code.builtin, a ≠ .object → b ≠ .object →
      a.common b ≠ .object := by decide +kernel
  unfold goal
  rw [if_neg]
  · exact table _ (Code.mem_builtin left.builtin) _ (Code.mem_builtin right.builtin) left.scalar
      right.scalar
  · rintro (⟨object, -⟩ | ⟨object, -⟩)
    · exact left.scalar (of_decide_eq_true object)
    · exact right.scalar (of_decide_eq_true object)

theorem Promotes.covers (ends : x.Promotes y z) : z.Covers x ∧ z.Covers y := by
  obtain ⟨casts, casts'⟩ := ends.takesIn left.toOrdinary right.toOrdinary
  cases ends with
  | same code size second =>
      subst second
      refine ⟨⟨casts, Nat.le_of_eq (by rw [size]), fun string unicode => ?_⟩, .refl z⟩
      rw [← code, string] at unicode
      cases unicode
  | apart code size =>
      have builtin := (goal_of_ordinary left.toOrdinary right.toOrdinary).1
      have size := size builtin
      rw [← code] at builtin size
      cases sizable : z.code.isSizable with
      | true =>
          rw [if_pos sizable, goalSize, ← code] at size
          have wide : z.size.toNat = max (x.sizeAs z.code).toNat (y.sizeAs z.code).toNat := by
            rw [size, Size.toNat_max]
          obtain ⟨own, characters⟩ := left.sizeAs z.code
          obtain ⟨own', characters'⟩ := right.sizeAs z.code
          refine ⟨⟨casts, by omega, fun string unicode => ?_⟩,
            ⟨casts', by omega, fun string unicode => ?_⟩⟩
          · have := characters string unicode
            omega
          · have := characters' string unicode
            omega
      | false =>
          rw [if_neg (by simp [sizable])] at size
          have scalar : z.code ≠ .object := by
            rw [code]
            exact goal_ne_object left right
          exact ⟨left.covered casts builtin scalar sizable size,
            right.covered casts' builtin scalar sizable size⟩

theorem Promotes.modest (ends : x.Promotes y z) : z.Modest := by
  refine ⟨ends.ordinary left.toOrdinary right.toOrdinary, ?_, fun string => ?_⟩
  · cases ends with
    | same _ _ second => exact second ▸ right.scalar
    | apart code => exact code ▸ goal_ne_object left right
  · obtain ⟨casts, casts'⟩ := ends.takesIn left.toOrdinary right.toOrdinary
    cases ends with
    | same _ _ second => exact second ▸ right.short (second ▸ string)
    | apart code size =>
        have goal : x.goal y = .string := code.symm.trans string
        rw [goal] at size
        have size := size rfl
        rw [string] at casts casts'
        have first := left.short_sizeAs casts
        have second := right.short_sizeAs casts'
        have sizable : Code.string.isSizable = true := rfl
        rw [size, if_pos sizable, goalSize, goal, Size.toNat_max]
        omega

end Modest

end Descriptor

section Runs

variable {store : Store} (sound : store.Sound) (coded : store.Coded)

include sound coded in
theorem promote_promotes {a b : Ref} (left : a < store.heap.size) (right : b < store.heap.size) :
    Ensures Store.Leads (promote a b) store fun ref t => ref < t.heap.size ∧ t.Coded ∧
      (store.heap.get a).Promotes (store.heap.get b) (t.heap.get ref) := by
  have kept := promote_coded sound coded a b
  cases joined : store.heap.equivalent a b with
  | true =>
      refine .of_run (promote_run_equivalent joined) sound.leads ?_
      rintro _ ⟨⟩
      obtain ⟨-, alike⟩ := (Heap.equivalent_iff sound.closed sound.acyclic left right).1 joined
      exact ⟨right, coded, .same alike.code alike.size rfl⟩
  | false =>
      obtain ⟨after, inside⟩ := promote_leads sound (a := a) right
      refine ⟨after, fun ref ran => ⟨inside ref ran, kept, ?_⟩⟩
      have found := promoteTo_found sound ((store.heap.get a).goal (store.heap.get b))
        ((store.heap.get a).goalSize (store.heap.get b))
      have same := promote_run joined
      rw [same] at ran ⊢
      have here := found.good ref ran
      exact .apart (here.code_eq (same ▸ kept)) here.size_eq

theorem cellOf?_goal {x y : Descriptor} (left : ∃ cell, store.cellOf? x.code = some cell)
    (right : ∃ cell, store.cellOf? y.code = some cell) :
    ∃ cell, store.cellOf? (x.goal y) = some cell := by
  have builtin : ∀ code ∈ Code.builtin, code.isBuiltin = true := by decide
  rcases Descriptor.goal_eq_or x y with common | ⟨object, -⟩
  · rw [common]
    rcases Code.common_eq_later_or x.code y.code with last | ⟨member, -⟩
    · rw [last]
      rcases x.code.later_eq_or y.code with same | same <;> rw [same]
      · exact left
      · exact right
    · exact ⟨_, store.cellOf?_builtin (builtin _ member)⟩
  · rw [object]
    exact ⟨_, store.cellOf?_builtin rfl⟩

theorem promote_succeeds (ready : store.Ready) {a b : Ref}
    (known : ∃ cell, store.cellOf? ((store.heap.get a).goal (store.heap.get b)) = some cell) :
    Succeeds (promote a b) store fun _ t => t.Ready := by
  cases joined : store.heap.equivalent a b with
  | true => exact ⟨b, store, promote_run_equivalent joined, ready⟩
  | false =>
      obtain ⟨cell, known⟩ := known
      rw [Succeeds, promote_run joined]
      exact promoteTo_succeeds ready known _

end Runs

/-- A kind of descriptors that promotions stay within, and what their results hold of every
descriptor that has gone into them. -/
structure Accumulates (good : Descriptor → Prop) (held : Descriptor → Descriptor → Prop) : Prop where
  refl : ∀ x, good x → held x x
  trans : ∀ x y z, good x → good y → good z → held x y → held y z → held x z
  builtin : ∀ x y, good x → good y → (x.goal y).isBuiltin = true
  step : ∀ x y z, good x → good y → x.Promotes y z → good z ∧ held x z ∧ held y z

theorem accumulates_ordinary :
    Accumulates Descriptor.Ordinary fun x z => x.code.castsTo z.code = true where
  refl _ _ := Code.castsTo_self _
  trans _ _ _ left middle right := Code.castsTo_trans left.builtin middle.builtin right.builtin
  builtin _ _ left right := (Descriptor.goal_of_ordinary left right).1
  step _ _ _ left right ends := ⟨ends.ordinary left right, ends.takesIn left right⟩

theorem accumulates_modest : Accumulates Descriptor.Modest fun x z => z.Covers x where
  refl x _ := .refl x
  trans _ _ _ left middle right :=
    .trans left.toOrdinary middle.toOrdinary right.toOrdinary
  builtin _ _ left right := (Descriptor.goal_of_ordinary left.toOrdinary right.toOrdinary).1
  step _ _ _ left right ends := ⟨ends.modest left right, ends.covers left right⟩

theorem fold_succeeds {good : Descriptor → Prop} {held : Descriptor → Descriptor → Prop}
    (laws : Accumulates good held) {store : Store} (sound : store.Sound) (coded : store.Coded)
    (ready : store.Ready) {first : Ref} {rest : List Ref}
    (inside : ∀ m ∈ first :: rest, m < store.heap.size)
    (all : ∀ m ∈ first :: rest, good (store.heap.get m)) :
    Succeeds (rest.foldlM promote first) store fun ref t =>
      good (t.heap.get ref) ∧ ∀ m ∈ first :: rest, held (store.heap.get m) (t.heap.get ref) := by
  induction rest generalizing first store with
  | nil =>
      refine .pure ⟨all first (by simp), fun m member => ?_⟩
      rw [List.mem_singleton.1 member]
      exact laws.refl _ (all first (by simp))
  | cons next rest ih =>
      have left := all first (by simp)
      have right := all next (by simp)
      have known := laws.builtin _ _ left right
      rw [List.foldlM_cons]
      refine ((promote_succeeds ready ⟨_, store.cellOf?_builtin known⟩).ensuring
        (promote_promotes sound coded (inside first (by simp)) (inside next (by simp)))).bind ?_
      rintro ref t ⟨after, ready, bound, coded, ends⟩
      obtain ⟨kind, holds, holds'⟩ := laws.step _ _ _ left right ends
      have old : ∀ m ∈ first :: next :: rest, t.heap.get m = store.heap.get m := fun m member =>
        after.grows.heap.get m (inside m member)
      -- the result stands in for its two arguments in the rest of the fold
      have inside' : ∀ m ∈ ref :: rest, m < t.heap.size := by
        refine List.forall_mem_cons.2 ⟨bound, fun m member => ?_⟩
        exact Nat.lt_of_lt_of_le (inside m (by simp [member])) after.grows.heap.size
      have all' : ∀ m ∈ ref :: rest, good (t.heap.get m) := by
        refine List.forall_mem_cons.2 ⟨kind, fun m member => ?_⟩
        rw [old m (by simp [member])]
        exact all m (by simp [member])
      obtain ⟨last, u, ran, kind', held'⟩ := ih after.sound coded ready inside' all'
      have through := held' ref (List.mem_cons_self ..)
      refine ⟨last, u, ran, kind', fun m member => ?_⟩
      rcases List.mem_cons.1 member with rfl | member
      · exact laws.trans _ _ _ left kind kind' holds through
      · rcases List.mem_cons.1 member with rfl | member
        · exact laws.trans _ _ _ right kind kind' holds' through
        · rw [← old m (by simp [member])]
          exact held' m (List.mem_cons_of_mem _ member)

end ElementTypes
