import ElementTypes.Proofs.Store.Fold

/-! # Whole characters

The size of a unicode text is a whole number of characters, unless it came from a promotion that
splits one (`Descriptor.SplitBy`) or from more characters than bytes can be counted for.
-/

namespace ElementTypes

/-- A unicode text is made of whole characters, and a number has the size of its code. -/
structure Descriptor.Whole (d : Descriptor) : Prop where
  characters : d.code = .unicode → 4 ∣ d.size.toNat
  fixed : d.code.isBuiltin = true → d.code.isSizable = false → d.size = d.code.size

theorem Descriptor.Whole.congr {d d' : Descriptor} (whole : d.Whole) (code : d'.code = d.code)
    (size : d'.size = d.size) : d'.Whole where
  characters := by rw [code, size]; exact whole.characters
  fixed := by rw [code, size]; exact whole.fixed

theorem Descriptor.whole_canonical (code : Code) : (canonical code).Whole where
  characters text := by
    obtain rfl : code = .unicode := text
    decide
  fixed _ _ := rfl

theorem Descriptor.Whole.counted {d : Descriptor} (whole : d.Whole) (text : d.code = .unicode) :
    Code.characterSize.toNat * d.textSize.toNat = d.size.toNat := by
  rw [textSize, if_pos text, UInt64.toNat_div]
  exact Nat.mul_div_cancel' (whole.characters text)

theorem Wording.whole (w : Wording) : w.descriptor.Whole := by
  have sized := w.sized
  unfold TypeText.sized? at sized
  refine ⟨fun text => ?_, fun _ fixed => ?_⟩
  · have code : w.code = .unicode := text
    rw [code] at sized
    obtain ⟨bytes, product, same⟩ := Option.map_eq_some_iff.1 sized
    obtain rfl : bytes = w.size := (Prod.mk.inj same).2
    exact ⟨_, (Size.mul?_eq_some.1 product).trans (Nat.mul_comm ..)⟩
  · exact w.size_of_fixed fixed

namespace Code

theorem size_of_number {c : Code} (builtin : c.isBuiltin = true) (fixed : c.isSizable = false) :
    c.size = 1 ∨ c.size = 2 ∨ 4 ∣ c.size.toNat ∧ c.size ≠ 1 ∧ c.size ≠ 2 := by
  have table : ∀ c ∈ Code.builtin, c.isSizable = false →
      c.size = 1 ∨ c.size = 2 ∨ 4 ∣ c.size.toNat ∧ c.size ≠ 1 ∧ c.size ≠ 2 := by decide
  exact table c (mem_builtin builtin) fixed

end Code

namespace Descriptor

/-- More bytes than can be given characters meet a unicode text, or a short number meets an empty
one. -/
def SplitBy (x y : Descriptor) : Prop :=
  x.code = .unicode ∧ (y.code = .string ∧ UInt64.size ≤ 4 * y.size.toNat ∨
    x.size = 0 ∧ (y.code.size = 1 ∨ y.code.size = 2))

instance (x y : Descriptor) : Decidable (x.SplitBy y) := inferInstanceAs (Decidable (_ ∧ _))

theorem max_whole_iff {x y : Descriptor} (left : x.Whole) (right : y.Whole)
    (text : x.code = .unicode)
    (other : y.code = .string ∨ y.code = .unicode ∨
      y.code.isBuiltin = true ∧ y.code.isSizable = false) :
    4 ∣ max x.size.toNat (y.sizeAs .unicode).toNat ↔ ¬ x.SplitBy y := by
  have whole := left.characters text
  have limit : UInt64.size = 18446744073709551616 := rfl
  rcases other with string | unicode | ⟨builtin, fixed⟩
  · have split : x.SplitBy y ↔ UInt64.size ≤ 4 * y.size.toNat := by
      simp [SplitBy, text, string, Code.size]
    have sized : y.sizeAs .unicode = y.size.mulSaturating Code.characterSize :=
      if_pos ⟨rfl, string⟩
    have four : Code.characterSize.toNat = 4 := rfl
    rw [split, sized]
    by_cases fits : y.size.toNat * Code.characterSize.toNat < UInt64.size
    · rw [Size.toNat_mulSaturating fits, Nat.max_def]
      rw [four] at fits ⊢
      split <;> omega
    · have top := UInt64.toNat_lt x.size
      rw [Size.toNat_mulSaturating_of_le (Nat.le_of_not_lt fits), Nat.max_def]
      rw [four] at fits
      split <;> omega
  · have split : ¬ x.SplitBy y := by simp [SplitBy, unicode, Code.size]
    have sized : y.sizeAs .unicode = y.size := if_neg (by simp [unicode])
    have whole' := right.characters unicode
    rw [sized, Nat.max_def]
    refine iff_of_true ?_ split
    split <;> assumption
  · have number : y.code ≠ .string := by
      intro string
      rw [string] at fixed
      cases fixed
    have split : x.SplitBy y ↔ x.size.toNat = 0 ∧ (y.code.size = 1 ∨ y.code.size = 2) := by
      simp [SplitBy, text, number, ← UInt64.toNat_inj]
    have sized : y.sizeAs .unicode = y.code.size :=
      (if_neg (by simp [number])).trans (right.fixed builtin fixed)
    rw [split, sized, Nat.max_def]
    rcases Code.size_of_number builtin fixed with one | two | ⟨full, one, two⟩
    · have bytes : (1 : Size).toNat = 1 := rfl
      simp only [one, true_or, and_true]
      split <;> omega
    · have bytes : (2 : Size).toNat = 2 := rfl
      simp only [two, or_true, and_true]
      split <;> omega
    · simp only [one, two, or_false, and_false, not_false_iff, iff_true]
      split <;> assumption

theorem goalSize_whole_iff {x y : Descriptor} (left : x.Whole) (right : y.Whole)
    (text : x.goal y = .unicode) :
    4 ∣ (x.goalSize y).toNat ↔ ¬ x.SplitBy y ∧ ¬ y.SplitBy x := by
  have common : x.code.common y.code = .unicode := by
    rcases goal_eq_or x y with same | ⟨object, -⟩
    · rw [← same, text]
    · rw [text] at object
      cases object
  obtain ⟨one, others⟩ := Code.eq_unicode_of_common common
  rw [goalSize, text, Size.toNat_max]
  by_cases first : x.code = .unicode
  · have own : x.sizeAs .unicode = x.size := if_neg (by simp [first])
    rw [own, max_whole_iff left right first (others y.code (by simp))]
    refine ⟨fun unsplit => ⟨unsplit, fun turned => ?_⟩, And.left⟩
    simp [SplitBy, first, Code.size] at turned
  · have second : y.code = .unicode := one.resolve_left first
    have own : y.sizeAs .unicode = y.size := if_neg (by simp [second])
    rw [own, Nat.max_comm, max_whole_iff right left second (others x.code (by simp))]
    exact ⟨fun unsplit => ⟨fun turned => first turned.1, unsplit⟩, And.right⟩

end Descriptor

theorem promote_whole_iff {store t : Store} (sound : store.Sound) (coded : store.Coded)
    {a b result : Ref} (apart : store.heap.equivalent a b = false)
    (ran : (promote a b).run store = (.ok result, t))
    (text : (t.heap.get result).code = .unicode) (left : (store.heap.get a).Whole)
    (right : (store.heap.get b).Whole) :
    Code.characterSize.toNat ∣ (t.heap.get result).size.toNat ↔
      ¬ (store.heap.get a).SplitBy (store.heap.get b) ∧
        ¬ (store.heap.get b).SplitBy (store.heap.get a) := by
  have coded' := promote_coded sound coded a b
  rw [ran] at coded'
  rw [promote_run apart] at ran
  obtain ⟨-, found⟩ := (promoteTo_found sound _ _).of_ok ran
  have goal := (found.code_eq coded').symm.trans text
  have size := found.size_eq (by rw [goal]; rfl)
  rw [goal, if_pos (show Code.unicode.isSizable = true from rfl)] at size
  rw [size]
  exact Descriptor.goalSize_whole_iff left right goal

def Limits.whole : Limits where
  characters n := 4 * n.toNat < UInt64.size
  pair x y := ¬ x.SplitBy y ∧ ¬ y.SplitBy x
  edit form := form ≠ .size

theorem Descriptor.Made.whole {heap : Heap} {d : Descriptor} (made : d.Made .whole heap)
    (all : ∀ ref, (heap.get ref).Whole) : d.Whole := by
  cases made with
  | copied ref => exact (all ref).congr rfl rfl
  | worded w => exact w.whole.congr rfl rfl
  | string => exact ⟨(fun text => nomatch text), fun _ fixed => nomatch fixed⟩
  | @unicode n allowed =>
      refine ⟨fun _ => ?_, fun _ fixed => nomatch fixed⟩
      have fits : n.toNat * Code.characterSize.toNat < UInt64.size := by
        rw [Nat.mul_comm]
        exact allowed
      exact ⟨n.toNat, (Size.toNat_mulSaturating fits).trans (Nat.mul_comm ..)⟩
  | array | record => exact ⟨(fun text => nomatch text), fun _ fixed => nomatch fixed⟩
  | @promoted a b allowed sizable companion =>
      refine ⟨fun text => ?_, fun _ fixed => ?_⟩
      · exact (goalSize_whole_iff (all a) (all b) text).2 allowed
      · cases sizable.symm.trans fixed
  | @reordered before change ref _ closed grown inside renews =>
      cases renews with
      | node same =>
          refine (all ref).congr ?_ ?_ <;> rw [grown.get ref inside]
          · exact same.code
          · exact same.size

namespace Store

def Whole (store : Store) : Prop := ∀ ref, (store.heap.get ref).Whole

theorem whole_initial : initial.Whole := by
  intro ref
  obtain ⟨code, -, canonical⟩ := exists_get_initial ref
  rw [canonical]
  exact Descriptor.whole_canonical code

theorem Whole.act {store t : Store} (whole : store.Whole) (act : store.Act .whole t) :
    t.Whole := by
  cases act with
  | hooked => exact whole
  | adopted _ made => exact Heap.forall_get_alloc whole (made.whole whole)
  | entered =>
      -- the code of a registered type asks for nothing
      exact Heap.forall_get_alloc whole ⟨(fun text => nomatch text), fun builtin => nomatch builtin⟩
  | flagged flagged =>
      exact fun ref => (whole ref).congr (flagged.kept ref).code (flagged.kept ref).size
  | edited _ _ allowed applied =>
      exact Heap.forall_get_set whole
        ((whole _).congr (Edit.code_outcome applied) (Edit.size_outcome allowed applied))

end Store

end ElementTypes
