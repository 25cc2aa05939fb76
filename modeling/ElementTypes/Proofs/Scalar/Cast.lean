import ElementTypes.Store.Promote

/-! # Safe casts and common codes

Where any code at all takes in two others, so does their common code, unless no search for it takes
place (`Code.Unsearched`).
-/

namespace ElementTypes.Code

theorem mem_builtin {code : Code} (builtin : code.isBuiltin = true) : code ∈ Code.builtin :=
  List.mem_of_getElem? (getElem?_builtin builtin)

theorem mem_drop_builtin {code : Code} (builtin : code.isBuiltin = true) {n : Nat}
    (above : n ≤ code.number) : code ∈ Code.builtin.drop n := by
  refine List.mem_of_getElem? (i := code.number - n) ?_
  rw [List.getElem?_drop, Nat.add_sub_cancel' above, getElem?_builtin builtin]

section Casts

variable {a b c : Code}

theorem castsTo_self (a : Code) : a.castsTo a = true := by simp [castsTo]

theorem castsTo_bool (b : Code) : bool.castsTo b = true := by simp [castsTo]

theorem castsTo_void (untimed : a.isTemporal = false) : a.castsTo void = true := by
  cases a with
  | datetime | timedelta => cases untimed
  | user => simp [castsTo, isTemporal]
  | _ => rfl

theorem eq_of_temporal_castsTo (timed : a.isTemporal = true) (casts : a.castsTo b = true) :
    a = b := by
  have other : a ≠ bool := by rintro rfl; cases timed
  unfold castsTo at casts
  split at casts
  · rename_i same
    exact same.resolve_right other
  · rw [if_pos (.inr (.inl timed))] at casts
    cases casts

theorem eq_of_castsTo_temporal (timed : b.isTemporal = true) (casts : a.castsTo b = true) :
    a = b ∨ a = bool := by
  unfold castsTo at casts
  split at casts
  · assumption
  · rw [if_pos (.inr (.inr timed))] at casts
    cases casts

theorem eq_of_castsTo_registered (registered : b.isBuiltin = false) (casts : a.castsTo b = true) :
    a = b ∨ a = bool := by
  unfold castsTo at casts
  split at casts
  · assumption
  · cases b with
    | user n =>
        split at casts
        · cases casts
        · simp [isBuiltin] at casts
    | _ => cases registered

section Builtin

variable (left : a.isBuiltin = true) (right : b.isBuiltin = true)
include left right

theorem castsTo_trans (last : c.isBuiltin = true) (first : a.castsTo b = true)
    (second : b.castsTo c = true) : a.castsTo c = true := by
  have table : ∀ a ∈ Code.builtin, ∀ b ∈ Code.builtin, a.castsTo b = true →
      ∀ c ∈ Code.builtin, b.castsTo c = true → a.castsTo c = true := by decide +kernel
  exact table a (mem_builtin left) b (mem_builtin right) first c (mem_builtin last) second

theorem size_le_of_castsTo (casts : a.castsTo b = true) (fixed : a.isSizable = false)
    (fixed' : b.isSizable = false) (scalar : b ≠ object) : a.size ≤ b.size := by
  have table : ∀ a ∈ Code.builtin, ∀ b ∈ Code.builtin, a.castsTo b = true →
      a.isSizable = false → b.isSizable = false → b ≠ object → a.size ≤ b.size := by
    decide +kernel
  exact table a (mem_builtin left) b (mem_builtin right) casts fixed fixed' scalar

theorem isSizable_of_castsTo (casts : a.castsTo b = true) (sizable : a.isSizable = true)
    (scalar : b ≠ object) : b.isSizable = true := by
  have table : ∀ a ∈ Code.builtin, ∀ b ∈ Code.builtin, a.castsTo b = true →
      a.isSizable = true → b ≠ object → b.isSizable = true := by decide +kernel
  exact table a (mem_builtin left) b (mem_builtin right) casts sizable scalar

end Builtin

theorem isText_of_castsTo (builtin : a.isBuiltin = true) (above : string.castsTo a = true)
    (below : a.castsTo unicode = true) : a = string ∨ a = unicode := by
  have table : ∀ a ∈ Code.builtin, string.castsTo a = true → a.castsTo unicode = true →
      a = string ∨ a = unicode := by decide +kernel
  exact table a (mem_builtin builtin) above below

theorem eq_string_of_castsTo (builtin : a.isBuiltin = true) (casts : a.castsTo string = true)
    (sizable : a.isSizable = true) : a = string := by
  have table : ∀ a ∈ Code.builtin, a.castsTo string = true → a.isSizable = true → a = string := by
    decide +kernel
  exact table a (mem_builtin builtin) casts sizable

end Casts

def TakesIn (c a b : Code) : Prop := a.castsTo c = true ∧ b.castsTo c = true

section Common

variable {a b : Code}

theorem number_le_void (builtin : a.isBuiltin = true) (untimed : a.isTemporal = false) :
    a.number ≤ void.number := by
  cases a with
  | user => cases builtin
  | datetime | timedelta => cases untimed
  | _ => decide

theorem isTemporal_of_number_le (early : a.number ≤ void.number) : a.isTemporal = false := by
  cases a with
  | datetime | timedelta => exact absurd early (by decide)
  | _ => rfl

theorem later_eq_or (a b : Code) : a.later b = a ∨ a.later b = b := by
  unfold later
  split
  · exact .inl rfl
  · exact .inr rfl

theorem number_le_later (a b : Code) :
    a.number ≤ (a.later b).number ∧ b.number ≤ (a.later b).number := by
  unfold later
  split <;> omega

theorem exists_common (builtin : (a.later b).isBuiltin = true)
    (target : ∃ c : Code, c.TakesIn a b) :
    ∃ c ∈ Code.builtin.drop (a.later b).number, c.TakesIn a b := by
  obtain ⟨c, left, right⟩ := target
  cases timed : (a.later b).isTemporal with
  | true =>
      -- a temporal code is cast to nothing but itself, which then takes in the other one
      refine ⟨a.later b, mem_drop_builtin builtin (Nat.le_refl _), ?_⟩
      rcases later_eq_or a b with same | same <;> rw [same] at timed ⊢
      · obtain rfl := eq_of_temporal_castsTo timed left
        exact ⟨castsTo_self _, right⟩
      · obtain rfl := eq_of_temporal_castsTo timed right
        exact ⟨left, castsTo_self _⟩
  | false =>
      have early := number_le_void builtin timed
      obtain ⟨first, second⟩ := number_le_later a b
      refine ⟨void, mem_drop_builtin rfl early, castsTo_void ?_, castsTo_void ?_⟩
      · exact isTemporal_of_number_le (Nat.le_trans first early)
      · exact isTemporal_of_number_le (Nat.le_trans second early)

theorem common_of_registered (registered : firstUser ≤ (a.later b).number) :
    a.common b = a.later b := by
  have none : Code.builtin.drop (a.later b).number = [] :=
    List.drop_eq_nil_of_le (Nat.le_trans (by decide) registered)
  rw [common, none]
  rfl

theorem common_eq_later_or (a b : Code) : a.common b = a.later b ∨
    a.common b ∈ Code.builtin ∧ (a.common b).TakesIn a b := by
  cases found : (Code.builtin.drop (a.later b).number).find? fun code =>
      a.castsTo code && b.castsTo code with
  | none =>
      rw [common, found]
      exact .inl rfl
  | some code =>
      have holds := List.find?_some found
      rw [common, found]
      refine .inr ⟨List.mem_of_mem_drop (List.mem_of_find?_eq_some found), ?_⟩
      simpa [TakesIn] using holds

/-- Unlike codes of which the later is registered and neither is that of truth values. No search for
a common code takes place between these. -/
def Unsearched (a b : Code) : Prop :=
  (a.later b).isBuiltin = false ∧ a ≠ b ∧ a ≠ bool ∧ b ≠ bool

theorem Unsearched.not_takesIn (unsearched : a.Unsearched b) : ¬ (a.later b).TakesIn a b := by
  obtain ⟨registered, unlike, more, more'⟩ := unsearched
  rintro ⟨left, right⟩
  have left := (eq_of_castsTo_registered registered left).resolve_right more
  have right := (eq_of_castsTo_registered registered right).resolve_right more'
  exact unlike (left.trans right.symm)

theorem later_takesIn (registered : (a.later b).isBuiltin = false) (searched : ¬ a.Unsearched b) :
    (a.later b).TakesIn a b := by
  by_cases alike : a = b
  · subst alike
    have same := (later_eq_or a a).elim id id
    rw [same]
    exact ⟨castsTo_self a, castsTo_self a⟩
  · by_cases more : a = bool
    · subst more
      have last : bool.later b = b := (later_eq_or bool b).resolve_left fun same => by
        rw [same] at registered
        cases registered
      rw [last]
      exact ⟨castsTo_bool b, castsTo_self b⟩
    · have less : b = bool := Decidable.byContradiction fun more' =>
        searched ⟨registered, alike, more, more'⟩
      subst less
      have last : a.later bool = a := (later_eq_or a bool).resolve_right fun same => by
        rw [same] at registered
        cases registered
      rw [last]
      exact ⟨castsTo_self a, castsTo_bool a⟩

theorem common_takesIn (proper : (a.later b).isBuiltin = true ∨ firstUser ≤ (a.later b).number)
    (searched : ¬ a.Unsearched b) (target : ∃ c : Code, c.TakesIn a b) :
    (a.common b).TakesIn a b := by
  cases builtin : (a.later b).isBuiltin with
  | true =>
      obtain ⟨c, member, both⟩ := exists_common builtin target
      have found : ((Code.builtin.drop (a.later b).number).find? fun code =>
          a.castsTo code && b.castsTo code).isSome := by
        rw [List.find?_isSome]
        exact ⟨c, member, by simpa [TakesIn] using both⟩
      obtain ⟨code, here⟩ := Option.isSome_iff_exists.1 found
      have holds := List.find?_some here
      rw [common, here]
      simpa [TakesIn] using holds
  | false =>
      rw [common_of_registered (proper.resolve_left (by simp [builtin]))]
      exact later_takesIn builtin searched

end Common

theorem takesIn_of_common {a b : Code} (common : a.common b = .unicode) :
    unicode.TakesIn a b := by
  rcases common_eq_later_or a b with last | ⟨-, both⟩
  · have last : a.later b = .unicode := last.symm.trans common
    have builtin : (a.later b).isBuiltin = true := by rw [last]; rfl
    obtain ⟨first, second⟩ := number_le_later a b
    rw [last] at first second
    rw [← common]
    refine common_takesIn (.inl builtin) (fun unsearched => ?_)
      ⟨.void, castsTo_void ?_, castsTo_void ?_⟩
    · rw [unsearched.1] at builtin
      cases builtin
    · exact isTemporal_of_number_le (Nat.le_trans first (by decide))
    · exact isTemporal_of_number_le (Nat.le_trans second (by decide))
  · exact common ▸ both

theorem isBuiltin_of_castsTo_unicode {a : Code} (casts : a.castsTo .unicode = true) :
    a.isBuiltin = true := by
  cases a with
  | user => simp [castsTo, isBuiltin, isTemporal] at casts
  | _ => rfl

theorem eq_unicode_of_common {a b : Code} (common : a.common b = .unicode) :
    (a = .unicode ∨ b = .unicode) ∧
      ∀ c ∈ [a, b], c = .string ∨ c = .unicode ∨ c.isBuiltin = true ∧ c.isSizable = false := by
  have casts := takesIn_of_common common
  have table : ∀ a ∈ Code.builtin, ∀ b ∈ Code.builtin, a.common b = .unicode →
      (a = .unicode ∨ b = .unicode) ∧
        ∀ c ∈ [a, b], c = .string ∨ c = .unicode ∨ c.isBuiltin = true ∧ c.isSizable = false := by
    decide +kernel
  exact table a (mem_builtin (isBuiltin_of_castsTo_unicode casts.1)) b
    (mem_builtin (isBuiltin_of_castsTo_unicode casts.2)) common

end ElementTypes.Code
