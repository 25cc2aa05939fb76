import ElementTypes.Temporal.Interval
import Mathlib.Tactic.Ring

/-! # Refined divisors -/

namespace ElementTypes

namespace TimeUnit

/-- The first entry in the table of the unit whose divisor is a multiple of `den`. -/
def SplitsFirst (unit : TimeUnit) (den : Count) (divisor : Nat) (step : TimeUnit) : Prop :=
  ∃ before after, unit.finer = before ++ (divisor, step) :: after ∧ den.toInt ∣ divisor ∧
    ∀ other ∈ before, ¬ den.toInt ∣ (other.1 : Int)

theorem SplitsFirst.mem {unit step : TimeUnit} {den : Count} {divisor : Nat}
    (splits : unit.SplitsFirst den divisor step) : (divisor, step) ∈ unit.finer := by
  obtain ⟨before, after, table, -⟩ := splits
  simp [table]

theorem candidate?_eq_some {unit step : TimeUnit} {den : Count} {divisor : Nat} :
    Interval.candidate? unit den = some (divisor, step) ↔ unit.SplitsFirst den divisor step := by
  simp only [Interval.candidate?, SplitsFirst, List.find?_eq_some_iff_append,
    Int.dvd_iff_emod_eq_zero, decide_eq_true_eq, Bool.not_eq_true', decide_eq_false_iff_not]
  constructor
  · rintro ⟨divides, before, after, table, none⟩
    exact ⟨before, after, table, divides, none⟩
  · rintro ⟨before, after, table, divides, none⟩
    exact ⟨divides, before, after, table, none⟩

/-- The length of a unit, business days counted in full. Years, months and weeks have no length of
their own: the table splits them in several ways that do not agree. -/
def attoseconds? : TimeUnit → Option Nat
  | year | month | week => none
  | businessDay | day => some (24 * 3600 * 10 ^ 18)
  | hour => some (3600 * 10 ^ 18)
  | minute => some (60 * 10 ^ 18)
  | second => some (10 ^ 18)
  | millisecond => some (10 ^ 15)
  | microsecond => some (10 ^ 12)
  | nanosecond => some (10 ^ 9)
  | picosecond => some (10 ^ 6)
  | femtosecond => some (10 ^ 3)
  | attosecond => some 1

theorem divisor_pos {unit step : TimeUnit} {divisor : Nat} (member : (divisor, step) ∈ unit.finer) :
    0 < divisor := by
  have all : ∀ split ∈ unit.finer, 0 < split.1 := by
    cases unit <;> decide
  exact all _ member

theorem attoseconds?_step {unit step : TimeUnit} {divisor length : Nat}
    (member : (divisor, step) ∈ unit.finer) (known : unit.attoseconds? = some length) :
    ∃ short, step.attoseconds? = some short ∧ divisor * short = length := by
  have all : ∀ split ∈ unit.finer,
      split.2.attoseconds?.map (split.1 * ·) = unit.attoseconds? ∨ unit.attoseconds? = none := by
    cases unit <;> decide
  have whole := (all _ member).resolve_right (by simp [known])
  rw [known] at whole
  exact Option.map_eq_some_iff.1 whole

end TimeUnit

namespace Interval

theorem refine_eq_ok {base : TimeUnit} {num den events : Count} {i : Interval} :
    refine base num den events = .ok i ↔ (den = 1 ∧ i = ⟨base, num, 1, events⟩) ∨
      (1 < den.toInt ∧ ∃ divisor, base.SplitsFirst den divisor i.base ∧
        i.num.toInt = num.toInt * (divisor / den.toInt) ∧ i.den = 1 ∧ i.events = events) := by
  unfold refine
  by_cases one : den = 1
  · subst one
    have whole : ¬ (1 : Count).toInt < 1 := by decide
    have undivided : ¬ 1 < (1 : Count).toInt := by decide
    simp only [if_neg whole, if_true, undivided, Except.ok.injEq, false_and, or_false, true_and]
    exact eq_comm
  · have other : den.toInt ≠ 1 := mt Count.toInt_eq_one.1 one
    simp only [one, false_and, false_or, if_false]
    split
    · simp only [reduceCtorEq, false_iff]
      omega
    · rename_i positive
      have divided : 1 < den.toInt := by omega
      simp only [divided, true_and, ← TimeUnit.candidate?_eq_some, ← Count.ofInt?_eq_some]
      cases found : candidate? base den with
      | none => simp
      | some split =>
          obtain ⟨divisor, step⟩ := split
          cases fits : Count.ofInt? (num.toInt * (divisor / den.toInt)) with
          | none =>
              simp only [fits, reduceCtorEq, false_iff]
              rintro ⟨_, same, scaled, -⟩
              obtain ⟨rfl, -⟩ := Prod.mk.inj (Option.some.inj same)
              rw [fits] at scaled
              cases scaled
          | some scaled =>
              simp only [fits, Except.ok.injEq]
              constructor
              · rintro rfl
                exact ⟨divisor, rfl, fits, rfl, rfl⟩
              · rintro ⟨_, same, scaled', undivided, repeats⟩
                obtain ⟨rfl, rfl⟩ := Prod.mk.inj (Option.some.inj same)
                rw [fits] at scaled'
                rw [Option.some.inj scaled', ← undivided, ← repeats]

structure RefinementOf (i : Interval) (base : TimeUnit) (num den events : Count) : Prop where
  undivided : i.den = 1
  repeats : i.events = events
  kept : den = 1 → i.base = base ∧ i.num = num
  split : den ≠ 1 → ∃ divisor, base.SplitsFirst den divisor i.base ∧
    i.num.toInt * den.toInt = num.toInt * divisor
  length : ∀ length, base.attoseconds? = some length → ∃ short,
    i.base.attoseconds? = some short ∧
      i.num.toInt * short * den.toInt = num.toInt * length

section Refined

variable {base : TimeUnit} {num den events : Count} {i : Interval}

theorem refinementOf_refine (refined : refine base num den events = .ok i) :
    i.RefinementOf base num den events := by
  rcases refine_eq_ok.1 refined with
    ⟨rfl, rfl⟩ | ⟨divided, divisor, splits, scaled, undivided, repeats⟩
  · refine ⟨rfl, rfl, fun _ => ⟨rfl, rfl⟩, fun other => absurd rfl other, fun length known => ?_⟩
    exact ⟨length, known, Int.mul_one _⟩
  · have other : den ≠ 1 := by
      rintro rfl
      exact absurd divided (by decide)
    have exact : num.toInt * divisor = i.num.toInt * den.toInt := by
      obtain ⟨-, -, -, divides, -⟩ := splits
      rw [scaled, Int.mul_assoc, Int.ediv_mul_cancel divides]
    refine ⟨undivided, repeats, fun one => absurd one other, fun _ => ⟨divisor, splits, exact.symm⟩,
      fun length known => ?_⟩
    obtain ⟨short, found, rfl⟩ := TimeUnit.attoseconds?_step splits.mem known
    refine ⟨short, found, ?_⟩
    calc i.num.toInt * short * den.toInt = i.num.toInt * den.toInt * short := by ring
      _ = num.toInt * divisor * short := by rw [exact]
      _ = num.toInt * (divisor * short : Nat) := by push_cast; ring

theorem refine_succeeds_iff : (∃ i, refine base num den events = .ok i) ↔ den = 1 ∨
    (1 < den.toInt ∧ ∃ divisor step, base.SplitsFirst den divisor step ∧
      -2 ^ 31 ≤ num.toInt * (divisor / den.toInt) ∧
      num.toInt * (divisor / den.toInt) < 2 ^ 31) := by
  constructor
  · rintro ⟨i, refined⟩
    rcases refine_eq_ok.1 refined with ⟨one, -⟩ | ⟨divided, divisor, splits, scaled, -⟩
    · exact .inl one
    · refine .inr ⟨divided, divisor, i.base, splits, ?_⟩
      rw [← scaled]
      exact ⟨Int32.le_toInt i.num, Int32.toInt_lt i.num⟩
  · rintro (one | ⟨divided, divisor, step, splits, low, high⟩)
    · exact ⟨_, refine_eq_ok.2 (.inl ⟨one, rfl⟩)⟩
    · refine ⟨⟨step, Int32.ofInt (num.toInt * (divisor / den.toInt)), 1, events⟩,
        refine_eq_ok.2 (.inr ⟨divided, divisor, splits, ?_, rfl, rfl⟩)⟩
      exact Int32.toInt_ofInt_of_le low high

theorem num_nonneg_iff (refined : refine base num den events = .ok i) :
    0 ≤ i.num.toInt ↔ 0 ≤ num.toInt := by
  rcases refine_eq_ok.1 refined with ⟨-, rfl⟩ | ⟨divided, divisor, splits, scaled, -⟩
  · exact Iff.rfl
  · have positive : (0 : Int) < divisor := Int.natCast_pos.2 (TimeUnit.divisor_pos splits.mem)
    obtain ⟨-, -, -, divides, -⟩ := splits
    rw [scaled, Int.mul_nonneg_iff_of_pos_right (Int.ediv_pos_of_pos_of_dvd positive _ divides)]
    omega

end Refined

/-- A divisor is refined if and only if it is one, or the table of the unit has a multiple of it and
the numerator can be scaled. The result has the same length, wherever the unit has one. -/
theorem refinement_exact (name : Option String) (num den events : Count) :
    ((∃ i, ofName name num den events = .ok i) ↔ den = 1 ∨
      (1 < den.toInt ∧ ∃ divisor step, (TimeUnit.ofName name).SplitsFirst den divisor step ∧
        -2 ^ 31 ≤ num.toInt * (divisor / den.toInt) ∧
        num.toInt * (divisor / den.toInt) < 2 ^ 31)) ∧
    ∀ i, ofName name num den events = .ok i →
      i.RefinementOf (.ofName name) num den events :=
  ⟨refine_succeeds_iff, fun _ => refinementOf_refine⟩

theorem refinement_exact_threeHalves : ∃ i, ofName (some "h") (-3) 2 5 = .ok i ∧
    i.RefinementOf .hour (-3) 2 5 ∧ i.base = .minute ∧ i.num = -90 := by
  obtain ⟨-, refined⟩ := refinement_exact (some "h") (-3) 2 5
  have found : ofName (some "h") (-3) 2 5 = .ok ⟨.minute, -90, 1, 5⟩ := by decide
  exact ⟨_, found, refined _ found, rfl, rfl⟩

end Interval

end ElementTypes
