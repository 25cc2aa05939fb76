import ElementTypes.Proofs.Temporal.Refinement
import ElementTypes.Proofs.Text.Grammar

/-! # Texts of intervals -/

namespace ElementTypes.Interval

structure Refined (i : Interval) : Prop where
  den : i.den = 1
  num : 0 ≤ i.num.toInt

theorem refined_unscaled : unscaled.Refined := ⟨rfl, by decide⟩

theorem parse_refined {whole : String} {i : Interval} (read : parse whole = .ok i) : i.Refined := by
  obtain ⟨unit, num, den, events, spelled, made⟩ := parse_eq_ok.1 read
  exact ⟨(refinementOf_refine made).undivided, (num_nonneg_iff made).2 spelled.num_nonneg⟩

theorem multiplied_ofInt {n : Count} (positive : 0 ≤ n.toInt) :
    Multiplied (if n = 1 then [] else Numeral.ofInt n.toInt) n.toInt := by
  split
  · rename_i one
    rw [one]
    exact .absent
  · have written : Numeral.Digits (Numeral.ofInt n.toInt) n.toInt.natAbs := by
      rw [Numeral.ofInt_of_nonneg positive]
      exact Numeral.nat?_eq_some.1 (Numeral.nat?_ofNat _)
    have spelled := Multiplied.given written
    rwa [Int.natAbs_of_nonneg positive] at spelled

theorem suffixed_ofInt (mark : List Char) (n : Count) :
    Suffixed mark (if n = 1 then [] else mark ++ Numeral.ofInt n.toInt) n.toInt := by
  split
  · rename_i one
    rw [one]
    exact .absent
  · exact .given (Numeral.count?_eq_some.1 (Numeral.count?_ofInt n))

theorem spelled_chars {i : Interval} (positive : 0 ≤ i.num.toInt) :
    Spelled i.chars i.base i.num i.den i.events :=
  .parts (multiplied_ofInt positive) (suffixed_ofInt ['/'] i.den)
    (suffixed_ofInt ['/', '/'] i.events)

theorem parse_chars {i : Interval} (refined : i.Refined) :
    parse (String.ofList i.chars) = .ok i := by
  have spelled := spelled_chars refined.num
  rw [← String.toList_ofList (l := i.chars)] at spelled
  rw [parse_of_spelled spelled, refine_eq_ok]
  exact .inl ⟨refined.den, by rw [← refined.den]⟩

/-- An interval is read back from its text if and only if its multiple is not negative. Otherwise
nothing is, for there are no signs in front of units. -/
theorem text_read_back {name : Option String} {num den events : Count} {i : Interval}
    (made : ofName name num den events = .ok i) :
    (parse i.text = .ok i ↔ 0 ≤ num.toInt) ∧
    (num.toInt < 0 → ∀ other, parse i.text ≠ .ok other) := by
  have sign := num_nonneg_iff made
  have refused : num.toInt < 0 → ∀ other, parse i.text ≠ .ok other := by
    intro negative other read
    have signed : i.num.toInt < 0 := by omega
    have other : i.num ≠ 1 := fun one => by simp [one] at signed
    -- the sign stands where digits or a unit would have to begin
    obtain ⟨rest, begins⟩ : ∃ rest, i.chars = '-' :: rest := by
      rw [chars, if_neg other, Numeral.ofInt, if_pos signed]
      exact ⟨_, rfl⟩
    obtain ⟨unit, _, _, _, spelled, -⟩ := parse_eq_ok.1 read
    exact spelled.minus_ne rest (String.toList_ofList.trans begins)
  refine ⟨⟨fun read => ?_, fun positive => ?_⟩, refused⟩
  · by_contra negative
    exact refused (by omega) i read
  · exact parse_chars ⟨(refinementOf_refine made).undivided, sign.2 positive⟩

theorem text_read_back_divided : ∃ i, ofName (some "D") 3 8 (-2) = .ok i ∧ i.text = "9h//-2" ∧
    parse i.text = .ok i := by
  have made : ofName (some "D") 3 8 (-2) = .ok ⟨.hour, 9, 1, -2⟩ := by decide
  exact ⟨_, made, by decide, (text_read_back made).1.2 (by decide)⟩

theorem negative_not_read_back : ∃ i, ofName (some "s") (-2) 1 1 = .ok i ∧ i.text = "-2s" ∧
    parse i.text = .error (.unknownUnit "-2s") :=
  ⟨⟨.second, -2, 1, 1⟩, by decide, by decide, by decide⟩

end ElementTypes.Interval
