import ElementTypes.Temporal.Interval

/-! # The grammar of numbers and intervals -/

namespace ElementTypes

theorem except_bind_eq_ok {ε α β : Type} {x : Except ε α} {f : α → Except ε β} {b : β} :
    (x >>= f) = .ok b ↔ ∃ a, x = .ok a ∧ f a = .ok b := by
  cases x with
  | error e => simp [bind, Except.bind]
  | ok a => simp [bind, Except.bind]

theorem except_bind_eq_error {ε α β : Type} {x : Except ε α} {f : α → Except ε β} {e : ε} :
    (x >>= f) = .error e ↔ x = .error e ∨ ∃ a, x = .ok a ∧ f a = .error e := by
  cases x with
  | error e => simp [bind, Except.bind]
  | ok a => simp [bind, Except.bind]

/-! ## Numbers -/

namespace Numeral

/-- One or more digits and the number that they stand for. -/
structure Digits (text : List Char) (n : Nat) : Prop where
  nonempty : text ≠ []
  digits : ∀ c ∈ text, c.isDigit = true
  value : Nat.ofDigitChars 10 text 0 = n

inductive Signed : List Char → Int → Prop
  | plain {text : List Char} {n : Nat} (digits : Digits text n) : Signed text n
  | plus {text : List Char} {n : Nat} (digits : Digits text n) : Signed ('+' :: text) n
  | minus {text : List Char} {n : Nat} (digits : Digits text n) : Signed ('-' :: text) (-n)

theorem Digits.notMem {text : List Char} {n : Nat} (digits : Digits text n) {c : Char}
    (other : c.isDigit = false) : c ∉ text :=
  fun member => absurd (digits.digits c member) (Bool.eq_false_iff.1 other)

theorem nat?_eq_some {text : List Char} {n : Nat} : nat? text = some n ↔ Digits text n := by
  unfold nat?
  split
  · rename_i run
    rw [Option.some.injEq]
    exact ⟨fun same => ⟨run.1, List.all_eq_true.1 run.2, same⟩, fun digits => digits.value⟩
  · rename_i none
    simp only [reduceCtorEq, false_iff]
    exact fun digits => none ⟨digits.nonempty, List.all_eq_true.2 digits.digits⟩

theorem size?_eq_some {text : List Char} {size : Size} :
    size? text = some size ↔ Digits text size.toNat := by
  simp only [size?, Option.bind_eq_some_iff, nat?_eq_some, Size.ofNat?_eq_some]
  constructor
  · rintro ⟨n, digits, rfl⟩
    exact digits
  · exact fun digits => ⟨_, digits, rfl⟩

theorem count?_signed {text : List Char} {n : Count} (read : count? text = some n) :
    Signed text n.toInt := by
  unfold count? at read
  split at read
  all_goals
    obtain ⟨size, digits, fits⟩ := Option.bind_eq_some_iff.1 read
    rw [nat?_eq_some] at digits
    rw [Count.ofInt?_eq_some.1 fits]
  · exact .minus digits
  · exact .plus digits
  · exact .plain digits

theorem count?_eq_some {text : List Char} {n : Count} :
    count? text = some n ↔ Signed text n.toInt := by
  refine ⟨count?_signed, fun signed => ?_⟩
  generalize value : n.toInt = m at signed
  cases signed with
  | plain digits =>
      rw [count?_of_digits digits.digits, nat?_eq_some.2 digits]
      exact Count.ofInt?_eq_some.2 value
  | plus digits =>
      rw [count?, nat?_eq_some.2 digits]
      exact Count.ofInt?_eq_some.2 value
  | minus digits =>
      rw [count?, nat?_eq_some.2 digits]
      exact Count.ofInt?_eq_some.2 value

namespace Signed

variable {text : List Char} {n : Int} (signed : Signed text n)
include signed

theorem slash_notMem : '/' ∉ text := by
  cases signed with
  | plain digits => exact digits.notMem (by decide)
  | plus digits | minus digits => simp [digits.notMem (c := '/') (by decide)]

theorem nonempty : text ≠ [] := by
  cases signed with
  | plain digits => exact digits.nonempty
  | plus | minus => exact List.cons_ne_nil _ _

end Signed

end Numeral

/-! ## Intervals -/

namespace TimeUnit

variable (unit : TimeUnit)

theorem notMem_symbol : '/' ∉ unit.symbol.toList := by
  cases unit <;> decide

theorem symbol_ne_nil : unit.symbol.toList ≠ [] := by
  cases unit <;> decide

theorem takeWhile_symbol : unit.symbol.toList.takeWhile Char.isDigit = [] := by
  cases unit <;> decide

theorem dropWhile_symbol : unit.symbol.toList.dropWhile Char.isDigit = unit.symbol.toList := by
  cases unit <;> decide

omit unit in
theorem parse_eq_ok {text : String} {unit : TimeUnit} :
    TimeUnit.parse text = .ok unit ↔ text = unit.symbol := by
  rw [← ofSymbol?_eq_some, TimeUnit.parse]
  cases ofSymbol? text <;> simp

omit unit in
theorem parse_refused {text : String} {e : Error} (refused : TimeUnit.parse text = .error e) :
    e = .unknownUnit text := by
  unfold TimeUnit.parse at refused
  split at refused <;> cases refused
  rfl

end TimeUnit

namespace Interval

open Numeral

inductive Suffixed (mark : List Char) : List Char → Int → Prop
  | absent : Suffixed mark [] 1
  | given {text : List Char} {n : Int} (number : Signed text n) : Suffixed mark (mark ++ text) n

inductive Multiplied : List Char → Int → Prop
  | absent : Multiplied [] 1
  | given {text : List Char} {n : Nat} (number : Digits text n) : Multiplied text n

inductive Spelled : List Char → TimeUnit → Count → Count → Count → Prop
  | parts {multiple divisor repeats : List Char} {unit : TimeUnit} {num den events : Count}
      (num_spelled : Multiplied multiple num.toInt) (den_spelled : Suffixed ['/'] divisor den.toInt)
      (events_spelled : Suffixed ['/', '/'] repeats events.toInt) :
      Spelled (multiple ++ unit.symbol.toList ++ divisor ++ repeats) unit num den events

theorem Multiplied.digits {digits : List Char} {n : Int} (spelled : Multiplied digits n) :
    ∀ c ∈ digits, c.isDigit = true := by
  cases spelled with
  | absent => exact List.forall_mem_nil _
  | given number => exact number.digits

theorem Spelled.num_nonneg {text : List Char} {unit : TimeUnit} {num den events : Count}
    (spelled : Spelled text unit num den events) : 0 ≤ num.toInt := by
  obtain ⟨multiplied, -, -⟩ := spelled
  generalize num.toInt = n at multiplied
  cases multiplied with
  | absent => decide
  | given => exact Int.natCast_nonneg _

theorem Spelled.minus_ne {text : List Char} {unit : TimeUnit} {num den events : Count}
    (spelled : Spelled text unit num den events) (rest : List Char) : text ≠ '-' :: rest := by
  obtain ⟨multiplied, -, -⟩ := spelled
  generalize num.toInt = n at multiplied
  cases multiplied with
  | absent => cases unit <;> simp [TimeUnit.symbol]
  | given number =>
      obtain ⟨c, text, rfl⟩ := List.exists_cons_of_ne_nil number.nonempty
      intro same
      obtain ⟨rfl, -⟩ := List.cons.inj same
      exact absurd (number.digits '-' (List.mem_cons_self ..)) (by decide)

/-! ### What is accepted is spelled -/

theorem suffix_eq_ok {whole : String} {mark text front : List Char} {n : Count}
    (read : suffix whole mark text = .ok (front, n)) :
    ∃ back, text = front ++ back ∧ Suffixed mark back n.toInt := by
  unfold suffix at read
  split at read
  · obtain ⟨rfl, rfl⟩ := Prod.mk.inj (Except.ok.inj read)
    exact ⟨[], (List.append_nil _).symm, .absent⟩
  · rename_i before after cut
    split at read
    · rename_i found
      obtain ⟨rfl, rfl⟩ := Prod.mk.inj (Except.ok.inj read)
      refine ⟨mark ++ after, ?_, .given (count?_eq_some.1 found)⟩
      rw [eq_of_cutOnce cut, List.append_assoc]
    · cases read

theorem leading_eq_ok {whole : String} {digits : List Char} {n : Count}
    (all : ∀ c ∈ digits, c.isDigit = true) (read : leading whole digits = .ok n) :
    Multiplied digits n.toInt := by
  unfold leading at read
  split at read
  · rename_i empty
    obtain rfl := Except.ok.inj read
    rw [empty]
    exact .absent
  · rw [count?_of_digits all] at read
    split at read
    · rename_i found
      obtain rfl := Except.ok.inj read
      obtain ⟨size, digits, fits⟩ := Option.bind_eq_some_iff.1 found
      rw [Count.ofInt?_eq_some.1 fits]
      exact .given (nat?_eq_some.1 digits)
    · cases read

theorem spelled_of_parse {whole : String} {i : Interval} (read : parse whole = .ok i) :
    ∃ unit num den events, Spelled whole.toList unit num den events ∧
      refine unit num den events = .ok i := by
  unfold parse at read
  obtain ⟨⟨scale, events⟩, repeats, read⟩ := except_bind_eq_ok.1 read
  obtain ⟨⟨multiple, den⟩, divides, read⟩ := except_bind_eq_ok.1 read
  simp only at read
  split at read
  · cases read
  · obtain ⟨num, leads, read⟩ := except_bind_eq_ok.1 read
    obtain ⟨unit, named, made⟩ := except_bind_eq_ok.1 read
    obtain ⟨after, whole_eq, repeats⟩ := suffix_eq_ok repeats
    obtain ⟨between, scale_eq, divides⟩ := suffix_eq_ok divides
    have symbol : multiple.dropWhile Char.isDigit = unit.symbol.toList := by
      rw [← TimeUnit.parse_eq_ok.1 named, String.toList_ofList]
    have multiplied := leading_eq_ok (List.all_eq_true.1 List.all_takeWhile) leads
    refine ⟨unit, num, den, events, ?_, made⟩
    rw [whole_eq, scale_eq, ← List.takeWhile_append_dropWhile (p := Char.isDigit) (l := multiple),
      symbol]
    exact .parts multiplied divides repeats

/-! ### What is spelled is accepted -/

theorem suffix_of_suffixed (whole : String) {c : Char} {mark front back : List Char} {n : Count}
    (skips : Skips (c :: mark) front) (spelled : Suffixed (c :: mark) back n.toInt) :
    suffix whole (c :: mark) (front ++ back) = .ok (front, n) := by
  unfold suffix
  generalize value : n.toInt = m at spelled
  rw [skips]
  cases spelled with
  | absent =>
      rw [cutOnce_of_notMem List.not_mem_nil, Count.toInt_eq_one.1 value]
      simp
  | given number =>
      rw [← value] at number
      rw [cutOnce_self]
      simp [count?_eq_some.2 number]

theorem Suffixed.skips {divisor : List Char} {n : Int} (spelled : Suffixed ['/'] divisor n) :
    Skips ['/', '/'] divisor := by
  cases spelled with
  | absent => exact fun rest => by simp
  | @given text n number =>
      intro rest
      -- the divisor starts with a slash of its own, so that its next character decides
      obtain ⟨d, text, rfl⟩ := List.exists_cons_of_ne_nil number.nonempty
      have other : '/' ≠ d := fun same => number.slash_notMem (same ▸ List.mem_cons_self ..)
      have apart : ¬ ['/', '/'].isPrefixOf ('/' :: (d :: text ++ rest)) = true := by
        simp [List.isPrefixOf, other]
      have later : Skips ['/', '/'] (d :: text) := skips_of_notMem number.slash_notMem
      rw [List.singleton_append, List.cons_append, cutOnce, if_neg apart, later, Option.map_map]
      rfl

theorem leading_of_multiplied (whole : String) {digits : List Char} {n : Count}
    (spelled : Multiplied digits n.toInt) : leading whole digits = .ok n := by
  unfold leading
  generalize value : n.toInt = m at spelled
  cases spelled with
  | absent => rw [if_pos rfl, Count.toInt_eq_one.1 value]
  | given number =>
      have found : count? digits = some n := count?_eq_some.2 (value ▸ .plain number)
      simp [number.nonempty, found]

theorem parse_of_spelled {whole : String} {unit : TimeUnit} {num den events : Count}
    (spelled : Spelled whole.toList unit num den events) :
    parse whole = refine unit num den events := by
  generalize text : whole.toList = chars at spelled
  cases spelled with
  | @parts multiple divisor repeats _ _ _ _ multiplied divides repeated =>
      have digits := multiplied.digits
      have absent : '/' ∉ multiple ++ unit.symbol.toList := by
        intro member
        rcases List.mem_append.1 member with inside | inside
        · exact absurd (digits '/' inside) (by decide)
        · exact unit.notMem_symbol inside
      have first := suffix_of_suffixed whole ((skips_of_notMem absent).append divides.skips)
        repeated
      have second := suffix_of_suffixed whole (skips_of_notMem absent) divides
      unfold parse
      rw [text, first]
      simp only [bind, Except.bind, second, List.takeWhile_append_of_pos digits,
        List.dropWhile_append_of_pos digits, TimeUnit.takeWhile_symbol, TimeUnit.dropWhile_symbol,
        List.append_nil, if_neg (TimeUnit.symbol_ne_nil _), leading_of_multiplied whole multiplied,
        TimeUnit.parse_eq_ok.2 String.ofList_toList]

theorem parse_eq_ok {whole : String} {i : Interval} : parse whole = .ok i ↔
    ∃ unit num den events, Spelled whole.toList unit num den events ∧
      refine unit num den events = .ok i := by
  refine ⟨spelled_of_parse, ?_⟩
  rintro ⟨unit, num, den, events, spelled, made⟩
  rw [parse_of_spelled spelled, made]

/-! ### What is refused -/

theorem suffix_refused {whole : String} {mark text : List Char} {e : Error}
    (refused : suffix whole mark text = .error e) : e = .malformedInterval whole := by
  unfold suffix at refused
  split at refused
  · cases refused
  · split at refused <;> cases refused
    rfl

theorem leading_refused {whole : String} {digits : List Char} {e : Error}
    (refused : leading whole digits = .error e) : e = .malformedInterval whole := by
  unfold leading at refused
  split at refused
  · cases refused
  · split at refused <;> cases refused
    rfl

theorem refine_refused {unit : TimeUnit} {num den events : Count} {e : Error}
    (refused : refine unit num den events = .error e) : e.kind = .value := by
  unfold refine at refused
  split at refused
  · cases refused
    rfl
  split at refused
  · cases refused
  split at refused
  · cases refused
    rfl
  split at refused <;> cases refused
  rfl

theorem parse_refused {whole : String} {e : Error} (refused : parse whole = .error e) :
    e.kind = .value := by
  unfold parse at refused
  rcases except_bind_eq_error.1 refused with refused | ⟨⟨scale, events⟩, -, refused⟩
  · rw [suffix_refused refused]
    rfl
  rcases except_bind_eq_error.1 refused with refused | ⟨⟨multiple, den⟩, -, refused⟩
  · rw [suffix_refused refused]
    rfl
  simp only at refused
  split at refused
  · cases refused
    rfl
  rcases except_bind_eq_error.1 refused with refused | ⟨num, -, refused⟩
  · rw [leading_refused refused]
    rfl
  rcases except_bind_eq_error.1 refused with refused | ⟨unit, -, refused⟩
  · rw [TimeUnit.parse_refused refused]
    rfl
  exact refine_refused refused

end Interval

end ElementTypes
