import ElementTypes.Word

/-! # Decimal numerals

Digits are the ten ASCII digits. A size is written in digits alone; a count may carry a sign, and
its reader also takes a `+`.
-/

namespace ElementTypes.Numeral

def ofNat (n : Nat) : List Char := Nat.toDigits 10 n

def ofInt (n : Int) : List Char :=
  if n < 0 then '-' :: ofNat n.natAbs else ofNat n.natAbs

def nat? (text : List Char) : Option Nat :=
  if text ≠ [] ∧ text.all Char.isDigit then some (Nat.ofDigitChars 10 text 0) else none

def size? (text : List Char) : Option Size := (nat? text).bind Size.ofNat?

def count? : List Char → Option Count
  | '-' :: digits => (nat? digits).bind fun n => Count.ofInt? (-(n : Int))
  | '+' :: digits => (nat? digits).bind fun n => Count.ofInt? n
  | digits => (nat? digits).bind fun n => Count.ofInt? n

theorem isDigit_of_mem_ofNat {n : Nat} {c : Char} (member : c ∈ ofNat n) : c.isDigit = true :=
  Nat.isDigit_of_mem_toDigits (by omega) (by omega) member

theorem ofNat_ne_nil (n : Nat) : ofNat n ≠ [] := by
  simp [ofNat]

theorem nat?_ofNat (n : Nat) : nat? (ofNat n) = some n := by
  have digits : (ofNat n).all Char.isDigit := List.all_eq_true.2 fun _ => isDigit_of_mem_ofNat
  rw [nat?, if_pos ⟨ofNat_ne_nil n, digits⟩, ofNat, Nat.ofDigitChars_toDigits (by omega) (by omega)]

theorem size?_ofNat (n : Size) : size? (ofNat n.toNat) = some n := by
  rw [size?, nat?_ofNat, Option.bind_some, Size.ofNat?_eq_some]

theorem count?_of_digits {text : List Char} (digits : ∀ c ∈ text, c.isDigit = true) :
    count? text = (nat? text).bind fun n => Count.ofInt? n := by
  unfold count?
  split
  · exact absurd (digits '-' (by simp)) (by decide)
  · exact absurd (digits '+' (by simp)) (by decide)
  · rfl

theorem count?_ofNat (n : Nat) : count? (ofNat n) = Count.ofInt? n := by
  rw [count?_of_digits fun _ => isDigit_of_mem_ofNat, nat?_ofNat, Option.bind_some]

theorem count?_ofInt (n : Count) : count? (ofInt n.toInt) = some n := by
  unfold ofInt
  split
  · simp only [count?, nat?_ofNat, Option.bind_some, Count.ofInt?_eq_some]
    omega
  · rw [count?_ofNat, Count.ofInt?_eq_some]
    omega

theorem ofInt_of_nonneg {n : Int} (h : 0 ≤ n) : ofInt n = ofNat n.natAbs := by
  rw [ofInt, if_neg (by omega)]

def showCount (n : Count) : String := String.ofList (ofInt n.toInt)

def showSize (n : Size) : String := String.ofList (ofNat n.toNat)

end ElementTypes.Numeral
