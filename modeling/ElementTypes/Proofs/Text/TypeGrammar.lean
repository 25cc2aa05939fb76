import ElementTypes.Descriptor.TypeText
import ElementTypes.Proofs.Text.Grammar

/-! # The grammar of type texts -/

namespace ElementTypes.TypeText

open Numeral

def widths : Kind → List Nat
  | .bool => [1]
  | .signed | .unsigned => [1, 2, 4, 8]
  | .float => [4, 8, 16]
  | .complex => [8, 16, 32]
  | .object | .datetime | .timedelta => [8]
  | .string | .unicode | .void => []

inductive Sized : Kind → Nat → Prop
  | string {n : Nat} (word : n < UInt64.size) : Sized .string n
  | unicode {n : Nat} (word : 4 * n < UInt64.size) : Sized .unicode n
  | void {n : Nat} (word : n < UInt64.size) : Sized .void n
  | fixed {kind : Kind} {n : Nat} (width : n ∈ widths kind) : Sized kind n

theorem fixedCode?_isSome {kind : Kind} {n : Nat} :
    (fixedCode? kind n).isSome = true ↔ n ∈ widths kind := by
  unfold fixedCode?
  split
  case h_19 => cases kind <;> simp_all [widths]
  all_goals simp [widths]

theorem Sized.word {kind : Kind} {n : Nat} (sized : Sized kind n) : n < UInt64.size := by
  cases sized with
  | string word | void word => exact word
  | unicode word => omega
  | fixed width =>
      have few : ∀ w ∈ widths kind, w < UInt64.size := by cases kind <;> decide
      exact few n width

theorem sized?_isSome {kind : Kind} {size : Size} :
    (sized? kind size).isSome = true ↔ Sized kind size.toNat := by
  have word := UInt64.toNat_lt size
  unfold sized?
  split
  · exact ⟨fun _ => .string word, fun _ => rfl⟩
  · rw [Option.isSome_map, Size.mul?, Size.ofNat?_isSome, Nat.mul_comm]
    refine ⟨.unicode, fun sized => ?_⟩
    cases sized with
    | unicode word => exact word
    | fixed width => cases width
  · exact ⟨fun _ => .void word, fun _ => rfl⟩
  · rw [Option.isSome_map, fixedCode?_isSome]
    refine ⟨.fixed, fun sized => ?_⟩
    cases sized <;> first | assumption | contradiction

theorem fixedCode?_eq_some {kind : Kind} {size : Nat} {code : Code}
    (found : fixedCode? kind size = some code) :
    code.isBuiltin = true ∧ code.kind = kind ∧ code ≠ .unicode := by
  unfold fixedCode? at found
  split at found <;> cases found <;> decide

theorem fixedCode?_size {kind : Kind} {size : Size} {code : Code}
    (found : fixedCode? kind size.toNat = some code) : code.size = size := by
  rw [← UInt64.toNat_inj]
  generalize size.toNat = n at found
  unfold fixedCode? at found
  split at found <;> cases found <;> rfl

theorem sized?_eq_some {kind : Kind} {size bytes : Size} {code : Code}
    (found : sized? kind size = some (code, bytes)) : code.isBuiltin = true ∧ code.kind = kind ∧
      (if code = .unicode then bytes / Code.characterSize else bytes) = size := by
  unfold sized? at found
  split at found
  · cases found
    exact ⟨rfl, rfl, rfl⟩
  · obtain ⟨product, fits, same⟩ := Option.map_eq_some_iff.1 found
    obtain ⟨rfl, rfl⟩ := Prod.mk.inj same
    refine ⟨rfl, rfl, UInt64.toNat_inj.1 ?_⟩
    rw [if_pos rfl, UInt64.toNat_div, Size.mul?_eq_some.1 fits]
    exact Nat.mul_div_cancel _ (by decide)
  · cases found
    exact ⟨rfl, rfl, rfl⟩
  · obtain ⟨code', fixed, same⟩ := Option.map_eq_some_iff.1 found
    obtain ⟨rfl, rfl⟩ := Prod.mk.inj same
    obtain ⟨builtin, kind, other⟩ := fixedCode?_eq_some fixed
    exact ⟨builtin, kind, if_neg other⟩

theorem isTemporal_of_sized? {kind : Kind} {size bytes : Size} {code : Code}
    (found : sized? kind size = some (code, bytes)) :
    code.isTemporal = true ↔ kind = .datetime ∨ kind = .timedelta := by
  obtain ⟨-, rfl, -⟩ := sized?_eq_some found
  cases code <;> simp [Code.isTemporal, Code.kind]

def inBrackets : Option (List Char) → List Char
  | none => []
  | some scale => '[' :: scale ++ [']']

/-- The parts of a type text: perhaps the mark of an order, the letter of a kind, digits, and
perhaps something in brackets. -/
inductive Shaped : List Char → Option ByteOrder → Kind → Nat → Option (List Char) → Prop
  | parts {digits : List Char} {n : Nat} (order : Option ByteOrder) (kind : Kind)
      (written : Digits digits n) (scale : Option (List Char)) :
      Shaped ((order.map ByteOrder.mark).toList ++
        kind.letter :: (digits ++ inBrackets scale)) order kind n scale

theorem splitOrder_eq {text rest : List Char} {order : ByteOrder}
    (parted : splitOrder text = (order, rest)) :
    ∃ marked : Option ByteOrder, text = (marked.map ByteOrder.mark).toList ++ rest := by
  cases text with
  | nil =>
      obtain ⟨-, rfl⟩ := Prod.mk.inj parted
      exact ⟨none, rfl⟩
  | cons c text =>
      rw [splitOrder] at parted
      cases found : ByteOrder.ofMark? c with
      | none =>
          rw [found] at parted
          obtain ⟨-, rfl⟩ := Prod.mk.inj parted
          exact ⟨none, rfl⟩
      | some marked =>
          rw [found] at parted
          obtain ⟨-, rfl⟩ := Prod.mk.inj parted
          have same : marked.mark = c := by simpa using List.find?_some found
          exact ⟨some marked, by rw [← same]; rfl⟩

theorem splitOrder_shaped (order : Option ByteOrder) (kind : Kind) (rest : List Char) :
    splitOrder ((order.map ByteOrder.mark).toList ++ kind.letter :: rest) =
      (order.getD .native, kind.letter :: rest) := by
  cases order with
  -- no letter of a kind is taken for a mark
  | none => cases kind <;> rfl
  | some order =>
      show splitOrder (order.mark :: kind.letter :: rest) = _
      rw [splitOrder, ByteOrder.ofMark?_mark]
      rfl

theorem unbracket?_eq_some {text scale : List Char} :
    unbracket? text = some scale ↔ text = scale ++ [']'] := by
  unfold unbracket?
  split
  · rename_i last
    obtain ⟨front, rfl⟩ := List.getLast?_eq_some_iff.1 last
    simp
  · rename_i unclosed
    simp only [reduceCtorEq, false_iff]
    rintro rfl
    exact unclosed List.getLast?_concat

theorem splitScale?_eq_some {text digits : List Char} {scale : Option (List Char)}
    (split : splitScale? text = some (digits, scale)) : text = digits ++ inBrackets scale := by
  unfold splitScale? at split
  split at split
  · obtain ⟨rfl, rfl⟩ := Prod.mk.inj (Option.some.inj split)
    exact (List.append_nil _).symm
  · rename_i cut
    obtain ⟨scale, closed, same⟩ := Option.map_eq_some_iff.1 split
    obtain ⟨rfl, rfl⟩ := Prod.mk.inj same
    rw [eq_of_cutOnce cut, unbracket?_eq_some.1 closed]
    simp [inBrackets]

theorem splitScale?_append {digits : List Char} (absent : '[' ∉ digits)
    (scale : Option (List Char)) :
    splitScale? (digits ++ inBrackets scale) = some (digits, scale) := by
  unfold splitScale?
  cases scale with
  | none => simp [inBrackets, cutOnce_of_notMem absent]
  | some chars =>
      have cut : cutOnce ['['] (digits ++ inBrackets (some chars)) =
          some (digits, chars ++ [']']) := cutOnce_append absent _
      simp [cut, unbracket?]

theorem shaped_of_read? {text : String} {said : TypeText} (read : read? text = some said) :
    ∃ order kind size, Shaped text.toList order kind size.toNat said.scale ∧
      sized? kind size = some (said.code, said.size) := by
  unfold read? at read
  split at read
  · cases read
  · rename_i order letter rest split
    simp only [Option.bind_eq_bind, Option.bind_eq_some_iff] at read
    obtain ⟨kind, named, ⟨digits, scale⟩, parted, size, counted, ⟨code, bytes⟩, found, same⟩ := read
    obtain rfl := Option.some.inj same
    obtain ⟨marked, text_eq⟩ := splitOrder_eq split
    have letter_eq : kind.letter = letter := by simpa using List.find?_some named
    refine ⟨marked, kind, size, ?_, found⟩
    rw [text_eq, ← letter_eq, splitScale?_eq_some parted]
    exact .parts marked kind (size?_eq_some.1 counted) scale

theorem read?_of_shaped {text : String} {order : Option ByteOrder} {kind : Kind} {size : Size}
    {scale : Option (List Char)} (shaped : Shaped text.toList order kind size.toNat scale) :
    read? text = (sized? kind size).map fun (code, bytes) =>
      ⟨order.getD .native, code, bytes, scale⟩ := by
  generalize chars : text.toList = whole at shaped
  generalize count : size.toNat = n at shaped
  cases shaped with
  | parts _ _ written =>
      have counted : size? _ = some size := size?_eq_some.2 (count ▸ written)
      have absent := written.notMem (c := '[') (by decide)
      rw [read?, chars, splitOrder_shaped]
      simp only [Kind.ofLetter?_letter, splitScale?_append absent, counted, Option.bind_eq_bind,
        Option.bind_some]
      cases sized? kind size <;> rfl

theorem sized_of_read? {text : String} {said : TypeText} (read : read? text = some said) :
    ∃ order kind n, Shaped text.toList order kind n said.scale ∧ Sized kind n ∧
      (said.code.isTemporal = true ↔ kind = .datetime ∨ kind = .timedelta) := by
  obtain ⟨order, kind, size, shaped, found⟩ := shaped_of_read? read
  have sized : Sized kind size.toNat := sized?_isSome.1 (by rw [found]; rfl)
  exact ⟨order, kind, size.toNat, shaped, sized, isTemporal_of_sized? found⟩

theorem read?_of_sized {text : String} {order : Option ByteOrder} {kind : Kind} {n : Nat}
    {scale : Option (List Char)} (shaped : Shaped text.toList order kind n scale)
    (sized : Sized kind n) : ∃ said, read? text = some said ∧ said.scale = scale ∧
      (said.code.isTemporal = true ↔ kind = .datetime ∨ kind = .timedelta) := by
  obtain ⟨size, rfl⟩ : ∃ size : Size, size.toNat = n :=
    ⟨UInt64.ofNat n, UInt64.toNat_ofNat_of_lt' sized.word⟩
  obtain ⟨⟨code, bytes⟩, found⟩ := Option.isSome_iff_exists.1 (sized?_isSome.2 sized)
  refine ⟨⟨order.getD .native, code, bytes, scale⟩, ?_, rfl, isTemporal_of_sized? found⟩
  rw [read?_of_shaped shaped, found]
  rfl

inductive Accepted (text : List Char) : Prop
  | plain {order : Option ByteOrder} {kind : Kind} {n : Nat}
      (shaped : Shaped text order kind n none) (sized : Sized kind n)
  | scaled {order : Option ByteOrder} {kind : Kind} {n : Nat} {scale : List Char} {unit : TimeUnit}
      {num den events : Count} {i : Interval} (shaped : Shaped text order kind n (some scale))
      (sized : Sized kind n) (temporal : kind = .datetime ∨ kind = .timedelta)
      (spelled : Interval.Spelled scale unit num den events)
      (made : Interval.ofName (some unit.symbol) num den events = .ok i)

def Bracketed (text : List Char) : Prop :=
  ∃ order kind scale, (kind = .datetime ∨ kind = .timedelta) ∧
    Shaped text order kind 8 (some scale)

theorem bracketed_iff {text : String} : Bracketed text.toList ↔
    ∃ said, read? text = some said ∧ said.scale.isSome = true ∧ said.code.isTemporal = true := by
  constructor
  · rintro ⟨order, kind, scale, temporal, shaped⟩
    have sized : Sized kind 8 := by
      rcases temporal with rfl | rfl <;> exact .fixed (by decide)
    obtain ⟨said, read, same, timed⟩ := read?_of_sized shaped sized
    exact ⟨said, read, by rw [same]; rfl, timed.2 temporal⟩
  · rintro ⟨said, read, bracketed, temporal⟩
    obtain ⟨order, kind, n, shaped, sized, timed⟩ := sized_of_read? read
    obtain ⟨scale, given⟩ := Option.isSome_iff_exists.1 bracketed
    have temporal := timed.1 temporal
    have eight : n = 8 := by
      rcases temporal with rfl | rfl <;> cases sized <;> simp_all [widths]
    rw [given, eight] at shaped
    exact ⟨order, kind, scale, temporal, shaped⟩

end ElementTypes.TypeText
