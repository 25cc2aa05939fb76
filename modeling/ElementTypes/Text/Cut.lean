/-! # Cutting a text once -/

namespace ElementTypes

def cutOnce (mark : List Char) : List Char → Option (List Char × List Char)
  | [] => if mark = [] then some ([], []) else none
  | c :: rest =>
    if mark.isPrefixOf (c :: rest) then some ([], (c :: rest).drop mark.length)
    else (cutOnce mark rest).map fun (before, after) => (c :: before, after)

theorem eq_of_cutOnce {mark text before after : List Char}
    (h : cutOnce mark text = some (before, after)) : text = before ++ mark ++ after := by
  induction text generalizing before with
  | nil =>
    simp only [cutOnce] at h
    split at h <;> simp_all
  | cons c rest ih =>
    simp only [cutOnce] at h
    split at h
    · rename_i starts
      obtain ⟨rfl, rfl⟩ := by simpa using h
      obtain ⟨tail, eq⟩ := List.isPrefixOf_iff_prefix.1 starts
      simp [← eq]
    · obtain ⟨⟨front, back⟩, cut, eq⟩ := Option.map_eq_some_iff.1 h
      obtain ⟨rfl, rfl⟩ := by simpa using eq
      simp [ih cut]

def Skips (mark front : List Char) : Prop :=
  ∀ rest, cutOnce mark (front ++ rest) =
    (cutOnce mark rest).map fun (before, after) => (front ++ before, after)

theorem Skips.append {mark front next : List Char} (first : Skips mark front)
    (second : Skips mark next) : Skips mark (front ++ next) := by
  intro rest
  rw [List.append_assoc, first, second, Option.map_map]
  simp [Function.comp_def]

theorem cutOnce_self (c : Char) (mark back : List Char) :
    cutOnce (c :: mark) (c :: mark ++ back) = some ([], back) := by
  have starts : (c :: mark).isPrefixOf (c :: (mark ++ back)) = true :=
    List.isPrefixOf_iff_prefix.2 (List.prefix_append (c :: mark) back)
  rw [List.cons_append, cutOnce, if_pos starts]
  simp

section Absent

variable {c : Char} {mark : List Char}

theorem skips_of_notMem {front : List Char} (absent : c ∉ front) : Skips (c :: mark) front := by
  intro rest
  induction front with
  | nil => simp
  | cons d front ih =>
      obtain ⟨other, absent⟩ := not_or.1 (mt List.mem_cons.2 absent)
      have apart : ¬ (c :: mark).isPrefixOf (d :: (front ++ rest)) = true := by
        simp [List.isPrefixOf, other]
      rw [List.cons_append, cutOnce, if_neg apart, ih absent, Option.map_map]
      rfl

theorem cutOnce_of_notMem {text : List Char} (absent : c ∉ text) :
    cutOnce (c :: mark) text = none := by
  simpa [cutOnce] using (skips_of_notMem absent : Skips (c :: mark) text) []

theorem cutOnce_append {front : List Char} (absent : c ∉ front) (back : List Char) :
    cutOnce (c :: mark) (front ++ (c :: mark ++ back)) = some (front, back) := by
  rw [skips_of_notMem absent, cutOnce_self]
  simp

end Absent

end ElementTypes
