import CardSearch.Report.Cell

/-
  Cutting texts to a width.

  A text that is too long is cut to make room for three dots.  The dots are not cut themselves, so
  below a width of three they are all that is left, and they are too long (`truncate_bounded`).
-/

namespace CardSearch.Report

/-- The length of a text that is cut is the width, or that of the dots. -/
theorem length_truncate (width : Nat) (text : List Char) :
    (truncate width text).length = if width < text.length then max width 3 else text.length := by
  rw [truncate]
  by_cases hlong : width < text.length
  · rw [if_pos hlong, if_pos hlong, List.length_append, List.length_take]
    show min (width - 3) text.length + 3 = max width 3
    omega
  · rw [if_neg hlong, if_neg hlong]

/-- **What is left of a text.**  One that fits is kept.  Of a longer one a first part is kept, with
    three dots behind it, and the whole is as long as the width, if that is three or more.  So the
    width is respected by all texts that fit, and by all others only from three on. -/
theorem truncate_bounded (width : Nat) (text : List Char) :
    (text.length ≤ width → truncate width text = text) ∧
    (width < text.length → (truncate width text).length = max width 3 ∧
      ∃ kept, kept <+: text ∧ truncate width text = kept ++ "...".toList) ∧
    ((truncate width text).length ≤ width ↔ text.length ≤ width ∨ 3 ≤ width) := by
  refine ⟨fun hfits => ?_, fun hlong => ⟨?_, ?_⟩, ?_⟩
  · rw [truncate, if_neg (Nat.not_lt.mpr hfits)]
  · rw [length_truncate, if_pos hlong]
  · refine ⟨text.take (width - 3), List.take_prefix _ text, ?_⟩
    rw [truncate, if_pos hlong]
    rfl
  · rw [length_truncate]
    split <;> omega

/-- A name of several bytes a letter that is cut, and one that is not. -/
theorem truncate_bounded_name :
    let name := "Jötun Grunt of Æther".toList
    truncate 20 name = name ∧ (truncate 8 name).length = 8 ∧
      ∃ kept, kept <+: name ∧ truncate 8 name = kept ++ "...".toList := by
  intro name
  obtain ⟨hfits, -, -⟩ := truncate_bounded 20 name
  obtain ⟨-, hlong, -⟩ := truncate_bounded 8 name
  exact ⟨hfits (by decide), hlong (by decide)⟩

/-- **Two characters are no room for three dots.** -/
theorem truncate_two : truncate 2 "abcd".toList = "...".toList ∧
    ¬ (truncate 2 "abcd".toList).length ≤ 2 := by
  decide

end CardSearch.Report
