import CardSearch.Text.Blank

/-
  What trimming takes off a text.

  1. **Blanks (`exists_append_trimEnd`, `exists_blanks_trim`)** — a text is its trimmed form with
     blanks around it, so trimming keeps all that is not blank (`mem_trim`).
  2. **Ends (`trimEnd_append`, `trimEnd_window`)** — only the last part of a text that is not blank is
     trimmed at its end.  What is cut out of the trimmed text is what is cut out of the text itself,
     up to blanks at the end.
-/

namespace CardSearch.Text

/-! ## Blanks -/

theorem exists_append_trimEnd (text : List Char) :
    ∃ blanks, text = trimEnd text ++ blanks ∧ ∀ c ∈ blanks, isBlank c = true := by
  refine ⟨(text.reverse.takeWhile isBlank).reverse, ?_, ?_⟩
  · rw [trimEnd, ← List.reverse_append, List.takeWhile_append_dropWhile, List.reverse_reverse]
  · intro c hc
    exact List.all_eq_true.mp List.all_takeWhile c (List.mem_reverse.mp hc)

theorem length_trimEnd_le (text : List Char) : (trimEnd text).length ≤ text.length := by
  obtain ⟨blanks, htext, -⟩ := exists_append_trimEnd text
  have hlength := congrArg List.length htext
  rw [List.length_append] at hlength
  omega

theorem exists_blanks_trim (text : List Char) : ∃ before after,
    text = before ++ trim text ++ after ∧ (∀ c ∈ before, isBlank c = true) ∧
      ∀ c ∈ after, isBlank c = true := by
  obtain ⟨after, hend, hafter⟩ := exists_append_trimEnd (trimStart text)
  refine ⟨text.takeWhile isBlank, after, ?_, List.all_eq_true.mp List.all_takeWhile, hafter⟩
  rw [List.append_assoc, trim, ← hend, trimStart, List.takeWhile_append_dropWhile]

/-- Trimming keeps what is not blank, wherever it stands. -/
theorem mem_trim {text : List Char} {c : Char} (hc : isBlank c = false) (h : c ∈ text) :
    c ∈ trim text := by
  obtain ⟨before, after, htext, hbefore, hafter⟩ := exists_blanks_trim text
  rw [htext] at h
  rcases List.mem_append.mp h with h | hin
  · rcases List.mem_append.mp h with hin | hkept
    · exact absurd (hbefore c hin) (Bool.eq_false_iff.mp hc)
    · exact hkept
  · exact absurd (hafter c hin) (Bool.eq_false_iff.mp hc)

/-! ## Ends -/

theorem trimEnd_append_blanks {text blanks : List Char} (h : ∀ c ∈ blanks, isBlank c = true) :
    trimEnd (text ++ blanks) = trimEnd text := by
  have hreverse : ∀ c ∈ blanks.reverse, isBlank c = true := fun c hc => h c (List.mem_reverse.mp hc)
  rw [trimEnd, List.reverse_append, List.dropWhile_append_of_pos hreverse, trimEnd]

theorem trimEnd_concat (text : List Char) {c : Char} (hc : isBlank c = false) :
    trimEnd (text ++ [c]) = text ++ [c] := by
  rw [trimEnd, List.reverse_append, List.reverse_singleton, List.singleton_append,
    List.dropWhile_cons_of_neg (by simp [hc]), ← List.singleton_append, List.reverse_append,
    List.reverse_reverse, List.reverse_singleton]

/-- A text is trimmed within its last part, if this is not all blank: the trimming stops there,
    at the last character that is no blank. -/
theorem trimEnd_append {last : List Char} {c : Char} (hmem : c ∈ last) (hc : isBlank c = false)
    (text : List Char) : trimEnd (text ++ last) = text ++ trimEnd last := by
  have hsome : (last.reverse.dropWhile isBlank).isEmpty = false := by
    refine List.isEmpty_eq_false_iff.mpr fun hnil => ?_
    have hblank := trimStart_eq_nil_iff.mp hnil c (List.mem_reverse.mpr hmem)
    exact absurd hblank (Bool.eq_false_iff.mp hc)
  rw [trimEnd, List.reverse_append, List.dropWhile_append, hsome, if_neg (by decide),
    List.reverse_append, List.reverse_reverse, trimEnd]

/-- **What is cut out of a text is cut out of it without the blanks at its end**, up to blanks.  A
    column cuts the text that it was given, so it may be trimmed before or after. -/
theorem trimEnd_window (text : List Char) (start width : Nat) :
    trimEnd (((trimEnd text).drop start).take width) = trimEnd ((text.drop start).take width) := by
  obtain ⟨blanks, htext, hblanks⟩ := exists_append_trimEnd text
  have hwindow : (text.drop start).take width =
      ((trimEnd text).drop start).take width ++ ((blanks.drop (start - (trimEnd text).length)).take
        (width - ((trimEnd text).drop start).length)) := by
    rw [← List.take_append, ← List.drop_append, ← htext]
  rw [hwindow, trimEnd_append_blanks]
  exact fun c hc => hblanks c (List.mem_of_mem_drop (List.mem_of_mem_take hc))

end CardSearch.Text
