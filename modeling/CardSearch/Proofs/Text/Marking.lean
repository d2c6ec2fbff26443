import CardSearch.Text.Piece

/-
  Pieces of a text replaced by a mark, one kind of piece after the other.

  A replacement may take away what a later one looks for, and make it anew across its borders.  For
  the question whether the mark is there in the end neither matters: the first replacement that finds
  its piece leaves a mark, and no later one takes the mark away without leaving another.

  1. **The step (`mem_replace`)** — after a replacement the mark is there if it was there before, or
     if the piece was.  Where the piece is not, nothing changes (`replace_eq_self`).
  2. **The run (`mem_markAll`)** — so after all of them the mark is there if it was at the start, or
     if one of the pieces was.
-/

namespace CardSearch.Text

variable {mark : Char}

/-! ## One piece -/

/-- A piece that is not there is not replaced.  By induction on the text. -/
theorem replaceFrom_eq_self {p : Char} {ps text : List Char} (put : List Char)
    (h : ¬ p :: ps <:+: text) : replaceFrom p ps put text = text := by
  induction text with
  | nil => rw [replaceFrom]
  | cons c rest ih =>
    rw [List.infix_cons_iff, not_or] at h
    obtain ⟨hfront, hrest⟩ := h
    rw [replaceFrom, if_neg (by rwa [List.isPrefixOf_iff_prefix]), ih hrest]

/-- A text without the piece is kept, be the piece empty or not. -/
theorem replace_eq_self {piece text : List Char} (put : List Char) (h : ¬ piece <:+: text) :
    replace piece put text = text := by
  cases piece with
  | nil => exact absurd List.nil_infix h
  | cons p ps => exact replaceFrom_eq_self put h

/-- **The mark is there** if it was, or if the piece is found.  By induction on the calls of the
    replacement; a piece that takes away a mark leaves one in its place. -/
theorem mem_replaceFrom {p : Char} {ps text : List Char} (h : mark ∈ text ∨ p :: ps <:+: text) :
    mark ∈ replaceFrom p ps [mark] text := by
  fun_induction replaceFrom p ps [mark] text with
  | case1 => simp at h
  | case2 c rest => exact List.mem_cons_self
  | case3 c rest hfront ih =>
    rw [List.isPrefixOf_iff_prefix] at hfront
    rw [List.mem_cons, List.infix_cons_iff] at h
    rcases h with (hmark | hmem) | (hfirst | hlater)
    · exact hmark ▸ List.mem_cons_self
    · exact List.mem_cons_of_mem c (ih (Or.inl hmem))
    · exact absurd hfirst hfront
    · exact List.mem_cons_of_mem c (ih (Or.inr hlater))

/-- **The step**: the mark is there if it was, or if the piece was.  The empty piece is in every
    text, and replacing it puts a mark at every place. -/
theorem mem_replace {piece text : List Char} :
    mark ∈ replace piece [mark] text ↔ mark ∈ text ∨ piece <:+: text := by
  constructor
  · intro h
    by_cases hpiece : piece <:+: text
    · exact Or.inr hpiece
    · rw [replace_eq_self [mark] hpiece] at h
      exact Or.inl h
  · intro h
    cases piece with
    | nil =>
      -- the empty piece is there in every text, and replaced at its end
      exact List.mem_append_right _ (List.mem_singleton_self mark)
    | cons p ps => exact mem_replaceFrom h

/-! ## Several pieces -/

/-- The text with each of the pieces replaced by the mark, in their order. -/
def markAll (mark : Char) (pieces : List (List Char)) (text : List Char) : List Char :=
  pieces.foldl (fun text piece => replace piece [mark] text) text

/-- **The run**: the mark is there if it was at the start, or if one of the pieces was.  By
    induction on the pieces; a piece that is gone when its turn comes was broken by a mark. -/
theorem mem_markAll {pieces : List (List Char)} {text : List Char} :
    mark ∈ markAll mark pieces text ↔ mark ∈ text ∨ ∃ piece ∈ pieces, piece <:+: text := by
  induction pieces generalizing text with
  | nil => simp [markAll]
  | cons piece rest ih =>
    rw [markAll, List.foldl_cons, ← markAll, ih, mem_replace]
    simp only [List.mem_cons, exists_eq_or_imp]
    by_cases hpiece : piece <:+: text
    · exact iff_of_true (Or.inl (Or.inr hpiece)) (Or.inr (Or.inl hpiece))
    · rw [replace_eq_self [mark] hpiece, or_iff_left hpiece, or_iff_right hpiece]

end CardSearch.Text
