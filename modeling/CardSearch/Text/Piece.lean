/-
  Pieces of a text: does one text occur inside another, what follows its first occurrence, and
  the text with every occurrence replaced.

  All three scan from the left and compare at each place, so they follow the structure of the
  text.  `occurs_iff` ties the scan to the relation "is a contiguous piece of", in which later
  statements are made.
-/

namespace CardSearch.Text

/-- Whether `piece` stands somewhere in the text.  The empty piece stands everywhere. -/
def occurs (piece : List Char) : List Char → Bool
  | [] => piece.isEmpty
  | c :: rest => piece.isPrefixOf (c :: rest) || occurs piece rest

/-- The search finds a piece exactly where the text has it. -/
theorem occurs_iff {piece text : List Char} : occurs piece text = true ↔ piece <:+: text := by
  induction text with
  | nil => simp [occurs]
  | cons c rest ih => simp [occurs, ih, List.infix_cons_iff]

/-- What follows the first occurrence of `piece`, if there is one. -/
def after? (piece : List Char) : List Char → Option (List Char)
  | [] => if piece.isEmpty then some [] else none
  | c :: rest =>
    if piece.isPrefixOf (c :: rest) then some ((c :: rest).drop piece.length)
    else after? piece rest

/-- The text with each occurrence of the non-empty piece `p :: ps` replaced, from the left and
    without overlaps. -/
def replaceFrom (p : Char) (ps : List Char) (put : List Char) : List Char → List Char
  | [] => []
  | c :: rest =>
    if (p :: ps).isPrefixOf (c :: rest) then put ++ replaceFrom p ps put (rest.drop ps.length)
    else c :: replaceFrom p ps put rest
  termination_by text => text.length
  decreasing_by all_goals (simp only [List.length_cons, List.length_drop]; omega)

/-- The text with each occurrence of `piece` replaced by `put`.  The empty piece occurs before
    every character and at the end. -/
def replace (piece put : List Char) (text : List Char) : List Char :=
  match piece with
  | [] => text.flatMap (fun c => put ++ [c]) ++ put
  | p :: ps => replaceFrom p ps put text

/-- The parts of a text between the characters that satisfy `cut`; always one more than there
    are such characters. -/
def splitBy (cut : Char → Bool) : List Char → List (List Char)
  | [] => [[]]
  | c :: rest =>
    if cut c then [] :: splitBy cut rest
    else match splitBy cut rest with
      | [] => [[c]]
      | part :: parts => (c :: part) :: parts

theorem splitBy_ne_nil (cut : Char → Bool) (text : List Char) : splitBy cut text ≠ [] := by
  induction text with
  | nil => simp [splitBy]
  | cons c rest ih =>
    simp only [splitBy]
    split
    · simp
    · split <;> simp

/-- Between occurrences of one character, the parts are those of the library. -/
theorem splitBy_eq_splitOn (separator : Char) (text : List Char) :
    splitBy (· == separator) text = text.splitOn separator := by
  induction text with
  | nil => rfl
  | cons c rest ih =>
    rw [splitBy, List.splitOn_cons_eq_if_modifyHead, ih]
    split
    · rfl
    · cases hrest : rest.splitOn separator with
      | nil => exact absurd hrest (List.splitOn_ne_nil separator rest)
      | cons part parts => rfl

/-- The parts joined again with a separator between neighbours. -/
def join (separator : List Char) (parts : List (List Char)) : List Char :=
  (parts.intersperse separator).flatten

theorem join_eq_intercalate (separator : List Char) (parts : List (List Char)) :
    join separator parts = separator.intercalate parts := rfl

/-- What is joined are the parts and the separator. -/
theorem mem_join {separator : Char} {parts : List (List Char)} {c : Char}
    (h : c ∈ join [separator] parts) : c = separator ∨ ∃ part ∈ parts, c ∈ part := by
  induction parts with
  | nil => cases h
  | cons part rest ih =>
    cases rest with
    | nil =>
      rw [join_eq_intercalate, List.intercalate_singleton] at h
      exact Or.inr ⟨part, List.mem_cons_self, h⟩
    | cons next rest =>
      rw [join_eq_intercalate, List.intercalate_cons_cons, List.append_assoc] at h
      rcases List.mem_append.mp h with hpart | hmore
      · exact Or.inr ⟨part, List.mem_cons_self, hpart⟩
      rcases List.mem_cons.mp hmore with hseparator | hmore
      · exact Or.inl hseparator
      · refine (ih hmore).imp_right fun ⟨other, hother, hc⟩ => ?_
        exact ⟨other, List.mem_cons_of_mem part hother, hc⟩

end CardSearch.Text
