import CardSearch.Proofs.Text.Lower
import CardSearch.Proofs.Text.Ascii

/-
  The lower case of a piece of a text.

  Lower case goes letter by letter but for `Σ`, which becomes `ς` at the end of a word and `σ`
  elsewhere.  So a piece may have another lower case alone than in its place.

  1. **Places (`lowerFrom_append`)** — `lowerWithin` is the lower case of a piece between the texts
     around it, and what it says of a piece of a text stands in the lower case of the text.
  2. **The crux (`lowerWithin_eq_iff`)** — a piece has the same lower case in two places exactly if
     each of its capital sigmas has the same form in both.
  3. **Neighbours (`lowerSigma_eq_form`)** — the form depends on the nearest character on either side
     that is not passed over.  Where the piece itself has those that decide, no place matters
     (`isSettled_iff`).
  4. **The result (`infix_lower_iff_settled`)** — a piece is found in all texts that contain it
     exactly if its sigmas are settled.  Otherwise a letter before or behind it is enough: up to the
     forms of sigma the lower case of the text is that of the piece with an `a` added, and so is not
     the same shifted by one.
-/

namespace CardSearch.Text

/-! ## Places -/

/-- The lower case of a piece between the text before it, given in reverse, and the text after it. -/
def lowerWithin (before : List Char) (piece after : List Char) : List Char :=
  match piece with
  | [] => []
  | c :: rest =>
    (if c == 'Σ' then [lowerSigma before (rest ++ after)] else lowerChar c) ++
      lowerWithin (c :: before) rest after

/-- With nothing behind it, a piece is the rest of a text.  By induction on the piece. -/
theorem lowerWithin_nil (before piece : List Char) :
    lowerWithin before piece [] = lowerFrom before piece := by
  induction piece generalizing before with
  | nil => rfl
  | cons c rest ih => rw [lowerWithin, lowerFrom, ih, List.append_nil]

/-- **The lower case of a text is cut where the text is**, each part in its own place.  By
    induction on the first part. -/
theorem lowerFrom_append (before piece after : List Char) :
    lowerFrom before (piece ++ after) =
      lowerWithin before piece after ++ lowerFrom (piece.reverse ++ before) after := by
  induction piece generalizing before with
  | nil => rfl
  | cons c rest ih =>
    rw [List.cons_append, lowerFrom, lowerWithin, ih, List.append_assoc, List.reverse_cons,
      List.append_assoc, List.singleton_append]

/-- A piece stands in the lower case of a text as its place has it. -/
theorem lowerWithin_infix_lower (before piece after : List Char) :
    lowerWithin before.reverse piece after <:+: lower (before ++ piece ++ after) := by
  rw [lower, List.append_assoc, lowerFrom_append, lowerFrom_append, List.append_nil]
  exact ⟨_, _, List.append_assoc _ _ _⟩

/-- The places of a character in a text are its first place, if it begins the text, and those behind
    it. -/
theorem forall_places_cons {a c : Char} {rest : List Char} {P : List Char → List Char → Prop} :
    (∀ p q, c :: rest = p ++ a :: q → P p q) ↔
      (c = a → P [] rest) ∧ ∀ p q, rest = p ++ a :: q → P (c :: p) q := by
  constructor
  · intro h
    refine ⟨fun hc => h [] rest (hc ▸ rfl), fun p q hrest => h (c :: p) q ?_⟩
    rw [hrest, List.cons_append]
  · rintro ⟨hfirst, hlater⟩ p q hsplit
    cases p with
    | nil =>
      obtain ⟨rfl, rfl⟩ := List.cons.inj hsplit
      exact hfirst rfl
    | cons d p =>
      obtain ⟨rfl, hrest⟩ := List.cons.inj hsplit
      exact hlater p q hrest

/-- **The crux**: two places give a piece the same lower case exactly if they give its sigmas the
    same forms.  By induction on the piece: all other letters have one lower case, so equal texts
    are compared sigma by sigma. -/
theorem lowerWithin_eq_iff {piece before after before' after' : List Char} :
    lowerWithin before piece after = lowerWithin before' piece after' ↔
      ∀ p q, piece = p ++ 'Σ' :: q →
        lowerSigma (p.reverse ++ before) (q ++ after) =
          lowerSigma (p.reverse ++ before') (q ++ after') := by
  induction piece generalizing before before' with
  | nil => simp [lowerWithin]
  | cons c rest ih =>
    rw [forall_places_cons, lowerWithin, lowerWithin]
    simp only [List.reverse_cons, List.append_assoc, List.singleton_append, List.reverse_nil,
      List.nil_append, ← ih]
    by_cases hc : c = 'Σ'
    · rw [if_pos (beq_iff_eq.mpr hc), if_pos (beq_iff_eq.mpr hc), List.singleton_append,
        List.singleton_append, List.cons.injEq, forall_prop_of_true hc]
    · rw [if_neg (by simpa using hc), if_neg (by simpa using hc), List.append_right_inj]
      exact (and_iff_right fun hsigma => absurd hsigma hc).symm

/-! ## Neighbours -/

/-- Whether the nearest character that is not passed over is a cased letter, if there is one. -/
def nearest? (text : List Char) : Option Bool := (text.dropWhile isCaseIgnorable).head?.map isCased

/-- The form of a capital sigma by its nearest neighbours. -/
def form (before after : Option Bool) : Char :=
  if before.getD false && !after.getD false then 'ς' else 'σ'

/-- The form of a sigma depends on its nearest neighbors alone. -/
theorem lowerSigma_eq_form (before after : List Char) :
    lowerSigma before after = form (nearest? before) (nearest? after) := by
  have hreaches : ∀ text, reachesCased text = (nearest? text).getD false := by
    intro text
    rw [reachesCased, nearest?]
    cases text.dropWhile isCaseIgnorable <;> rfl
  rw [lowerSigma, form, hreaches, hreaches]

/-- The nearest character is the near text's, if that has one, and else the far one's. -/
theorem nearest?_append (near far : List Char) :
    nearest? (near ++ far) = (nearest? near).or (nearest? far) := by
  rw [nearest?, nearest?, nearest?, List.dropWhile_append]
  cases hnear : near.dropWhile isCaseIgnorable with
  | nil => simp
  | cons c rest => simp

/-- The neighbours of a sigma decide its form, whatever is around them: a letter comes behind it, no
    letter stands before it, or both sides have a neighbour. -/
def Decided (before after : Option Bool) : Prop :=
  before = some false ∨ after = some true ∨ (before = some true ∧ after = some false)

/-- Neighbours that decide are those whose word a letter on neither side changes. -/
theorem decided_iff {before after : Option Bool} : Decided before after ↔
    form before (after.or (some true)) = form before after ∧
      form (before.or (some true)) after = form before after := by
  rcases before with _ | _ | _ <;> rcases after with _ | _ | _ <;> simp [Decided, form]

theorem Decided.form_or {before after : Option Bool} (h : Decided before after)
    (before' after' : Option Bool) :
    form (before.or before') (after.or after') = form before after := by
  rcases h with rfl | rfl | ⟨rfl, rfl⟩
  · rfl
  · simp [form]
  · rfl

/-- A piece in which every capital sigma has neighbours that decide its form. -/
def Settled (piece : List Char) : Prop :=
  ∀ p q, piece = p ++ 'Σ' :: q → Decided (nearest? p.reverse) (nearest? q)

/-- A settled piece has the same lower case in every place, since the neighbors of its sigmas are
    in the piece. -/
theorem Settled.lowerWithin_eq {piece : List Char} (h : Settled piece)
    (before after : List Char) : lowerWithin before piece after = lower piece := by
  rw [lower, ← lowerWithin_nil, lowerWithin_eq_iff]
  intro p q hpiece
  have hdecided := h p q hpiece
  simp only [lowerSigma_eq_form, nearest?_append]
  rw [hdecided.form_or, hdecided.form_or]

/-- Any other piece has another lower case behind a letter or before one: a sigma whose neighbors
    do not decide is changed by one of the two. -/
theorem exists_ne_of_not_settled {piece : List Char} (h : ¬ Settled piece) :
    lowerWithin [] piece ['A'] ≠ lower piece ∨ lowerWithin ['A'] piece [] ≠ lower piece := by
  by_contra hsame
  obtain ⟨hbehind, hbefore⟩ := not_or.mp hsame
  rw [not_not, lower, ← lowerWithin_nil, lowerWithin_eq_iff] at hbehind hbefore
  refine h fun p q hpiece => decided_iff.mpr ?_
  have hletter : nearest? ['A'] = some true := by decide
  have hnone : nearest? [] = none := rfl
  have hafter := hbehind p q hpiece
  have hfront := hbefore p q hpiece
  simp only [lowerSigma_eq_form, nearest?_append, hletter, hnone, Option.or_none] at hafter hfront
  exact ⟨hafter, hfront⟩

/-! ## Finding -/

/-- The two forms of the small sigma as one. -/
def sameSigma (text : List Char) : List Char := text.map (exchange 'ς' 'σ')

theorem sameSigma_append (a b : List Char) : sameSigma (a ++ b) = sameSigma a ++ sameSigma b :=
  List.map_append

/-- Both forms of the small sigma become one. -/
theorem sameSigma_lowerSigma (before after : List Char) :
    sameSigma [lowerSigma before after] = ['σ'] := by
  rcases lowerSigma_cases before after with hform | hform
  · rw [hform]
    rfl
  · rw [hform]
    rfl

/-- Up to the form of sigma, the place of a piece does not matter.  By induction on the piece. -/
theorem sameSigma_lowerWithin (before after before' after' piece : List Char) :
    sameSigma (lowerWithin before piece after) = sameSigma (lowerWithin before' piece after') := by
  induction piece generalizing before before' with
  | nil => rfl
  | cons c rest ih =>
    rw [lowerWithin, lowerWithin, sameSigma_append, sameSigma_append,
      ih (c :: before) (c :: before')]
    split
    · rw [sameSigma_lowerSigma, sameSigma_lowerSigma]
    · rfl

/-- A list that is itself shifted by one repeats one element.  By induction on the list. -/
theorem eq_of_cons_eq_concat {α : Type} {x y : α} {l : List α} (h : x :: l = l ++ [y]) :
    x = y ∧ ∀ z ∈ l, z = y := by
  induction l generalizing x with
  | nil => exact ⟨(List.cons.inj h).1, fun _ hz => absurd hz List.not_mem_nil⟩
  | cons z l ih =>
    obtain ⟨rfl, hrest⟩ := List.cons.inj h
    obtain ⟨rfl, hl⟩ := ih hrest
    exact ⟨rfl, List.forall_mem_cons.mpr ⟨rfl, hl⟩⟩

/-- A text with one character more than a piece of it begins or ends with the piece. -/
theorem eq_concat_or_eq_cons {piece text : List Char} (h : piece <:+: text)
    (hlength : text.length = piece.length + 1) :
    (∃ c, text = piece ++ [c]) ∨ ∃ c, text = c :: piece := by
  obtain ⟨front, back, rfl⟩ := h
  simp only [List.length_append] at hlength
  cases front with
  | nil =>
    obtain ⟨c, rfl⟩ : ∃ c, back = [c] := List.length_eq_one_iff.mp (by simpa using hlength)
    exact Or.inl ⟨c, rfl⟩
  | cons c front =>
    rw [List.length_cons] at hlength
    obtain rfl := List.length_eq_zero_iff.mp (by omega : front.length = 0)
    obtain rfl := List.length_eq_zero_iff.mp (by omega : back.length = 0)
    exact Or.inr ⟨c, by rw [List.append_nil, List.singleton_append]⟩

section Added

variable {own placed : List Char} (hne : placed ≠ own) (hsame : sameSigma placed = sameSigma own)
  (hsigma : 'σ' ∈ sameSigma own)

include hsame in
theorem length_of_sameSigma : placed.length = own.length := by
  simpa [sameSigma] using congrArg List.length hsame

include hne hsame hsigma

/-- Another lower case of a piece that holds a sigma does not hold its own with a letter behind.
    Up to the forms it would be itself shifted by one, and so all `a`, but it has a sigma. -/
theorem not_infix_concat : ¬ own <:+: placed ++ ['a'] := by
  intro hoccurs
  have hlength := length_of_sameSigma hsame
  rcases eq_concat_or_eq_cons hoccurs (by simp [hlength]) with ⟨c, htext⟩ | ⟨c, htext⟩
  · exact hne (List.append_inj_left htext hlength)
  · -- the piece would be itself shifted by one, of nothing but the letter
    have hshift : exchange 'ς' 'σ' c :: sameSigma own = sameSigma own ++ ['a'] :=
      calc exchange 'ς' 'σ' c :: sameSigma own
        _ = sameSigma (placed ++ ['a']) := by
          rw [htext]
          rfl
        _ = sameSigma own ++ ['a'] := by
          rw [sameSigma_append, hsame]
          rfl
    exact absurd ((eq_of_cons_eq_concat hshift).2 'σ' hsigma) (by decide)

/-- Nor with a letter in front, for the same reason. -/
theorem not_infix_cons : ¬ own <:+: 'a' :: placed := by
  intro hoccurs
  have hlength := length_of_sameSigma hsame
  rcases eq_concat_or_eq_cons hoccurs (by simp [hlength]) with ⟨c, htext⟩ | ⟨c, htext⟩
  · have hshift : 'a' :: sameSigma own = sameSigma own ++ [exchange 'ς' 'σ' c] :=
      calc 'a' :: sameSigma own
        _ = sameSigma ('a' :: placed) := by
          rw [← hsame]
          rfl
        _ = sameSigma (own ++ [c]) := by rw [htext]
        _ = sameSigma own ++ [exchange 'ς' 'σ' c] := sameSigma_append own [c]
    obtain ⟨hletter, hall⟩ := eq_of_cons_eq_concat hshift
    exact absurd ((hall 'σ' hsigma).trans hletter.symm) (by decide)
  · exact hne (List.cons.inj htext).2

end Added

/-- A piece with a capital sigma has a small one in its lower case. -/
theorem sigma_mem_sameSigma {piece : List Char} (h : 'Σ' ∈ piece) :
    'σ' ∈ sameSigma (lower piece) := by
  obtain ⟨p, q, rfl⟩ := List.append_of_mem h
  rw [lower, lowerFrom_append, lowerFrom, if_pos (beq_self_eq_true 'Σ'), sameSigma_append,
    sameSigma_append, sameSigma_lowerSigma]
  exact List.mem_append_right _ List.mem_cons_self

/-- **A piece is found in the lower case of all texts that contain it exactly if it is settled.**
    A piece that is not is lost in one of two texts, itself with a letter in front or behind. -/
theorem infix_lower_iff_settled {piece : List Char} :
    (∀ text, piece <:+: text → lower piece <:+: lower text) ↔ Settled piece := by
  constructor
  · intro hfound
    by_contra hunsettled
    -- a piece that is not settled has a sigma, and one of two texts gives it the other form
    obtain ⟨p, q, hpiece, _⟩ : ∃ p q, piece = p ++ 'Σ' :: q ∧
        ¬ Decided (nearest? p.reverse) (nearest? q) := by
      simpa [Settled] using hunsettled
    have hsigma : 'σ' ∈ sameSigma (lower piece) := sigma_mem_sameSigma (hpiece ▸ by simp)
    have hsame : ∀ before after,
        sameSigma (lowerWithin before piece after) = sameSigma (lower piece) := by
      intro before after
      rw [lower, ← lowerWithin_nil]
      exact sameSigma_lowerWithin before after [] [] piece
    rcases exists_ne_of_not_settled hunsettled with hne | hne
    · have htext : lower (piece ++ ['A']) = lowerWithin [] piece ['A'] ++ ['a'] := by
        rw [lower, lowerFrom_append]
        rfl
      refine not_infix_concat hne (hsame _ _) hsigma ?_
      rw [← htext]
      exact hfound _ (List.prefix_append piece ['A']).isInfix
    · have htext : lower ('A' :: piece) = 'a' :: lowerWithin ['A'] piece [] := by
        rw [lowerWithin_nil]
        rfl
      refine not_infix_cons hne (hsame _ _) hsigma ?_
      rw [← htext]
      exact hfound _ (List.suffix_cons 'A' piece).isInfix
  · rintro hsettled text ⟨before, after, rfl⟩
    rw [← hsettled.lowerWithin_eq before.reverse after]
    exact lowerWithin_infix_lower before piece after

end CardSearch.Text
