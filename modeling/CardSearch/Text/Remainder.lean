/-
  What is left of an input.

  A reader takes items off the front of a list and returns the rest with a proof of how long it can
  be.  `Shorter s` is the rest after at least one item has been taken, which is what recursion on
  the rest needs; `Within s` allows that none was.  A rest of a rest is a rest of the whole: the
  functions below say so for one more item in front (`cons`, `after`) and for any number of them
  (`trans`, `ofLE`, `shorter`).

  Many readers take a run of items that pass a test; `run_append` says where such a run ends.
-/

namespace CardSearch.Text

/-- What is left of a list after at least one item has been taken. -/
abbrev Shorter {α : Type} (s : List α) := { rest : List α // rest.length < s.length }

/-- What is left of a list after some items, or none, have been taken. -/
abbrev Within {α : Type} (s : List α) := { rest : List α // rest.length ≤ s.length }

variable {α : Type} {s t : List α} {c : α}

namespace Within

/-- The whole list. -/
def all (s : List α) : Within s := ⟨s, Nat.le_refl _⟩

/-- Also when one more item stands in front. -/
def cons (left : Within s) : Within (c :: s) := ⟨left.1, Nat.le_succ_of_le left.2⟩

/-- The item in front has been taken. -/
def after (left : Within s) : Shorter (c :: s) := ⟨left.1, Nat.lt_succ_of_le left.2⟩

/-- Also of a list that is no shorter. -/
def trans (left : Within s) (h : s.length ≤ t.length) : Within t := ⟨left.1, Nat.le_trans left.2 h⟩

/-- Shorter than a longer list. -/
def shorter (left : Within s) (h : s.length < t.length) : Shorter t :=
  ⟨left.1, Nat.lt_of_le_of_lt left.2 h⟩

end Within

namespace Shorter

/-- All but the first item. -/
def tail (c : α) (rest : List α) : Shorter (c :: rest) := ⟨rest, Nat.lt_succ_self _⟩

/-- Also when one more item stands in front. -/
def cons (left : Shorter s) : Shorter (c :: s) := ⟨left.1, Nat.lt_succ_of_lt left.2⟩

/-- Without saying that an item has been taken. -/
def within (left : Shorter s) : Within s := ⟨left.1, Nat.le_of_lt left.2⟩

/-- Also of a longer list. -/
def trans (left : Shorter s) (h : s.length < t.length) : Shorter t :=
  ⟨left.1, Nat.lt_trans left.2 h⟩

/-- Also of a list that is no shorter. -/
def ofLE (left : Shorter s) (h : s.length ≤ t.length) : Shorter t :=
  ⟨left.1, Nat.lt_of_lt_of_le left.2 h⟩

end Shorter

/-- Dropping from the front makes no list longer. -/
theorem length_dropWhile_le (p : α → Bool) (s : List α) : (s.dropWhile p).length ≤ s.length :=
  (List.dropWhile_suffix p).length_le

/-- The run at the front of a list ends, at the latest, where a list follows that it does not go on
    with. -/
theorem run_append {p : α → Bool} (h : ∀ a ∈ t.head?, p a = false) (s : List α) :
    (s ++ t).takeWhile p = s.takeWhile p ∧ (s ++ t).dropWhile p = s.dropWhile p ++ t := by
  induction s with
  | nil =>
    cases t with
    | nil => exact ⟨rfl, rfl⟩
    | cons a rest =>
      have ha : p a = false := h a rfl
      simp [ha]
  | cons a s ih =>
    cases ha : p a with
    | true => simp [ha, ih]
    | false => simp [ha]

/-- If all of it is a run, it is taken whole. -/
theorem run_append_of_forall {p : α → Bool} (hrun : ∀ a ∈ s, p a = true)
    (h : ∀ a ∈ t.head?, p a = false) : (s ++ t).takeWhile p = s ∧ (s ++ t).dropWhile p = t := by
  have hstop := run_append h []
  rw [List.nil_append] at hstop
  rw [List.takeWhile_append_of_pos hrun, List.dropWhile_append_of_pos hrun, hstop.1, hstop.2]
  exact ⟨List.append_nil s, rfl⟩

/-- A list is taken whole up to the first place of an element that it does not hold. -/
theorem run_append_cons [BEq α] [LawfulBEq α] {a : α} (h : a ∉ s) (t : List α) :
    (s ++ a :: t).takeWhile (· != a) = s ∧ (s ++ a :: t).dropWhile (· != a) = a :: t := by
  have hrun : ∀ b ∈ s, (b != a) = true := by
    intro b hb
    refine bne_iff_ne.mpr ?_
    rintro rfl
    exact h hb
  have hstop : ∀ b ∈ (a :: t).head?, (b != a) = false := by
    intro b hb
    obtain rfl := Option.some.inj hb
    exact bne_self_eq_false a
  exact run_append_of_forall hrun hstop

end CardSearch.Text
