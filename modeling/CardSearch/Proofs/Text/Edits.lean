import CardSearch.Text.Distance
import Mathlib.Data.List.Infix

/-
  The edit distance is the least number of edits.

  An edit puts one character into a word, takes one out or replaces one, anywhere in the word.

  1. **Rows (`distance_eq`)** — the row of a word holds its distances to the ends of the other word,
     as the recurrence gives them.
  2. **The crux (`editDistance_le_of_edit`)** — an edit changes the distance to any word by one at
     most.  The recurrence drops equal first characters without a look at the other edits, so it is
     first shown that a character in front counts for one at most (`editDistance_cons_near`).
  3. **Edits (`editDistance_le_iff`)** — so no fewer edits will do than the distance, and the
     recurrence spells out as many that do.
-/

namespace CardSearch.Text

/-! ## Edits -/

/-- One character is put into a word, taken out of it or replaced. -/
inductive Edit : List Char → List Char → Prop where
  | insert (c : Char) {a : List Char} : Edit a (c :: a)
  | delete (c : Char) {a : List Char} : Edit (c :: a) a
  | replace (c d : Char) {a : List Char} : Edit (c :: a) (d :: a)
  | behind (c : Char) {a b : List Char} (edit : Edit a b) : Edit (c :: a) (c :: b)

/-- At most a number of edits turn a word into another. -/
inductive EditsWithin : Nat → List Char → List Char → Prop where
  | none {n : Nat} {a : List Char} : EditsWithin n a a
  | edit {n : Nat} {a b c : List Char} (first : Edit a b) (more : EditsWithin n b c) :
      EditsWithin (n + 1) a c

/-- What is done to every character alike keeps an edit.  By induction on the place of the edit. -/
theorem Edit.map (f : Char → Char) {a b : List Char} (h : Edit a b) : Edit (a.map f) (b.map f) := by
  induction h with
  | insert c => exact .insert (f c)
  | delete c => exact .delete (f c)
  | replace c d => exact .replace (f c) (f d)
  | behind c _ ih => exact .behind (f c) ih

theorem EditsWithin.behind (c : Char) {n : Nat} {a b : List Char} (h : EditsWithin n a b) :
    EditsWithin n (c :: a) (c :: b) := by
  induction h with
  | none => exact .none
  | edit first _ ih => exact .edit (.behind c first) ih

/-- A number of edits is within any greater one. -/
theorem EditsWithin.mono {m n : Nat} {a b : List Char} (h : EditsWithin m a b) (hmn : m ≤ n) :
    EditsWithin n a b := by
  induction h generalizing n with
  | none => exact .none
  | edit first _ ih =>
    obtain ⟨k, rfl⟩ : ∃ k, n = k + 1 := ⟨n - 1, by omega⟩
    exact .edit first (ih (by omega))

/-! ## Rows -/

@[simp] theorem editDistance_nil_left (b : List Char) : editDistance [] b = b.length := by
  rw [editDistance]

/-- To the empty word all letters are taken out. -/
@[simp] theorem editDistance_nil_right (a : List Char) : editDistance a [] = a.length := by
  cases a with
  | nil => rw [editDistance]
  | cons x a =>
    rw [editDistance]
    intro h
    cases h

theorem editDistance_cons_cons (x y : Char) (a b : List Char) :
    editDistance (x :: a) (y :: b) = if x = y then editDistance a b
      else 1 + min (min (editDistance a (y :: b)) (editDistance (x :: a) b)) (editDistance a b) := by
  rw [editDistance]

/-- **The step**: from the distances of a word the next row has those of the word with a
    character in front.  By induction on the other word, from its end, as the row is filled. -/
theorem nextRow_eq (x : Char) (a b : List Char) :
    nextRow x b (b.tails.map (editDistance a)) = b.tails.map (editDistance (x :: a)) := by
  induction b with
  | nil => simp [nextRow]
  | cons y b ih =>
    have hhead : ∀ word, (b.tails.map (editDistance word)).headD 0 = editDistance word b := by
      intro word
      cases b <;> rfl
    rw [List.tails_cons, List.map_cons, List.map_cons, nextRow, ih, hhead, hhead,
      editDistance_cons_cons]

/-- The row of the empty word. -/
theorem reverse_range_length (b : List Char) :
    (List.range (b.length + 1)).reverse = b.tails.map (editDistance []) := by
  induction b with
  | nil => simp
  | cons y b ih =>
    rw [List.length_cons, List.range_succ, List.reverse_concat, ih, List.tails_cons, List.map_cons,
      editDistance_nil_left, List.length_cons]

/-- **The run**: the row of a word has its distances to all ends of the other word.  By induction
    on the word. -/
theorem distances_eq (a b : List Char) : distances a b = b.tails.map (editDistance a) := by
  induction a with
  | nil => exact reverse_range_length b
  | cons x a ih => rw [distances, ih, nextRow_eq]

/-- **The program computes the recurrence**, which is at the head of the last row. -/
theorem distance_eq (a b : List Char) : distance a b = editDistance a b := by
  rw [distance, distances_eq]
  cases b <;> rfl

/-! ## Distances -/

/-- The distance is the same either way.  By induction on both words. -/
theorem editDistance_comm (a b : List Char) : editDistance a b = editDistance b a := by
  induction a generalizing b with
  | nil => simp
  | cons x a iha =>
    induction b with
    | nil => simp
    | cons y b ihb =>
      rw [editDistance_cons_cons, editDistance_cons_cons, iha b, iha (y :: b), ihb]
      by_cases hxy : x = y
      · rw [if_pos hxy, if_pos hxy.symm]
      · rw [if_neg hxy, if_neg (Ne.symm hxy), Nat.min_comm (editDistance (y :: b) a)]

/-- Two numbers that are one apart at most. -/
def Near (m n : Nat) : Prop := m ≤ n + 1 ∧ n ≤ m + 1

/-- A character in front counts for one at most, on either side.  By induction on both words
    together, since a first character in common is dropped from both. -/
theorem editDistance_cons_near (x : Char) (a b : List Char) :
    Near (editDistance (x :: a) b) (editDistance a b) := by
  -- the induction is on both words, since a first character may be dropped from either
  induction hn : a.length + b.length using Nat.strong_induction_on generalizing x a b with
  | _ n ih =>
    cases b with
    | nil =>
      rw [editDistance_nil_right, editDistance_nil_right, List.length_cons]
      constructor <;> omega
    | cons y b =>
      rw [List.length_cons] at hn
      have hright : Near (editDistance a (y :: b)) (editDistance a b) := by
        rw [editDistance_comm a (y :: b), editDistance_comm a b]
        exact ih (b.length + a.length) (by omega) y b a rfl
      have hleft := ih (a.length + b.length) (by omega) x a b rfl
      obtain ⟨hright₁, hright₂⟩ := hright
      obtain ⟨hleft₁, hleft₂⟩ := hleft
      rw [editDistance_cons_cons]
      by_cases hxy : x = y
      · rw [if_pos hxy]
        exact ⟨hright₂, hright₁⟩
      · rw [if_neg hxy]
        constructor <;> omega

theorem editDistance_self (a : List Char) : editDistance a a = 0 := by
  induction a with
  | nil => simp
  | cons x a ih => rw [editDistance_cons_cons, if_pos rfl, ih]

/-- Another first character counts for one at most: by cases on whether the other word begins
    with one of the two. -/
theorem editDistance_replace_le (x y : Char) (a b : List Char) :
    editDistance (x :: a) b ≤ editDistance (y :: a) b + 1 := by
  induction b with
  | nil => simp
  | cons z b ih =>
    have hword := editDistance_cons_near z b a
    rw [editDistance_comm _ a, editDistance_comm _ a] at hword
    obtain ⟨hword₁, hword₂⟩ := hword
    obtain ⟨_, hfront⟩ := editDistance_cons_near y a b
    rw [editDistance_cons_cons, editDistance_cons_cons]
    split <;> split <;> omega

/-- **The crux**: an edit changes the distance to a word by one at most.  By induction on the
    place of the edit, and there on the other word, whose first character decides what the
    recurrence does. -/
theorem editDistance_le_of_edit {a b : List Char} (h : Edit a b) (word : List Char) :
    editDistance a word ≤ editDistance b word + 1 := by
  induction h generalizing word with
  | insert c => exact (editDistance_cons_near c _ word).2
  | delete c => exact (editDistance_cons_near c _ word).1
  | replace c d => exact editDistance_replace_le c d _ word
  | @behind c a b _ ih =>
    -- what comes first in the other word decides the recurrence for both
    induction word with
    | nil =>
      have hlength := ih []
      simp only [editDistance_nil_right, List.length_cons] at hlength ⊢
      omega
    | cons y word ihword =>
      have hbehind := ih word
      have hwhole := ih (y :: word)
      rw [editDistance_cons_cons, editDistance_cons_cons]
      split <;> omega

/-- No fewer edits turn a word into another than their distance.  By induction on the edits. -/
theorem editDistance_le_of_within {n : Nat} {a b : List Char} (h : EditsWithin n a b) :
    editDistance a b ≤ n := by
  induction h with
  | none => rw [editDistance_self]; exact Nat.zero_le _
  | @edit n a b c first _ ih =>
    have hfirst := editDistance_le_of_edit first c
    omega

theorem editsWithin_nil (b : List Char) : EditsWithin b.length [] b := by
  induction b with
  | nil => exact .none
  | cons y b ih => exact .edit (.insert y) (ih.behind y)

/-- The recurrence spells out as many edits as it counts.  By induction on both words: the least
    of the three numbers tells which edit is made first. -/
theorem editsWithin_editDistance (a b : List Char) : EditsWithin (editDistance a b) a b := by
  induction a generalizing b with
  | nil =>
    rw [editDistance_nil_left]
    exact editsWithin_nil b
  | cons x a iha =>
    induction b with
    | nil =>
      have hrest := iha []
      rw [editDistance_nil_right] at hrest ⊢
      exact .edit (.delete x) hrest
    | cons y b ihb =>
      rw [editDistance_cons_cons]
      by_cases hxy : x = y
      · subst hxy
        rw [if_pos rfl]
        exact (iha b).behind x
      · rw [if_neg hxy, Nat.add_comm]
        have hdelete : EditsWithin (editDistance a (y :: b) + 1) (x :: a) (y :: b) :=
          .edit (.delete x) (iha (y :: b))
        have hinsert : EditsWithin (editDistance (x :: a) b + 1) (x :: a) (y :: b) :=
          .edit (.insert y) (ihb.behind y)
        have hreplace : EditsWithin (editDistance a b + 1) (x :: a) (y :: b) :=
          .edit (.replace x y) ((iha b).behind y)
        -- the least of the three numbers is one of them
        rcases Nat.le_total (min (editDistance a (y :: b)) (editDistance (x :: a) b))
          (editDistance a b) with hle | hle
        · rw [Nat.min_eq_left hle]
          rcases Nat.le_total (editDistance a (y :: b)) (editDistance (x :: a) b) with hle | hle
          · rwa [Nat.min_eq_left hle]
          · rwa [Nat.min_eq_right hle]
        · rwa [Nat.min_eq_right hle]

/-- **The distance is the least number of edits**: it can be reached, and it cannot be undercut. -/
theorem editDistance_le_iff {a b : List Char} {n : Nat} :
    editDistance a b ≤ n ↔ EditsWithin n a b :=
  ⟨(editsWithin_editDistance a b).mono, editDistance_le_of_within⟩

end CardSearch.Text
