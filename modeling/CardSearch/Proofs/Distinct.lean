import Mathlib.Data.Finset.Card
import Mathlib.Data.List.Induction

/-
  The distinct elements of a list, in the order in which they first stand.

  `List.eraseDups` keeps the first occurrence of each element.

  1. **The crux (`eraseDups_concat`)** — one more element at the end of a list is kept if the list
     does not have it.  So a list is gone through from its end, where all before it is what was seen.
  2. **Order (`pairwise_eraseDups`)** — what is kept stands in the order of first places, and hence
     nothing stands twice.
  3. **Sorted lists (`eraseReps_eq_eraseDups`)** — in a sorted list equal elements stand side by side,
     so it is enough to drop what equals the element before it.
-/

namespace CardSearch

variable {α : Type} [DecidableEq α]

/-- **One more element** is kept if it is new.  So what is met one after the other can be
    collected without going back. -/
theorem eraseDups_concat (list : List α) (a : α) :
    (list ++ [a]).eraseDups = if a ∈ list then list.eraseDups else list.eraseDups ++ [a] := by
  rw [List.eraseDups_append, List.removeAll, List.filter_singleton]
  by_cases h : a ∈ list
  · simp [h]
  · simp [h, List.eraseDups_cons]

/-- **What is kept stands in the order of first places.** By induction from the end of the list:
    an element that was seen before keeps its place, and a new one has its first place behind all
    others. -/
theorem pairwise_eraseDups (list : List α) :
    list.eraseDups.Pairwise fun a b => list.idxOf a < list.idxOf b := by
  induction list using List.reverseRecOn with
  | nil => exact .nil
  | append_singleton list a ih =>
    -- an element that was seen before keeps its place
    have hkept : ∀ b ∈ list.eraseDups, (list ++ [a]).idxOf b = list.idxOf b := fun b hb =>
      List.idxOf_append_of_mem (List.mem_eraseDups.mp hb)
    have hseen : list.eraseDups.Pairwise fun b c =>
        (list ++ [a]).idxOf b < (list ++ [a]).idxOf c := by
      refine ih.imp_of_mem fun {b c} hb hc hless => ?_
      rw [hkept b hb, hkept c hc]
      exact hless
    rw [eraseDups_concat]
    split
    · exact hseen
    · rename_i hnew
      refine List.pairwise_append.mpr ⟨hseen, List.pairwise_singleton _ _, fun b hb c hc => ?_⟩
      obtain rfl := List.mem_singleton.mp hc
      rw [hkept b hb, List.idxOf_append_of_notMem hnew]
      exact Nat.lt_add_right _ (List.idxOf_lt_length_of_mem (List.mem_eraseDups.mp hb))

/-- Nothing is kept twice, as two elements at different places of the order are different. -/
theorem nodup_eraseDups (list : List α) : list.eraseDups.Nodup := by
  refine (pairwise_eraseDups list).imp fun {a b} hless => ?_
  rintro rfl
  exact Nat.lt_irrefl _ hless

theorem length_eraseDups (list : List α) : list.eraseDups.length = list.toFinset.card := by
  have hset : list.eraseDups.toFinset = list.toFinset := by
    ext a
    rw [List.mem_toFinset, List.mem_toFinset, List.mem_eraseDups]
  rw [← hset, List.toFinset_card_of_nodup (nodup_eraseDups list)]

/-! ## Sorted lists -/

/-- The loop has the elements that it kept in reverse.  By induction on the rest, for whatever was
    kept. -/
theorem eraseReps_loop (a : α) (rest kept : List α) :
    List.eraseRepsBy.loop (· == ·) a rest kept = kept.reverse ++ (a :: rest).eraseReps := by
  have hloop : ∀ (rest : List α) (a : α) (kept : List α),
      List.eraseRepsBy.loop (· == ·) a rest kept =
        kept.reverse ++ List.eraseRepsBy.loop (· == ·) a rest [] := by
    intro rest
    induction rest with
    | nil =>
      intro a kept
      exact List.reverse_cons
    | cons b rest ih =>
      intro a kept
      rw [List.eraseRepsBy.loop, List.eraseRepsBy.loop]
      split
      · exact ih a kept
      · rw [ih b (a :: kept), ih b [a], List.reverse_cons, List.append_assoc]
        rfl
  exact hloop rest a kept

/-- An element is kept unless the next one is the same: of a row of equal elements the last one
    stands for all. -/
theorem eraseReps_cons_cons (a b : α) (rest : List α) :
    (a :: b :: rest).eraseReps =
      if a = b then (b :: rest).eraseReps else a :: (b :: rest).eraseReps := by
  rw [List.eraseReps, List.eraseRepsBy, List.eraseRepsBy.loop]
  by_cases h : a = b
  · subst h
    rw [if_pos rfl, beq_self_eq_true]
    exact eraseReps_loop a rest []
  · rw [if_neg h, beq_eq_false_iff_ne.mpr h]
    exact eraseReps_loop b rest [a]

/-- **In a sorted list repetitions are all there is to drop.** By induction on the list: an
    element that comes again later lies between itself and itself in the order, so the next one
    is already the same. -/
theorem eraseReps_eq_eraseDups {r : α → α → Prop} (hanti : ∀ a b, r a b → r b a → a = b)
    {list : List α} (h : list.Pairwise r) : list.eraseReps = list.eraseDups := by
  induction list with
  | nil => rfl
  | cons a list ih =>
    obtain ⟨hfirst, hrest⟩ := List.pairwise_cons.mp h
    cases list with
    | nil => rfl
    | cons b rest =>
      rw [eraseReps_cons_cons, ih hrest]
      by_cases hsame : a = b
      · subst hsame
        rw [if_pos rfl, List.eraseDups_cons, List.eraseDups_cons,
          List.filter_cons_of_neg (by simp)]
      · -- what equals the first element would stand before the second
        have hother : ∀ c ∈ b :: rest, (!c == a) = true := by
          intro c hc
          rw [Bool.not_eq_true', beq_eq_false_iff_ne]
          rintro rfl
          rcases List.mem_cons.mp hc with rfl | hc
          · exact hsame rfl
          · exact hsame (hanti c b (hfirst b List.mem_cons_self) ((List.pairwise_cons.mp hrest).1 c hc))
        have hkept : ((b :: rest).filter fun c => !c == a) = b :: rest :=
          List.filter_eq_self.mpr hother
        have hdups : (a :: b :: rest).eraseDups =
            a :: ((b :: rest).filter fun c => !c == a).eraseDups := List.eraseDups_cons
        rw [if_neg hsame, hdups, hkept]

end CardSearch
