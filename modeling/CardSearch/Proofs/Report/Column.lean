import CardSearch.Proofs.Report.Truncation
import CardSearch.Proofs.Text.Trim
import CardSearch.Report.Page

/-
  The cost column of the table.

  The line of a card is trimmed at its end, so a column may lack its filling, but nothing else.  What
  stands in the column of a card is its printed cost, or the start of it with three dots where it is
  longer than the column (`costColumn_eq`).
-/

namespace CardSearch.Report

/-- What stands in the cost column of a card's line: fourteen characters, behind the name and a
    blank, without the filling. -/
def costColumn (colored : Bool) (card : Card) : List Char :=
  let name := identityCell colored 30 card.colorIdentity card.name.toList
  Text.trimEnd (((Page.row colored card).drop (name.length + 1)).take 14)

/-- A column of three characters or more holds what is cut for it. -/
theorem length_truncate_le {width : Nat} (h : 3 ≤ width) (text : List Char) :
    (truncate width text).length ≤ width := by
  rw [length_truncate]
  split <;> omega

/-- A printed cost, whole or cut, ends in no blank: the last character is a brace or a dot, or
    there is none. -/
theorem trimEnd_truncate_cost (width : Nat) (symbols : List String) :
    Text.trimEnd (truncate width (cost symbols)) = truncate width (cost symbols) := by
  rw [truncate]
  split
  · have hdots : ∀ text : List Char, text ++ ['.', '.', '.'] = (text ++ ['.', '.']) ++ ['.'] := by
      simp
    rw [hdots]
    exact Text.trimEnd_concat _ (by decide)
  · rcases symbols.eq_nil_or_concat with rfl | ⟨others, last, rfl⟩
    · rfl
    · have hbrace : cost (others.concat last) = (cost others ++ '\x7b' ::
          Text.replace ['-'] ['/'] (Text.upper last.toList)) ++ ['\x7d'] := by
        simp [cost, braced]
      rw [hbrace]
      exact Text.trimEnd_concat _ (by decide)

/-- Behind the name and a blank stand the fourteen characters of the cell. -/
theorem take_drop_cell {cell : List Char} (h : cell.length = 14) (name rest : List Char) :
    ((name ++ ' ' :: cell ++ rest).drop (name.length + 1)).take 14 = cell := by
  rw [List.append_assoc, List.cons_append, ← List.drop_drop, List.drop_left, List.drop_one,
    List.tail_cons]
  exact List.take_left' h

/-- **The column of a card is its printed cost, cut to fourteen characters.** The line may be
    trimmed within the column or before it, and that takes only the blanks that fill it. -/
theorem costColumn_eq (colored : Bool) (card : Card) :
    costColumn colored card = truncate 14 (cost card.cost) := by
  have hlength := length_truncate_le (by decide : 3 ≤ 14) (cost card.cost)
  have hwidth : (pad 14 (truncate 14 (cost card.cost))).length = 14 := by
    rw [length_pad]
    omega
  have hfilling : ∀ n, ∀ c ∈ List.replicate n ' ', Text.isBlank c = true := by
    intro n c hc
    obtain rfl := List.eq_of_mem_replicate hc
    decide
  rw [costColumn, Page.row, Text.trimEnd_window, Page.columns]
  simp only [List.append_assoc, List.cons_append]
  rw [← List.cons_append, ← List.append_assoc, take_drop_cell hwidth, pad,
    Text.trimEnd_append_blanks (hfilling _), trimEnd_truncate_cost]

end CardSearch.Report
