import CardSearch.Proofs.Text.Numeral
import CardSearch.Report.Cell
import CardSearch.Text.Remainder
import Mathlib.Data.Bool.AllAny

/-
  Costs are read back as they are shown.

  1. **Groups (`isCostGroup_of_costFrom`)** — a group that is read has one or two parts, and each is
     a run of digits or a letter.
  2. **The crux (`costFrom_spelled_append`)** — such a group in braces is read back, whatever follows
     it: no part holds a slash, a brace or a blank.
  3. **Costs (`parseCost_value`)** — so is a cost, which neither trimming nor lower case changes.
-/

namespace CardSearch.Mana

open Text (IsInert)

/-! ## Characters -/

theorem isInert_of_isDigit {c : Char} (h : isDigit c = true) : IsInert c :=
  ⟨Text.isSmall_of_isNumeral (Bool.or_eq_true_iff.mpr (Or.inl h)), not_isBlank_of_isDigit h⟩

/-- A character that stands in a part of a cost. -/
def isCostChar (c : Char) : Bool := isDigit c || isCostLetter c

/-- Neither trimming nor lower case changes a part of a cost, and none of the characters around the
    parts stands in one. -/
theorem isCostChar_apart {c : Char} (h : isCostChar c = true) :
    IsInert c ∧ c ≠ '/' ∧ c ≠ '\x7b' ∧ c ≠ '\x7d' := by
  rcases Bool.or_eq_true_iff.mp h with hdigit | hletter
  · refine ⟨isInert_of_isDigit hdigit, ?_, ?_, ?_⟩ <;>
      (rintro rfl; exact absurd hdigit (by decide))
  · have hmem : c ∈ colorLetters ++ otherLetters := by
      rw [List.mem_append]
      exact (Bool.or_eq_true_iff.mp hletter).imp List.contains_iff_mem.mp List.contains_iff_mem.mp
    have hall : ∀ c ∈ colorLetters ++ otherLetters,
        ((c.toNat < 0x80 ∧ c.toLower = c) ∧ Text.isBlank c = false) ∧
          c ≠ '/' ∧ c ≠ '\x7b' ∧ c ≠ '\x7d' :=
      List.all_iff_forall_prop.mp (by decide)
    exact hall c hmem

/-- A part consists of characters of parts. -/
theorem isCostChar_of_isCostPart {part : List Char} (h : isCostPart part = true) :
    ∀ c ∈ part, isCostChar c = true := by
  match part with
  | [] => exact fun _ hc => absurd hc List.not_mem_nil
  | [c] => exact List.forall_mem_singleton.mpr h
  | _ :: _ :: _ =>
    intro c hc
    exact Bool.or_eq_true_iff.mpr (Or.inl (List.all_eq_true.mp h c hc))

/-! ## Costs -/

/-- A group that a cost text can hold. -/
structure IsCostGroup (group : Group) : Prop where
  ne_nil : group ≠ []
  length_le : group.length ≤ 2
  isCostPart : ∀ part ∈ group, isCostPart part.toList = true

theorem isCostGroup_singleton {part : List Char} (h : isCostPart part = true) :
    IsCostGroup [String.ofList part] := by
  refine ⟨List.cons_ne_nil _ _, Nat.le_succ 1, ?_⟩
  rw [List.forall_mem_singleton, String.toList_ofList]
  exact h

/-- A digit and the digits after it are a part, however many there are. -/
theorem isCostPart_run {c : Char} (hc : isDigit c = true) (rest : List Char) :
    isCostPart (c :: rest.takeWhile isDigit) = true := by
  have hrun : ∀ d ∈ rest.takeWhile isDigit, isDigit d = true := fun d hd =>
    List.all_eq_true.mp List.all_takeWhile d hd
  cases htaken : rest.takeWhile isDigit with
  | nil => exact Bool.or_eq_true_iff.mpr (Or.inl hc)
  | cons d more =>
    rw [htaken] at hrun
    exact List.all_eq_true.mpr (List.forall_mem_cons.mpr ⟨hc, hrun⟩)

/-- The groups of a cost text have one part or two, and each part is a run or a letter.  By
    induction along the reader. -/
theorem isCostGroup_of_costFrom {text : List Char} {cost : Cost} (h : costFrom text = some cost) :
    ∀ group ∈ cost, IsCostGroup group := by
  fun_induction costFrom text generalizing cost with
  | case1 =>
    obtain rfl := Option.some.inj h
    exact fun _ hgroup => absurd hgroup List.not_mem_nil
  | case2 | case4 | case7 => cases h
  | case3 c rest _ _ more _ parts hparts =>
    rename_i ih
    obtain ⟨groups, hgroups, rfl⟩ := Option.map_eq_some_iff.mp h
    obtain ⟨hlength, hall⟩ := Bool.and_eq_true_iff.mp hparts
    -- braces hold a part at least, two at most, and only what a cost may have
    refine List.forall_mem_cons.mpr ⟨⟨?_, ?_, ?_⟩, ih hgroups⟩
    · simp [parts, bracedParts, Text.splitBy_ne_nil]
    · rw [List.length_map]
      exact of_decide_eq_true hlength
    · intro part hpart
      obtain ⟨chars, hchars, rfl⟩ := List.mem_map.mp hpart
      rw [String.toList_ofList]
      exact List.all_eq_true.mp hall chars hchars
  | case5 c rest _ hdigit ih =>
    obtain ⟨groups, hgroups, rfl⟩ := Option.map_eq_some_iff.mp h
    exact List.forall_mem_cons.mpr ⟨isCostGroup_singleton (isCostPart_run hdigit rest), ih hgroups⟩
  | case6 c rest _ _ hletter ih =>
    obtain ⟨groups, hgroups, rfl⟩ := Option.map_eq_some_iff.mp h
    have hpart : isCostPart [c] = true := Bool.or_eq_true_iff.mpr (Or.inr hletter)
    exact List.forall_mem_cons.mpr ⟨isCostGroup_singleton hpart, ih hgroups⟩

/-- Only the empty text has no group, since every case of the reader that goes on adds one. -/
theorem eq_nil_of_costFrom {text : List Char} (h : costFrom text = some []) : text = [] := by
  fun_induction costFrom text with
  | case1 => rfl
  | case2 | case4 | case7 => cases h
  | case3 | case5 | case6 =>
    obtain ⟨_, _, hcons⟩ := Option.map_eq_some_iff.mp h
    cases hcons

/-- The parts of a group with slashes between them. -/
def slashed (group : Group) : List Char := Text.join ['/'] (group.map String.toList)

/-- A group as it is shown. -/
def spelled (group : Group) : List Char := Report.braced (slashed group)

/-- What stands in braces ends at the first closing brace, so nothing behind it is taken in. -/
theorem run_append_brace {inner : List Char} (hinner : '\x7d' ∉ inner) (rest : List Char) :
    (inner ++ '\x7d' :: rest).takeWhile (· != '\x7d') = inner ∧
      (inner ++ '\x7d' :: rest).dropWhile (· != '\x7d') = '\x7d' :: rest :=
  Text.run_append_cons hinner rest

/-- The reader takes what stands between braces for a group, and goes on behind them. -/
theorem costFrom_braced {inner : List Char} (hinner : '\x7d' ∉ inner)
    (hparts : ((bracedParts inner).length ≤ 2 && (bracedParts inner).all isCostPart) = true)
    (rest : List Char) :
    costFrom (Report.braced inner ++ rest) =
      (costFrom rest).map ((bracedParts inner).map String.ofList :: ·) := by
  obtain ⟨htake, hdrop⟩ := run_append_brace hinner rest
  have htext : Report.braced inner ++ rest = '\x7b' :: (inner ++ '\x7d' :: rest) := by
    rw [Report.braced, List.cons_append, List.cons_append, List.append_assoc, List.singleton_append]
  rw [htext, costFrom, if_pos (beq_self_eq_true '\x7b')]
  split
  · rename_i hnone
    rw [hdrop] at hnone
    cases hnone
  · rename_i hmore
    rw [hdrop] at hmore
    obtain ⟨rfl, rfl⟩ := List.cons.inj hmore
    simp only [htake]
    rw [if_pos hparts]

namespace IsCostGroup

variable {group : Group} (h : IsCostGroup group)
include h

theorem isCostChar_of_mem {part : List Char} (hpart : part ∈ group.map String.toList) :
    ∀ c ∈ part, isCostChar c = true := by
  obtain ⟨word, hword, rfl⟩ := List.mem_map.mp hpart
  exact isCostChar_of_isCostPart (h.isCostPart word hword)

/-- Between braces stand the characters of parts and slashes, and nothing else. -/
theorem mem_slashed {c : Char} (hc : c ∈ slashed group) : c = '/' ∨ isCostChar c = true := by
  rcases Text.mem_join hc with hslash | ⟨part, hpart, hmem⟩
  · exact Or.inl hslash
  · exact Or.inr (h.isCostChar_of_mem hpart c hmem)

/-- The parts of a group are cut at the slashes again, and trimming takes nothing from them. -/
theorem bracedParts_slashed : bracedParts (slashed group) = group.map String.toList := by
  have hne : group.map String.toList ≠ [] := by simpa using h.ne_nil
  have hslash : ∀ part ∈ group.map String.toList, '/' ∉ part := fun part hpart hmem =>
    (isCostChar_apart (h.isCostChar_of_mem hpart '/' hmem)).2.1 rfl
  have htrim : ∀ part ∈ group.map String.toList, Text.trim part = part := fun part hpart =>
    Text.trim_eq_self fun c hc => (isCostChar_apart (h.isCostChar_of_mem hpart c hc)).1.2
  have hcut : Text.splitBy (· == '/') (slashed group) = group.map String.toList := by
    rw [Text.splitBy_eq_splitOn]
    exact List.splitOn_intercalate '/' hslash hne
  rw [bracedParts, hcut, List.map_congr_left htrim, List.map_id']

/-- **A group in braces is read back**, whatever follows it.  The braces keep it apart from its
    neighbours, which a pool lacks. -/
theorem costFrom_spelled_append (rest : List Char) :
    costFrom (spelled group ++ rest) = (costFrom rest).map (group :: ·) := by
  have hbrace : '\x7d' ∉ slashed group := by
    intro hmem
    rcases h.mem_slashed hmem with hslash | hchar
    · exact absurd hslash (by decide)
    · exact (isCostChar_apart hchar).2.2.2 rfl
  have hparts : ((bracedParts (slashed group)).length ≤ 2 &&
      (bracedParts (slashed group)).all Mana.isCostPart) = true := by
    rw [h.bracedParts_slashed, List.length_map, List.all_map, Bool.and_eq_true]
    exact ⟨decide_eq_true h.length_le, List.all_eq_true.mpr h.isCostPart⟩
  have hwords : (group.map String.toList).map String.ofList = group := by
    simp
  rw [spelled, costFrom_braced hbrace hparts, h.bracedParts_slashed, hwords]

/-- Neither trimming nor lower case changes a group as it is shown. -/
theorem isInert_of_mem_spelled {c : Char} (hc : c ∈ spelled group) : IsInert c := by
  have haround : ∀ c ∈ ['/', '\x7b', '\x7d'],
      (c.toNat < 0x80 ∧ c.toLower = c) ∧ Text.isBlank c = false :=
    List.all_iff_forall_prop.mp (by decide)
  rw [spelled, Report.braced, List.cons_append] at hc
  rcases List.mem_cons.mp hc with rfl | hc
  · exact haround '\x7b' (by decide)
  rcases List.mem_append.mp hc with hc | hc
  · rcases h.mem_slashed hc with rfl | hchar
    · exact haround '/' (by decide)
    · exact (isCostChar_apart hchar).1
  · obtain rfl := List.mem_singleton.mp hc
    exact haround '\x7d' (by decide)

end IsCostGroup

/-- So a cost is read back group by group. -/
theorem costFrom_spelled {cost : Cost} (h : ∀ group ∈ cost, IsCostGroup group) :
    costFrom (cost.flatMap spelled) = some cost := by
  induction cost with
  | nil => rw [List.flatMap_nil, costFrom]
  | cons group rest ih =>
    obtain ⟨hgroup, hrest⟩ := List.forall_mem_cons.mp h
    rw [List.flatMap_cons, hgroup.costFrom_spelled_append, ih hrest, Option.map_some]

/-- A cost is read from a text that is not blank, trimmed and in lower case; the reader itself
    would take the empty text for a cost without groups. -/
theorem parseCost_eq_some_iff {text : String} {cost : Cost} :
    parseCost text = some cost ↔
      cost ≠ [] ∧ costFrom (Text.lower (Text.trim text.toList)) = some cost := by
  rw [parseCost]
  split
  · rename_i hempty
    rw [hempty]
    constructor
    · intro hread
      cases hread
    · rintro ⟨hne, hread⟩
      rw [costFrom] at hread
      exact absurd (Option.some.inj hread).symm hne
  · rename_i hbody
    constructor
    · intro hread
      refine ⟨?_, hread⟩
      rintro rfl
      exact hbody (eq_nil_of_costFrom hread)
    · exact And.right

/-- The groups of a cost in braces are a text for it, so every cost with such groups can be asked
    for. -/
theorem parseCost_spelled {cost : Cost} (hne : cost ≠ [])
    (h : ∀ group ∈ cost, IsCostGroup group) :
    parseCost (String.ofList (cost.flatMap spelled)) = some cost := by
  have hinert : ∀ c ∈ cost.flatMap spelled, IsInert c := by
    intro c hc
    obtain ⟨group, hgroup, hmem⟩ := List.mem_flatMap.mp hc
    exact (h group hgroup).isInert_of_mem_spelled hmem
  rw [parseCost_eq_some_iff, String.toList_ofList, Text.lower_trim_eq_self hinert]
  exact ⟨hne, costFrom_spelled h⟩

/-- **A cost is read back as it is shown**, so the value that is shown of a query stands for the
    same cost. -/
theorem parseCost_value {text : String} {cost : Cost} (h : parseCost text = some cost) :
    parseCost (String.ofList (Report.value (.manaCost cost))) = some cost := by
  obtain ⟨hne, hread⟩ := parseCost_eq_some_iff.mp h
  exact parseCost_spelled hne (isCostGroup_of_costFrom hread)

end CardSearch.Mana
