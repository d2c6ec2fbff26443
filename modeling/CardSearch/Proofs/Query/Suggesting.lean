import CardSearch.Proofs.Text.Edits
import CardSearch.Proofs.Text.Lower
import CardSearch.Query.Grammar

/-
  What is suggested for a word that names no field.

  1. **Choice (`nearest?_eq_some_iff`)** — of several entries the first with the least distance is
     chosen: all before it are farther, and none behind it is nearer.
  2. **Nearness (`suggest?_eq_some_iff`)** — the entries are the abbreviations near the word, in the
     order of the table, each with its edit distance.
  3. **Single edits (`offBy_le_one`)** — abbreviations are written in small letters, so a word that
     is one edit away from an abbreviation is no farther from it in lower case.
  4. **The result (`suggest?_nearest`)** — said of words, and of the error of a condition.
-/

namespace CardSearch.Query.Field

/-! ## Choice -/

/-- An entry has the least distance of a list, and is the first that has it. -/
def IsFirstNearest {α : Type} (far : α → Nat) (entries : List α) (entry : α) : Prop :=
  ∃ before after, entries = before ++ entry :: after ∧
    (∀ other ∈ before, far entry < far other) ∧ ∀ other ∈ after, far entry ≤ far other

namespace IsFirstNearest

variable {α : Type} {far : α → Nat} {entries : List α} {entry other : α}

theorem mem (h : IsFirstNearest far entries entry) : entry ∈ entries := by
  obtain ⟨before, after, rfl, _, _⟩ := h
  exact List.mem_append_right before List.mem_cons_self

/-- Those before it are farther, and those behind it no nearer. -/
theorem le (h : IsFirstNearest far entries entry) (hother : other ∈ entries) :
    far entry ≤ far other := by
  obtain ⟨before, after, rfl, hbefore, hafter⟩ := h
  rcases List.mem_append.mp hother with hmem | hmem
  · exact Nat.le_of_lt (hbefore other hmem)
  rcases List.mem_cons.mp hmem with rfl | hmem
  · exact Nat.le_refl _
  · exact hafter other hmem

/-- The choice among images is the image of a choice, as a map keeps the order. -/
theorem map_iff {β : Type} {f : β → α} {list : List β} {entry : α} :
    IsFirstNearest far (list.map f) entry ↔
      ∃ x, IsFirstNearest (fun y => far (f y)) list x ∧ f x = entry := by
  constructor
  · rintro ⟨before, after, hlist, hbefore, hafter⟩
    obtain ⟨first, rest, rfl, rfl, hrest⟩ := List.map_eq_append_iff.mp hlist
    obtain ⟨x, last, rfl, rfl, rfl⟩ := List.map_eq_cons_iff.mp hrest
    rw [List.forall_mem_map] at hbefore hafter
    exact ⟨x, ⟨first, last, rfl, hbefore, hafter⟩, rfl⟩
  · rintro ⟨x, ⟨before, after, rfl, hbefore, hafter⟩, rfl⟩
    exact ⟨before.map f, after.map f, by simp, List.forall_mem_map.mpr hbefore,
      List.forall_mem_map.mpr hafter⟩

end IsFirstNearest

theorem nearest?_eq_none_iff {entries : List (String × Nat)} :
    nearest? entries = none ↔ entries = [] := by
  cases entries with
  | nil => exact iff_of_true rfl rfl
  | cons entry rest =>
    refine iff_of_false (fun h => ?_) (List.cons_ne_nil _ _)
    rw [nearest?] at h
    split at h
    · split at h <;> cases h
    · cases h

/-- The choice behind an entry stands only if it is nearer; at the same distance the first one
    counts. -/
theorem nearest?_cons {entry found : String × Nat} {rest : List (String × Nat)}
    (h : nearest? rest = some found) :
    nearest? (entry :: rest) = some (if found.2 < entry.2 then found else entry) := by
  rw [nearest?, h]
  show (if found.2 < entry.2 then some found else some entry) = _
  split <;> rfl

/-- What is chosen is the first of the nearest.  By induction on the entries, from the back. -/
theorem isFirstNearest_of_nearest? {entries : List (String × Nat)} {entry : String × Nat}
    (h : nearest? entries = some entry) : IsFirstNearest Prod.snd entries entry := by
  induction entries generalizing entry with
  | nil => cases h
  | cons first rest ih =>
    cases hrest : nearest? rest with
    | none =>
      obtain rfl := nearest?_eq_none_iff.mp hrest
      obtain rfl : first = entry := Option.some.inj h
      exact ⟨[], [], rfl, by simp, by simp⟩
    | some found =>
      have hfound := ih hrest
      rw [nearest?_cons hrest] at h
      by_cases hnearer : found.2 < first.2
      · -- the first entry is farther than the one that is chosen behind it
        rw [if_pos hnearer] at h
        obtain rfl := Option.some.inj h
        obtain ⟨before, after, rfl, hbefore, hafter⟩ := hfound
        exact ⟨first :: before, after, rfl, List.forall_mem_cons.mpr ⟨hnearer, hbefore⟩, hafter⟩
      · rw [if_neg hnearer] at h
        obtain rfl := Option.some.inj h
        refine ⟨[], rest, rfl, by simp, ?_⟩
        intro other hother
        have hle : found.2 ≤ other.2 := hfound.le hother
        omega

/-- **The first entry with the least distance is chosen**, and no other one is: two that are
    first and nearest are the same. -/
theorem nearest?_eq_some_iff {entries : List (String × Nat)} {entry : String × Nat} :
    nearest? entries = some entry ↔ IsFirstNearest Prod.snd entries entry := by
  refine ⟨isFirstNearest_of_nearest?, ?_⟩
  rintro ⟨before, after, rfl, hbefore, hafter⟩
  induction before with
  | nil =>
    cases hrest : nearest? after with
    | none =>
      obtain rfl := nearest?_eq_none_iff.mp hrest
      rfl
    | some found =>
      have hle := hafter found (isFirstNearest_of_nearest? hrest).mem
      rw [List.nil_append, nearest?_cons hrest, if_neg (Nat.not_lt.mpr hle)]
  | cons first before ih =>
    obtain ⟨hfirst, hbefore⟩ := List.forall_mem_cons.mp hbefore
    rw [List.cons_append, nearest?_cons (ih hbefore), if_pos hfirst]

/-! ## Nearness -/

/-- The abbreviations of all fields, in the order of the table. -/
def names : List String := abbreviations.map (·.1)

/-- The least number of edits that turn a word, its ASCII letters in lower case, into an
    abbreviation. -/
def offBy (word abbreviation : String) : Nat :=
  Text.editDistance (Text.lowerAscii word.toList) abbreviation.toList

/-- Whether an abbreviation is near a word: at most two edits away, and fewer than it has letters. -/
def IsNear (word abbreviation : String) : Prop :=
  offBy word abbreviation ≤ 2 ∧ offBy word abbreviation < abbreviation.length

instance (word abbreviation : String) : Decidable (IsNear word abbreviation) :=
  inferInstanceAs (Decidable (_ ∧ _))

/-- The abbreviations that are near a word, in the order of the table. -/
def nearNames (word : String) : List String := names.filter fun name => IsNear word name

theorem mem_nearNames_iff {word best : String} :
    best ∈ nearNames word ↔ best ∈ names ∧ IsNear word best := by
  rw [nearNames, List.mem_filter, decide_eq_true_iff]

/-- What is chosen from are these, with their distances: the names are gone through in the order
    of the table, and those that are too far are left out. -/
theorem near_eq (word : String) :
    near word = (nearNames word).map fun name => (name, offBy word name) := by
  have hentries : (abbreviations.map fun entry =>
      (entry.1, Text.distance (Text.lowerAscii word.toList) entry.1.toList)) =
      names.map fun name => (name, offBy word name) := by
    rw [names, List.map_map]
    refine List.map_congr_left fun entry _ => ?_
    rw [Text.distance_eq]
    rfl
  show (abbreviations.map fun entry =>
      (entry.1, Text.distance (Text.lowerAscii word.toList) entry.1.toList)).filter
        (fun entry => decide (entry.2 ≤ maxDistance) && decide (entry.2 < entry.1.length)) = _
  rw [hentries, List.filter_map]
  exact congrArg (List.map _) (List.filter_congr fun name _ => (Bool.decide_and _ _).symm)

/-- **The first of the nearest abbreviations is suggested**, so there is one suggestion at most
    for a word. -/
theorem suggest?_eq_some_iff {word best : String} :
    suggest? word = some best ↔ IsFirstNearest (offBy word) (nearNames word) best := by
  rw [suggest?, Option.map_eq_some_iff, near_eq]
  constructor
  · rintro ⟨entry, hentry, rfl⟩
    obtain ⟨name, hname, rfl⟩ := IsFirstNearest.map_iff.mp (nearest?_eq_some_iff.mp hentry)
    exact hname
  · intro h
    exact ⟨_, nearest?_eq_some_iff.mpr (IsFirstNearest.map_iff.mpr ⟨best, h, rfl⟩), rfl⟩

/-- There is a suggestion where some abbreviation is near, since the choice fails only among
    none. -/
theorem exists_suggest?_iff {word : String} :
    (∃ best, suggest? word = some best) ↔ ∃ name ∈ names, IsNear word name := by
  have hnone : suggest? word = none ↔ nearNames word = [] := by
    rw [suggest?, Option.map_eq_none_iff, nearest?_eq_none_iff, near_eq, List.map_eq_nil_iff]
  rw [← Option.isSome_iff_exists, ← Option.ne_none_iff_isSome, ne_eq, hnone,
    List.eq_nil_iff_forall_not_mem, Classical.not_forall]
  simp only [mem_nearNames_iff, Classical.not_not]

/-! ## Single edits -/

/-- Abbreviations are in lower case. -/
theorem lowerAscii_of_mem_names {name : String} (h : name ∈ names) :
    Text.lowerAscii name.toList = name.toList := by
  obtain ⟨entry, hentry, rfl⟩ := List.mem_map.mp h
  have hsmall : ∀ c ∈ entry.1.toList, c.toLower = c := by
    intro c hc
    have hletter := letter_of_mem_abbreviations hentry hc
    rcases Text.toLower_cases c with ⟨_, _, _⟩ | ⟨_, hkept⟩
    · omega
    · exact hkept
  rw [Text.lowerAscii, List.map_congr_left hsmall, List.map_id']

/-- One edit, of the word as it is written or in lower case. -/
def IsOneEditFrom (word name : String) : Prop :=
  Text.Edit word.toList name.toList ∨ Text.Edit (Text.lowerAscii word.toList) name.toList

/-- The word is put in lower case before it is compared, which keeps an edit an edit. -/
theorem offBy_le_one {word name : String} (hname : name ∈ names) (h : IsOneEditFrom word name) :
    offBy word name ≤ 1 := by
  have hlower : Text.Edit (Text.lowerAscii word.toList) name.toList := by
    rcases h with hwritten | hlower
    · rw [← lowerAscii_of_mem_names hname]
      exact hwritten.map Char.toLower
    · exact hlower
  exact Text.editDistance_le_iff.mpr (.edit hlower .none)

/-- A word one edit away from an abbreviation of two or more letters has a suggestion as near, be
    it that abbreviation or another one. -/
theorem exists_suggest?_of_edit {word name : String} (hname : name ∈ names)
    (hlength : 2 ≤ name.length) (h : IsOneEditFrom word name) :
    ∃ best ∈ names, suggest? word = some best ∧ offBy word best ≤ 1 := by
  have hone := offBy_le_one hname h
  have hnear : IsNear word name := ⟨by omega, by omega⟩
  obtain ⟨best, hbest⟩ := exists_suggest?_iff.mpr ⟨name, hname, hnear⟩
  have hfirst := suggest?_eq_some_iff.mp hbest
  have hle := hfirst.le (mem_nearNames_iff.mpr ⟨hname, hnear⟩)
  exact ⟨best, (mem_nearNames_iff.mp hfirst.mem).1, hbest, Nat.le_trans hle hone⟩

/-! ## Words -/

/-- **The nearest abbreviation is suggested.**
    (1) The edit distance is the least number of insertions, deletions and replacements of one
    character.
    (2) There is a suggestion exactly where an abbreviation is at most two edits away from the word
    in lower case, and fewer edits than it has letters.
    (3) It is the first in the table among those that are the fewest edits away.
    (4) A word one edit away from an abbreviation of two or more letters is known as a field, or
    refused with the suggestion of an abbreviation at most one edit away. -/
theorem suggest?_nearest :
    (∀ a b n, Text.editDistance a b ≤ n ↔ Text.EditsWithin n a b) ∧
      (∀ word, (∃ best, suggest? word = some best) ↔ ∃ name ∈ names, IsNear word name) ∧
      (∀ word best, suggest? word = some best ↔
        IsFirstNearest (offBy word) (nearNames word) best) ∧
      ∀ word, ∀ name ∈ names, 2 ≤ name.length → IsOneEditFrom word name →
        (∃ field, ofAbbreviation? word = some field) ∨
          ∃ best ∈ names, offBy word best ≤ 1 ∧ ∀ operator raw,
            condition word operator raw = .error (.unknownField word (some best)) := by
  refine ⟨fun _ _ _ => Text.editDistance_le_iff, fun _ => exists_suggest?_iff,
    fun _ _ => suggest?_eq_some_iff, ?_⟩
  intro word name hname hlength hedit
  cases hknown : ofAbbreviation? word with
  | some field => exact Or.inl ⟨field, rfl⟩
  | none =>
    obtain ⟨best, hbest, hsuggest, hone⟩ := exists_suggest?_of_edit hname hlength hedit
    refine Or.inr ⟨best, hbest, hone, fun operator raw => ?_⟩
    rw [condition, hknown, ← hsuggest]

/-- Two abbreviations are one edit away from `dS`, and `is` comes first in the table. -/
theorem suggest?_nearest_tie :
    ("dw" ∈ names ∧ 2 ≤ "dw".length ∧ IsOneEditFrom "dS" "dw") ∧
      suggest? "dS" = some "is" ∧ offBy "dS" "is" = 1 ∧ offBy "dS" "dw" = 1 ∧
      ∃ best, ∀ operator raw,
        condition "dS" operator raw = .error (.unknownField "dS" (some best)) := by
  have hname : "dw" ∈ names := by decide +kernel
  have hedit : IsOneEditFrom "dS" "dw" := Or.inl (.behind 'd' (.replace 'S' 'w'))
  have hunknown : ofAbbreviation? "dS" = none := by decide +kernel
  have hdistances : Text.distance ['d', 's'] ['i', 's'] = 1 ∧
      Text.distance ['d', 's'] ['d', 'w'] = 1 := by decide
  rw [Text.distance_eq, Text.distance_eq] at hdistances
  refine ⟨⟨hname, by decide, hedit⟩, by decide +kernel, hdistances.1, hdistances.2, ?_⟩
  rcases suggest?_nearest.2.2.2 "dS" "dw" hname (by decide) hedit with ⟨field, hfield⟩ | hrefused
  · rw [hunknown] at hfield
    cases hfield
  · obtain ⟨best, _, _, herror⟩ := hrefused
    exact ⟨best, herror⟩

end CardSearch.Query.Field
