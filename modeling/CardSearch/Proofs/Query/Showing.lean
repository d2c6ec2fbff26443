import CardSearch.Proofs.Date
import CardSearch.Proofs.Mana.Spelling
import CardSearch.Proofs.Query.Typing
import Mathlib.Data.List.Sublists

/-
  Values are typed back as they are shown.

  Reading a value settles its spelling: letters become words, case and blanks go, colors come in the
  order of the wheel.  What is left to show is that the settled spelling is read as itself.

  1. **Words (`listed?_self`, `rarity?_again`)** — a word of a list spells itself, and so does a
     rarity, since lower case is final.
  2. **Numbers and dates** — they are read back from their digits, which trimming leaves alone.
  3. **Colors (`ofKind?_colors`)** — the sets of colors are few, so each is tried.
  4. **The crux (`ofAbbreviation?_of_head`)** — a numeric field also takes the name of another field,
     and what is shown for a number is none.
  5. **The result (`ofText?_value`)** — so every value is read back, but for those that are shown by a
     number that is not whole or by a pool.
-/

namespace CardSearch.Query

open Value

/-! ## Words -/

/-- A word of a list spells itself if the words stay apart when squashed.  By induction on the
    list: no word before it is taken for it. -/
theorem listed?_self {words : List String} (hapart : (words.map squash).Nodup) {word : String}
    (h : word ∈ words) : listed? word words = some word := by
  induction words with
  | nil => cases h
  | cons first rest ih =>
    rw [List.map_cons, List.nodup_cons] at hapart
    obtain ⟨hfirst, hrest⟩ := hapart
    rw [listed?]
    rcases List.mem_cons.mp h with rfl | hmem
    · exact List.find?_cons_of_pos (beq_self_eq_true (squash word))
    · have hother : squash first ≠ squash word := fun hsame =>
        hfirst (hsame ▸ List.mem_map_of_mem hmem)
      rw [List.find?_cons_of_neg (by simpa using hother)]
      exact ih hrest hmem

theorem listed?_again {words : List String} (hapart : (words.map squash).Nodup)
    {raw word : String} (h : listed? raw words = some word) : listed? word words = some word :=
  listed?_self hapart (List.mem_of_find?_eq_some h)

/-- The rarity that a single letter stands for. -/
def fullRarity? (body : List Char) : Option String :=
  if body.length == 1 then rarities.find? fun name => body.isPrefixOf name.toList else none

/-- A rarity is read as the word of its letter, or else as the text in lower case. -/
theorem rarity?_eq (raw : String) :
    rarity? raw = if rarityRank raw < 0 then none
      else some ((fullRarity? (Text.lower raw.toList)).getD
        (String.ofList (Text.lower raw.toList))) := rfl

theorem mem_of_fullRarity? {body : List Char} {name : String} (h : fullRarity? body = some name) :
    name ∈ rarities := by
  rw [fullRarity?] at h
  split at h
  · exact List.mem_of_find?_eq_some h
  · cases h

/-- A rarity is read back: it is a whole word, or a text in lower case that is none. -/
theorem rarity?_again {raw rarity : String} (h : rarity? raw = some rarity) :
    rarity? rarity = some rarity := by
  have hplace : ¬ rarityRank rarity < 0 := Int.not_lt.mpr (rarityRank_of_rarity? h)
  rw [rarity?_eq] at h
  split at h
  · cases h
  cases hfull : fullRarity? (Text.lower raw.toList) with
  | some name =>
    rw [hfull, Option.getD_some] at h
    obtain rfl := Option.some.inj h
    have hall : ∀ name ∈ rarities, rarity? name = some name := by decide
    exact hall name (mem_of_fullRarity? hfull)
  | none =>
    rw [hfull, Option.getD_none] at h
    obtain rfl := Option.some.inj h
    rw [rarity?_eq, if_neg hplace, String.toList_ofList, Text.lower_lower, hfull, Option.getD_none]

/-! ## Numbers and dates -/

theorem trim_digits (n : Nat) : Text.trim (digits n) = digits n :=
  Text.trim_eq_self fun _ hc => not_isBlank_of_isDigit (isDigit_of_mem_digits hc)

theorem trim_signedDigits (n : Int) : Text.trim (signedDigits n) = signedDigits n := by
  refine Text.trim_eq_self fun c hc => ?_
  rcases isDigit_of_mem_signedDigits hc with hdigit | rfl
  · exact not_isBlank_of_isDigit hdigit
  · decide

theorem signed64?_again {raw : List Char} {n : Int} (h : signed64? raw = some n) :
    signed64? (Text.trim (signedDigits n)) = some n := by
  obtain ⟨hlow, hhigh⟩ := bounds_of_signed? h
  rw [trim_signedDigits]
  exact signed?_signedDigits hlow hhigh

theorem unsigned64?_again {raw : List Char} {n : Nat} (h : unsigned64? raw = some n) :
    unsigned64? (Text.trim (digits n)) = some n := by
  rw [trim_digits]
  exact naturalBelow?_digits (lt_of_naturalBelow? h)

theorem ofKind?_count {raw : String} {n : Nat}
    (h : unsigned64? (Text.trim raw.toList) = some n) : ofKind? .colors raw = some (.count n) := by
  simp only [ofKind?, h]

theorem date?_text (d : Date) : date? d.text = some d := by
  have htrim : Text.trim d.text = d.text :=
    Text.trim_eq_self fun _ hc => Date.not_isBlank_of_mem_text hc
  simp only [date?, htrim, d.read?_text]

/-! ## Colors -/

/-- The codes of colors are those of some colors of the wheel, in its order, so there are 32
    lists of them. -/
theorem mem_of_colors? {raw : List Char} {codes : List String} (h : colors? raw = some codes) :
    codes ∈ Color.wheel.sublists.map (·.map Color.code) := by
  unfold colors? at h
  dsimp only at h
  split at h
  · obtain rfl := Option.some.inj h
    exact List.mem_map.mpr ⟨[], List.mem_sublists.mpr (List.nil_sublist _), rfl⟩
  split at h
  · cases h
  · obtain rfl := Option.some.inj h
    exact List.mem_map_of_mem (List.mem_sublists.mpr List.filter_sublist)

/-- Colors are read back from their codes, and no color from the letter of colorless, as each of
    the 32 shows. -/
theorem ofKind?_colors {raw : List Char} {codes : List String} (h : colors? raw = some codes) :
    ofKind? .colors (String.ofList (Report.colors codes)) = some (.colors codes) := by
  have hall : ∀ codes ∈ Color.wheel.sublists.map (·.map Color.code),
      ofKind? .colors (String.ofList (Report.colors codes)) = some (.colors codes) := by
    decide +kernel
  exact hall codes (mem_of_colors? h)

/-! ## Values -/

/-- The kinds whose values are shown as they can be typed. -/
def exactKinds : List ValueKind :=
  [.text, .identifier, .integer, .colors, .manaCost, .rarity, .status, .finish, .category, .date]

/-- A value of such a kind is read back where no field is named.  By cases on the kind, each with
    what settles its spelling. -/
theorem ofKind?_value {kind : ValueKind} (hkind : kind ∈ exactKinds) {raw : String} {v : Value}
    (h : ofKind? kind raw = some v) : ofKind? kind (String.ofList (Report.value v)) = some v := by
  -- each kind by the lemma for what it shows; the three that are left out are no exact kinds
  cases kind with
  | halfInteger | dollars | manaPool => exact absurd hkind (by decide)
  | text =>
    obtain rfl := Option.some.inj h
    show some (Value.text (String.ofList raw.toList)) = _
    rw [String.ofList_toList]
  | identifier =>
    obtain rfl := Option.some.inj h
    show some (Value.identifier (String.ofList raw.toList)) = _
    rw [String.ofList_toList]
  | integer =>
    obtain ⟨n, hread, rfl⟩ := Option.map_eq_some_iff.mp h
    show (signed64? (Text.trim (String.ofList (signedDigits n)).toList)).map Value.integer = _
    rw [String.toList_ofList, signed64?_again hread, Option.map_some]
  | colors =>
    rw [ofKind?] at h
    split at h
    · rename_i n hread
      obtain rfl := Option.some.inj h
      refine ofKind?_count ?_
      show unsigned64? (Text.trim (String.ofList (digits n)).toList) = some n
      rw [String.toList_ofList, unsigned64?_again hread]
    · obtain ⟨codes, hread, rfl⟩ := Option.map_eq_some_iff.mp h
      exact ofKind?_colors hread
  | manaCost =>
    obtain ⟨cost, hread, rfl⟩ := Option.map_eq_some_iff.mp h
    rw [ofKind?, Mana.parseCost_value hread, Option.map_some]
  | rarity =>
    obtain ⟨rarity, hread, rfl⟩ := Option.map_eq_some_iff.mp h
    show (rarity? (String.ofList rarity.toList)).map Value.rarity = _
    rw [String.ofList_toList, rarity?_again hread, Option.map_some]
  | status =>
    obtain ⟨word, hread, rfl⟩ := Option.map_eq_some_iff.mp h
    have hapart : (statuses.map squash).Nodup := by decide
    show (listed? (String.ofList word.toList) statuses).map Value.status = _
    rw [String.ofList_toList, listed?_again hapart hread, Option.map_some]
  | finish =>
    obtain ⟨word, hread, rfl⟩ := Option.map_eq_some_iff.mp h
    have hapart : (finishes.map squash).Nodup := by decide
    show (listed? (String.ofList word.toList) finishes).map Value.finish = _
    rw [String.ofList_toList, listed?_again hapart hread, Option.map_some]
  | category =>
    obtain ⟨category, _, rfl⟩ := Option.map_eq_some_iff.mp h
    show (Category.ofKeyword? (String.ofList category.keyword.toList)).map Value.category = _
    rw [String.ofList_toList, Category.ofKeyword?_keyword, Option.map_some]
  | date =>
    obtain ⟨d, _, rfl⟩ := Option.map_eq_some_iff.mp h
    show (date? (String.ofList d.text).toList).map Value.date = _
    rw [String.toList_ofList, date?_text, Option.map_some]

/-! ## Numbers and names of fields -/

/-- **The crux**: no abbreviation begins with what comes before the letters, and what is shown
    for a number does. -/
theorem ofAbbreviation?_of_head {c : Char} (hc : c.toNat ≤ 57) (rest : List Char) :
    Field.ofAbbreviation? (String.ofList (c :: rest)) = none := by
  have hkept : c.toLower = c := (Text.isSmall_of_toNat_le (by omega)).2
  have hnone : Field.abbreviations.find?
      (·.1 == String.ofList (Text.lowerAscii (String.ofList (c :: rest)).toList)) = none := by
    refine List.find?_eq_none.mpr fun entry hentry hsame => ?_
    have hhead : entry.1.toList.head? = some c := by
      rw [beq_iff_eq.mp hsame, String.toList_ofList, String.toList_ofList, Text.lowerAscii,
        List.map_cons, hkept, List.head?_cons]
    have hletter := Field.letter_of_mem_abbreviations hentry (List.mem_of_head? hhead)
    omega
  simp only [Field.ofAbbreviation?, hnone, Option.map_none]

theorem fieldNamed?_of_head {c : Char} (hc : c.toNat ≤ 57) (field : Field) (rest : List Char) :
    fieldNamed? field (String.ofList (c :: rest)) = none := by
  rw [fieldNamed?, ofAbbreviation?_of_head hc]
  split <;> rfl

/-- What is shown for an integer names no field. -/
theorem fieldNamed?_signedDigits (field : Field) (n : Int) :
    fieldNamed? field (String.ofList (signedDigits n)) = none := by
  obtain ⟨c, rest, hdigits, hc⟩ := exists_signedDigits_eq_cons n
  rw [hdigits]
  refine fieldNamed?_of_head ?_ field rest
  rcases hc with hdigit | rfl
  · exact (toNat_of_isDigit hdigit).2
  · decide

/-- A numeric field of an exact kind takes integers. -/
theorem kind_of_isNumeric {field : Field} (hnumeric : field.isNumeric = true)
    (hkind : field.kind ∈ exactKinds) : field.kind = .integer := by
  unfold Field.isNumeric at hnumeric
  split at hnumeric
  · assumption
  · rename_i hhalf
    rw [hhalf] at hkind
    exact absurd hkind (by decide)
  · rename_i hdollars
    rw [hdollars] at hkind
    exact absurd hkind (by decide)
  · cases hnumeric

/-- What is shown for a value of an exact kind names no field.  Only numeric fields take such
    names, and their values are shown as integers. -/
theorem fieldNamed?_value {field : Field} (hkind : field.kind ∈ exactKinds) {raw : String}
    {v : Value} (h : ofKind? field.kind raw = some v) :
    fieldNamed? field (String.ofList (Report.value v)) = none := by
  by_cases hnumeric : field.isNumeric = true
  · rw [kind_of_isNumeric hnumeric hkind] at h
    obtain ⟨n, _, rfl⟩ := Option.map_eq_some_iff.mp h
    exact fieldNamed?_signedDigits field n
  · exact if_neg hnumeric

/-- The name of a field is read back. -/
theorem fieldNamed?_title {field other : Field} {raw : String}
    (h : fieldNamed? field raw = some other) : fieldNamed? field other.title = some other := by
  rw [fieldNamed?] at h ⊢
  split at h
  · rename_i hnumeric
    obtain ⟨_, hother⟩ := Option.filter_eq_some_iff.mp h
    rw [if_pos hnumeric, Field.ofAbbreviation?_title, Option.filter_some, if_pos hother]
  · cases h

/-- **A value is read back as it is shown**, if it is another field or of a kind that is not shown by
    a fraction or by a pool. -/
theorem ofText?_value {field : Field} {raw : String} {v : Value} (h : ofText? field raw = some v)
    (hexact : field.kind ∈ exactKinds ∨ ∃ other, v = .field other) :
    ofText? field (String.ofList (Report.value v)) = some v := by
  rw [ofText?] at h
  split at h
  · rename_i other hother
    obtain rfl := Option.some.inj h
    have hvalue : String.ofList (Report.value (.field other)) = other.title :=
      String.ofList_toList
    rw [hvalue, ofText?, fieldNamed?_title hother]
  · have hkind : field.kind ∈ exactKinds := by
      refine hexact.resolve_right ?_
      rintro ⟨other, rfl⟩
      have hfield := ofKind_of_ofKind? h
      generalize field.kind = kind at hfield
      cases hfield
    rw [ofText?, fieldNamed?_value hkind h]
    exact ofKind?_value hkind h

/-- A cost that is written in both ways. -/
theorem ofText?_value_cost :
    ofText? .cost " 2\x7bW / u\x7dX" = some (.manaCost [["2"], ["w", "u"], ["x"]]) ∧
      Report.value (.manaCost [["2"], ["w", "u"], ["x"]]) =
        "\x7b2\x7d\x7bw/u\x7d\x7bx\x7d".toList ∧
      ofText? .cost (String.ofList (Report.value (.manaCost [["2"], ["w", "u"], ["x"]]))) =
        some (.manaCost [["2"], ["w", "u"], ["x"]]) := by
  have hread : ofText? .cost " 2\x7bW / u\x7dX" =
      some (.manaCost [["2"], ["w", "u"], ["x"]]) := by decide +kernel
  exact ⟨hread, by decide +kernel, ofText?_value hread (Or.inl (by decide))⟩

end CardSearch.Query
