import CardSearch.Proofs.Mana.Fusing
import CardSearch.Proofs.Query.Showing
import CardSearch.Proofs.Report.Escapes
import CardSearch.Proofs.Text.Ascii

/-
  Where no escape characters come from.

  1. **Case (`unescaped_upper`, `unescaped_lower`)** — no letter has an escape character for its upper
     or lower case.  Beyond ASCII this is a matter of the tables: all that they give lies behind it.
  2. **Numbers and dates** — they are written in digits and signs.
  3. **Cells** — to cut, to fill and to join texts adds dots, blanks, braces and slashes.
  4. **Values (`unescaped_value`)** — so an escape character that is shown in a value was in the text
     that the value was read from.
-/

namespace CardSearch.Report

/-! ## Case -/

/-- A character given by a number behind the escape character, be the number a code point or not. -/
theorem ofNat_ne_escapeChar {n : Nat} (h : 27 < n) : Char.ofNat n ≠ escapeChar := by
  unfold Char.ofNat
  by_cases hvalid : n.isValidChar
  · rw [dif_pos hvalid]
    intro hsame
    have hcode : n = 27 := congrArg Char.toNat hsame
    omega
  · rw [dif_neg hvalid]
    decide

/-- What a table of stretches gives lies behind the escape character if all their images do.  So
    nothing is asked of the code points one by one. -/
theorem ofNat_mapRuns_ne_escapeChar {n image : Nat} {runs : List Text.CaseRun}
    (hruns : ∀ r ∈ runs, 27 < r.firstImage) (h : Text.mapRuns n runs = some image) :
    Char.ofNat image ≠ escapeChar := by
  obtain ⟨r, hr, hcovers, rfl⟩ := Text.exists_run_of_mapRuns h
  have hfirst := hruns r hr
  have hlow := (Text.image_bounds hcovers).1
  exact ofNat_ne_escapeChar (by omega)

/-- No character has an escape character in its lower case.  By cases on its rule: a letter of
    ASCII, an image of the table, or itself. -/
theorem unescaped_lowerChar {c : Char} (hc : c ≠ escapeChar) : Unescaped (Text.lowerChar c) := by
  rw [Text.lowerChar]
  split
  · refine unescaped_cons.mpr ⟨?_, unescaped_nil⟩
    rcases Text.toLower_cases c with ⟨_, _, hletter⟩ | ⟨_, hkept⟩
    · intro hsame
      have hcode : c.toLower.toNat = 27 := congrArg Char.toNat hsame
      omega
    · rwa [hkept]
  split
  · decide
  split
  · rename_i image himage
    have hruns : ∀ r ∈ Text.lowerRuns, 27 < r.firstImage := fun r hr =>
      Nat.lt_trans (by decide) (Text.firstImage_lowerRuns r hr).1
    exact unescaped_cons.mpr ⟨ofNat_mapRuns_ne_escapeChar hruns himage, unescaped_nil⟩
  · exact unescaped_cons.mpr ⟨hc, unescaped_nil⟩

/-- Nor in its upper case, where some characters become several. -/
theorem unescaped_upperChar {c : Char} (hc : c ≠ escapeChar) : Unescaped (Text.upperChar c) := by
  rw [Text.upperChar]
  split
  · rename_i hascii
    have hkept : c ≠ escapeChar → c.toUpper ≠ escapeChar := by
      apply Text.forall_ascii (P := fun c => c ≠ escapeChar → c.toUpper ≠ escapeChar) _ hascii
      decide +kernel
    exact unescaped_cons.mpr ⟨hkept hc, unescaped_nil⟩
  split
  · rename_i codes hcodes
    -- the sequences of the table hold letters and marks, all behind the escape character
    have hsequences : ∀ entry ∈ Text.upperSequences, ∀ n ∈ entry.2, 27 < n := by decide
    obtain ⟨before, after, htable, -⟩ := List.lookup_eq_some_iff.mp hcodes
    have hentry : (c.toNat, codes) ∈ Text.upperSequences := by
      rw [htable]
      exact List.mem_append_right before List.mem_cons_self
    intro d hd
    obtain ⟨n, hn, rfl⟩ := List.mem_map.mp hd
    exact ofNat_ne_escapeChar (hsequences _ hentry n hn)
  split
  · rename_i image himage
    have hruns : ∀ r ∈ Text.upperRuns, 27 < r.firstImage := by decide +kernel
    exact unescaped_cons.mpr ⟨ofNat_mapRuns_ne_escapeChar hruns himage, unescaped_nil⟩
  · exact unescaped_cons.mpr ⟨hc, unescaped_nil⟩

theorem unescaped_upper {text : List Char} (h : Unescaped text) : Unescaped (Text.upper text) :=
  unescaped_flatMap fun c hc => unescaped_upperChar (h c hc)

/-- So lower case makes no escape character.  By induction on the text. -/
theorem unescaped_lowerFrom {text : List Char} (h : Unescaped text) (before : List Char) :
    Unescaped (Text.lowerFrom before text) := by
  induction text generalizing before with
  | nil => exact unescaped_nil
  | cons c rest ih =>
    obtain ⟨hc, hrest⟩ := unescaped_cons.mp h
    rw [Text.lowerFrom, unescaped_append]
    refine ⟨?_, ih hrest _⟩
    split
    · rcases Text.lowerSigma_cases before rest with hform | hform <;> rw [hform] <;> decide
    · exact unescaped_lowerChar hc

theorem unescaped_lower {text : List Char} (h : Unescaped text) : Unescaped (Text.lower text) :=
  unescaped_lowerFrom h []

/-! ## Numbers and dates -/

theorem ne_escapeChar_of_isDigit {c : Char} (h : isDigit c = true) : c ≠ escapeChar := by
  rintro rfl
  exact absurd h (by decide)

theorem unescaped_replicate (n : Nat) {c : Char} (hc : c ≠ escapeChar) :
    Unescaped (List.replicate n c) := by
  intro d hd
  obtain rfl := List.eq_of_mem_replicate hd
  exact hc

theorem unescaped_digits (n : Nat) : Unescaped (digits n) :=
  fun _ hc => ne_escapeChar_of_isDigit (isDigit_of_mem_digits hc)

theorem unescaped_signedDigits (n : Int) : Unescaped (signedDigits n) := by
  intro c hc
  rcases isDigit_of_mem_signedDigits hc with hdigit | rfl
  · exact ne_escapeChar_of_isDigit hdigit
  · decide

theorem unescaped_sign (negative : Bool) : Unescaped (Number.sign negative) := by
  cases negative <;> decide

/-- A decimal is written in digits and a point. -/
theorem unescaped_positional (d : Number.Decimal) : Unescaped (Number.positional d) := by
  have hdigits := unescaped_digits d.coefficient
  rw [Number.positional]
  split
  · exact unescaped_append.mpr ⟨hdigits, unescaped_replicate _ (by decide)⟩
  dsimp only
  split
  · exact unescaped_append.mpr ⟨hdigits.mono (List.take_subset _ _),
      unescaped_cons.mpr ⟨by decide, hdigits.mono (List.drop_subset _ _)⟩⟩
  · exact unescaped_append.mpr ⟨unescaped_cons.mpr ⟨by decide, unescaped_cons.mpr
      ⟨by decide, unescaped_replicate _ (by decide)⟩⟩, hdigits⟩

/-- And so is every number that is finite; the others are words. -/
theorem unescaped_plain (x : Number) : Unescaped x.plain := by
  cases x with
  | nan => decide
  | signed negative r =>
    rw [Number.plain, unescaped_append]
    refine ⟨unescaped_sign negative, ?_⟩
    split
    · decide
    split
    · exact unescaped_positional _
    · decide

theorem unescaped_cents (x : Number) : Unescaped x.cents := by
  cases x with
  | nan => decide
  | signed negative r =>
    rw [Number.cents, unescaped_append]
    refine ⟨unescaped_sign negative, ?_⟩
    split
    · exact unescaped_append.mpr ⟨unescaped_append.mpr ⟨unescaped_digits _, unescaped_cons.mpr
        ⟨by decide, unescaped_replicate _ (by decide)⟩⟩, unescaped_digits _⟩
    · decide

theorem unescaped_date (d : Date) : Unescaped d.text := by
  have hpadded : ∀ width n, Unescaped (Date.padded width n) := fun width n c hc =>
    ne_escapeChar_of_isDigit (Date.isDigit_of_mem_padded hc)
  have hdash : '-' ≠ escapeChar := by decide
  have hplus : '+' ≠ escapeChar := by decide
  rw [Date.text]
  split <;> (try split) <;> simp [hpadded, hdash, hplus]

/-! ## Cells -/

theorem unescaped_truncate {text : List Char} (h : Unescaped text) (width : Nat) :
    Unescaped (truncate width text) := by
  rw [truncate]
  split
  · exact unescaped_append.mpr ⟨h.mono (List.take_subset _ _), by decide⟩
  · exact h

theorem unescaped_pad {text : List Char} (h : Unescaped text) (width : Nat) :
    Unescaped (pad width text) :=
  unescaped_append.mpr ⟨h, unescaped_replicate _ (by decide)⟩

/-- Parts that are joined have no escape character if neither they nor the separator have.  By
    induction on the parts. -/
theorem unescaped_join {separator : List Char} (hseparator : Unescaped separator)
    {parts : List (List Char)} (h : ∀ part ∈ parts, Unescaped part) :
    Unescaped (Text.join separator parts) := by
  rw [Text.join_eq_intercalate]
  induction parts with
  | nil => exact unescaped_nil
  | cons part rest ih =>
    obtain ⟨hpart, hrest⟩ := List.forall_mem_cons.mp h
    cases rest with
    | nil => rwa [List.intercalate_singleton]
    | cons next more =>
      rw [List.intercalate_cons_cons]
      exact unescaped_append.mpr ⟨unescaped_append.mpr ⟨hpart, hseparator⟩, ih hrest⟩

theorem unescaped_braced {symbol : List Char} (h : Unescaped symbol) : Unescaped (braced symbol) :=
  unescaped_append.mpr ⟨unescaped_cons.mpr ⟨by decide, h⟩, by decide⟩

theorem unescaped_cost {symbols : List String} (h : ∀ symbol ∈ symbols, Unescaped symbol.toList) :
    Unescaped (cost symbols) := by
  refine unescaped_flatMap fun symbol hsymbol => unescaped_braced ?_
  rw [Text.replace_char]
  intro c hc
  obtain ⟨d, hd, rfl⟩ := List.mem_map.mp hc
  rw [Text.exchange]
  split
  · decide
  · exact unescaped_upper (h symbol hsymbol) d hd

theorem unescaped_colors {codes : List String} (h : ∀ code ∈ codes, Unescaped code.toList) :
    Unescaped (colors codes) := by
  rw [colors]
  split
  · decide
  · exact unescaped_flatMap h

theorem unescaped_price (price : Option Number) : Unescaped (Report.price price) := by
  cases price with
  | none => exact unescaped_nil
  | some x => exact unescaped_cons.mpr ⟨by decide, unescaped_cents x⟩

/-! ## Values -/

open Query

theorem unescaped_title (field : Field) : Unescaped field.title.toList := by
  cases field with
  | devotion color => cases color <;> decide
  | _ => decide

theorem unescaped_costChars {text : List Char} (h : ∀ c ∈ text, Mana.isCostChar c = true) :
    Unescaped text := by
  intro c hc
  have hchar := h c hc
  rintro rfl
  exact absurd hchar (by decide)

/-- A value of a kind shows none that was not in its text.  By cases on the kind: texts are shown
    as they are or in lower case, words are those of a list, and all else is written by the
    program. -/
theorem unescaped_ofKind? {kind : ValueKind} {raw : String} {v : Value}
    (hraw : Unescaped raw.toList) (h : Value.ofKind? kind raw = some v) : Unescaped (value v) := by
  cases kind with
  | text | identifier =>
    obtain rfl := Option.some.inj h
    exact hraw
  | integer =>
    obtain ⟨n, -, rfl⟩ := Option.map_eq_some_iff.mp h
    exact unescaped_signedDigits n
  | halfInteger | dollars =>
    obtain ⟨x, -, rfl⟩ := Option.map_eq_some_iff.mp h
    exact unescaped_plain x
  | colors =>
    rw [Value.ofKind?] at h
    split at h
    · rename_i n _
      obtain rfl := Option.some.inj h
      exact unescaped_digits n
    · obtain ⟨codes, hread, rfl⟩ := Option.map_eq_some_iff.mp h
      have hcodes : ∀ color : Color, Unescaped color.code.toList := fun color => by
        cases color <;> decide
      obtain ⟨own, -, rfl⟩ := List.mem_map.mp (mem_of_colors? hread)
      refine unescaped_colors fun code hcode => ?_
      obtain ⟨color, -, rfl⟩ := List.mem_map.mp hcode
      exact hcodes color
  | manaCost =>
    obtain ⟨groups, hread, rfl⟩ := Option.map_eq_some_iff.mp h
    have hgroups := Mana.isCostGroup_of_costFrom (Mana.parseCost_eq_some_iff.mp hread).2
    refine unescaped_flatMap fun group hgroup => unescaped_braced ?_
    exact unescaped_join (by decide) fun part hpart =>
      unescaped_costChars ((hgroups group hgroup).isCostChar_of_mem hpart)
  | manaPool =>
    obtain ⟨pool, hread, rfl⟩ := Option.map_eq_some_iff.mp h
    have hsymbols := Mana.isPoolSymbol_of_parsePool hread
    exact unescaped_costChars fun c hc => Mana.isCostChar_of_mem_shown hsymbols hc
  | rarity =>
    obtain ⟨rarity, hread, rfl⟩ := Option.map_eq_some_iff.mp h
    rw [rarity?_eq] at hread
    split at hread
    · cases hread
    obtain rfl := Option.some.inj hread
    cases hfull : fullRarity? (Text.lower raw.toList) with
    | some name =>
      have hnames : ∀ name ∈ Value.rarities, Unescaped name.toList := by decide
      exact hnames name (mem_of_fullRarity? hfull)
    | none =>
      show Unescaped (String.ofList (Text.lower raw.toList)).toList
      rw [String.toList_ofList]
      exact unescaped_lower hraw
  | status =>
    obtain ⟨word, hread, rfl⟩ := Option.map_eq_some_iff.mp h
    rw [Value.listed?] at hread
    have hwords : ∀ word ∈ Value.statuses, Unescaped word.toList := by decide
    exact hwords word (List.mem_of_find?_eq_some hread)
  | finish =>
    obtain ⟨word, hread, rfl⟩ := Option.map_eq_some_iff.mp h
    rw [Value.listed?] at hread
    have hwords : ∀ word ∈ Value.finishes, Unescaped word.toList := by decide
    exact hwords word (List.mem_of_find?_eq_some hread)
  | category =>
    obtain ⟨category, -, rfl⟩ := Option.map_eq_some_iff.mp h
    show Unescaped category.keyword.toList
    cases category <;> decide
  | date =>
    obtain ⟨d, -, rfl⟩ := Option.map_eq_some_iff.mp h
    exact unescaped_date d

/-- **A value shows no escape character that was not in its text**, also where it is the name of
    another field. -/
theorem unescaped_value {field : Field} {raw : String} {v : Value} (hraw : Unescaped raw.toList)
    (h : Value.ofText? field raw = some v) : Unescaped (value v) := by
  rw [Value.ofText?] at h
  split at h
  · rename_i other _
    obtain rfl := Option.some.inj h
    exact unescaped_title other
  · exact unescaped_ofKind? hraw h

end CardSearch.Report
