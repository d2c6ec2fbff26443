import CardSearch.Card.Json

/-
  Which documents are printing records.

  A record is read field by field, and one field of another kind than the wanted one is enough for
  the whole record not to be read.

  1. **Kinds** — what a field may hold is said of documents alone (`IsText`, `IsColors` …), then of
     fields that may be absent or `null` (`Given`, `IfGiven`, `IfKnown`).
  2. **Readers (`isSome_textField_iff` …)** — each reader of a field succeeds on its kind and on
     nothing else.
  3. **The crux (`Printing.isSome_ofJson?_iff`)** — so a document is a printing record when its
     fields, of which there is one of each name at most, are of the kinds of the table
     `Printing.kinds`.
-/

namespace CardSearch

namespace Json

/-! ## Kinds of documents -/

def IsText (value : Json) : Prop := ∃ s, value = .text s

def IsFlag (value : Json) : Prop := ∃ b, value = .bool b

/-- A whole number that is not negative. -/
def IsCount (value : Json) : Prop := ∃ n : Nat, value = .whole n

def IsNumeric (value : Json) : Prop := (∃ n, value = .whole n) ∨ ∃ x, value = .real x

def IsTexts (value : Json) : Prop := ∃ items, value = .list items ∧ ∀ item ∈ items, IsText item

/-- Colors as a list of texts or as one text. -/
def IsColors (value : Json) : Prop := IsText value ∨ IsTexts value

/-- An object whose members are texts. -/
def IsTable (value : Json) : Prop :=
  ∃ members, value = .object members ∧ ∀ member ∈ members, IsText member.2

/-- A field that must be given. -/
def Given (kind : Json → Prop) (field : Option Json) : Prop :=
  ∃ value, field = some value ∧ kind value

/-- A field that may be absent. -/
def IfGiven (kind : Json → Prop) (field : Option Json) : Prop :=
  ∀ value, field = some value → kind value

/-- A field that may be absent or `null`. -/
def IfKnown (kind : Json → Prop) (field : Option Json) : Prop :=
  ∀ value, field = some value → value = .null ∨ kind value

/-- A document from which the fields of a record can be taken, each of them of its kind. -/
def IsRecord (kinds : List (String × (Option Json → Prop))) (value : Json) : Prop :=
  ∃ row, value.record? (kinds.map Prod.fst) = some row ∧
    ∀ field ∈ kinds, field.2 (row.lookup field.1)

/-! ## Readers -/

section Bind

variable {α β : Type} {x : Option α} {f : α → Option β}

/-- A record that is read field by field is read if each field is.  Simplify with this before the
    reader of the first field, or the others are simplified once for each field before them. -/
theorem isSome_bind_iff : (x >>= f).isSome ↔ ∃ a, x = some a ∧ (f a).isSome := by
  cases x <;> simp

/-- What such a record is read as comes from its first field and from the rest. -/
theorem bind_eq_some_iff {b : β} : (x >>= f) = some b ↔ ∃ a, x = some a ∧ f a = some b := by
  cases x <;> simp

end Bind

/-- A list is read if each of its items is.  By induction on the items. -/
theorem isSome_mapM_iff {α β : Type} {f : α → Option β} {items : List α} :
    (items.mapM f).isSome ↔ ∀ item ∈ items, (f item).isSome := by
  induction items with
  | nil => simp
  | cons item items ih =>
    simp only [List.mapM_cons, pure, isSome_bind_iff, Option.isSome_some, and_true,
      exists_and_right, ← Option.isSome_iff_exists, ih, List.forall_mem_cons]

theorem isSome_text?_iff {value : Json} : value.text?.isSome ↔ IsText value := by
  cases value <;> simp [text?, IsText]

theorem isSome_bool?_iff {value : Json} : value.bool?.isSome ↔ IsFlag value := by
  cases value <;> simp [bool?, IsFlag]

/-- A counter is a whole number that is not negative; one that is written with a point is none,
    whatever its value. -/
theorem isSome_nat?_iff {value : Json} : value.nat?.isSome ↔ IsCount value := by
  cases value with
  | whole n =>
    rcases Int.lt_or_le n 0 with hn | hn
    · simp only [nat?, hn, if_true, Option.isSome_none, Bool.false_eq_true, IsCount, whole.injEq,
        false_iff]
      rintro ⟨k, rfl⟩
      omega
    · simp only [nat?, if_neg (Int.not_lt.mpr hn), Option.isSome_some, IsCount, whole.injEq,
        true_iff]
      exact ⟨n.toNat, by omega⟩
  | _ => simp [nat?, IsCount]

theorem isSome_number?_iff {value : Json} : value.number?.isSome ↔ IsNumeric value := by
  cases value <;> simp [number?, IsNumeric]

theorem isSome_texts?_iff {value : Json} : value.texts?.isSome ↔ IsTexts value := by
  cases value <;> simp [texts?, IsTexts, isSome_mapM_iff, isSome_text?_iff]

/-- Colors are a text or a list of texts, and the reader tries both. -/
theorem isSome_colors?_iff {value : Json} : value.colors?.isSome ↔ IsColors value := by
  cases value with
  | text s => simp [colors?, IsColors, IsText]
  | _ => simp [colors?, IsColors, IsText, isSome_texts?_iff]

section Fields

variable {α : Type} {read : Json → Option α} {kind : Json → Prop}
  (hread : ∀ value, (read value).isSome ↔ kind value)

include hread

/-- A field with a default may be absent, but if it is given it must be of its kind; `null` is
    not. -/
theorem isSome_orDefault_iff {default : α} {field : Option Json} :
    (orDefault default read field).isSome ↔ IfGiven kind field := by
  cases field <;> simp [orDefault, IfGiven, hread]

omit hread in
theorem optional_of_ne_null {value : Json} (h : value ≠ .null) :
    optional read (some value) = (read value).map some := by
  rw [Json.optional]
  exact h

theorem isSome_optional_iff {field : Option Json} :
    (optional read field).isSome ↔ IfKnown kind field := by
  cases field with
  | none => simp [optional, IfKnown]
  | some value => cases value <;> simp [optional, IfKnown, hread]

end Fields

theorem isSome_textField_iff {field : Option Json} :
    (textField field).isSome ↔ IfGiven IsText field :=
  isSome_orDefault_iff fun _ => isSome_text?_iff

theorem isSome_textsField_iff {field : Option Json} :
    (textsField field).isSome ↔ IfGiven IsTexts field :=
  isSome_orDefault_iff fun _ => isSome_texts?_iff

theorem isSome_boolField_iff {field : Option Json} :
    (boolField field).isSome ↔ IfGiven IsFlag field :=
  isSome_orDefault_iff fun _ => isSome_bool?_iff

theorem isSome_countField_iff {field : Option Json} :
    (countField field).isSome ↔ IfGiven IsCount field :=
  isSome_orDefault_iff fun _ => isSome_nat?_iff

end Json

open Json

/-! ## Records -/

/-- The kinds of the fields of a price record. -/
def Prices.kinds : List (String × (Option Json → Prop)) :=
  [("usd", IfKnown IsNumeric), ("usd_foil", IfKnown IsNumeric), ("usd_etched", IfKnown IsNumeric),
   ("eur", IfKnown IsNumeric), ("tix", IfKnown IsNumeric)]

/-- **A document is a record of prices when its fields are of their kinds.** Each field is read
    on its own, so the conditions are those of the fields together. -/
theorem Prices.isSome_ofJson?_iff {value : Json} :
    (Prices.ofJson? value).isSome ↔ IsRecord Prices.kinds value := by
  have hnumber : ∀ {field : Option Json},
      (optional number? field).isSome ↔ IfKnown IsNumeric field :=
    isSome_optional_iff fun _ => isSome_number?_iff
  simp only [Prices.ofJson?, pure, ↓isSome_bind_iff, Option.isSome_some, and_true,
    exists_and_right, ← Option.isSome_iff_exists, hnumber]
  simp only [IsRecord, Prices.kinds, List.forall_mem_cons, List.not_mem_nil, false_implies,
    implies_true, and_true]
  rfl

namespace Printing

/-- Legalities are a table of texts, in any order. -/
theorem isSome_legalities?_iff {value : Json} : (legalities? value).isSome ↔ IsTable value := by
  cases value with
  | object members =>
    simp only [legalities?, pure, isSome_bind_iff, Option.isSome_some, and_true,
      ← Option.isSome_iff_exists, isSome_mapM_iff, Option.isSome_map, isSome_text?_iff, IsTable,
      object.injEq, exists_eq_left']
  | _ => simp [legalities?, IsTable]

/-- The kinds of the fields of a printing record. -/
def kinds : List (String × (Option Json → Prop)) :=
  [("scryfall_id", IfGiven IsText), ("oracle_id", IfGiven IsText), ("name", Given IsText),
   ("set", IfGiven IsText), ("set_name", IfGiven IsText), ("collector_number", IfGiven IsText),
   ("released_at", IfGiven IsText), ("promo", IfGiven IsFlag), ("reprint", IfGiven IsFlag),
   ("digital", IfGiven IsFlag), ("full_art", IfGiven IsFlag), ("isToken", IfGiven IsFlag),
   ("artist", IfGiven IsText), ("rarity", IfGiven IsText), ("legalities", IfGiven IsTable),
   ("oracle_text", IfGiven IsText), ("cmc", IfGiven IsNumeric), ("type", IfGiven IsText),
   ("colors", IfKnown IsColors), ("color_identity", IfKnown IsColors),
   ("parsed_cost", IfGiven IsTexts), ("layout", IfGiven IsText), ("power", IfKnown IsText),
   ("toughness", IfKnown IsText), ("loyalty", IfKnown IsText),
   ("prices", IfGiven (IsRecord Prices.kinds)), ("elo", IfKnown IsNumeric),
   ("popularity", IfKnown IsNumeric), ("cubeCount", IfGiven IsCount),
   ("pickCount", IfGiven IsCount), ("finishes", IfGiven IsTexts),
   ("border_color", IfGiven IsText), ("language", IfGiven IsText),
   ("promo_types", IfKnown IsTexts), ("keywords", IfGiven IsTexts)]

/-- **A document is a printing record when its fields are of their kinds.** The name must be
    given, the others may be absent, and only some of them may be `null`.  No field's reader
    depends on what another one read. -/
theorem isSome_ofJson?_iff {value : Json} :
    (Printing.ofJson? value).isSome ↔ IsRecord kinds value := by
  have htext : ∀ {field : Option Json}, (optional text? field).isSome ↔ IfKnown IsText field :=
    isSome_optional_iff fun _ => isSome_text?_iff
  have htexts : ∀ {field : Option Json}, (optional texts? field).isSome ↔ IfKnown IsTexts field :=
    isSome_optional_iff fun _ => isSome_texts?_iff
  have hnumber : ∀ {field : Option Json},
      (optional number? field).isSome ↔ IfKnown IsNumeric field :=
    isSome_optional_iff fun _ => isSome_number?_iff
  have hcolors : ∀ {field : Option Json}, (optional colors? field).isSome ↔ IfKnown IsColors field :=
    isSome_optional_iff fun _ => isSome_colors?_iff
  have hcmc : ∀ {field : Option Json},
      (orDefault Number.zero number? field).isSome ↔ IfGiven IsNumeric field :=
    isSome_orDefault_iff fun _ => isSome_number?_iff
  have hlegalities : ∀ {field : Option Json},
      (orDefault [] legalities? field).isSome ↔ IfGiven IsTable field :=
    isSome_orDefault_iff fun _ => isSome_legalities?_iff
  have hprices : ∀ {field : Option Json},
      (orDefault {} Prices.ofJson? field).isSome ↔ IfGiven (IsRecord Prices.kinds) field :=
    isSome_orDefault_iff fun _ => Prices.isSome_ofJson?_iff
  have hname : ∀ {field : Option Json}, (field.bind text?).isSome ↔ Given IsText field := by
    intro field
    cases field <;> simp [Given, isSome_text?_iff]
  -- no field's reader depends on what another one read, so the record splits into its fields
  simp only [Printing.ofJson?, pure, ↓isSome_bind_iff, Option.isSome_some, and_true,
    exists_and_right, ← Option.isSome_iff_exists, isSome_textField_iff, isSome_textsField_iff,
    isSome_boolField_iff, isSome_countField_iff, hname, htext, htexts, hnumber, hcolors, hcmc,
    hlegalities, hprices]
  simp only [IsRecord, kinds, List.forall_mem_cons, List.not_mem_nil, false_implies, implies_true,
    and_true]
  rfl

end Printing

end CardSearch
