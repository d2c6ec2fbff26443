import CardSearch.Proofs.Card.RoundTrip

/-
  Cards whose numbers are read as other ones.

  The reader of documents rounds twice, so a number need not be read as the one that was written.  All
  else of a card comes back as it was.

  1. **Documents (`mapReals_slots`)** — the numbers of a record are those of its fields.
  2. **The crux (`Printing.mapReals_toJson`, `Card.mapReals_rowWith`)** — so the document of a card with
     other numbers is the document of the card that has these numbers.
-/

namespace CardSearch

open Json

variable (reads : Number → Number)

/-! ## Documents -/

/-- A row of fields with other numbers. -/
def mapRow (row : List (String × Option Json)) : List (String × Option Json) :=
  row.map fun field => (field.1, field.2.map (mapReals reads))

/-- The numbers of a record are those of its fields.  By induction on the row; a field that is
    missing has none. -/
theorem mapReals_slots (row : List (String × Option Json)) :
    mapReals reads (.object (slots row)) = .object (slots (mapRow reads row)) := by
  rw [mapReals_object]
  congr 1
  induction row with
  | nil => rfl
  | cons field row ih =>
    obtain ⟨key, value⟩ := field
    rw [mapRow, List.map_cons, slots_cons, slots_cons, List.map_append, ih]
    cases value <;> rfl

theorem mapReals_texts (values : List String) : mapReals reads (texts values) = texts values := by
  rw [texts, mapReals_list, List.map_map]
  rfl

theorem mapReals_table (entries : List (String × String)) :
    mapReals reads (.object (entries.map fun (format, status) => (format, .text status))) =
      .object (entries.map fun (format, status) => (format, .text status)) := by
  rw [mapReals_object, List.map_map]
  rfl

/-- What writes no number is not changed, whether it is there or missing. -/
theorem map_mapReals_of_eq {α : Type} {write : α → Json}
    (h : ∀ x, mapReals reads (write x) = write x) (value : Option α) :
    (value.map write).map (mapReals reads) = value.map write := by
  cases value with
  | none => rfl
  | some x => exact congrArg some (h x)

theorem map_mapReals_text (value : Option String) :
    (value.map Json.text).map (mapReals reads) = value.map Json.text :=
  map_mapReals_of_eq reads (fun _ => rfl) value

theorem map_mapReals_texts (value : Option (List String)) :
    (value.map texts).map (mapReals reads) = value.map texts :=
  map_mapReals_of_eq reads (mapReals_texts reads) value

theorem map_mapReals_real (value : Option Number) :
    (value.map Json.real).map (mapReals reads) = (value.map reads).map Json.real := by
  cases value <;> rfl

/-! ## Records -/

/-- Prices with other numbers. -/
def Prices.mapNumbers (p : Prices) : Prices where
  usd := p.usd.map reads
  usdFoil := p.usdFoil.map reads
  usdEtched := p.usdEtched.map reads
  eur := p.eur.map reads
  tix := p.tix.map reads

/-- The record of prices with other numbers is the record of the other prices. -/
theorem Prices.mapReals_toJson (p : Prices) :
    mapReals reads p.toJson = (p.mapNumbers reads).toJson := by
  rw [Prices.toJson_eq, mapReals_slots, Prices.toJson_eq]
  simp only [mapRow, Prices.row, Prices.mapNumbers, List.map_cons, List.map_nil, map_mapReals_real]

/-- A printing with other numbers. -/
def Printing.mapNumbers (p : Printing) : Printing :=
  { p with
    cmc := reads p.cmc
    prices := p.prices.mapNumbers reads
    elo := p.elo.map reads
    popularity := p.popularity.map reads }

/-- **The document of a printing with other numbers** is the document of the printing that has
    these numbers; its counters are whole numbers and stay. -/
theorem Printing.mapReals_toJson (p : Printing) :
    mapReals reads p.toJson = (p.mapNumbers reads).toJson := by
  have htext : ∀ s, mapReals reads (.text s) = .text s := fun _ => rfl
  have hbool : ∀ b, mapReals reads (.bool b) = .bool b := fun _ => rfl
  have hnat : ∀ n, mapReals reads (nat n) = nat n := fun _ => rfl
  have hreal : ∀ x, mapReals reads (.real x) = .real (reads x) := fun _ => rfl
  rw [Printing.toJson_eq, mapReals_slots, Printing.toJson_eq]
  simp only [mapRow, Printing.row, Printing.mapNumbers, List.map_cons, List.map_nil,
    Option.map_some, htext, hbool, hnat, hreal, mapReals_texts, mapReals_table,
    Prices.mapReals_toJson, map_mapReals_text, map_mapReals_texts, map_mapReals_real]

/-- A card with other numbers. -/
def Card.mapNumbers (card : Card) : Card :=
  { card with
    ownCmc := card.ownCmc.map reads
    printing := card.printing.map (Printing.mapNumbers reads) }

/-- **The row of a card with other numbers**, whatever stands in the place of its mana value:
    that document is changed as it is, and the printing as above. -/
theorem Card.mapReals_rowWith (card : Card) (cmc : Option Json) :
    mapReals reads (.object (slots (card.rowWith cmc))) =
      .object (slots ((card.mapNumbers reads).rowWith (cmc.map (mapReals reads)))) := by
  have htags : (if card.tags.isEmpty then none else some (texts card.tags)).map (mapReals reads) =
      if card.tags.isEmpty then none else some (texts card.tags) := by
    split
    · rfl
    · exact congrArg some (mapReals_texts reads card.tags)
  have hprinting : (card.printing.map Printing.toJson).map (mapReals reads) =
      (card.printing.map (Printing.mapNumbers reads)).map Printing.toJson := by
    cases card.printing with
    | none => rfl
    | some p => exact congrArg some (p.mapReals_toJson reads)
  rw [mapReals_slots]
  simp only [mapRow, Card.rowWith, Card.mapNumbers, List.map_cons, List.map_nil, Option.map_some,
    htags, hprinting, map_mapReals_text, map_mapReals_texts]
  rfl

/-- Where all numbers are read as they are, the card is the same. -/
theorem mapNumbers_id (card : Card) : card.mapNumbers id = card := by
  have hprices : ∀ p : Prices, p.mapNumbers id = p := fun p => by
    simp only [Prices.mapNumbers, Option.map_id_fun, id]
  have hprinting : Printing.mapNumbers id = id := by
    funext p
    simp only [Printing.mapNumbers, hprices, Option.map_id_fun, id]
  rw [Card.mapNumbers, hprinting, Option.map_id_fun, Option.map_id_fun]
  rfl

end CardSearch
