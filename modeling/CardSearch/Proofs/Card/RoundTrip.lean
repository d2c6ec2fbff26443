import CardSearch.Proofs.Card.Shape
import CardSearch.Proofs.Json.RoundTrip
import Mathlib.Data.List.Nodup

/-
  Cards that are written and read back.

  1. **Slots (`lookup_slots`)** — a record is written from a row of fields some of which are missing.
     As the fields have different names, each is found in the document again.
  2. **The crux (`Printing.ofJson?_toJson`, `Card.ofEntry?_rowWith`)** — every reader of a field undoes
     what writes the field, and a card record, having no name, is not taken for a printing.
  3. **Texts (`writable_card`)** — the document of a card can be written as text and read back
     if its numbers can.
-/

namespace CardSearch

open Json

/-! ## Slots -/

/-- The members of a row of fields, without those that are missing. -/
def slots (row : List (String × Option Json)) : List (String × Json) :=
  row.filterMap fun (key, value) => value.map fun v => (key, v)

/-- A field that is there is the first member, and one that is missing is none. -/
theorem slots_cons (key : String) (value : Option Json) (row : List (String × Option Json)) :
    slots ((key, value) :: row) = (value.map fun v => (key, v)).toList ++ slots row := by
  cases value <;> rfl

/-- The members have names of the row, in its order. -/
theorem keys_slots (row : List (String × Option Json)) :
    ((slots row).map Prod.fst).Sublist (row.map Prod.fst) := by
  induction row with
  | nil => exact .slnil
  | cons field row ih =>
    obtain ⟨key, value⟩ := field
    cases value with
    | none => exact ih.cons key
    | some v => exact ih.cons_cons key

theorem lookup_slots_of_not_mem {row : List (String × Option Json)} {key : String}
    (h : key ∉ row.map Prod.fst) : (slots row).lookup key = none := by
  refine List.lookup_eq_none_iff.mpr fun member hmember => ?_
  refine bne_iff_ne.mpr fun hsame => h ?_
  exact (keys_slots row).subset (hsame ▸ List.mem_map_of_mem hmember)

/-- **A field is found in the document as it is in the row**, missing or with its value.  By
    induction on the row: the names are different, so no earlier member hides a field. -/
theorem lookup_slots {row : List (String × Option Json)} (h : (row.map Prod.fst).Nodup) :
    ∀ field ∈ row, (slots row).lookup field.1 = field.2 := by
  induction row with
  | nil => exact fun field hfield => absurd hfield List.not_mem_nil
  | cons first row ih =>
    obtain ⟨name, value⟩ := first
    obtain ⟨hname, hrow⟩ := List.nodup_cons.mp h
    intro field hfield
    rw [slots_cons]
    rcases List.mem_cons.mp hfield with rfl | hfield
    · -- the field itself: if it is missing, no later one has its name
      cases value with
      | some v => exact List.lookup_cons_self
      | none => exact lookup_slots_of_not_mem hname
    · -- a later field has another name, so the first one does not hide it
      have hmember : field.1 ∈ row.map Prod.fst := List.mem_map_of_mem hfield
      have hother : (field.1 == name) = false :=
        beq_eq_false_iff_ne.mpr fun hsame => hname (hsame ▸ hmember)
      have hrest := ih hrow field hfield
      cases value with
      | some v =>
        change ((name, v) :: slots row).lookup field.1 = _
        rw [List.lookup_cons, hother, hrest]
      | none => exact hrest

/-- There are as many members of a name as it occurs among the names. -/
theorem length_membersNamed (key : String) (members : List (String × Json)) :
    (membersNamed key members).length = (members.map Prod.fst).count key := by
  induction members with
  | nil => rfl
  | cons member members ih =>
    obtain ⟨name, value⟩ := member
    rw [List.map_cons, List.count_cons, ← ih, membersNamed, List.filterMap_cons]
    by_cases hkey : name == key
    · simp only [hkey, if_true, List.length_cons]
      rfl
    · simp only [hkey, Bool.false_eq_true, if_false]
      rfl

/-- A record whose fields have different names is a record under any names: no name stands there
    twice. -/
theorem record?_slots {row : List (String × Option Json)} (h : (row.map Prod.fst).Nodup)
    (names : List String) : (Json.object (slots row)).record? names = some (slots row) := by
  rw [record?, if_pos]
  refine List.all_eq_true.mpr fun name _ => decide_eq_true ?_
  rw [length_membersNamed]
  exact List.nodup_iff_count_le_one.mp ((keys_slots row).nodup h) name

/-! ## Fields -/

/-- Items are read back if each of them is.  By induction on the items. -/
theorem mapM_map_of_forall {α β : Type} {read : β → Option α} {write : α → β}
    (h : ∀ x, read (write x) = some x) (values : List α) :
    (values.map write).mapM read = some values := by
  induction values with
  | nil => rfl
  | cons value values ih =>
    rw [List.map_cons, List.mapM_cons, ih, h]
    rfl

theorem texts?_texts (values : List String) : (texts values).texts? = some values := by
  have hread : ∀ s : String, (Json.text s).text? = some s := fun _ => rfl
  exact mapM_map_of_forall hread values

theorem nat?_nat (n : Nat) : (nat n).nat? = some n := by
  rw [nat, nat?, if_neg (by omega)]
  rfl

/-- A field that may be missing is read back, if what it holds is: nothing that is written for a
    value is `null`, which stands for none. -/
theorem optional_map {α : Type} {read : Json → Option α} {write : α → Json}
    (hread : ∀ x, read (write x) = some x) (hnull : ∀ x, write x ≠ .null) (value : Option α) :
    Json.optional read (value.map write) = some value := by
  cases value with
  | none => rfl
  | some x =>
    rw [Option.map_some, optional_of_ne_null (hnull x), hread]
    rfl

theorem optional_text (value : Option String) :
    Json.optional text? (value.map Json.text) = some value := by
  have hread : ∀ s : String, (Json.text s).text? = some s := fun _ => rfl
  exact optional_map hread (fun _ => nofun) value

theorem optional_real (value : Option Number) :
    Json.optional number? (value.map Json.real) = some value := by
  have hread : ∀ x : Number, (Json.real x).number? = some x := fun _ => rfl
  exact optional_map hread (fun _ => nofun) value

theorem optional_texts (value : Option (List String)) :
    Json.optional texts? (value.map texts) = some value :=
  optional_map texts?_texts (fun _ => nofun) value

/-- Colors are written as a list, which is one of the two forms in which they are read. -/
theorem colors?_texts (values : List String) : (texts values).colors? = some values :=
  texts?_texts values

theorem optional_colors (value : Option (List String)) :
    Json.optional colors? (value.map texts) = some value :=
  optional_map colors?_texts (fun _ => nofun) value

theorem optional_some_colors (values : List String) :
    Json.optional colors? (some (texts values)) = some (some values) :=
  optional_colors (some values)

/-- A mana value that may be missing.  It is written as a number, so the reader that takes texts
    as well reads it as one. -/
theorem optional_lenient (value : Option Number) :
    (Json.optional lenientNumber? (value.map .real)) = some (value.map some) := by
  cases value with
  | none => rfl
  | some x => exact optional_of_ne_null nofun

/-! ## Records -/

/-- The fields of a price record. -/
def Prices.row (p : Prices) : List (String × Option Json) :=
  [("usd", p.usd.map .real), ("usd_foil", p.usdFoil.map .real),
   ("usd_etched", p.usdEtched.map .real), ("eur", p.eur.map .real), ("tix", p.tix.map .real)]

/-- What is written for a field that may be missing is its slot. -/
theorem member?_eq {α : Type} (key : String) (write : α → Json) (value : Option α) :
    member? key write value = ((value.map write).map fun v => (key, v)).toList := by
  rw [member?, Option.map_map]
  rfl

theorem slots_nil : slots [] = [] := rfl

theorem Prices.toJson_eq (p : Prices) : p.toJson = .object (slots p.row) := by
  simp only [Prices.toJson, Prices.row, slots_cons, slots_nil, member?_eq, List.append_assoc,
    List.append_nil]

/-- **Prices are read back from their document**, those that are missing as well. -/
theorem Prices.ofJson?_toJson (p : Prices) : Prices.ofJson? p.toJson = some p := by
  have hnames : (p.row.map Prod.fst).Nodup := by
    change Prices.fieldNames.Nodup
    decide
  rw [Prices.toJson_eq, Prices.ofJson?, record?_slots hnames]
  have hfields := lookup_slots hnames
  generalize slots p.row = members at hfields ⊢
  simp only [Prices.row, List.forall_mem_cons] at hfields
  simp only [bind, Option.bind_some, hfields, optional_real]
  rfl

namespace Printing

/-- The fields of a printing record. -/
def row (p : Printing) : List (String × Option Json) :=
  [("scryfall_id", some (.text p.scryfallId)), ("oracle_id", some (.text p.oracleId)),
   ("name", some (.text p.name)), ("set", some (.text p.set)),
   ("set_name", some (.text p.setName)), ("collector_number", some (.text p.collectorNumber)),
   ("released_at", some (.text p.releasedAt)), ("promo", some (.bool p.promo)),
   ("reprint", some (.bool p.reprint)), ("digital", some (.bool p.digital)),
   ("full_art", some (.bool p.fullArt)), ("isToken", some (.bool p.isToken)),
   ("artist", some (.text p.artist)), ("rarity", some (.text p.rarity)),
   ("legalities", some (.object (p.legalities.map fun (format, status) => (format, .text status)))),
   ("oracle_text", some (.text p.oracleText)), ("cmc", some (.real p.cmc)),
   ("type", some (.text p.typeLine)), ("colors", some (texts p.colors)),
   ("color_identity", some (texts p.colorIdentity)), ("parsed_cost", some (texts p.parsedCost)),
   ("layout", some (.text p.layout)), ("power", p.power.map .text),
   ("toughness", p.toughness.map .text), ("loyalty", p.loyalty.map .text),
   ("prices", some p.prices.toJson), ("elo", p.elo.map .real),
   ("popularity", p.popularity.map .real), ("cubeCount", some (nat p.cubeCount)),
   ("pickCount", some (nat p.pickCount)), ("finishes", some (texts p.finishes)),
   ("border_color", some (.text p.borderColor)), ("language", some (.text p.language)),
   ("promo_types", p.promoTypes.map texts), ("keywords", some (texts p.keywords))]

theorem toJson_eq (p : Printing) : p.toJson = .object (slots p.row) := by
  simp only [Printing.toJson, row, slots_cons, slots_nil, member?_eq, List.append_assoc,
    List.append_nil, Option.map_some, Option.toList_some, List.cons_append, List.nil_append]

/-- A format after all others is put at the end.  By induction on the others, each of which is
    smaller. -/
theorem putLegality_eq {format : String} {sorted : List (String × String)}
    (h : ∀ entry ∈ sorted, entry.1 < format) (status : String) :
    putLegality format status sorted = sorted ++ [(format, status)] := by
  induction sorted with
  | nil => rfl
  | cons entry sorted ih =>
    obtain ⟨hentry, hrest⟩ := List.forall_mem_cons.mp h
    have hother : (format == entry.1) = false := by
      refine beq_eq_false_iff_ne.mpr fun hsame => ?_
      exact String.lt_irrefl format (hsame ▸ hentry)
    rw [putLegality, if_neg (String.lt_asymm hentry), hother, if_neg Bool.false_ne_true, ih hrest]
    rfl

/-- So formats in ascending order are put one behind the other.  By induction on those that are
    left. -/
theorem foldl_putLegality {sorted rest : List (String × String)}
    (h : ((sorted ++ rest).map Prod.fst).Pairwise (· < ·)) :
    rest.foldl (fun sorted (format, status) => putLegality format status sorted) sorted =
      sorted ++ rest := by
  induction rest generalizing sorted with
  | nil => exact (List.append_nil sorted).symm
  | cons entry rest ih =>
    obtain ⟨format, status⟩ := entry
    rw [List.map_append, List.map_cons] at h
    have hlast : ∀ entry ∈ sorted, entry.1 < format := fun entry hentry =>
      (List.pairwise_append.mp h).2.2 _ (List.mem_map_of_mem hentry) _ List.mem_cons_self
    rw [List.foldl_cons]
    dsimp only
    rw [putLegality_eq hlast, ih, List.append_assoc]
    · rfl
    · rw [List.append_assoc, List.singleton_append, List.map_append, List.map_cons]
      exact h

/-- Legalities are read back, if they are given in ascending order, for the reader puts them in
    that order. -/
theorem legalities?_object {entries : List (String × String)}
    (h : (entries.map Prod.fst).Pairwise (· < ·)) :
    legalities? (.object (entries.map fun (format, status) => (format, .text status))) =
      some entries := by
  rw [legalities?, mapM_map_of_forall]
  · exact congrArg some (@foldl_putLegality [] entries h)
  · intro entry
    rfl

theorem nodup_row (p : Printing) : (p.row.map Prod.fst).Nodup := by
  have hnames : Printing.fieldNames.Nodup := by decide
  exact hnames

/-- **A printing is read back from its document.** -/
theorem ofJson?_toJson {p : Printing} (h : (p.legalities.map Prod.fst).Pairwise (· < ·)) :
    Printing.ofJson? p.toJson = some p := by
  have hrow := record?_slots p.nodup_row Printing.fieldNames
  have hfields := lookup_slots p.nodup_row
  rw [toJson_eq]
  -- from here on the names of the fields are no longer compared
  generalize slots p.row = members at hrow hfields ⊢
  simp only [row, List.forall_mem_cons] at hfields
  simp only [Printing.ofJson?, pure, ↓bind_eq_some_iff, Option.bind_some, Option.some.injEq,
    exists_eq_left', hrow, hfields, textField, boolField, textsField, countField, orDefault, text?,
    bool?, nat?_nat, number?, texts?_texts, optional_real, optional_text, optional_texts,
    optional_some_colors, Prices.ofJson?_toJson, legalities?_object h]
  rfl

end Printing

namespace Card

/-- The fields of a card record, with a document in the place of the mana value. -/
def rowWith (cmc : Option Json) (card : Card) : List (String × Option Json) :=
  [("cardID", some (.text card.ownId)), ("status", card.ownStatus.map .text),
   ("finish", card.ownFinish.map .text), ("cmc", cmc),
   ("type_line", card.ownTypeLine.map .text), ("colors", card.ownColors.map texts),
   ("rarity", card.ownRarity.map .text),
   ("tags", if card.tags.isEmpty then none else some (texts card.tags)),
   ("notes", card.notes.map .text), ("details", card.printing.map Printing.toJson)]

/-- A card is written as its row, with its mana value as a number. -/
theorem toJson_eq (card : Card) : card.toJson =
    .object (slots (card.rowWith (card.ownCmc.map .real))) := by
  have htags : (if card.tags.isEmpty then [] else [("tags", texts card.tags)]) =
      ((if card.tags.isEmpty then none else some (texts card.tags)).map
        fun v => ("tags", v)).toList := by
    split <;> rfl
  simp only [Card.toJson, rowWith, slots_cons, slots_nil, member?_eq, htags, List.append_assoc,
    List.append_nil, Option.map_some, Option.toList_some]

/-- Its fields have different names, whatever stands for the mana value. -/
theorem nodup_rowWith (cmc : Option Json) (card : Card) :
    ((card.rowWith cmc).map Prod.fst).Nodup := by
  have hnames : Card.fieldNames.Nodup := by decide
  exact hnames

/-- A card record is no printing: it has no name, and that is the one field which a printing must
    have. -/
theorem printing_ofJson?_rowWith (cmc : Option Json) (card : Card) :
    Printing.ofJson? (.object (slots (card.rowWith cmc))) = none := by
  refine Option.not_isSome_iff_eq_none.mp fun hsome => ?_
  obtain ⟨fields, hfields, hkinds⟩ := Printing.isSome_ofJson?_iff.mp hsome
  rw [record?_slots (card.nodup_rowWith cmc)] at hfields
  obtain rfl := Option.some.inj hfields
  obtain ⟨value, hvalue, -⟩ := hkinds ("name", Given IsText) (by simp [Printing.kinds])
  have hname : "name" ∉ Card.fieldNames := by decide
  rw [lookup_slots_of_not_mem hname] at hvalue
  cases hvalue

/-- Tags are read back, although an empty list of them is not written. -/
theorem textsField_tags (tags : List String) :
    textsField (if tags.isEmpty then none else some (texts tags)) = some tags := by
  split
  · rename_i hempty
    rw [List.isEmpty_iff.mp hempty]
    rfl
  · exact texts?_texts tags

/-- **A card is read back from its row**, with the mana value that is read in its place.  It is
    tried as a printing first and refused; then each field is found as it was written. -/
theorem ofEntry?_rowWith {card : Card} {cmc : Option Json} {own : Option (Option Number)}
    (hcmc : Json.optional lenientNumber? cmc = some own)
    (h : ∀ p, card.printing = some p → (p.legalities.map Prod.fst).Pairwise (· < ·)) :
    Card.ofEntry? (.object (slots (card.rowWith cmc))) =
      some { card with ownCmc := own.join } := by
  have hprinting : Json.optional Printing.ofJson? (card.printing.map Printing.toJson) =
      some card.printing := by
    cases hp : card.printing with
    | none => rfl
    | some p =>
      rw [Option.map_some, optional_of_ne_null (by rw [Printing.toJson]; exact nofun),
        Printing.ofJson?_toJson (h p hp)]
      rfl
  have hrow := record?_slots (card.nodup_rowWith cmc) Card.fieldNames
  have hfields := lookup_slots (card.nodup_rowWith cmc)
  rw [Card.ofEntry?, card.printing_ofJson?_rowWith cmc]
  generalize slots (card.rowWith cmc) = members at hrow hfields ⊢
  simp only [rowWith, List.forall_mem_cons] at hfields
  simp only [Card.ofJson?, pure, ↓bind_eq_some_iff, Option.some.injEq,
    exists_eq_left', hrow, hfields, textField, orDefault, text?, textsField_tags, hcmc,
    optional_text, optional_colors, hprinting]

/-- **A card is read back from its document.** -/
theorem ofEntry?_toJson {card : Card}
    (h : ∀ p, card.printing = some p → (p.legalities.map Prod.fst).Pairwise (· < ·)) :
    Card.ofEntry? card.toJson = some card := by
  have hcmc : (card.ownCmc.map some).join = card.ownCmc := by
    cases card.ownCmc <;> rfl
  rw [toJson_eq, ofEntry?_rowWith (optional_lenient card.ownCmc) h, hcmc]

end Card

/-! ## Documents that can be written -/

section Writing

variable {reads : Number → Number}

theorem writable_slots {depth : Nat} {row : List (String × Option Json)}
    (h : ∀ field ∈ row, ∀ value, field.2 = some value → Writable reads depth value) :
    Writable reads (depth + 1) (.object (slots row)) := by
  refine .object fun member hmember => ?_
  obtain ⟨field, hfield, hvalue⟩ := List.mem_filterMap.mp hmember
  obtain ⟨value, hsome, rfl⟩ := Option.map_eq_some_iff.mp hvalue
  exact h field hfield value hsome

theorem writable_texts {depth : Nat} (values : List String) :
    Writable reads (depth + 1) (texts values) := by
  refine .list fun item hitem => ?_
  obtain ⟨value, -, rfl⟩ := List.mem_map.mp hitem
  exact .text value

theorem writable_nat {depth n : Nat} (h : n < coefficientBound) : Writable reads depth (nat n) :=
  .whole (Int.le_trans (by decide) (Int.natCast_nonneg n)) (Int.ofNat_lt.mpr h)

theorem writable_table {depth : Nat} (entries : List (String × String)) :
    Writable reads (depth + 1)
      (.object (entries.map fun (format, status) => (format, .text status))) := by
  refine .object fun member hmember => ?_
  obtain ⟨entry, -, rfl⟩ := List.mem_map.mp hmember
  exact .text entry.2

/-- A missing field needs nothing, and one that is there what its document needs. -/
theorem writable_map_iff {α : Type} {depth : Nat} {write : α → Json} {field : Option α} :
    (∀ value, field.map write = some value → Writable reads depth value) ↔
      ∀ x, field = some x → Writable reads depth (write x) := by
  cases field <;> simp

theorem writable_some_iff {depth : Nat} {value : Json} :
    (∀ found, some value = some found → Writable reads depth found) ↔
      Writable reads depth value := by
  simp

/-- The numbers that a printing may lack. -/
def Printing.optionalNumbers (p : Printing) : List (Option Number) :=
  [p.prices.usd, p.prices.usdFoil, p.prices.usdEtched, p.prices.eur, p.prices.tix, p.elo,
   p.popularity]

/-- A printing whose counters have 64 bits, and whose other numbers are read as some numbers. -/
structure Printing.Readable (reads : Number → Number) (p : Printing) : Prop where
  cubeCount : p.cubeCount < coefficientBound
  pickCount : p.pickCount < coefficientBound
  cmc : p.cmc.ReadsAs (reads p.cmc)
  numbers : ∀ value ∈ p.optionalNumbers, ∀ x, value = some x → x.ReadsAs (reads x)

/-- **A printing can be written if its numbers can.** The record goes through its fields one by
    one, and only the numbers ask for something. -/
theorem Printing.writable_toJson {p : Printing} (h : p.Readable reads) (depth : Nat) :
    Writable reads (depth + 3) p.toJson := by
  have hreal : ∀ {value : Option Number} {depth : Nat},
      (∀ x, value = some x → x.ReadsAs (reads x)) →
        ∀ x, value = some x → Writable reads depth (.real x) :=
    fun hvalue x hx => .real (hvalue x hx)
  have hnumbers := h.numbers
  simp only [Printing.optionalNumbers, List.forall_mem_cons] at hnumbers
  obtain ⟨husd, hfoil, hetched, heur, htix, helo, hpopularity, -⟩ := hnumbers
  have hprices : Writable reads (depth + 2) p.prices.toJson := by
    rw [Prices.toJson_eq]
    refine writable_slots ?_
    simp only [Prices.row, List.forall_mem_cons, writable_map_iff]
    exact ⟨hreal husd, hreal hfoil, hreal hetched, hreal heur, hreal htix,
      fun field hfield => absurd hfield List.not_mem_nil⟩
  rw [Printing.toJson_eq]
  refine writable_slots ?_
  simp only [Printing.row, List.forall_mem_cons, writable_map_iff, writable_some_iff, Writable.text,
    Writable.bool, writable_texts, writable_table, implies_true, true_and]
  exact ⟨.real h.cmc, hprices, hreal helo, hreal hpopularity, writable_nat h.cubeCount,
    writable_nat h.pickCount, fun field hfield => absurd hfield List.not_mem_nil⟩

/-- The row of a card can be written if the document of its mana value and its printing can; the
    printing stands one level further in. -/
theorem Card.writable_rowWith {card : Card} {cmc : Option Json} {depth : Nat}
    (hcmc : ∀ value, cmc = some value → Writable reads (depth + 3) value)
    (hprinting : ∀ p, card.printing = some p → p.Readable reads) :
    Writable reads (depth + 4) (.object (slots (card.rowWith cmc))) := by
  have htags : ∀ value, (if card.tags.isEmpty then none else some (texts card.tags)) = some value →
      Writable reads (depth + 3) value := by
    intro value hvalue
    split at hvalue
    · cases hvalue
    · obtain rfl := Option.some.inj hvalue
      exact writable_texts card.tags
  refine writable_slots ?_
  simp only [Card.rowWith, List.forall_mem_cons, writable_map_iff, writable_some_iff, Writable.text,
    writable_texts, implies_true, true_and]
  exact ⟨hcmc, htags, fun p hp => Printing.writable_toJson (hprinting p hp) depth,
    fun field hfield => absurd hfield List.not_mem_nil⟩

end Writing

/-- A printing that a catalog can hold: formats are ascending, counters have 64 bits, and numbers
    read back. -/
structure Printing.Storable (p : Printing) : Prop where
  legalities : (p.legalities.map Prod.fst).Pairwise (· < ·)
  cubeCount : p.cubeCount < coefficientBound
  pickCount : p.pickCount < coefficientBound
  cmc : p.cmc.ReadsBack
  numbers : ∀ value ∈ p.optionalNumbers, ∀ x, value = some x → x.ReadsBack

/-- A printing that can be stored has its numbers read as they are. -/
theorem Printing.Storable.readable {p : Printing} (h : p.Storable) : p.Readable id :=
  ⟨h.cubeCount, h.pickCount, h.cmc, h.numbers⟩

/-- A card that a catalog can hold. -/
structure Card.Storable (card : Card) : Prop where
  cmc : ∀ x, card.ownCmc = some x → x.ReadsBack
  printing : ∀ p, card.printing = some p → p.Storable

/-- **A card's document can be written as text and read back**, at any level at which the card
    stands. -/
theorem writable_card {card : Card} (h : card.Storable) (depth : Nat) :
    Writable id (depth + 4) card.toJson := by
  rw [Card.toJson_eq]
  exact Card.writable_rowWith (writable_map_iff.mpr fun x hx => .real (h.cmc x hx))
    fun p hp => (h.printing p hp).readable

end CardSearch
