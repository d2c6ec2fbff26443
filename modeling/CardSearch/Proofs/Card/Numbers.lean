import CardSearch.Proofs.Card.RoundTrip
import CardSearch.Proofs.Json.Range
import Mathlib.Data.String.Basic

/-
  The numbers of a card that was read.

  1. **Fields (`inRange_of_lookup`)** — a field of a document in range is in range.
  2. **Printings (`Printing.sound_of_ofJson?`)** — so the numbers of a printing are finite, its counters
     have 64 bits, and its formats are put in ascending order.
  3. **The crux (`Card.forall_isFinite_ownCmc_iff`)** — the mana value of a copy is the one number that
     may come from a text.  It is finite unless the text spells no real number.
  4. **Accessors (`Card.isFinite_manaValue_iff`, `Card.forall_isFinite_stat_iff`)** — and so it is with
     the number that queries see, and with the numbers written in stats.
-/

namespace CardSearch

open Json Number

/-! ## Fields -/

theorem mem_of_lookup {row : List (String × Json)} {key : String} {value : Json}
    (h : row.lookup key = some value) : (key, value) ∈ row := by
  obtain ⟨before, after, rfl, -⟩ := List.lookup_eq_some_iff.mp h
  exact List.mem_append_right _ List.mem_cons_self

/-- A field of a document in range is in range.  The document is an object, whose members are the
    row, or a list, whose items are. -/
theorem Json.inRange_of_lookup {names : List String} {value field : Json} {key : String}
    {row : List (String × Json)} (hvalue : value.InRange) (hrow : value.record? names = some row)
    (h : row.lookup key = some field) : field.InRange := by
  have hmem := mem_of_lookup h
  cases hvalue with
  | object each =>
    rw [record?] at hrow
    split at hrow
    · obtain rfl := Option.some.inj hrow
      exact each _ hmem
    · cases hrow
  | list each =>
    rw [record?] at hrow
    split at hrow
    · obtain rfl := Option.some.inj hrow
      exact each _ (List.of_mem_zip hmem).2
    · cases hrow
  | _ => cases hrow

/-- What a field that may be missing holds is read from its document: a field that is missing or
    `null` holds nothing. -/
theorem Json.exists_of_optional {α : Type} {read : Json → Option α} {field : Option Json} {a : α}
    (h : Json.optional read field = some (some a)) :
    ∃ value, field = some value ∧ read value = some a := by
  cases field with
  | none => cases h
  | some value =>
    by_cases hnull : value = .null
    · subst hnull
      cases h
    · rw [optional_of_ne_null hnull] at h
      obtain ⟨b, hb, hsame⟩ := Option.map_eq_some_iff.mp h
      exact ⟨value, rfl, Option.some.inj hsame ▸ hb⟩

theorem Number.isFinite_ofInt {n : Int} (h : n.natAbs < leastInfinite) :
    (ofInt n).isFinite = true := by
  rw [ofInt, isFinite_ofRatio_iff (by decide), Nat.mul_one]
  exact h

/-- A number in range is finite.  Whole numbers of 64 bits are far below the largest finite
    number. -/
theorem Json.isFinite_of_number? {value : Json} {x : Number} (hvalue : value.InRange)
    (h : value.number? = some x) : x.isFinite = true := by
  cases hvalue with
  | @whole n low high =>
    obtain rfl := Option.some.inj h
    have hbound : coefficientBound ≤ leastInfinite := by decide +kernel
    have hlow : Nat.pow 2 63 < coefficientBound := by decide
    have hbits : n.natAbs < coefficientBound := by omega
    exact isFinite_ofInt (Nat.lt_of_lt_of_le hbits hbound)
  | real finite =>
    obtain rfl := Option.some.inj h
    exact finite
  | _ => cases h

/-- A whole number in range has 64 bits, so the counters need no check of their own. -/
theorem Json.lt_of_nat? {value : Json} {n : Nat} (hvalue : value.InRange)
    (h : value.nat? = some n) : n < coefficientBound := by
  cases hvalue with
  | @whole m low high =>
    rw [nat?] at h
    split at h
    · cases h
    · obtain rfl := Option.some.inj h
      omega
  | _ => cases h

section Row

variable {names : List String} {value : Json} {row : List (String × Json)}
  (hvalue : value.InRange) (hrow : value.record? names = some row)
include hvalue hrow

theorem Json.isFinite_of_optional {key : String} {found : Option Number}
    (h : Json.optional number? (row.lookup key) = some found) :
    ∀ x, found = some x → x.isFinite = true := by
  rintro x rfl
  obtain ⟨field, hfield, hx⟩ := exists_of_optional h
  exact isFinite_of_number? (inRange_of_lookup hvalue hrow hfield) hx

/-- A number with a default is finite, as the default is zero. -/
theorem Json.isFinite_of_orDefault {key : String} {x : Number}
    (h : Json.orDefault .zero number? (row.lookup key) = some x) : x.isFinite = true := by
  cases hfield : row.lookup key with
  | none =>
    rw [hfield] at h
    obtain rfl := Option.some.inj h
    decide
  | some field =>
    rw [hfield] at h
    exact isFinite_of_number? (inRange_of_lookup hvalue hrow hfield) h

/-- A counter has 64 bits, whether it is given or zero by default. -/
theorem Json.lt_of_countField {key : String} {n : Nat} (h : countField (row.lookup key) = some n) :
    n < coefficientBound := by
  cases hfield : row.lookup key with
  | none =>
    rw [hfield] at h
    obtain rfl := Option.some.inj h
    decide
  | some field =>
    rw [hfield] at h
    exact lt_of_nat? (inRange_of_lookup hvalue hrow hfield) h

end Row

/-! ## Printings -/

/-- What is put into a list of formats is there beside what was.  By induction on the list, as far
    as the place of the new format. -/
theorem Printing.fst_mem_putLegality {format status key : String}
    {sorted : List (String × String)}
    (h : key ∈ (putLegality format status sorted).map Prod.fst) :
    key = format ∨ key ∈ sorted.map Prod.fst := by
  induction sorted with
  | nil => exact Or.inl (List.mem_singleton.mp h)
  | cons entry sorted ih =>
    obtain ⟨f, s⟩ := entry
    rw [putLegality] at h
    split at h
    · exact List.mem_cons.mp h
    split at h
    · rcases List.mem_cons.mp h with rfl | hmem
      · exact Or.inl rfl
      · exact Or.inr (List.mem_cons_of_mem _ hmem)
    · rcases List.mem_cons.mp h with rfl | hmem
      · exact Or.inr List.mem_cons_self
      · exact (ih hmem).imp_right (List.mem_cons_of_mem _)

/-- Formats stay in ascending order.  By induction on the list: the new one comes before the first
    that is greater, and takes the place of one that is equal. -/
theorem Printing.sorted_putLegality {format status : String} {sorted : List (String × String)}
    (h : (sorted.map Prod.fst).Pairwise (· < ·)) :
    ((putLegality format status sorted).map Prod.fst).Pairwise (· < ·) := by
  induction sorted with
  | nil => exact List.pairwise_singleton _ _
  | cons entry sorted ih =>
    obtain ⟨f, s⟩ := entry
    obtain ⟨hfirst, hrest⟩ := List.pairwise_cons.mp h
    rw [putLegality]
    split
    · -- before all others, which are greater than the first of them
      rename_i hless
      refine List.pairwise_cons.mpr ⟨fun key hkey => ?_, h⟩
      rcases List.mem_cons.mp hkey with rfl | hmem
      · exact hless
      · exact lt_trans hless (hfirst key hmem)
    split
    · -- in the place of the same format
      rename_i hsame
      obtain rfl := beq_iff_eq.mp hsame
      exact h
    · -- further behind, so the first one stays the least
      rename_i hnot hother
      have hgreater : f < format :=
        ((lt_trichotomy format f).resolve_left hnot).resolve_left fun hsame => hother (by simp [hsame])
      refine List.pairwise_cons.mpr ⟨fun key hkey => ?_, ih hrest⟩
      rcases fst_mem_putLegality hkey with rfl | hmem
      · exact hgreater
      · exact hfirst key hmem

theorem Printing.sorted_foldl_putLegality {sorted : List (String × String)}
    (h : (sorted.map Prod.fst).Pairwise (· < ·)) (pairs : List (String × String)) :
    ((pairs.foldl (fun sorted (format, status) => putLegality format status sorted) sorted).map
      Prod.fst).Pairwise (· < ·) := by
  induction pairs generalizing sorted with
  | nil => exact h
  | cons pair pairs ih => exact ih (sorted_putLegality h)

/-- The formats of a printing are in ascending order, however the document orders them. -/
theorem Printing.sorted_legalities? {value : Json} {entries : List (String × String)}
    (h : legalities? value = some entries) : (entries.map Prod.fst).Pairwise (· < ·) := by
  cases value with
  | object members =>
    obtain ⟨pairs, -, hentries⟩ := bind_eq_some_iff.mp h
    obtain rfl := Option.some.inj hentries
    exact sorted_foldl_putLegality .nil pairs
  | _ => cases h

/-- A printing as it can come from a catalog: formats are ascending, counters have 64 bits, and
    numbers are finite. -/
structure Printing.Sound (p : Printing) : Prop where
  legalities : (p.legalities.map Prod.fst).Pairwise (· < ·)
  cubeCount : p.cubeCount < coefficientBound
  pickCount : p.pickCount < coefficientBound
  cmc : p.cmc.isFinite = true
  numbers : ∀ value ∈ p.optionalNumbers, ∀ x, value = some x → x.isFinite = true

/-- The prices of a record. -/
def Prices.all (p : Prices) : List (Option Number) := [p.usd, p.usdFoil, p.usdEtched, p.eur, p.tix]

/-- All prices are finite, each for the same reason. -/
theorem Prices.isFinite_of_ofJson? {value : Json} {p : Prices} (hvalue : value.InRange)
    (h : Prices.ofJson? value = some p) :
    ∀ price ∈ p.all, ∀ x, price = some x → x.isFinite = true := by
  simp only [Prices.ofJson?, pure, ↓bind_eq_some_iff, Option.some.injEq] at h
  obtain ⟨row, hrow, usd, husd, foil, hfoil, etched, hetched, eur, heur, tix, htix, rfl⟩ := h
  simp only [Prices.all, List.forall_mem_cons]
  exact ⟨isFinite_of_optional hvalue hrow husd, isFinite_of_optional hvalue hrow hfoil,
    isFinite_of_optional hvalue hrow hetched, isFinite_of_optional hvalue hrow heur,
    isFinite_of_optional hvalue hrow htix, fun _ hnone => absurd hnone List.not_mem_nil⟩

/-- **A printing that is read from a document in range is sound.** Its record is read field by
    field, and only the formats, the numbers and the counters have something to show. -/
theorem Printing.sound_of_ofJson? {value : Json} {p : Printing} (hvalue : value.InRange)
    (h : Printing.ofJson? value = some p) : p.Sound := by
  simp only [Printing.ofJson?, pure, ↓bind_eq_some_iff, Option.some.injEq] at h
  obtain ⟨row, hrow, rest⟩ := h
  -- only the formats, the numbers and the counters can be unsound; the other fields are passed over
  iterate 14 obtain ⟨_, _, rest⟩ := rest
  obtain ⟨legalities, hlegalities, _, _, cmc, hcmc, rest⟩ := rest
  iterate 8 obtain ⟨_, _, rest⟩ := rest
  obtain ⟨prices, hprices, elo, helo, popularity, hpopularity, cubes, hcubes, picks, hpicks,
    rest⟩ := rest
  iterate 5 obtain ⟨_, _, rest⟩ := rest
  obtain rfl := rest
  have husual : (legalities.map Prod.fst).Pairwise (· < ·) := by
    cases hfield : row.lookup "legalities" with
    | none =>
      rw [hfield] at hlegalities
      obtain rfl := Option.some.inj hlegalities
      exact .nil
    | some field =>
      rw [hfield] at hlegalities
      exact sorted_legalities? hlegalities
  have hpriced : ∀ price ∈ prices.all, ∀ x, price = some x → x.isFinite = true := by
    cases hfield : row.lookup "prices" with
    | none =>
      rw [hfield] at hprices
      obtain rfl := Option.some.inj hprices
      simp [Prices.all]
    | some field =>
      rw [hfield] at hprices
      exact Prices.isFinite_of_ofJson? (inRange_of_lookup hvalue hrow hfield) hprices
  refine ⟨husual, lt_of_countField hvalue hrow hcubes, lt_of_countField hvalue hrow hpicks,
    isFinite_of_orDefault hvalue hrow hcmc, ?_⟩
  simp only [Prices.all, List.forall_mem_cons] at hpriced
  simp only [Printing.optionalNumbers, List.forall_mem_cons]
  obtain ⟨husd, hfoil, hetched, heur, htix, hnone⟩ := hpriced
  exact ⟨husd, hfoil, hetched, heur, htix, isFinite_of_optional hvalue hrow helo,
    isFinite_of_optional hvalue hrow hpopularity, fun _ hnone => absurd hnone List.not_mem_nil⟩

/-! ## Mana values of copies -/

namespace Card

/-- The text that an entry gives for the mana value of the copy, if it gives one. -/
def overrideText? (entry : Json) : Option String :=
  match Printing.ofJson? entry with
  | some _ => none
  | none => (entry.record? fieldNames).bind fun row => (row.lookup "cmc").bind text?

/-- A text is read as the number in it, and gives none if it is blank; a text that spells no
    number is refused. -/
theorem eq_read?_of_lenientNumber? {s : String} {found : Option Number}
    (h : lenientNumber? (.text s) = some found) : found = read? (Text.trim s.toList) := by
  rw [lenientNumber?] at h
  split at h
  · rename_i hblank
    obtain rfl := Option.some.inj h
    rw [List.isEmpty_iff.mp hblank]
    rfl
  · obtain ⟨x, hx, rfl⟩ := Option.map_eq_some_iff.mp h
    exact hx.symm

theorem lenientNumber?_of_not_text {value : Json} (h : value.text? = none) :
    value.lenientNumber? = value.number?.map some := by
  cases value with
  | text s => cases h
  | _ => rfl

/-- **An override is finite unless it is read from a text that spells no real number.** By cases
    on the field: it is missing, a number of the document, or a text. -/
theorem forall_isFinite_override_iff {field : Option Json} {found : Option (Option Number)}
    (hfield : ∀ value, field = some value → value.InRange)
    (h : Json.optional lenientNumber? field = some found) :
    (∀ x, found.join = some x → x.isFinite = true) ↔
      ∀ s, field.bind text? = some s → ¬ SpellsUnreal (Text.trim s.toList) := by
  cases found with
  | none =>
    -- no override: the field is missing or `null`, so it holds no text either
    refine iff_of_true (fun _ hnone => nomatch hnone) fun s hs => ?_
    obtain ⟨value, rfl, htext⟩ := Option.bind_eq_some_iff.mp hs
    cases value with
    | text t =>
      rw [optional_of_ne_null (show Json.text t ≠ .null from nofun)] at h
      obtain ⟨_, _, hsome⟩ := Option.map_eq_some_iff.mp h
      cases hsome
    | _ => cases htext
  | some found =>
    obtain ⟨value, rfl, hread⟩ := exists_of_optional h
    have hrange := hfield value rfl
    rw [Option.join_some, Option.bind_some]
    cases value with
    | text s =>
      rw [eq_read?_of_lenientNumber? hread, forall_isFinite_read?_iff]
      exact ⟨fun hreal t ht => Option.some.inj ht ▸ hreal, fun hall => hall s rfl⟩
    | _ =>
      refine iff_of_true (fun x hx => ?_) fun _ hnone => nomatch hnone
      rw [lenientNumber?_of_not_text rfl] at hread
      obtain ⟨y, hy, hsame⟩ := Option.map_eq_some_iff.mp hread
      obtain rfl : y = x := Option.some.inj (hsame.trans hx)
      exact isFinite_of_number? hrange hy

/-- **The override of an entry is finite unless its text spells no real number.** An entry that
    is a printing has no override; a card record has the one that its field gives. -/
theorem forall_isFinite_ownCmc_iff {entry : Json} {card : Card} (hentry : entry.InRange)
    (h : Card.ofEntry? entry = some card) :
    (∀ x, card.ownCmc = some x → x.isFinite = true) ↔
      ∀ s, overrideText? entry = some s → ¬ SpellsUnreal (Text.trim s.toList) := by
  cases hprinting : Printing.ofJson? entry with
  | some p =>
    -- a printing: there is no override, and no text that gives one
    have hcard : Card.ofEntry? entry = some (ofPrinting p) := by rw [Card.ofEntry?, hprinting]
    have htext : overrideText? entry = none := by rw [overrideText?, hprinting]
    obtain rfl := Option.some.inj (hcard.symm.trans h)
    rw [htext]
    simp [ofPrinting]
  | none =>
    have hcard : Card.ofEntry? entry = Card.ofJson? entry := by rw [Card.ofEntry?, hprinting]
    rw [hcard] at h
    simp only [Card.ofJson?, pure, ↓bind_eq_some_iff, Option.some.injEq] at h
    obtain ⟨row, hrow, rest⟩ := h
    iterate 3 obtain ⟨_, _, rest⟩ := rest
    -- the mana value is the fourth field that is read
    obtain ⟨cmc, hcmc, rest⟩ := rest
    iterate 6 obtain ⟨_, _, rest⟩ := rest
    obtain rfl := rest
    have htext : overrideText? entry = (row.lookup "cmc").bind text? := by
      rw [overrideText?, hprinting, hrow]
      rfl
    rw [htext]
    exact forall_isFinite_override_iff (fun _ hfield => inRange_of_lookup hentry hrow hfield) hcmc

/-- The printing of an entry is sound, whether it is the entry itself or stands in a card record. -/
theorem sound_of_ofEntry? {entry : Json} {card : Card} (hentry : entry.InRange)
    (h : Card.ofEntry? entry = some card) : ∀ p, card.printing = some p → p.Sound := by
  rw [Card.ofEntry?] at h
  rintro p hp
  split at h
  · rename_i q hq
    obtain rfl := Option.some.inj h
    obtain rfl := Option.some.inj hp
    exact Printing.sound_of_ofJson? hentry hq
  · simp only [Card.ofJson?, pure, ↓bind_eq_some_iff, Option.some.injEq] at h
    obtain ⟨row, hrow, rest⟩ := h
    iterate 9 obtain ⟨_, _, rest⟩ := rest
    obtain ⟨printing, hprinting, rfl⟩ := rest
    obtain rfl : printing = some p := hp
    obtain ⟨field, hfield, hread⟩ := exists_of_optional hprinting
    exact Printing.sound_of_ofJson? (inRange_of_lookup hentry hrow hfield) hread

/-! ## Accessors -/

/-- What equals zero is zero, with one sign or the other, and so it is finite. -/
theorem isFinite_of_equals_zero {x : Number} (h : x.equals .zero = true) : x.isFinite = true := by
  cases x with
  | nan => cases h
  | signed negative rank =>
    have hkey : key negative rank.val = 0 := beq_iff_eq.mp h
    have hrank : rank.val = 0 := by
      cases negative <;> simpa [key] using hkey
    rw [Number.isFinite, hrank]
    decide

/-- **The mana value is finite exactly if that of the copy is none or finite.** An override of
    zero gives way to the printing, whose number is finite, and zero is finite as well. -/
theorem isFinite_manaValue_iff {card : Card} (h : ∀ p, card.printing = some p → p.Sound) :
    card.manaValue.isFinite = true ↔ ∀ x, card.ownCmc = some x → x.isFinite = true := by
  have hprinted : (card.printed .zero (·.cmc)).isFinite = true := by
    rw [printed]
    cases hp : card.printing with
    | none => decide
    | some p => exact (h p hp).cmc
  rw [manaValue]
  cases card.ownCmc with
  | none => exact iff_of_true hprinted fun _ hnone => nomatch hnone
  | some x =>
    -- an override of zero gives way to the printing, and zero is finite itself
    have hown : (∀ y, some x = some y → y.isFinite = true) ↔ x.isFinite = true :=
      ⟨fun hall => hall x rfl, fun hx y hy => Option.some.inj hy ▸ hx⟩
    rw [hown]
    dsimp only
    split
    · rename_i hzero
      exact iff_of_true hprinted (isFinite_of_equals_zero hzero)
    · exact Iff.rfl

/-- **A stat is missing or finite unless it spells no real number.** It is read from its text
    each time it is asked for, and a text such as a star has none. -/
theorem forall_isFinite_stat_iff (written : Option String) :
    (∀ x, stat written = some x → x.isFinite = true) ↔
      ∀ s, written = some s → ¬ SpellsUnreal (Text.trim s.toList) := by
  cases written with
  | none =>
    refine iff_of_true (fun x hx => ?_) fun _ hnone => nomatch hnone
    obtain rfl := Option.some.inj hx
    decide
  | some s => simpa [stat] using forall_isFinite_read?_iff (Text.trim s.toList)

end Card

end CardSearch
