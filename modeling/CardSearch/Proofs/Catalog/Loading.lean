import CardSearch.Catalog
import CardSearch.Proofs.Card.Shape
import CardSearch.Proofs.Json.RoundTrip
import CardSearch.Proofs.Storage.Reach
import Mathlib.Data.List.Forall2

/-
  What a catalog's cards are read from.

  1. **Texts (`ofText_eq_ok_iff`)** — a text is a catalog when it is one list and every item of it is
     an entry; the cards are those of the items, in order.
  2. **The crux (`name_eq_iff_of_ofEntry?`)** — an entry that is no printing is read as a card record,
     which has no name of its own.  So the name in an entry is the card's only when every field of the
     entry is of its kind, or when a printing inside the entry happens to have it.
  3. **Files (`name_eq_iff_of_load`)** — both together, for the catalog at a path.

  One field of another kind loses a printing (`load_mistyped_printing`).
-/

namespace CardSearch

open Json

/-! ## Names of entries -/

/-- A printing has the name in its record, where the field stands once and is a text. -/
theorem Printing.lookup_name_of_ofJson? {value : Json} {p : Printing}
    (h : Printing.ofJson? value = some p) :
    ∃ row, value.record? Printing.fieldNames = some row ∧
      (row.lookup "name").bind text? = some p.name := by
  simp only [Printing.ofJson?, pure, ↓bind_eq_some_iff, Option.some.injEq] at h
  obtain ⟨row, hrow, rest⟩ := h
  iterate 2 obtain ⟨_, _, rest⟩ := rest
  obtain ⟨name, hname, rest⟩ := rest
  iterate 32 obtain ⟨_, _, rest⟩ := rest
  obtain rfl := rest
  exact ⟨row, hrow, hname⟩

namespace Card

/-- The name of the printing that a card record holds, empty if it holds none. -/
def heldName (members : List (String × Json)) : String :=
  ((members.lookup "details").bind Printing.ofJson?).elim "" Printing.name

/-- A printing that is held is one that is read; a field that is missing or null holds none. -/
theorem bind_ofJson?_of_optional {field : Option Json} {printing : Option Printing}
    (h : Json.optional Printing.ofJson? field = some printing) :
    field.bind Printing.ofJson? = printing := by
  cases field with
  | none => exact Option.some.inj h
  | some value =>
    by_cases hnull : value = .null
    · subst hnull
      exact Option.some.inj h
    · rw [optional_of_ne_null hnull] at h
      obtain ⟨p, hp, rfl⟩ := Option.map_eq_some_iff.mp h
      exact hp

theorem eq_of_record?_object {names : List String} {members row : List (String × Json)}
    (h : (Json.object members).record? names = some row) : row = members := by
  rw [record?] at h
  split at h
  · exact (Option.some.inj h).symm
  · cases h

/-- A card record has no name but that of the printing it holds: the field `name` is none of its
    fields. -/
theorem name_of_ofJson? {members : List (String × Json)} {card : Card}
    (h : Card.ofJson? (.object members) = some card) : card.name = heldName members := by
  simp only [Card.ofJson?, pure, ↓bind_eq_some_iff, Option.some.injEq] at h
  obtain ⟨row, hrow, rest⟩ := h
  iterate 9 obtain ⟨_, _, rest⟩ := rest
  obtain ⟨printing, hprinting, rfl⟩ := rest
  obtain rfl := eq_of_record?_object hrow
  rw [heldName, bind_ofJson?_of_optional hprinting]
  cases printing <;> rfl

/-- The first member of a name is the one that is looked up.  By induction on the members. -/
theorem lookup_of_membersNamed {key : String} {members : List (String × Json)} {value : Json}
    {values : List Json} (h : membersNamed key members = value :: values) :
    members.lookup key = some value := by
  induction members with
  | nil => cases h
  | cons member members ih =>
    obtain ⟨k, v⟩ := member
    by_cases hk : k = key
    · subst hk
      simp only [membersNamed, List.filterMap_cons, beq_self_eq_true, if_true, List.cons.injEq] at h
      obtain ⟨rfl, _⟩ := h
      exact List.lookup_cons_self
    · have hother : (key == k) = false := beq_eq_false_iff_ne.mpr (Ne.symm hk)
      rw [List.lookup_cons, hother]
      refine ih ?_
      rw [← h, membersNamed, membersNamed, List.filterMap_cons_none]
      simp only [beq_eq_false_iff_ne.mpr hk, Bool.false_eq_true, if_false]

/-- **The card of an entry has the name in it exactly when** the entry is a printing record
    throughout, or holds a printing of that name.  An entry is tried as a printing first, and one
    field of another kind makes it a card record. -/
theorem name_eq_iff_of_ofEntry? {members : List (String × Json)} {n : String} {card : Card}
    (hcard : Card.ofEntry? (.object members) = some card)
    (hname : membersNamed "name" members = [.text n]) :
    card.name = n ↔ IsRecord Printing.kinds (.object members) ∨ heldName members = n := by
  rw [← Printing.isSome_ofJson?_iff]
  rw [Card.ofEntry?] at hcard
  split at hcard
  · rename_i p hp
    obtain rfl := Option.some.inj hcard
    obtain ⟨row, hrow, hrowName⟩ := Printing.lookup_name_of_ofJson? hp
    obtain rfl := eq_of_record?_object hrow
    rw [lookup_of_membersNamed hname] at hrowName
    refine iff_of_true (Option.some.inj hrowName).symm (Or.inl ?_)
    rw [hp]
    rfl
  · rename_i hnone
    rw [name_of_ofJson? hcard, hnone]
    simp only [Option.isSome_none, Bool.false_eq_true, false_or]

end Card

namespace Catalog

/-! ## Catalogs -/

/-- The cards of items are theirs in order, one each.  By induction on the items; one that is no
    entry refuses them all. -/
theorem cards?_eq_some_iff {items : List Json} {cards : List Card} :
    cards? items = some cards ↔
      List.Forall₂ (fun item card => Card.ofEntry? item = some card) items cards := by
  rw [cards?]
  induction items generalizing cards with
  | nil =>
    rw [List.forall₂_nil_left_iff]
    exact Option.some_inj.trans eq_comm
  | cons item items ih =>
    simp only [List.mapM_cons, pure, bind_eq_some_iff, Option.some.injEq, ih,
      List.forall₂_cons_left_iff]
    constructor
    · rintro ⟨card, hcard, rest, hrest, rfl⟩
      exact ⟨card, rest, hcard, hrest, rfl⟩
    · rintro ⟨card, rest, hcard, hrest, rfl⟩
      exact ⟨card, hcard, rest, hrest, rfl⟩

/-- **A text is a catalog when it is one list of entries and nothing else.** The entries are read
    one by one, and the first that is none ends the reading with an error. -/
theorem ofText_eq_ok_iff {text : String} {cards : List Card} :
    ofText text = .ok cards ↔
      ∃ items, entries text.toList = ⟨items, none⟩ ∧ cards? items = some cards := by
  rw [ofText]
  constructor
  · intro h
    split at h
    · cases h
    rename_i found hfound
    split at h
    · cases h
    rename_i hproblem
    obtain rfl := Except.ok.inj h
    refine ⟨(entries text.toList).items, ?_, hfound⟩
    rw [← hproblem]
  · rintro ⟨items, hitems, hcards⟩
    simp only [hitems, hcards]
    rfl

/-- A catalog is loaded when its path can be read and the text is a catalog. -/
theorem load_eq_ok_iff {d : Directory} {path : String} {cards : List Card} :
    load d path = .ok cards ↔ ∃ text, d.read path.toList = .ok text ∧ ofText text = .ok cards := by
  rw [load]
  constructor
  · intro h
    split at h
    · cases h
    rename_i text htext
    split at h
    · cases h
    rename_i hcards
    obtain rfl := Except.ok.inj h
    exact ⟨text, htext, hcards⟩
  · rintro ⟨text, htext, hcards⟩
    simp only [htext, hcards]
    rfl

/-- **The cards of a catalog are those of its entries, in order**, and where an entry is an object
    with one name, a text, the card has this name exactly when each field of a printing record that
    the object has stands there once and is of its kind, or else the object holds a printing of that
    name. -/
theorem name_eq_iff_of_load {d : Directory} {path : String} {cards : List Card}
    (h : load d path = .ok cards) :
    ∃ text items, d.read path.toList = .ok text ∧ Json.read text.toList = .ok (.list items) ∧
      List.Forall₂ (fun item card => ∀ members n, item = .object members →
        membersNamed "name" members = [.text n] →
          (card.name = n ↔ IsRecord Printing.kinds item ∨ Card.heldName members = n)) items cards := by
  obtain ⟨text, htext, hcards⟩ := load_eq_ok_iff.mp h
  obtain ⟨items, hitems, hcards⟩ := ofText_eq_ok_iff.mp hcards
  refine ⟨text, items, htext, read_of_entries hitems, (cards?_eq_some_iff.mp hcards).imp ?_⟩
  rintro item card hcard members n rfl hname
  exact Card.name_eq_iff_of_ofEntry? hcard hname

/-! ## A single catalog -/

/-- A folder with a catalog of this text and nothing else. -/
def alone (text : String) : Directory where
  entries := [(["cards.json"], .file 0)]
  files := [(0, text.toUTF8)]

theorem read_alone (text : String) : (alone text).read "cards.json".toList = .ok text :=
  have hbytes : (alone text).readBytes "cards.json".toList = .ok text.toUTF8 := rfl
  Directory.read_of_bytes hbytes

theorem load_alone {text : String} {cards : List Card} (h : ofText text = .ok cards) :
    load (alone text) "cards.json" = .ok cards :=
  load_eq_ok_iff.mpr ⟨text, read_alone text, h⟩

/-! ## A printing that is lost -/

/-- A printing record whose mana value is a text. -/
def mistypedPrinting : Json := .object [("name", .text "Lightning Bolt"), ("cmc", .text "1")]

/-- The folder with a catalog of this record alone. -/
def mistypedCatalog : Directory :=
  alone "[\x7b\"name\":\"Lightning Bolt\",\"cmc\":\"1\"\x7d]"

/-- The text is read as one item, with both of its fields. -/
theorem entries_mistyped :
    entries "[\x7b\"name\":\"Lightning Bolt\",\"cmc\":\"1\"\x7d]".toList =
      ⟨[mistypedPrinting], none⟩ := by
  have hwritable : Writable id maxDepth (.list [mistypedPrinting]) := by
    refine .list fun item hitem => ?_
    obtain rfl := List.mem_singleton.mp hitem
    refine .object fun member hmember => ?_
    simp only [List.mem_cons, List.not_mem_nil, or_false] at hmember
    rcases hmember with rfl | rfl <;> exact .text _
  exact entries_write isBlank_compactSpacing hwritable 0

/-- It is read as a card record with a mana value of its own and without a printing, as a card
    takes its mana value from a text. -/
theorem load_mistyped :
    load mistypedCatalog "cards.json" = .ok [{ ownCmc := some (Number.ofNat 1) }] := by
  have hcard : Card.ofEntry? mistypedPrinting = some { ownCmc := some (Number.ofNat 1) } := by
    decide +kernel
  have hcards : cards? [mistypedPrinting] = some [{ ownCmc := some (Number.ofNat 1) }] :=
    cards?_eq_some_iff.mpr (.cons hcard .nil)
  exact load_alone (ofText_eq_ok_iff.mpr ⟨_, entries_mistyped, hcards⟩)

/-- The theorem says why: the mana value is of another kind than that of a printing, so the name
    counts for nothing. -/
theorem name_eq_iff_of_load_mistyped :
    load mistypedCatalog "cards.json" = .ok [{ ownCmc := some (Number.ofNat 1) }] ∧
      ∃ text items, mistypedCatalog.read "cards.json".toList = .ok text ∧
        Json.read text.toList = .ok (.list items) ∧
        List.Forall₂ (fun item card => ∀ members n, item = .object members →
          membersNamed "name" members = [.text n] →
            (card.name = n ↔ IsRecord Printing.kinds item ∨ Card.heldName members = n)) items
          [({ ownCmc := some (Number.ofNat 1) } : Card)] :=
  ⟨load_mistyped, name_eq_iff_of_load load_mistyped⟩

/-- **A catalog can be loaded although a printing in it is lost**: its only entry has a name, and the
    card has none. -/
theorem load_mistyped_printing :
    ∃ text members card, mistypedCatalog.read "cards.json".toList = .ok text ∧
      Json.read text.toList = .ok (.list [.object members]) ∧
      membersNamed "name" members = [.text "Lightning Bolt"] ∧
      load mistypedCatalog "cards.json" = .ok [card] ∧ card.name = "" :=
  ⟨_, _, _, read_alone _, read_of_entries entries_mistyped, rfl, load_mistyped, rfl⟩

end Catalog

end CardSearch
