import CardSearch.Proofs.Card.Numbers
import CardSearch.Proofs.Card.Rereading
import CardSearch.Proofs.Catalog.History

/-
  Real numbers in catalogs.

  A number in a document is finite, but an override and the stats of a printing may be given by texts,
  and the reader of texts knows words for numbers that are not real.

  1. **Documents (`write_list_congr`, `write_rowWith_congr`)** — documents whose parts are written alike
     are written alike.
  2. **The crux (`Card.write_toJson`, `Card.ofEntry?_written`)** — an override that is not finite is
     written as `null`, so the text of a card is that of the card without it; and what is read of the
     text is that card with its numbers as they are read.
  3. **Catalogs (`reals_of_load`)** — which numbers of a catalog are real, and what a save leaves of it.
     One override can be lost (`override_lost`), and one can be changed, by the reader of documents
     (`override_changed`).
-/

namespace CardSearch

open Json Number

/-! ## Documents -/

namespace Json

/-- Members in a row are written in a row.  By induction on the first ones. -/
theorem writeMembers_append (sp : Spacing) (depth : Nat) (front back : List (String × Json)) :
    writeMembers sp depth (front ++ back) =
      writeMembers sp depth front ++ writeMembers sp depth back := by
  induction front with
  | nil => rfl
  | cons member front ih =>
    simp only [List.cons_append, writeMembers, ih, List.append_assoc]

/-- Items that are written alike, one by one, are written alike together.  By induction on the
    values. -/
theorem writeItems_congr {α : Type} {sp : Spacing} {depth : Nat} {f g : α → Json} {values : List α}
    (h : ∀ value ∈ values, write sp depth (f value) = write sp depth (g value)) :
    writeItems sp depth (values.map f) = writeItems sp depth (values.map g) := by
  induction values with
  | nil => rfl
  | cons value values ih =>
    obtain ⟨hvalue, hvalues⟩ := List.forall_mem_cons.mp h
    rw [List.map_cons, List.map_cons, writeItems, writeItems, hvalue, ih hvalues]

/-- Lists whose items are written alike are written alike, one step further in. -/
theorem write_list_congr {α : Type} {sp : Spacing} {depth : Nat} {f g : α → Json} {values : List α}
    (h : ∀ value ∈ values, write sp (depth + 1) (f value) = write sp (depth + 1) (g value)) :
    write sp depth (.list (values.map f)) = write sp depth (.list (values.map g)) := by
  cases values with
  | nil => rfl
  | cons value values =>
    obtain ⟨hvalue, hvalues⟩ := List.forall_mem_cons.mp h
    rw [List.map_cons, List.map_cons, write, write, hvalue, writeItems_congr hvalues]

end Json

/-- What is not finite has no numeral, and is written `null`. -/
theorem Number.json_of_not_finite {x : Number} (h : x.isFinite = false) :
    x.json = ['n', 'u', 'l', 'l'] := by
  cases x with
  | nan => rfl
  | signed negative rank =>
    have hinfinite : ¬ rank.val < infinityRank := of_decide_eq_false h
    have hzero : ¬ (rank.val == 0) = true := by
      intro hzero
      rw [beq_iff_eq.mp hzero] at hinfinite
      exact hinfinite (by decide)
    rw [Number.json, if_neg hzero, if_neg hinfinite]

/-! ## Cards -/

namespace Card

/-- A card without an override that is not finite. -/
def withoutUnreal (card : Card) : Card := { card with ownCmc := card.ownCmc.filter Number.isFinite }

/-- What is written for an override. -/
def override (x : Number) : Json := if x.isFinite then .real x else .null

/-- The document of a card as it is read back. -/
def written (card : Card) : Json := .object (slots (card.rowWith (card.ownCmc.map override)))

/-- An override is written as its number or as nothing, which is the same text. -/
theorem write_override (sp : Spacing) (depth : Nat) (x : Number) :
    write sp depth (.real x) = write sp depth (override x) := by
  rw [override]
  split
  · rfl
  · rename_i hinfinite
    exact json_of_not_finite (Bool.not_eq_true _ ▸ hinfinite)

/-- The mana value stands between what comes before it and what comes after, and neither depends
    on it. -/
theorem exists_slots_rowWith (card : Card) : ∃ front back, ∀ value : Json,
    slots (card.rowWith (some value)) =
      ("cardID", .text card.ownId) :: (front ++ ("cmc", value) :: back) :=
  ⟨slots (((card.rowWith none).drop 1).take 2), slots ((card.rowWith none).drop 4), fun value => by
    simp [rowWith, slots_cons, slots_nil]⟩

/-- The rows of a card are written alike if their mana values are, since nothing else in them
    differs. -/
theorem write_rowWith_congr {sp : Spacing} {depth : Nat} {f g : Number → Json} (card : Card)
    (h : ∀ x, write sp (depth + 1) (f x) = write sp (depth + 1) (g x)) :
    write sp depth (.object (slots (card.rowWith (card.ownCmc.map f)))) =
      write sp depth (.object (slots (card.rowWith (card.ownCmc.map g)))) := by
  cases card.ownCmc with
  | none => rfl
  | some x =>
    obtain ⟨front, back, hslots⟩ := card.exists_slots_rowWith
    rw [Option.map_some, Option.map_some, hslots, hslots, write, write, writeMembers_append,
      writeMembers_append, writeMembers, writeMembers, h]

/-- **A card is written as if it had no override that is not finite**: both are written `null`,
    which is what stands for none. -/
theorem write_toJson (sp : Spacing) (depth : Nat) (card : Card) :
    write sp depth card.toJson = write sp depth card.written := by
  rw [toJson_eq]
  exact write_rowWith_congr card (write_override sp (depth + 1))

/-- A card whose finite numbers are read as some numbers from what is written for them. -/
structure Reads (reads : Number → Number) (card : Card) : Prop where
  own : ∀ x, card.ownCmc = some x → x.isFinite = true → x.ReadsAs (reads x)
  cmc : ∀ p, card.printing = some p → p.cmc.ReadsAs (reads p.cmc)
  numbers : ∀ p, card.printing = some p → ∀ value ∈ p.optionalNumbers, ∀ x, value = some x →
    x.ReadsAs (reads x)

/-- A card whose finite numbers are read back from what is written for them. -/
structure Exact (card : Card) : Prop where
  own : ∀ x, card.ownCmc = some x → x.isFinite = true → x.ReadsBack
  cmc : ∀ p, card.printing = some p → p.cmc.ReadsBack
  numbers : ∀ p, card.printing = some p → ∀ value ∈ p.optionalNumbers, ∀ x, value = some x →
    x.ReadsBack

variable {card : Card} {reads : Number → Number}

theorem Exact.reads_same (h : card.Exact) : card.Reads fun x => x := ⟨h.own, h.cmc, h.numbers⟩

/-- The numbers in the document of such a card are read as they should be, at whatever depth they
    stand. -/
theorem Reads.writable (h : card.Reads reads) (hsound : ∀ p, card.printing = some p → p.Sound)
    (depth : Nat) : Writable reads (depth + 4) card.written := by
  refine writable_rowWith (writable_map_iff.mpr fun x hx => ?_) fun p hp =>
    ⟨(hsound p hp).cubeCount, (hsound p hp).pickCount, h.cmc p hp, h.numbers p hp⟩
  rw [override]
  split
  · rename_i hfinite
    exact .real (h.own x hx hfinite)
  · exact .null

/-- An override is read as some number if it is finite, and else there is none. -/
theorem optional_override (reads : Number → Number) (own : Option Number) :
    Json.optional lenientNumber? ((own.map override).map (mapReals reads)) =
      some (((own.filter Number.isFinite).map reads).map some) := by
  cases own with
  | none => rfl
  | some x =>
    rw [Option.map_some, override, Option.filter_some]
    split <;> rfl

/-- **What is read of a card** is the card without an override that is not finite, and with its
    numbers as they are read.  The printing in it is sound, so the document is no printing record
    of its own. -/
theorem ofEntry?_written (reads : Number → Number)
    (hsound : ∀ p, card.printing = some p → p.Sound) :
    Card.ofEntry? (mapReals reads card.written) = some (card.withoutUnreal.mapNumbers reads) := by
  have hlegalities : ∀ p, (card.mapNumbers reads).printing = some p →
      (p.legalities.map Prod.fst).Pairwise (· < ·) := by
    intro p hp
    obtain ⟨before, hbefore, rfl⟩ := Option.map_eq_some_iff.mp hp
    exact (hsound before hbefore).legalities
  have hjoin : (((card.ownCmc.filter Number.isFinite).map reads).map some).join =
      (card.ownCmc.filter Number.isFinite).map reads := by
    cases card.ownCmc.filter Number.isFinite <;> rfl
  rw [written, mapReals_rowWith,
    ofEntry?_rowWith (optional_override reads card.ownCmc) hlegalities, hjoin]
  rfl

/-- Nothing is lost exactly if the override is finite or there is none. -/
theorem withoutUnreal_eq_iff :
    card.withoutUnreal = card ↔ ∀ x, card.ownCmc = some x → x.isFinite = true := by
  constructor
  · intro h x hx
    have hown : card.ownCmc.filter Number.isFinite = card.ownCmc := congrArg ownCmc h
    exact (Option.filter_eq_some_iff.mp (hown.trans hx)).2
  · intro h
    have hown : card.ownCmc.filter Number.isFinite = card.ownCmc := by
      cases hx : card.ownCmc with
      | none => rfl
      | some x => exact Option.filter_some_pos (h x hx)
    rw [withoutUnreal, hown]

/-- An override is kept exactly if it is finite or there is none, where it is read as it is.
    Nothing is asked of the other numbers. -/
theorem ownCmc_withoutUnreal_eq_iff
    (h : ∀ x, card.ownCmc = some x → x.isFinite = true → reads x = x) :
    (card.withoutUnreal.mapNumbers reads).ownCmc = card.ownCmc ↔
      ∀ x, card.ownCmc = some x → x.isFinite = true := by
  have hown : (card.withoutUnreal.mapNumbers reads).ownCmc =
      (card.ownCmc.filter Number.isFinite).map reads := rfl
  rw [hown]
  cases hx : card.ownCmc with
  | none => simp
  | some x =>
    by_cases hfinite : x.isFinite = true
    · rw [Option.filter_some_pos hfinite, Option.map_some, h x hx hfinite]
      exact iff_of_true rfl fun y hy => Option.some.inj hy ▸ hfinite
    · rw [Option.filter_some_neg (Bool.not_eq_true _ ▸ hfinite)]
      exact iff_of_false nofun fun hall => hfinite (hall x rfl)

/-! ## Stats -/

/-- The numbers that are written as free text. -/
inductive Stat where
  | power
  | toughness
  | loyalty

namespace Stat

/-- The number of a card. -/
def number : Stat → Card → Option Number
  | .power => Card.power
  | .toughness => Card.toughness
  | .loyalty => Card.loyalty

/-- What is written for it. -/
def text? : Stat → Card → Option String
  | .power => fun card => card.printing.bind (·.power)
  | .toughness => fun card => card.printing.bind (·.toughness)
  | .loyalty => fun card => card.printing.bind (·.loyalty)

/-- **A stat is missing or finite unless it spells no real number.** The words for infinities and
    for no number, and numerals beyond the largest number, do. -/
theorem forall_isFinite_iff (stat : Stat) (card : Card) :
    (∀ x, stat.number card = some x → x.isFinite = true) ↔
      ∀ s, stat.text? card = some s → ¬ SpellsUnreal (Text.trim s.toList) := by
  cases stat with
  | power => exact forall_isFinite_stat_iff _
  | toughness => exact forall_isFinite_stat_iff _
  | loyalty =>
    rw [← show (∀ x, Card.stat (Stat.loyalty.text? card) = some x → x.isFinite = true) ↔ _ from
      forall_isFinite_stat_iff _]
    show (∀ x, (Card.stat (Stat.loyalty.text? card)).map Number.truncate = some x →
      x.isFinite = true) ↔ _
    cases Card.stat (Stat.loyalty.text? card) with
    | none => exact iff_of_true (fun _ hnone => nomatch hnone) fun _ hnone => nomatch hnone
    | some x => simp [isFinite_truncate]

end Stat

end Card

namespace Catalog

open Directory

/-! ## Catalogs -/

/-- **The text of cards is read back without the overrides that are not finite**, and with the
    numbers as they are read.  By the same round trip as for storable cards, with the numbers
    replaced. -/
theorem ofText_toText_of_reads {reads : Number → Number} {cards : List Card}
    (hsound : ∀ card ∈ cards, ∀ p, card.printing = some p → p.Sound)
    (h : ∀ card ∈ cards, card.Reads reads) :
    ofText (toText cards) = .ok (cards.map fun card => card.withoutUnreal.mapNumbers reads) := by
  have hwritable : Writable reads maxDepth (.list (cards.map Card.written)) := by
    refine .list fun item hitem => ?_
    obtain ⟨card, hcard, rfl⟩ := List.mem_map.mp hitem
    exact (h card hcard).writable (hsound card hcard) 122
  have hentries := entries_write_of_reads isBlank_prettySpacing hwritable 0
  refine ofText_eq_ok_iff.mpr ⟨(cards.map Card.written).map (mapReals reads), ?_, ?_⟩
  · rw [toText, pretty, String.toList_ofList, write_list_congr fun card _ => card.write_toJson _ 1]
    exact hentries
  · rw [List.map_map]
    refine cards?_eq_some_iff.mpr (List.forall₂_map_left_iff.mpr (List.forall₂_map_right_iff.mpr ?_))
    exact List.forall₂_same.mpr fun card hcard => Card.ofEntry?_written reads (hsound card hcard)

/-- What was saved is what is read, if the way to the draft was clear. -/
theorem read_of_save {d d' : Directory} {path : String} {cards : List Card} (hd : d.Rooted)
    (hclear : Clear d path.toList) (h : save d path cards = (d', none)) :
    d'.read path.toList = .ok (toText cards) :=
  (read_of_saved hd hclear (outcome_of_attempt (attempt_of_runSteps h))).1

/-- The entries of a catalog that is loaded, with their numbers in range: the reader of documents
    refuses a numeral that is too large, and has no words for others. -/
theorem exists_entries_of_load {d : Directory} {path : String} {cards : List Card}
    (h : load d path = .ok cards) :
    ∃ text items, d.read path.toList = .ok text ∧ Json.read text.toList = .ok (.list items) ∧
      List.Forall₂ (fun item card => item.InRange ∧ Card.ofEntry? item = some card) items cards := by
  obtain ⟨text, htext, hcards⟩ := load_eq_ok_iff.mp h
  obtain ⟨items, hitems, hcards⟩ := ofText_eq_ok_iff.mp hcards
  have hread := read_of_entries hitems
  have hrange : ∀ item ∈ items, item.InRange := by
    cases inRange_of_read hread with
    | list each => exact each
  exact ⟨text, items, htext, hread,
    (List.forall₂_and_left _ _).mpr ⟨hrange, cards?_eq_some_iff.mp hcards⟩⟩

/-- What is said of every pair is said of every card.  By induction on the pairs. -/
theorem forall_of_forall₂ {items : List Json} {cards : List Card} {R : Json → Card → Prop}
    {P : Card → Prop} (hR : ∀ item card, R item card → P card) (h : List.Forall₂ R items cards) :
    ∀ card ∈ cards, P card := by
  induction h with
  | nil => exact fun card hcard => absurd hcard List.not_mem_nil
  | cons hfirst _ ih => exact List.forall_mem_cons.mpr ⟨hR _ _ hfirst, ih⟩

/-- The cards of a catalog that is loaded have sound printings, as they were read of a document. -/
theorem sound_of_load {d : Directory} {path : String} {cards : List Card}
    (h : load d path = .ok cards) : ∀ card ∈ cards, ∀ p, card.printing = some p → p.Sound := by
  obtain ⟨_, _, -, -, hentries⟩ := exists_entries_of_load h
  exact forall_of_forall₂ (fun _ _ hentry => Card.sound_of_ofEntry? hentry.1 hentry.2) hentries

/-- **Which numbers of a catalog are real.**  For a catalog that is loaded:
    (1) the mana value of a card is finite unless its entry gives a text in its place that spells no
        real number;
    (2) a power, toughness or loyalty is missing or finite unless it is written so;
    (3) if the finite numbers of the cards are read back, then after a save the catalog has the same
        cards without the overrides that are not finite;
    (4) so a card keeps its override exactly if its mana value is finite.
    (5) If they are only read as some numbers, the cards come back with the numbers as they are read;
    (6) and then an override is kept exactly if the mana value is finite, if this override, where it
        is finite, is read back. -/
theorem reals_of_load {d : Directory} {path : String} {cards : List Card}
    (h : load d path = .ok cards) :
    (∃ text items, d.read path.toList = .ok text ∧ Json.read text.toList = .ok (.list items) ∧
      List.Forall₂ (fun item card => card.manaValue.isFinite = true ↔
        ∀ s, Card.overrideText? item = some s → ¬ SpellsUnreal (Text.trim s.toList)) items cards) ∧
    (∀ card ∈ cards, ∀ stat : Card.Stat,
      (∀ x, stat.number card = some x → x.isFinite = true) ↔
        ∀ s, stat.text? card = some s → ¬ SpellsUnreal (Text.trim s.toList)) ∧
    (∀ d', d.Rooted → Clear d path.toList → save d path cards = (d', none) →
      (∀ card ∈ cards, card.Exact) → load d' path = .ok (cards.map Card.withoutUnreal)) ∧
    (∀ card ∈ cards, card.withoutUnreal = card ↔ card.manaValue.isFinite = true) ∧
    (∀ d' reads, d.Rooted → Clear d path.toList → save d path cards = (d', none) →
      (∀ card ∈ cards, card.Reads reads) →
        load d' path = .ok (cards.map fun card => card.withoutUnreal.mapNumbers reads)) ∧
    ∀ card ∈ cards, ∀ reads : Number → Number,
      (∀ x, card.ownCmc = some x → x.isFinite = true → reads x = x) →
        ((card.withoutUnreal.mapNumbers reads).ownCmc = card.ownCmc ↔
          card.manaValue.isFinite = true) := by
  obtain ⟨text, items, htext, hread, hentries⟩ := exists_entries_of_load h
  have hsound := sound_of_load h
  have hsaved : ∀ d' reads, d.Rooted → Clear d path.toList → save d path cards = (d', none) →
      (∀ card ∈ cards, card.Reads reads) →
        load d' path = .ok (cards.map fun card => card.withoutUnreal.mapNumbers reads) :=
    fun d' reads hd hclear hsave hreads =>
      load_eq_ok_iff.mpr ⟨_, read_of_save hd hclear hsave, ofText_toText_of_reads hsound hreads⟩
  refine ⟨⟨text, items, htext, hread, hentries.imp ?_⟩, ?_, ?_, ?_, hsaved, ?_⟩
  · rintro item card ⟨hrange, hcard⟩
    rw [Card.isFinite_manaValue_iff (Card.sound_of_ofEntry? hrange hcard)]
    exact Card.forall_isFinite_ownCmc_iff hrange hcard
  · exact fun card _ stat => stat.forall_isFinite_iff card
  · intro d' hd hclear hsave hexact
    rw [hsaved d' id hd hclear hsave fun card hcard => (hexact card hcard).reads_same]
    simp only [mapNumbers_id]
  · intro card hcard
    rw [Card.isFinite_manaValue_iff (hsound card hcard), Card.withoutUnreal_eq_iff]
  · intro card hcard reads hreads
    rw [Card.isFinite_manaValue_iff (hsound card hcard), Card.ownCmc_withoutUnreal_eq_iff hreads]

/-! ## Examples of catalogs -/

theorem rooted_alone (text : String) : (alone text).Rooted := by
  have hnone : ({ files := [(0, text.toUTF8)] } : Directory).at? ["cards.json"] = none := rfl
  have hempty : ({ files := [(0, text.toUTF8)] } : Directory).Rooted := rooted_empty
  exact hempty.put rfl (ne_folder_of_none hnone) (.file 0)

theorem plain_alone (text : String) : Plain (alone text) := by
  have hfree : ({} : Directory).Free ["cards.json"] := free_of_none rfl
  have hstored := plain_store plain_empty hfree text.toUTF8
  exact ⟨hstored.link, hstored.single⟩

theorem clear_alone (text : String) (path : List Char) : Clear (alone text) path :=
  clear_of_plain (rooted_alone text) (plain_alone text)

/-- A save of this catalog succeeds. -/
theorem save_alone (text : String) (cards : List Card) :
    save (alone text) "cards.json" cards = ((save (alone text) "cards.json" cards).1, none) := by
  have hsteps : saveSteps "cards.json" cards = [.makeFolders [],
      .write "cards.tmp".toList (toText cards), .move "cards.tmp".toList "cards.json".toList] := rfl
  rw [save, hsteps]
  generalize toText cards = draft
  rfl

theorem load_forest : load (alone (toText [forest])) "cards.json" = .ok [forest] :=
  load_alone (ofText_toText (by simp [storable_forest]))

theorem exact_forest : forest.Exact where
  own _ hx _ := storable_forest.cmc _ hx
  cmc p hp := (storable_forest.printing p hp).cmc
  numbers p hp := (storable_forest.printing p hp).numbers

/-- A catalog with a finite override, which is there after a save: both the theorem and its side
    conditions hold of it. -/
theorem reals_of_load_forest :
    load (alone (toText [forest])) "cards.json" = .ok [forest] ∧
      forest.manaValue.isFinite = true ∧
      ∃ d', save (alone (toText [forest])) "cards.json" [forest] = (d', none) ∧
        load d' "cards.json" = .ok [forest] := by
  obtain ⟨-, -, hsaves, hkept, -⟩ := reals_of_load load_forest
  have hfinite : forest.manaValue.isFinite = true := by decide +kernel
  have hforest : forest.withoutUnreal = forest := (hkept forest List.mem_cons_self).mpr hfinite
  have hsave := save_alone (toText [forest]) [forest]
  have hload := hsaves _ (rooted_alone _) (clear_alone _ _) hsave (by simp [exact_forest])
  rw [List.map_singleton, hforest] at hload
  exact ⟨load_forest, hfinite, _, hsave, hload⟩

/-! ## An override that is lost -/

/-- A card record whose numbers are words. -/
def unrealEntry : Json :=
  .object [("cmc", .text "inf"),
    ("details", .object [("name", .text "Forest"), ("power", .text "nan")])]

/-- The text of a catalog of this record alone. -/
def unrealText : String :=
  "[\x7b\"cmc\":\"inf\",\"details\":\x7b\"name\":\"Forest\",\"power\":\"nan\"\x7d\x7d]"

/-- The folder with this catalog. -/
def unrealCatalog : Directory := alone unrealText

/-- The card of the record. -/
def unrealCard : Card where
  ownCmc := some (infinity false)
  printing := some { name := "Forest", power := some "nan" }

/-- The record is read with an infinite mana value and a power that is no number. -/
theorem load_unreal : load unrealCatalog "cards.json" = .ok [unrealCard] := by
  have hwritable : Writable id maxDepth (.list [unrealEntry]) := by
    refine .list fun item hitem => ?_
    obtain rfl := List.mem_singleton.mp hitem
    refine .object fun member hmember => ?_
    simp only [List.mem_cons, List.not_mem_nil, or_false] at hmember
    rcases hmember with rfl | rfl
    · exact .text _
    · refine .object fun member hmember => ?_
      simp only [List.mem_cons, List.not_mem_nil, or_false] at hmember
      rcases hmember with rfl | rfl <;> exact .text _
  have hcard : Card.ofEntry? unrealEntry = some unrealCard := by decide +kernel
  exact load_alone (ofText_eq_ok_iff.mpr
    ⟨_, entries_write isBlank_compactSpacing hwritable 0, cards?_eq_some_iff.mpr (.cons hcard .nil)⟩)

/-- The mana value that a printing has by default is written `0.0` and read as nothing again. -/
theorem readsBack_zero : Number.zero.ReadsBack := by
  have hjson : Number.zero.json = ['0', '.', '0'] := by decide +kernel
  refine Json.readsAs_of_leaves hjson (by decide) (Json.leaves_readNumeral_iff.mpr ?_)
  refine ⟨rfl, some ['0'], [], none, ⟨by decide, rfl⟩, ⟨by decide, rfl⟩, ?_⟩
  have hscaled : Json.scaled? 0 (-1) = some 0 := by
    rw [Json.scaled?, if_pos (by decide), Json.scaleDown, if_pos (by decide)]
    decide +kernel
  change (Json.scaled? 0 (-1)).map (fun rank => Json.real (Number.ofRank false rank)) = _
  rw [hscaled]
  rfl

/-- **A catalog can be loaded with numbers that are not real**: the mana value of its card is
    infinite and the power is no number, and after a save the override is gone. -/
theorem override_lost :
    load unrealCatalog "cards.json" = .ok [unrealCard] ∧
      unrealCard.manaValue = infinity false ∧ unrealCard.power = some .nan ∧
      ∃ d', save unrealCatalog "cards.json" [unrealCard] = (d', none) ∧
        load d' "cards.json" = .ok [{ unrealCard with ownCmc := none }] := by
  have hreads : unrealCard.Reads fun x => x := by
    refine ⟨fun x hx hfinite => ?_, fun p hp => ?_, fun p hp => ?_⟩
    · obtain rfl := Option.some.inj hx
      exact absurd hfinite (by decide)
    · obtain rfl := Option.some.inj hp
      exact readsBack_zero
    · obtain rfl := Option.some.inj hp
      simp [Printing.optionalNumbers]
  have hsave := save_alone unrealText [unrealCard]
  refine ⟨load_unreal, by decide +kernel, by decide +kernel, _, hsave, ?_⟩
  refine load_eq_ok_iff.mpr ⟨_, read_of_save (rooted_alone _) (clear_alone _ _) hsave, ?_⟩
  exact ofText_toText_of_reads (sound_of_load load_unreal) (List.forall_mem_singleton.mpr hreads)

/-! ## An override that is changed -/

/-- The number that the text `1.4000000000000001` spells. -/
def justAbove : Number := .ofRank false 4608983858650965607

/-- The one that is read of the same numeral in a document. -/
def fourteenTenths : Number := .ofRank false 4608983858650965606

/-- The numeral is read of a document as the number below: its coefficient is rounded before it
    is divided. -/
theorem readsAs_fourteenTenths : justAbove.ReadsAs fourteenTenths := by
  have hjson : justAbove.json = "1.4000000000000001".toList := by decide +kernel
  refine Json.readsAs_of_leaves hjson (by decide) (Json.leaves_readNumeral_iff.mpr ?_)
  refine ⟨rfl, some "4000000000000001".toList, [], none, ⟨by decide, rfl⟩, ⟨by decide, rfl⟩, ?_⟩
  -- the coefficient fits, but not as a number, and is rounded to that of the lesser one
  have hscaled : Json.scaled? 14000000000000001 (-16) = some 4608983858650965606 := by
    rw [Json.scaled?, if_pos (by decide), Json.scaleDown, if_pos (by decide)]
    decide +kernel
  change (Json.scaled? 14000000000000001 (-16)).map
    (fun rank => Json.real (Number.ofRank false rank)) = _
  rw [hscaled]
  rfl

/-- A card record whose mana value is given by a text. -/
def changedEntry : Json := .object [("cmc", .text "1.4000000000000001")]

/-- The text of a catalog of this record alone. -/
def changedText : String := "[\x7b\"cmc\":\"1.4000000000000001\"\x7d]"

/-- The card of the record. -/
def changedCard : Card where
  ownCmc := some justAbove

/-- Of a text the same numeral is read exactly. -/
theorem load_changed : load (alone changedText) "cards.json" = .ok [changedCard] := by
  have hwritable : Writable id maxDepth (.list [changedEntry]) := by
    refine .list fun item hitem => ?_
    obtain rfl := List.mem_singleton.mp hitem
    refine .object fun member hmember => ?_
    obtain rfl := List.mem_singleton.mp hmember
    exact .text _
  have hcard : Card.ofEntry? changedEntry = some changedCard := by decide +kernel
  exact load_alone (ofText_eq_ok_iff.mpr
    ⟨_, entries_write isBlank_compactSpacing hwritable 0, cards?_eq_some_iff.mpr (.cons hcard .nil)⟩)

/-- **A finite override can be changed by a save**: its numeral is read of a text exactly, and of a
    document not. -/
theorem override_changed :
    load (alone changedText) "cards.json" = .ok [changedCard] ∧
      changedCard.manaValue.isFinite = true ∧
      ∃ d', save (alone changedText) "cards.json" [changedCard] = (d', none) ∧
        load d' "cards.json" = .ok [{ changedCard with ownCmc := some fourteenTenths }] ∧
        fourteenTenths ≠ justAbove := by
  have hnone : ∀ p, changedCard.printing ≠ some p := by
    have hprinting : changedCard.printing = none := rfl
    simp [hprinting]
  -- the override is the only number of the card
  have hreads : changedCard.Reads fun _ => fourteenTenths := by
    refine ⟨fun x hx _ => ?_, fun p hp => absurd hp (hnone p), fun p hp => absurd hp (hnone p)⟩
    obtain rfl := Option.some.inj hx
    exact readsAs_fourteenTenths
  have hown : changedCard.ownCmc.filter Number.isFinite = some justAbove :=
    Option.filter_some_pos (by decide +kernel)
  have hread : changedCard.withoutUnreal.mapNumbers (fun _ => fourteenTenths) =
      { changedCard with ownCmc := some fourteenTenths } := by
    rw [Card.withoutUnreal, hown]
    rfl
  have htext := ofText_toText_of_reads (sound_of_load load_changed)
    (List.forall_mem_singleton.mpr hreads)
  rw [List.map_singleton, hread] at htext
  have hsave := save_alone changedText [changedCard]
  refine ⟨load_changed, by decide +kernel, _, hsave, ?_, by decide +kernel⟩
  exact load_eq_ok_iff.mpr ⟨_, read_of_save (rooted_alone _) (clear_alone _ _) hsave, htext⟩

end Catalog

end CardSearch
