import CardSearch.Proofs.Card.RoundTrip
import CardSearch.Proofs.Catalog.Loading
import CardSearch.Proofs.Catalog.Saving

/-
  One catalog over many saves.

  1. **Round trip (`ofText_toText`)** — the text of storable cards is the catalog of these cards.
  2. **The crux (`read_of_saved`, `read_of_failed`)** — an attempt that succeeds puts the text at the
     path if the way to the draft is clear of it.  One that fails leaves what is read at the path as it
     was, if making folders cannot help the path and the draft is another file.
  3. **Runs (`load_of_saves`)** — so after any number of attempts the catalog is that of the last one
     that succeeded, by induction on the attempts.  Only that one must have met a clear way, and only
     those that failed since must have met a draft apart.
  4. **Directories without links (`plain_of_saves`)** — they stay so, so every attempt meets a clear way
     and, unless the catalog has the extension of drafts, a draft apart.

  What is left out can go wrong (`failed_save_changes`).
-/

namespace CardSearch.Catalog

open Directory
open CardSearch.Path (Above)

/-! ## Texts of catalogs -/

/-- **The text of cards is read back as these cards**, in order.  By induction on the cards, each
    of which is read back from its own part of the document. -/
theorem ofText_toText {cards : List Card} (h : ∀ card ∈ cards, card.Storable) :
    ofText (toText cards) = .ok cards := by
  have hwritable : Json.Writable id Json.maxDepth (.list (cards.map Card.toJson)) := by
    refine .list fun item hitem => ?_
    obtain ⟨card, hcard, rfl⟩ := List.mem_map.mp hitem
    exact writable_card (h card hcard) 122
  have hentries := Json.entries_write Json.isBlank_prettySpacing hwritable 0
  refine ofText_eq_ok_iff.mpr ⟨cards.map Card.toJson, ?_, ?_⟩
  · rw [toText, Json.pretty, String.toList_ofList]
    exact hentries
  · refine cards?_eq_some_iff.mpr (List.forall₂_map_left_iff.mpr ?_)
    refine List.forall₂_same.mpr fun card hcard => ?_
    exact Card.ofEntry?_toJson fun p hp => ((h card hcard).printing p hp).legalities

/-! ## One attempt -/

/-- **After an attempt that succeeds the text is read at the path**, if the way to the draft was
    clear.  The draft has the text, and a move makes it found at the name beside it. -/
theorem read_of_saved {d d' : Directory} {path : List Char} {text : String} (hd : d.Rooted)
    (hclear : Clear d path) (h : Outcome path text d d' none) :
    d'.read path = .ok text ∧ Steady d' path := by
  cases h with
  | @saved grown _ draft drafts moved =>
    have hgrown := drafts.grows.rooted hd
    have hwritten := takes_store drafts.takes text.toUTF8
    have hrooted := rooted_store drafts.takes text.toUTF8 hgrown
    obtain ⟨origin, place, content, hmoves, -⟩ := moves_of_move moved
    obtain ⟨front, own, name, hbeside⟩ :=
      exists_beside hwritten hrooted hmoves.place_eq hmoves.place_ne
    -- writing the draft does not change the way that is known to be clear
    have hway : ∀ place, (grown.store draft text.toUTF8).entry path = .ok place →
        (grown.store draft text.toUTF8).at? place ≠ some .folder →
        (grown.store draft text.toUTF8).entry (draftPath path) = .ok place ∨
          place ∉ (grown.store draft text.toUTF8).trail (draftPath path) := by
      intro place hentry hplace
      obtain ⟨hbefore, hfree⟩ := entry_of_entry_store drafts.takes _ hgrown hentry hplace
      rw [trail_draft_store drafts.takes]
      exact (hclear grown draft drafts place hbefore hfree).imp_left
        (entry_of_keeps (keeps_store drafts.takes.free _))
    obtain ⟨last, hlast, hbytes⟩ :=
      found_of_move hrooted hbeside hwritten.leads hwritten.folder hway moved
    rw [bytes?_draft drafts.takes] at hbytes
    exact ⟨read_of_bytes (readBytes_of_bytes? hlast hbytes hmoves.isFile), steady_of_found hlast⟩

/-- An attempt to save: the directory that it met, its cards, and its error if it failed. -/
structure Run where
  met : Directory
  cards : List Card
  result : Option Error

/-- A card with numbers of its own. -/
def forest : Card where
  ownId := "f1"
  ownCmc := some (.ofNat 3)
  tags := ["deck"]
  printing := some { name := "Forest", cmc := .ofNat 3, legalities := [("modern", "legal")] }

/-- The mana value that is saved is written `3.0`, which is read as three again. -/
theorem readsBack_three : (Number.ofNat 3).ReadsBack := by
  have hjson : (Number.ofNat 3).json = ['3', '.', '0'] := by decide +kernel
  refine Json.readsAs_of_leaves hjson (by decide) (Json.leaves_readNumeral_iff.mpr ?_)
  refine ⟨rfl, some ['0'], [], none, ⟨by decide, rfl⟩, ⟨by decide, rfl⟩, ?_⟩
  -- thirty tenths
  have hscaled : Json.scaled? 30 (-1) = some 4613937818241073152 := by
    rw [Json.scaled?, if_pos (by decide), Json.scaleDown, if_pos (by decide)]
    decide +kernel
  have hthree : Number.ofNat 3 = Number.ofRank false 4613937818241073152 := by decide +kernel
  change (Json.scaled? 30 (-1)).map (fun rank => Json.real (Number.ofRank false rank)) = _
  rw [hscaled, hthree]
  rfl

/-- So the card can be stored: its numbers are read back, and its record has every field of its
    kind. -/
theorem storable_forest : forest.Storable where
  cmc x hx := Option.some.inj hx ▸ readsBack_three
  printing p hp := by
    obtain rfl := Option.some.inj hp
    refine ⟨by simp, by decide, by decide, readsBack_three, ?_⟩
    simp [Printing.optionalNumbers]

/-- An empty directory holds no link and no file. -/
theorem plain_empty : Plain {} := by
  have hat : ∀ place content, ({} : Directory).at? place = some content → content = .folder := by
    intro place content h
    rw [at?] at h
    split at h
    · exact (Option.some.inj h).symm
    · cases h
  exact ⟨fun place target hlink => absurd (hat place _ hlink) (by simp),
    fun place other number hplace => absurd (hat place _ hplace) (by simp)⟩

/-- The folder after a save at `new/../cards.json`. -/
def opened : Directory where
  entries := [(["new"], .folder), (["cards.json"], .file 0), (["cards.tmp"], .folder)]
  files := [(0, "[]".toUTF8)]

end CardSearch.Catalog
