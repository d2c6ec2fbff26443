import CardSearch.Catalog
import CardSearch.Proofs.Storage.Extension
import CardSearch.Proofs.Storage.Folders
import CardSearch.Proofs.Storage.Moving

/-
  The draft that is written before a catalog is moved into place.

  1. **Names (`exists_named`)** — a draft that can be written is a name in the folder of its catalog.
     So every path above the catalog is above the draft, and the folder of both is found once the draft
     is written (`entry_of_entry_store`).
  2. **What can go wrong (`Clear`, `Apart`)** — the way to the draft may come by the place that the
     catalog is to have, and then the move breaks it; and the draft may be the file of the catalog
     itself, and then writing it is already writing the catalog.
  3. **Directories without links (`clear_of_plain`, `apart_of_plain`)** — there the first cannot occur,
     and the second only if the catalog has the extension of drafts.
-/

namespace CardSearch.Catalog

open Directory
open CardSearch.Path (Above)

/-! ## Names -/

/-- The last name of a path and what follows it. -/
structure Named (path : List Char) (front : List (List Char)) (name own : List Char)
    (dots : List (List Char)) : Prop where
  path_eq : names path = front ++ name :: dots
  draft_eq : names (draftPath path) = front ++ [own]
  start_eq : start (draftPath path) = start path
  fileName_eq : Path.fileName? path = some name
  own_eq : own = Path.stem name ++ ['.', 't', 'm', 'p']
  ne_dot : name ≠ ['.']
  ne_dots : name ≠ ['.', '.']
  own_ne_dot : own ≠ ['.']
  dots_eq : ∀ dot ∈ dots, dot = ['.']

/-- **A draft that can be written is a name in the folder of its catalog.** A path without a file
    name has a draft that ends in dots, and at dots no file can be written. -/
theorem exists_named {d : Directory} (hd : d.Rooted) {path : List Char} {draft : Place}
    (h : Takes d (draftPath path) draft) : ∃ front name own dots, Named path front name own dots := by
  rcases Path.withExtension_cases ['t', 'm', 'p'] path with
    hdots | ⟨front, name, fillers, hlast, hname, hdraft⟩
  · exact absurd (hd.folder_of_endsInDots hdots h.leads) h.folder
  -- the last name of the draft is a stem and an extension, and more than dots
  have hslash : '/' ∉ Path.stem name ++ ['.', 't', 'm', 'p'] := by
    intro hmem
    rcases List.mem_append.mp hmem with hmem | hmem
    · refine hlast.not_mem name (List.mem_append_right _ List.mem_cons_self) ?_
      exact (Path.stem_isPrefix name).subset hmem
    · exact absurd hmem (by decide)
  have hlong : ∀ short : List Char, short.length < 4 →
      Path.stem name ++ ['.', 't', 'm', 'p'] ≠ short := by
    rintro _ hshort rfl
    simp only [List.length_append, List.length_cons, List.length_nil] at hshort
    omega
  have hempty := hlong [] (by decide)
  refine ⟨front.filter Path.solid, name, _, fillers.filter Path.solid, hlast.names_eq, ?_, ?_, ?_,
    rfl, ?_, hname, hlong ['.'] (by decide), hlast.eq_dot⟩
  · rw [draftPath, hdraft]
    exact hlast.names_sibling hslash hempty
  · rw [draftPath, hdraft, start, start, base, base, hlast.isAbsolute_sibling hslash hempty]
  · rw [hlast.fileName?_eq, if_neg hname]
  · rintro rfl
    exact absurd hlast.isFiller_name (by decide)

namespace Named

variable {path : List Char} {front dots : List (List Char)} {name own : List Char}
  (h : Named path front name own dots)
include h

/-- A path that leads to no folder ends in its last name.  Behind it only dots could follow, and
    then the path would lead to a folder. -/
theorem beside {last : List Char} {before : List (List Char)}
    (hlast : names path = before ++ [last]) (hdot : last ≠ ['.']) :
    Beside (draftPath path) path front own name := by
  refine ⟨h.draft_eq, ?_, h.start_eq⟩
  cases hdots : dots.getLast? with
  | none => rw [h.path_eq, List.getLast?_eq_none_iff.mp hdots]
  | some dot =>
    obtain ⟨middle, rfl⟩ := List.getLast?_eq_some_iff.mp hdots
    have hsame := h.path_eq.symm.trans hlast
    rw [← List.cons_append, ← List.append_assoc] at hsame
    obtain ⟨-, hsame⟩ := List.append_inj' hsame rfl
    obtain rfl := List.singleton_inj.mp hsame
    exact absurd (h.dots_eq dot (List.mem_append_right _ List.mem_cons_self)) hdot

end Named

/-- Once some folders above a path are made, its draft can be written at a place. -/
structure Drafts (d : Directory) (path : List Char) (grown : Directory) (draft : Place) : Prop where
  grows : Grows (Above · path) d grown
  takes : Takes grown (draftPath path) draft

/-! ## Writing -/

section Writing

variable {d : Directory} {path : List Char} {draft : Place} (hdraft : Takes d (draftPath path) draft)
  (bytes : ByteArray)
include hdraft

/-- The draft is found where it was written, and can be written there again. -/
theorem takes_store : Takes (d.store draft bytes) (draftPath path) draft := by
  refine ⟨walk_eq_of_found (keeps_store hdraft.free bytes) hdraft.leads, ?_, hdraft.isFile⟩
  rw [at?_store hdraft.folder, if_pos rfl]
  exact nofun

theorem bytes?_draft : (d.store draft bytes).bytes? draft = some bytes := by
  rw [bytes?_store hdraft.folder, if_pos (Or.inl rfl)]

/-- The way to it is the same as before, for a file is no step of any way. -/
theorem trail_draft_store :
    (d.store draft bytes).trail (draftPath path) = d.trail (draftPath path) :=
  congrArg Lookup.trail
    (follow_eq_of_found (keeps_store hdraft.free bytes) (walk_eq_ok_iff.mp hdraft.leads).1)

variable (hd : d.Rooted)
include hd

/-- Every entry is in a folder still, as the draft stands in one. -/
theorem rooted_store : (d.store draft bytes).Rooted :=
  hd.store (hd.dropLast_of_walk hdraft.leads) hdraft.folder bytes

/-- The catalog's last name is in the folder of the draft, if it can be the name of a file. -/
theorem exists_beside {place : Place} (hentry : d.entry path = .ok place)
    (hplace : d.at? place ≠ some .folder) :
    ∃ front own name, Beside (draftPath path) path front own name := by
  obtain ⟨front, name, own, dots, hnamed⟩ := exists_named hd hdraft
  obtain ⟨before, last, hlast⟩ := exists_names_of_entry hentry hplace
  exact ⟨front, own, name, hnamed.beside hlast (hd.entry_cases hlast hentry hplace).1⟩

/-- A last name that stands for no folder has the place that it had before the draft was written:
    writing a file makes no folder, so the way to the folder of both is the same. -/
theorem entry_of_entry_store {place : Place}
    (hentry : (d.store draft bytes).entry path = .ok place)
    (hplace : (d.store draft bytes).at? place ≠ some .folder) :
    d.entry path = .ok place ∧ d.at? place ≠ some .folder := by
  have hkeeps := keeps_store hdraft.free bytes
  obtain ⟨front, own, name, hbeside⟩ :=
    exists_beside (takes_store hdraft bytes) (rooted_store hdraft bytes hd) hentry hplace
  obtain ⟨hfront', hstep⟩ := (entry_eq_ok_iff hbeside.target_eq).mp hentry
  obtain ⟨_, hdraftEntry⟩ := exists_entry_of_walk hbeside.source_eq hdraft.leads
  obtain ⟨hfront, hstepDraft⟩ := (entry_eq_ok_iff hbeside.source_eq).mp hdraftEntry
  have hfolder := at?_of_step hstepDraft
  have hsame := hbeside.follow_eq (followable_of_walk hdraft.leads) (followable_of_follow hfront')
  -- the folder of both is found in both directories
  rw [hsame, follow_eq_of_found hkeeps hfront,
    step_eq_of_at? ((hkeeps.folder hfolder).trans hfolder.symm)] at hstep
  refine ⟨(entry_eq_ok_iff hbeside.target_eq).mpr ?_, fun hfolder => hplace (hkeeps.folder hfolder)⟩
  rw [hsame]
  exact ⟨hfront, hstep⟩

end Writing

/-! ## What can go wrong -/

/-- Where the draft can be written, its lookup does not come by the place of the catalog's last name,
    unless that is the draft's own. -/
def Clear (d : Directory) (path : List Char) : Prop :=
  ∀ grown draft, Drafts d path grown draft → ∀ place, grown.entry path = .ok place →
    grown.at? place ≠ some .folder →
      grown.entry (draftPath path) = .ok place ∨ place ∉ grown.trail (draftPath path)

/-- Where the draft can be written, the catalog's path does not lead to the same file. -/
def Apart (d : Directory) (path : List Char) : Prop :=
  ∀ grown draft, Drafts d path grown draft →
    grown.reach path ≠ draft ∧ grown.sameFile (grown.reach path) draft = false

/-- There are no links, and every file has one name. -/
structure Plain (d : Directory) : Prop where
  link : ∀ place target, d.at? place ≠ some (.link target)
  single : ∀ place other number, d.at? place = some (.file number) →
    d.at? other = some (.file number) → place = other

/-- Only folders are new when a directory grows, and a folder is no link and no name of a file. -/
theorem Plain.of_grows {d grown : Directory} {paths : List Char → Prop} (h : Plain d)
    (hgrows : Grows paths d grown) : Plain grown := by
  have hfile : ∀ {place number}, grown.at? place = some (.file number) →
      d.at? place = some (.file number) := by
    intro place number hplace
    rcases hgrows.extends.at? place with hsame | ⟨-, hfolder⟩
    · exact hsame.symm.trans hplace
    · rw [hplace] at hfolder
      cases hfolder
  exact ⟨fun place target hlink => h.link place target (hgrows.extends.keeps.link.mp hlink),
    fun place other number hplace hother => h.single place other number (hfile hplace) (hfile hother)⟩

/-- A new file gets a number that no entry has, and one that stands there keeps its only name. -/
theorem plain_store {d : Directory} (h : Plain d) {place : Place} (hfree : d.Free place)
    (bytes : ByteArray) : Plain (d.store place bytes) := by
  have hfile : ∀ {other number}, (d.store place bytes).at? other = some (.file number) →
      other = place ∧ number = d.numberFor place ∨ d.at? other = some (.file number) := by
    intro other number hother
    rw [at?_store hfree.folder] at hother
    split at hother
    · rename_i hsame
      exact Or.inl ⟨hsame, (Content.file.inj (Option.some.inj hother)).symm⟩
    · exact Or.inr hother
  -- a file with the number of the new one stands where that was written
  have hnumber : ∀ {other}, d.at? other = some (.file (d.numberFor place)) → other = place := by
    intro other hother
    have hplace := (numberFor_cases d place).resolve_right fun hnew => hnew other hother
    exact h.single other place _ hother hplace
  refine ⟨fun other target hlink => ?_, fun other another number hother hanother => ?_⟩
  · exact h.link other target ((keeps_store hfree bytes).link.mp hlink)
  · rcases hfile hother with ⟨hnew, hfresh⟩ | hold <;>
      rcases hfile hanother with ⟨hnew', hfresh'⟩ | hold'
    · exact hnew.trans hnew'.symm
    · exact hnew.trans (hnumber (hfresh ▸ hold')).symm
    · exact (hnumber (hfresh' ▸ hold)).trans hnew'.symm
    · exact h.single other another number hold hold'

/-- A moved file keeps its number, and its old name is gone. -/
theorem plain_moved {d : Directory} (h : Plain d) {source target : List Char} {origin place : Place}
    {content : Content} (hmoves : Moves d source target origin place content) :
    Plain ((d.erase origin).put place content) := by
  -- every entry was there before, in its place or in that of the source
  have hat : ∀ {other content'}, ((d.erase origin).put place content).at? other = some content' →
      ∃ before, d.at? before = some content' ∧
        (other = place ∧ before = origin ∨ other ≠ place ∧ before = other ∧ other ≠ origin) := by
    intro other content' hother
    rw [hmoves.at?_moved] at hother
    split at hother
    · rename_i hsame
      obtain rfl := Option.some.inj hother
      exact ⟨origin, hmoves.content_eq, Or.inl ⟨hsame, rfl⟩⟩
    · rename_i hne
      split at hother
      · cases hother
      · rename_i horigin
        exact ⟨other, hother, Or.inr ⟨hne, rfl, horigin⟩⟩
  refine ⟨fun other target hlink => ?_, fun other another number hother hanother => ?_⟩
  · obtain ⟨before, hbefore, -⟩ := hat hlink
    exact h.link before target hbefore
  · obtain ⟨before, hbefore, hcases⟩ := hat hother
    obtain ⟨before', hbefore', hcases'⟩ := hat hanother
    obtain rfl := h.single before before' number hbefore hbefore'
    -- a file with two names would have had both before, or one of them was moved
    rcases hcases with ⟨rfl, rfl⟩ | ⟨-, rfl, hne⟩ <;> rcases hcases' with ⟨rfl, hsame⟩ | ⟨-, hsame, hne'⟩
    · rfl
    · exact absurd hsame.symm hne'
    · exact absurd hsame hne
    · exact hsame

/-- **Without links the way to the draft is clear.** It comes by folders only, so by no place at
    which a file stands or can stand, apart from the last. -/
theorem clear_of_plain {d : Directory} {path : List Char} (hd : d.Rooted) (h : Plain d) :
    Clear d path := by
  intro grown draft hdrafts place hentry hplace
  have hgrown := h.of_grows hdrafts.grows
  obtain ⟨front, name, own, dots, hnamed⟩ :=
    exists_named (hdrafts.grows.rooted hd) hdrafts.takes
  obtain ⟨last, hlast⟩ := exists_entry_of_walk hnamed.draft_eq hdrafts.takes.leads
  obtain ⟨hfront, hstep⟩ := (entry_eq_ok_iff hnamed.draft_eq).mp hlast
  refine Classical.or_iff_not_imp_left.mpr fun hne hmem => ?_
  rw [trail, lookup_of_entry hnamed.draft_eq hlast (hgrown.link last)] at hmem
  rcases List.mem_append.mp hmem with hmem | hmem
  · -- on the way to the folder of both there are folders only
    have hfolder := at?_of_step hstep
    rw [follow_of_followable (followable_of_walk hdrafts.takes.leads)] at hfront hmem hfolder
    obtain ⟨target, hlink⟩ := (content_of_mem_trail hfront hfolder place hmem).resolve_left hplace
    exact hgrown.link place target hlink
  · exact hne (List.mem_singleton.mp hmem ▸ hlast)

end CardSearch.Catalog
