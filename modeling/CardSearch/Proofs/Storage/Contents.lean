import CardSearch.Storage.Directory

/-
  What stands where after a change at one place, and what the files hold.

  1. **Places (`at?_put`, `at?_erase`)** — a change at a place that is no folder is seen there only.
  2. **Numbers (`lt_fresh`, `numberFor_cases`)** — a file that is written keeps its number if it has
     one, and gets a number that no file has if it is new.
  3. **The crux (`bytes?_store`)** — so what is stored at a place is found there and under all other
     names of that file, and every other file keeps its bytes.
  4. **Trees (`Rooted`)** — everything stands in a folder, before and after.
-/

namespace CardSearch.Directory

/-! ## Places -/

/-- What is no folder is neither the working directory nor the root, which always are. -/
theorem at?_root_or {d : Directory} {place : Place} (h : d.at? place ≠ some .folder) :
    ¬ (place == [] || place == root) = true := by
  intro hroot
  exact h (by rw [at?, if_pos hroot])

/-- **What is put at a place is found there**, and elsewhere what was there before.  The two
    places that are always folders cannot be changed, so the place must be another one. -/
theorem at?_put {d : Directory} {place : Place} (h : d.at? place ≠ some .folder)
    (content : Content) (other : Place) :
    (d.put place content).at? other = if other = place then some content else d.at? other := by
  by_cases hsame : other = place
  · rw [if_pos hsame, hsame, at?_put_self (at?_root_or h)]
  · rw [if_neg hsame, at?_put_of_ne hsame]

/-- Likewise for what is taken away: it is gone from that place, and from no other. -/
theorem at?_erase {d : Directory} {place : Place} (h : d.at? place ≠ some .folder) (other : Place) :
    (d.erase place).at? other = if other = place then none else d.at? other := by
  by_cases hsame : other = place
  · subst hsame
    rw [if_pos rfl, at?, if_neg (at?_root_or h), erase]
    refine List.lookup_eq_none_iff.mpr fun entry hentry => ?_
    have hother : entry.1 ≠ other := bne_iff_ne.mp (List.mem_filter.mp hentry).2
    exact bne_iff_ne.mpr hother.symm
  · rw [if_neg hsame, at?_erase_of_ne hsame]

/-! ## Numbers -/

/-- What stands somewhere and is no folder is an entry of the directory. -/
theorem exists_entry_of_at? {d : Directory} {place : Place} {content : Content}
    (h : d.at? place = some content) (hfolder : content ≠ .folder) :
    (place, content) ∈ d.entries := by
  rw [at?] at h
  split at h
  · exact absurd (Option.some.inj h).symm hfolder
  · obtain ⟨before, after, hentries, -⟩ := List.lookup_eq_some_iff.mp h
    rw [hentries]
    exact List.mem_append_right _ List.mem_cons_self

/-- The number of every file is below the fresh one, which was taken above all of them. -/
theorem lt_fresh {d : Directory} {place : Place} {number : Nat}
    (h : d.at? place = some (.file number)) : number < d.fresh := by
  have hmem := exists_entry_of_at? h nofun
  rw [fresh]
  generalize d.entries = entries at hmem
  induction entries with
  | nil => cases hmem
  | cons entry rest ih =>
    rw [List.foldr_cons]
    rcases List.mem_cons.mp hmem with rfl | hmem
    · exact Nat.lt_of_lt_of_le (Nat.lt_succ_self _) (Nat.le_max_right _ _)
    · have hrest := ih hmem
      split
      · exact Nat.lt_of_lt_of_le hrest (Nat.le_max_left _ _)
      · exact hrest

theorem numberFor_of_file {d : Directory} {place : Place} {number : Nat}
    (h : d.at? place = some (.file number)) : d.numberFor place = number := by
  rw [numberFor, h]

/-- **A file that is written has a number already, or gets one that no file has.** So to write a
    new file changes no other. -/
theorem numberFor_cases (d : Directory) (place : Place) :
    d.at? place = some (.file (d.numberFor place)) ∨
      ∀ other, d.at? other ≠ some (.file (d.numberFor place)) := by
  rw [numberFor]
  split
  · rename_i hfile
    exact Or.inl hfile
  · exact Or.inr fun other hother => Nat.lt_irrefl _ (lt_fresh hother)

/-! ## Files -/

/-- Filling a file changes its own bytes only. -/
theorem bytesOf_fill (d : Directory) (number : Nat) (bytes : ByteArray) (other : Nat) :
    (d.fill number bytes).bytesOf other = if other = number then bytes else d.bytesOf other := by
  rw [bytesOf, bytesOf, fill, List.lookup_cons]
  by_cases hsame : other = number
  · subst hsame
    rw [if_pos rfl, beq_self_eq_true]
    rfl
  · rw [if_neg hsame, beq_eq_false_iff_ne.mpr hsame]
    simp only
    congr 1
    induction d.files with
    | nil => rfl
    | cons file rest ih =>
      by_cases hfile : file.1 = number
      · have hother : (other == file.1) = false := beq_eq_false_iff_ne.mpr (hfile ▸ hsame)
        rw [List.filter_cons_of_neg (by simp [hfile]), List.lookup_cons, hother, ih]
      · rw [List.filter_cons_of_pos (by simp [hfile]), List.lookup_cons, List.lookup_cons, ih]

@[simp] theorem at?_fill (d : Directory) (number : Nat) (bytes : ByteArray) :
    (d.fill number bytes).at? = d.at? := rfl

@[simp] theorem bytesOf_put (d : Directory) (place : Place) (content : Content) :
    (d.put place content).bytesOf = d.bytesOf := rfl

/-- be it that something new stands there or that nothing does any more. -/
@[simp] theorem bytesOf_erase (d : Directory) (place : Place) :
    (d.erase place).bytesOf = d.bytesOf := rfl

theorem bytes?_of_file {d : Directory} {place : Place} {number : Nat}
    (h : d.at? place = some (.file number)) : d.bytes? place = some (d.bytesOf number) := by
  rw [bytes?, h]

/-- Only files have bytes. -/
theorem bytes?_eq_some_iff {d : Directory} {place : Place} {bytes : ByteArray} :
    d.bytes? place = some bytes ↔
      ∃ number, d.at? place = some (.file number) ∧ d.bytesOf number = bytes := by
  rw [bytes?]
  constructor
  · intro h
    split at h
    · rename_i number hfile
      exact ⟨number, hfile, Option.some.inj h⟩
    · cases h
  · rintro ⟨number, hfile, rfl⟩
    rw [hfile]

/-- Two places are names of one file if the same number stands at both. -/
theorem sameFile_iff {d : Directory} {place other : Place} :
    d.sameFile place other = true ↔
      ∃ number, d.at? place = some (.file number) ∧ d.at? other = some (.file number) := by
  rw [sameFile]
  constructor
  · intro h
    split at h
    · rename_i number same hplace hother
      exact ⟨number, hplace, by rw [hother, ← beq_iff_eq.mp h]⟩
    · cases h
  · rintro ⟨number, hplace, hother⟩
    rw [hplace, hother]
    exact beq_self_eq_true number

section Store

variable {d : Directory} {place : Place} (h : d.at? place ≠ some .folder) (bytes : ByteArray)
include h

/-- After a file was stored the file stands at its place, and elsewhere what stood there before. -/
theorem at?_store (other : Place) :
    (d.store place bytes).at? other =
      if other = place then some (.file (d.numberFor place)) else d.at? other :=
  at?_put h _ other

omit h in
theorem bytesOf_store (number : Nat) :
    (d.store place bytes).bytesOf number =
      if number = d.numberFor place then bytes else d.bytesOf number :=
  bytesOf_fill _ _ _ number

/-- **What is stored at a place is found under all names of the file**, and only there.  If the
    file is new, its number is fresh and it has no other name. -/
theorem bytes?_store (other : Place) :
    (d.store place bytes).bytes? other =
      if other = place ∨ d.sameFile other place = true then some bytes else d.bytes? other := by
  rw [bytes?, at?_store h]
  by_cases hsame : other = place
  · rw [if_pos hsame, if_pos (Or.inl hsame)]
    exact congrArg some ((bytesOf_store bytes _).trans (if_pos rfl))
  rw [if_neg hsame, bytes?]
  cases hother : d.at? other with
  | none => simp [hsame, sameFile, hother]
  | some content =>
    cases content with
    | folder | link => simp [hsame, sameFile, hother]
    | file number =>
      simp only [bytesOf_store, hsame, false_or]
      by_cases hnumber : number = d.numberFor place
      · -- a number in use is that of the file at the place
        subst hnumber
        have hplace := (numberFor_cases d place).resolve_right fun hfree => hfree other hother
        rw [if_pos rfl, if_pos (sameFile_iff.mpr ⟨_, hother, hplace⟩)]
      · rw [if_neg hnumber, if_neg]
        rw [sameFile_iff]
        rintro ⟨same, hfile, hplace⟩
        obtain rfl := Content.file.inj (Option.some.inj (hother.symm.trans hfile))
        exact hnumber (numberFor_of_file hplace).symm

end Store

/-! ## Trees -/

/-- Everything stands in a folder. -/
def Rooted (d : Directory) : Prop :=
  ∀ place, (d.at? place).isSome → d.at? place.dropLast = some .folder

theorem Rooted.dropLast {d : Directory} (hd : d.Rooted) {place : Place} {content : Content}
    (h : d.at? place = some content) : d.at? place.dropLast = some .folder :=
  hd place (by rw [h]; rfl)

/-- Nothing stands in the empty directory but the two places that are always there, and these are
    in folders. -/
theorem rooted_empty : ({} : Directory).Rooted := by
  intro place hplace
  rw [at?] at hplace
  split at hplace
  · rename_i htop
    simp only [Bool.or_eq_true, beq_iff_eq] at htop
    rcases htop with rfl | rfl <;> rfl
  · cases hplace

/-- Everything still stands in a folder when something is put into one, unless a folder is
    replaced by it. -/
theorem Rooted.put {d : Directory} (hd : d.Rooted) {place : Place}
    (hfolder : d.at? place.dropLast = some .folder) (h : d.at? place ≠ some .folder)
    (content : Content) : (d.put place content).Rooted := by
  have hkeeps : ∀ other, d.at? other = some .folder →
      (d.put place content).at? other = some .folder := by
    intro other hother
    rw [at?_put h, if_neg, hother]
    rintro rfl
    exact h hother
  intro other hother
  rw [at?_put h] at hother
  by_cases hsame : other = place
  · rw [hsame]
    exact hkeeps _ hfolder
  · rw [if_neg hsame] at hother
    exact hkeeps _ (hd other hother)

/-- So it does when something is taken away that is no folder. -/
theorem Rooted.erase {d : Directory} (hd : d.Rooted) {place : Place}
    (h : d.at? place ≠ some .folder) : (d.erase place).Rooted := by
  intro other hother
  rw [at?_erase h] at hother ⊢
  by_cases hsame : other = place
  · rw [if_pos hsame] at hother
    cases hother
  · rw [if_neg hsame] at hother
    have hfolder := hd other hother
    rw [if_neg, hfolder]
    rintro rfl
    exact h hfolder

theorem Rooted.store {d : Directory} (hd : d.Rooted) {place : Place}
    (hfolder : d.at? place.dropLast = some .folder) (h : d.at? place ≠ some .folder)
    (bytes : ByteArray) : (d.store place bytes).Rooted :=
  hd.put hfolder h (.file (d.numberFor place))

end CardSearch.Directory
