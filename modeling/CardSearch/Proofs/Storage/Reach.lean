import CardSearch.Proofs.Storage.Links

/-
  Where a path leads, and what is found there.

  1. **Starts** — a path is refused before its first name, or looked up from where it starts.  Either
     way the whole of the lookup is known once its end is (`reach`).
  2. **Last names (`entry_eq_ok_iff`, `lookup_of_entry`)** — the last name is looked up in the folder
     to which the others lead.  What stands there is where the path leads, unless it is a link.
  3. **The crux (`agree_of_keeps`, `agree_of_trail`)** — a path means the same in two directories when
     the same stands at the end of its lookup and no folder is lost, and no link comes or goes; or when
     the same stands wherever its lookup comes.
  4. **Contents (`readBytes_of_bytes?`)** — what is read is the file where the path leads.
-/

namespace CardSearch.Directory

/-! ## Starts -/

/-- Where a path starts. -/
abbrev start (path : List Char) : Place := base [] path

/-- The place at which the lookup of a path ends. -/
def reach (d : Directory) (path : List Char) : Place := (d.lookup path).place

/-- The places that the lookup of a path comes to. -/
def trail (d : Directory) (path : List Char) : List Place := (d.lookup path).trail

section Starts

variable {d : Directory} {path : List Char}

/-- Every path starts in a folder, the working directory or the root. -/
theorem at?_start (d : Directory) (path : List Char) : d.at? (start path) = some .folder := by
  rw [start, base]
  split <;> rfl

/-- A path with which nothing is wrong is looked up from its start. -/
theorem follow_of_followable (h : pathFault? path = none) (d : Directory)
    (names : List (List Char)) :
    d.follow path names = d.resolve maxLinks (start path) names := by
  rw [follow, h]

theorem lookup_of_followable (h : pathFault? path = none) (d : Directory) :
    d.lookup path = d.resolve maxLinks (start path) (names path) :=
  follow_of_followable h d _

/-- What is wrong with a path alone is wrong in every directory, before any name is looked up. -/
theorem follow_of_pathFault {fault : Fault} (h : pathFault? path = some fault) (d : Directory)
    (names : List (List Char)) :
    d.follow path names =
      { place := start path, links := maxLinks, left := names, fault := some fault } := by
  rw [follow, h]

/-- Of a path that leads anywhere nothing was wrong. -/
theorem followable_of_follow {names : List (List Char)} (h : (d.follow path names).fault = none) :
    pathFault? path = none := by
  cases hfault : pathFault? path with
  | none => rfl
  | some fault =>
    rw [follow_of_pathFault hfault] at h
    cases h

/-- A path leads to where its lookup ends, if nothing stops it. -/
theorem walk_eq_ok_iff {place : Place} :
    d.walk path = .ok place ↔ (d.lookup path).fault = none ∧ d.reach path = place :=
  Lookup.result_eq_ok_iff

theorem followable_of_walk {place : Place} (h : d.walk path = .ok place) :
    pathFault? path = none :=
  followable_of_follow (walk_eq_ok_iff.mp h).1

/-- No path leads to a link, since it starts at none and the links on its way are followed. -/
theorem not_link_of_walk {place : Place} (h : d.walk path = .ok place) (target : String) :
    d.at? place ≠ some (.link target) := by
  obtain ⟨hfault, rfl⟩ := walk_eq_ok_iff.mp h
  have hfollow := followable_of_follow hfault
  rw [reach]
  rw [lookup_of_followable hfollow] at hfault ⊢
  refine not_link_of_fault_none (fun target => ?_) hfault target
  rw [at?_start]
  exact nofun

/-- Where a path leads and no folder is, a file stands or can stand. -/
theorem free_of_walk {place : Place} (h : d.walk path = .ok place)
    (hfolder : d.at? place ≠ some .folder) : d.Free place :=
  ⟨hfolder, not_link_of_walk h⟩

/-- Where a path leads is in a folder, also if nothing stands there. -/
theorem Rooted.dropLast_of_walk (hd : d.Rooted) {place : Place} (h : d.walk path = .ok place) :
    d.at? place.dropLast = some .folder := by
  obtain ⟨hfault, rfl⟩ := walk_eq_ok_iff.mp h
  have hfollow := followable_of_follow hfault
  rw [reach]
  rw [lookup_of_followable hfollow] at hfault ⊢
  exact hd.dropLast_of_resolve (hd.dropLast (at?_start d path)) hfault

end Starts

/-! ## Last names -/

section LastNames

variable {d : Directory} {path : List Char} {front : List (List Char)} {name : List Char}
  {place : Place}

/-- The last name is looked up in the folder to which the others lead, by one step that follows
    no link. -/
theorem entry_eq_ok_iff (h : names path = front ++ [name]) :
    d.entry path = .ok place ↔
      (d.follow path front).fault = none ∧ d.step (d.follow path front).place name = .ok place := by
  rw [entry, h, List.dropLast_concat, List.getLast?_concat]
  cases hresult : (d.follow path front).result with
  | error fault =>
    rw [Lookup.result_eq_error_iff] at hresult
    rw [hresult]
    exact ⟨nofun, fun h => nomatch h.1⟩
  | ok folder =>
    obtain ⟨hfault, rfl⟩ := Lookup.result_eq_ok_iff.mp hresult
    exact ⟨fun h => ⟨hfault, h⟩, fun h => h.2⟩

/-- A path without a name leads to where it starts, and that is a folder. -/
theorem entry_of_nil (h : names path = []) (hentry : d.entry path = .ok place) :
    d.at? place = some .folder := by
  rw [entry, h] at hentry
  cases hfault : pathFault? path with
  | some fault =>
    rw [follow_of_pathFault hfault] at hentry
    cases hentry
  | none =>
    rw [follow_of_followable hfault, List.dropLast_nil, resolve_nil] at hentry
    obtain rfl := Except.ok.inj hentry
    exact at?_start d path

/-- The lookup of a path goes on from the place of the names before the last, with the links that
    they left. -/
theorem lookup_eq_behind (h : names path = front ++ [name])
    (hfront : (d.follow path front).fault = none) :
    d.lookup path =
      (d.resolve (d.follow path front).links (d.follow path front).place [name]).behind
        (d.follow path front).trail := by
  have hfollow := followable_of_follow hfront
  rw [follow_of_followable hfollow] at hfront ⊢
  rw [lookup_of_followable hfollow, h, resolve_append hfront]

/-- **A path leads to the place of its last name**, unless a link stands there.  It comes there
    last of all. -/
theorem lookup_of_entry (h : names path = front ++ [name]) (hentry : d.entry path = .ok place)
    (hlink : ∀ target, d.at? place ≠ some (.link target)) :
    d.lookup path =
      { place, links := (d.follow path front).links,
        trail := (d.follow path front).trail ++ [place] } := by
  obtain ⟨hfront, hstep⟩ := (entry_eq_ok_iff h).mp hentry
  rw [lookup_eq_behind h hfront, resolve_enter hstep hlink, resolve_nil]
  rfl

/-- So where no link stands, the file that is read is the one that would be replaced. -/
theorem walk_of_entry (h : names path = front ++ [name]) (hentry : d.entry path = .ok place)
    (hlink : ∀ target, d.at? place ≠ some (.link target)) : d.walk path = .ok place := by
  rw [walk_eq_ok_iff, reach, lookup_of_entry h hentry hlink]
  exact ⟨rfl, rfl⟩

/-- A path that leads somewhere has its last name in a folder. -/
theorem exists_entry_of_walk (h : names path = front ++ [name]) (hwalk : d.walk path = .ok place) :
    ∃ entry, d.entry path = .ok entry := by
  obtain ⟨hfault, -⟩ := walk_eq_ok_iff.mp hwalk
  have hfollow := followable_of_follow hfault
  rw [lookup_of_followable hfollow, h] at hfault
  obtain ⟨next, hstep⟩ := exists_step_of_concat hfault
  have hfront := fault_of_append hfault
  rw [← follow_of_followable hfollow] at hstep hfront
  exact ⟨next, (entry_eq_ok_iff h).mpr ⟨hfront, hstep⟩⟩

/-- The place of a last name that is no folder is one further than the folder it is looked up in.
    So the name can be read off the place. -/
theorem Rooted.entry_cases (hd : d.Rooted) (h : names path = front ++ [name])
    (hentry : d.entry path = .ok place) (hplace : d.at? place ≠ some .folder) :
    name ≠ ['.'] ∧ name ≠ ['.', '.'] ∧
      place = (d.follow path front).place ++ [String.ofList name] :=
  (hd.step_cases ((entry_eq_ok_iff h).mp hentry).2).resolve_left hplace

/-- A path that leads to no folder has a last name. -/
theorem exists_names_of_entry (hentry : d.entry path = .ok place)
    (hplace : d.at? place ≠ some .folder) : ∃ front name, names path = front ++ [name] := by
  cases hlast : (names path).getLast? with
  | none => exact absurd (entry_of_nil (List.getLast?_eq_none_iff.mp hlast) hentry) hplace
  | some name =>
    obtain ⟨front, hfront⟩ := List.getLast?_eq_some_iff.mp hlast
    exact ⟨front, name, hfront⟩

/-- A place at which something can be made is in a folder, the one of the names before. -/
theorem Rooted.dropLast_of_entry (hd : d.Rooted) (hentry : d.entry path = .ok place)
    (hplace : d.at? place ≠ some .folder) : d.at? place.dropLast = some .folder := by
  obtain ⟨front, name, h⟩ := exists_names_of_entry hentry hplace
  exact hd.dropLast_of_step ((entry_eq_ok_iff h).mp hentry).2

/-- A path that ends in dots leads to a folder, the same or the one above; so no file can be
    written at it. -/
theorem Rooted.folder_of_endsInDots (hd : d.Rooted) (hdots : endsInDots path = true)
    (h : d.walk path = .ok place) : d.at? place = some .folder := by
  rw [endsInDots] at hdots
  cases hlast : (names path).getLast? with
  | none =>
    obtain ⟨hfault, rfl⟩ := walk_eq_ok_iff.mp h
    have hfollow := followable_of_follow hfault
    rw [reach, lookup_of_followable hfollow, List.getLast?_eq_none_iff.mp hlast, resolve_nil]
    exact at?_start d path
  | some name =>
    obtain ⟨front, hfront⟩ := List.getLast?_eq_some_iff.mp hlast
    rw [hlast] at hdots
    simp only [Bool.or_eq_true, beq_iff_eq] at hdots
    obtain ⟨entry, hentry⟩ := exists_entry_of_walk hfront h
    -- a step over a dot, or two, leads to a folder
    have hfolder : d.at? entry = some .folder := by
      refine (hd.step_cases ((entry_eq_ok_iff hfront).mp hentry).2).resolve_right ?_
      rintro ⟨hdot, hback, -⟩
      exact hdots.elim hdot hback
    have hwalk := walk_of_entry hfront hentry (fun target => by rw [hfolder]; exact nofun)
    obtain rfl := Except.ok.inj (h.symm.trans hwalk)
    exact hfolder

end LastNames

/-! ## What a path means -/

section Meaning

variable {d d' : Directory} {path : List Char}

/-- Names that lead somewhere lead there still, if no folder is lost and no link comes or goes. -/
theorem follow_eq_of_found (hkeeps : Keeps d d') {names : List (List Char)}
    (h : (d.follow path names).fault = none) : d'.follow path names = d.follow path names := by
  have hfollow := followable_of_follow h
  rw [follow_of_followable hfollow] at h ⊢
  rw [follow_of_followable hfollow, resolve_eq_of_found hkeeps h]

/-- It is also the same if the same stands wherever it comes. -/
theorem follow_congr {names : List (List Char)}
    (h : ∀ place ∈ (d.follow path names).trail, d'.at? place = d.at? place) :
    d'.follow path names = d.follow path names := by
  cases hfault : pathFault? path with
  | some fault => exact (follow_of_pathFault hfault d' _).trans (follow_of_pathFault hfault d _).symm
  | none =>
    rw [follow_of_followable hfault] at h ⊢
    rw [follow_of_followable hfault]
    exact resolve_congr ((at?_start d' path).trans (at?_start d path).symm) h

theorem walk_eq_of_found (hkeeps : Keeps d d') {place : Place} (h : d.walk path = .ok place) :
    d'.walk path = .ok place := by
  obtain ⟨hfault, rfl⟩ := walk_eq_ok_iff.mp h
  have hsame : d'.lookup path = d.lookup path := follow_eq_of_found hkeeps hfault
  rw [walk, hsame]
  exact h

/-- A place at which something can be made is there still, for the folder in which its name is
    looked up is. -/
theorem entry_of_keeps (hkeeps : Keeps d d') {place : Place} (h : d.entry path = .ok place) :
    d'.entry path = .ok place := by
  rw [entry] at h ⊢
  cases hresult : (d.follow path (names path).dropLast).result with
  | error fault =>
    rw [hresult] at h
    cases h
  | ok folder =>
    obtain ⟨hfound, -⟩ := Lookup.result_eq_ok_iff.mp hresult
    rw [follow_eq_of_found hkeeps hfound, hresult]
    rw [hresult] at h
    cases hlast : (names path).getLast? with
    | none =>
      rw [hlast] at h
      exact h
    | some name =>
      rw [hlast] at h
      have hfolder := at?_of_step h
      exact (step_eq_of_at? ((hkeeps.folder hfolder).trans hfolder.symm) name).trans h

end Meaning

/-! ## Contents -/

section Contents

variable {d : Directory} {path : List Char} {place : Place}

/-- **What is read is the file where the path leads**, if the path does not ask for a folder. -/
theorem readBytes_of_bytes? {bytes : ByteArray} (h : d.walk path = .ok place)
    (hbytes : d.bytes? place = some bytes) (hwants : wantsFolder path = false) :
    d.readBytes path = .ok bytes := by
  obtain ⟨number, hfile, rfl⟩ := bytes?_eq_some_iff.mp hbytes
  rw [readBytes, h]
  simp only [bind, Except.bind, hfile, hwants, Bool.false_eq_true, if_false]
  rfl

/-- The text that is written is the text that is read, as its bytes are valid. -/
theorem fromUTF8?_toUTF8 (text : String) : String.fromUTF8? text.toUTF8 = some text := by
  have hvalid : text.toUTF8.IsValidUTF8 := text.isValidUTF8
  rw [String.fromUTF8?, dif_pos hvalid]
  rfl

theorem read_of_bytes {text : String} (h : d.readBytes path = .ok text.toUTF8) :
    d.read path = .ok text := by
  rw [read, h]
  simp only [bind, Except.bind, fromUTF8?_toUTF8]
  rfl

end Contents

end CardSearch.Directory
