import CardSearch.Proofs.Storage.Reach

/-
  Writing a file and moving it to a name beside its own.

  1. **Writing (`takes_of_write`)** — a file is stored where its path leads.
  2. **Moving (`moves_of_move`, `at?_moved`)** — what stands at one entry is taken from there and put
     at another; or both are one file already, and nothing happens.
  3. **Neighbors (`Beside`)** — two paths that differ in their last name only.
  4. **The crux (`walk_of_moved`)** — a file that a path leads to is found at the name beside it after
     the move, unless the way to it came by the place that was replaced.  This holds also where what
     is moved is a link to the file: the link leads there without itself.
-/

namespace CardSearch.Directory

/-! ## Writing -/

/-- A path leads to a place at which a file stands or can stand. -/
structure Takes (d : Directory) (path : List Char) (place : Place) : Prop where
  leads : d.walk path = .ok place
  folder : d.at? place ≠ some .folder
  isFile : wantsFolder path = false

/-- A place at which a file can be stored holds no folder, and no link either, as the walk of a
    path ends where no link is left to follow. -/
theorem Takes.free {d : Directory} {path : List Char} {place : Place} (h : Takes d path place) :
    d.Free place := free_of_walk h.leads h.folder

/-- A file is stored where its path leads, and the rest of the directory stays.  All that can stop
    it (a folder at the place, a missing folder on the way, a slash at the end) is then excluded. -/
theorem takes_of_write {d d' : Directory} {path : List Char} {bytes : ByteArray}
    (h : d.write path bytes = .ok d') :
    ∃ place, Takes d path place ∧ d' = d.store place bytes := by
  rw [write] at h
  split at h
  · cases hlast : d.walkToLast path with
    | error fault =>
      rw [hlast] at h
      cases h
    | ok place =>
      rw [hlast] at h
      cases h
  -- a path with a slash at its end is refused, so the place is that of the walk
  rename_i hfile
  cases hwalk : d.walk path with
  | error fault =>
    rw [hwalk] at h
    cases h
  | ok place =>
    rw [hwalk] at h
    simp only [bind, Except.bind] at h
    split at h
    · cases h
    · rename_i hfree
      obtain rfl := Except.ok.inj h
      exact ⟨place, ⟨hwalk, by simpa using hfree, by simpa using hfile⟩, rfl⟩

/-! ## Moving -/

/-- What stands at the entry of a source can be moved to that of a target. -/
structure Moves (d : Directory) (source target : List Char) (origin place : Place)
    (content : Content) : Prop where
  origin_eq : d.entry source = .ok origin
  place_eq : d.entry target = .ok place
  content_eq : d.at? origin = some content
  content_ne : content ≠ .folder
  place_ne : d.at? place ≠ some .folder
  isFile : wantsFolder target = false
  isNamed : endsInDots target = false

/-- A move happens, unless its two names are one entry or two names of one file: then the
    directory stays as it is, and both names are kept. -/
theorem moves_of_move {d d' : Directory} {source target : List Char}
    (h : d.move source target = .ok d') :
    ∃ origin place content, Moves d source target origin place content ∧
      ((origin = place ∨ d.sameFile origin place = true) ∧ d' = d ∨
        origin ≠ place ∧ d.sameFile origin place = false ∧
          d' = (d.erase origin).put place content) := by
  rw [move] at h
  cases hsource : d.entry source with
  | error fault =>
    rw [hsource] at h
    cases h
  | ok origin =>
    cases htarget : d.entry target with
    | error fault =>
      rw [hsource, htarget] at h
      cases h
    | ok place =>
      rw [hsource, htarget] at h
      simp only [bind, Except.bind] at h
      split at h
      · cases h
      rename_i hdots
      split at h
      · cases h
      · cases h
      rename_i content hne hat
      split at h
      · cases h
      rename_i hwants
      split at h
      · cases h
      rename_i hfree
      simp only [Bool.or_eq_true, not_or, Bool.not_eq_true] at hdots hwants
      -- all that can refuse the move is passed: dots at an end, a missing source, folders, slashes
      have hmoves : Moves d source target origin place content :=
        ⟨hsource, htarget, hat, fun hfolder => hne hfolder, by simpa using hfree, hwants.2, hdots.2⟩
      split at h
      · rename_i hsame
        rw [Bool.or_eq_true, beq_iff_eq] at hsame
        exact ⟨origin, place, content, hmoves, Or.inl ⟨hsame, (Except.ok.inj h).symm⟩⟩
      · rename_i hsame
        rw [Bool.or_eq_true, beq_iff_eq, not_or, Bool.not_eq_true] at hsame
        exact ⟨origin, place, content, hmoves, Or.inr ⟨hsame.1, hsame.2, (Except.ok.inj h).symm⟩⟩

namespace Moves

variable {d : Directory} {source target : List Char} {origin place : Place} {content : Content}

/-- What is moved is no folder, since a folder at the source is refused. -/
theorem origin_ne (h : Moves d source target origin place content) :
    d.at? origin ≠ some .folder := by
  rw [h.content_eq]
  exact fun hfolder => h.content_ne (Option.some.inj hfolder)

/-- What stands where after the move.  Nothing is followed here: a link that is moved stands at
    the target as the link it was. -/
theorem at?_moved (h : Moves d source target origin place content) (other : Place) :
    ((d.erase origin).put place content).at? other =
      if other = place then some content else if other = origin then none else d.at? other := by
  have hplace : (d.erase origin).at? place ≠ some .folder := by
    rw [at?_erase h.origin_ne]
    split
    · exact nofun
    · exact h.place_ne
  rw [at?_put hplace, at?_erase h.origin_ne]

/-- The move takes no folder and replaces none, so the folders are where they were. -/
theorem at?_moved_of_folder (h : Moves d source target origin place content) {other : Place}
    (hfolder : d.at? other = some .folder) :
    ((d.erase origin).put place content).at? other = some .folder := by
  rw [h.at?_moved, if_neg, if_neg, hfolder]
  · rintro rfl
    exact h.origin_ne hfolder
  · rintro rfl
    exact h.place_ne hfolder

/-- The folders that hold the entries stay, so every entry is in a folder still. -/
theorem rooted_moved (h : Moves d source target origin place content) (hd : d.Rooted) :
    ((d.erase origin).put place content).Rooted := by
  refine (hd.erase h.origin_ne).put ?_ ?_ content
  · have hfolder := hd.dropLast_of_entry h.place_eq h.place_ne
    rw [at?_erase h.origin_ne, if_neg, hfolder]
    rintro rfl
    exact h.origin_ne hfolder
  · rw [at?_erase h.origin_ne]
    split
    · exact nofun
    · exact h.place_ne

end Moves

/-! ## Neighbors -/

/-- Two paths that lead to names in the same folder. -/
structure Beside (source target : List Char) (front : List (List Char)) (own other : List Char) :
    Prop where
  source_eq : names source = front ++ [own]
  target_eq : names target = front ++ [other]
  start_eq : start source = start target

/-- The lookup of the names before the last one is the same for both paths: it starts in the same
    folder and meets the same names. -/
theorem Beside.follow_eq {source target : List Char} {front : List (List Char)}
    {own other : List Char} (h : Beside source target front own other)
    (hsource : pathFault? source = none) (htarget : pathFault? target = none) (d : Directory) :
    d.follow target front = d.follow source front := by
  rw [follow_of_followable hsource, follow_of_followable htarget, h.start_eq]

/-- **What a link at the last name leads to** is found from the folder of the link.  The walk then
    counts one link more than the way to the folder did, which is what bounds it. -/
theorem exists_of_link_entry {d : Directory} (hd : d.Rooted) {path : List Char}
    {front : List (List Char)} {name : List Char} (hnames : names path = front ++ [name])
    {origin found : Place} {target : String} (hentry : d.entry path = .ok origin)
    (hlink : d.at? origin = some (.link target)) (hwalk : d.walk path = .ok found) :
    origin.dropLast = (d.follow path front).place ∧
      ∃ links, (d.follow path front).links = links + 1 ∧
        (d.resolve links (base origin.dropLast target.toList) (linkNames target)).fault = none ∧
        (d.resolve links (base origin.dropLast target.toList) (linkNames target)).place = found ∧
        d.trail path = (d.follow path front).trail ++
          origin :: (d.resolve links (base origin.dropLast target.toList) (linkNames target)).trail := by
  obtain ⟨hfront, hstep⟩ := (entry_eq_ok_iff hnames).mp hentry
  have hdrop := hd.dropLast_eq_of_step hstep (by rw [hlink]; exact nofun)
  obtain ⟨hfault, hplace⟩ := walk_eq_ok_iff.mp hwalk
  rw [reach] at hplace
  rw [trail]
  rw [lookup_eq_behind hnames hfront] at hfault hplace ⊢
  refine ⟨hdrop, ?_⟩
  -- one link must be left, since the walk followed this one
  cases hlinks : (d.follow path front).links with
  | zero =>
    rw [hlinks, resolve_tired hstep hlink] at hfault
    cases hfault
  | succ links =>
    rw [hlinks, resolve_jump hstep hlink, List.append_nil, ← hdrop] at hfault hplace
    rw [resolve_jump hstep hlink, List.append_nil, ← hdrop]
    exact ⟨links, rfl, hfault, hplace, rfl⟩

section Moved

variable {d : Directory} {source target : List Char} {origin place found : Place}
  {content : Content} {front : List (List Char)} {own other : List Char} (hd : d.Rooted)
  (hbeside : Beside source target front own other)
  (hmoves : Moves d source target origin place content) (hwalk : d.walk source = .ok found)
  (hfound : d.at? found ≠ some .folder)
include hd hbeside hmoves hwalk hfound

/-- The folder of the two names is found without what is moved.  If it were on the way there, the
    way would come by it a second time, through the link it then is, and not end at a file. -/
theorem origin_not_mem_trail : origin ∉ (d.follow source front).trail := by
  obtain ⟨hfront, hstep⟩ := (entry_eq_ok_iff hbeside.source_eq).mp hmoves.origin_eq
  have hfolder := at?_of_step hstep
  have hfollow := follow_of_followable (followable_of_walk hwalk) d front
  intro hmem
  rw [hfollow] at hmem hfront hfolder
  obtain ⟨target, hlink⟩ :=
    (content_of_mem_trail hfront hfolder origin hmem).resolve_left hmoves.origin_ne
  -- it is a link then, which leads to a folder on the way and to a file in the end
  obtain ⟨fewer, -, rest, hpassed, hpassedEnd⟩ := exists_of_mem_trail hd hlink hfront hmem
  obtain ⟨-, links, -, htarget, htargetEnd, -⟩ :=
    exists_of_link_entry hd hbeside.source_eq hmoves.origin_eq hlink hwalk
  have hprefix := fault_of_append hpassed
  have hsame := (place_unique hprefix htarget).trans htargetEnd
  have hrest := fault_append hpassed
  rw [resolve_append hprefix] at hpassedEnd
  rw [hsame] at hrest hpassedEnd
  obtain rfl := eq_nil_of_not_folder hfound hrest
  rw [resolve_nil] at hpassedEnd
  exact hfound ((congrArg d.at? hpassedEnd).trans hfolder)

omit hd hwalk hfound in
theorem place_not_mem_trail (hclear : place ∉ d.trail source) :
    place ∉ (d.follow source front).trail := by
  obtain ⟨hfront, -⟩ := (entry_eq_ok_iff hbeside.source_eq).mp hmoves.origin_eq
  intro hmem
  refine hclear ?_
  rw [trail, lookup_eq_behind hbeside.source_eq hfront]
  exact List.mem_append_left _ hmem

variable (hclear : place ∉ d.trail source)
include hclear

/-- The folder of the two names is found after the move as before: neither of the two entries
    that the move changes is on the way. -/
theorem follow_moved :
    ((d.erase origin).put place content).follow source front = d.follow source front := by
  refine follow_congr fun passed hpassed => ?_
  rw [hmoves.at?_moved, if_neg, if_neg]
  · rintro rfl
    exact origin_not_mem_trail hd hbeside hmoves hwalk hfound hpassed
  · rintro rfl
    exact place_not_mem_trail hbeside hmoves hclear hpassed

/-- So the other name has its place there, at which now stands what was moved. -/
theorem entry_moved (htarget : pathFault? target = none) :
    ((d.erase origin).put place content).entry target = .ok place := by
  have hsource := followable_of_walk hwalk
  obtain ⟨hfront, hstep⟩ := (entry_eq_ok_iff hbeside.target_eq).mp hmoves.place_eq
  have hfolder := at?_of_step hstep
  refine (entry_eq_ok_iff hbeside.target_eq).mpr ?_
  rw [hbeside.follow_eq hsource htarget, follow_moved hd hbeside hmoves hwalk hfound hclear,
    ← hbeside.follow_eq hsource htarget]
  exact ⟨hfront, (step_eq_of_at? ((hmoves.at?_moved_of_folder hfolder).trans hfolder.symm)
    other).trans hstep⟩

omit hbeside hwalk in
/-- A link that is moved leads where it led, and that is neither its old place nor its new one. -/
theorem resolve_moved {goal : String} (hlink : d.at? origin = some (.link goal)) {links : Nat}
    (hfault : (d.resolve links (base origin.dropLast goal.toList) (linkNames goal)).fault = none)
    (hend : (d.resolve links (base origin.dropLast goal.toList) (linkNames goal)).place = found)
    (htrail : d.trail source = (d.follow source front).trail ++
      origin :: (d.resolve links (base origin.dropLast goal.toList) (linkNames goal)).trail) :
    ((d.erase origin).put place content).resolve links (base origin.dropLast goal.toList)
        (linkNames goal) = d.resolve links (base origin.dropLast goal.toList) (linkNames goal) ∧
      found ≠ origin ∧ found ≠ place := by
  have hfolder : d.at? (base origin.dropLast goal.toList) = some .folder := by
    rw [base]
    split
    · rfl
    · exact hd.dropLast hlink
  have horigin := not_mem_trail_of_link hd hlink hfault
  have hplace : place ∉
      (d.resolve links (base origin.dropLast goal.toList) (linkNames goal)).trail := by
    intro hmem
    refine hclear ?_
    rw [htrail]
    exact List.mem_append_right _ (List.mem_cons_of_mem _ hmem)
  -- the file is on the way, as its end, and so it is neither of the two entries
  have hmem := end_mem_trail hfolder hfault (by rw [hend]; exact hfound)
  rw [hend] at hmem
  refine ⟨?_, fun hsame => horigin (hsame ▸ hmem), fun hsame => hplace (hsame ▸ hmem)⟩
  refine resolve_congr ((hmoves.at?_moved_of_folder hfolder).trans hfolder.symm) ?_
  intro passed hpassed
  rw [hmoves.at?_moved, if_neg, if_neg]
  · exact fun hsame => horigin (hsame ▸ hpassed)
  · exact fun hsame => hplace (hsame ▸ hpassed)

/-- **The file is found at the other name**: at its place or, if a link was moved, where it was.
    The link is followed from the folder it was in, since both names are in one folder. -/
theorem walk_of_moved (htarget : pathFault? target = none) :
    ∃ last, ((d.erase origin).put place content).walk target = .ok last ∧
      ((d.erase origin).put place content).at? last = d.at? found := by
  have hentry := entry_moved hd hbeside hmoves hwalk hfound hclear htarget
  have hplace := hmoves.at?_moved place
  rw [if_pos rfl] at hplace
  cases content with
  | folder => exact absurd rfl hmoves.content_ne
  | file number =>
    -- a file at the entry is the one that is found, and now stands at the target
    have horigin : d.walk source = .ok origin := by
      refine walk_of_entry hbeside.source_eq hmoves.origin_eq fun target => ?_
      rw [hmoves.content_eq]
      exact nofun
    obtain rfl := Except.ok.inj (hwalk.symm.trans horigin)
    refine ⟨place, walk_of_entry hbeside.target_eq hentry ?_, ?_⟩
    · rw [hplace]
      exact nofun
    · rw [hplace, hmoves.content_eq]
  | link goal =>
    obtain ⟨hdrop, links, hlinks, hfault, hend, htrail⟩ :=
      exists_of_link_entry hd hbeside.source_eq hmoves.origin_eq hmoves.content_eq hwalk
    obtain ⟨hresolve, hneOrigin, hnePlace⟩ :=
      resolve_moved hd hmoves hfound hclear hmoves.content_eq hfault hend htrail
    refine ⟨found, ?_, ?_⟩
    · obtain ⟨hfront, hstep⟩ := (entry_eq_ok_iff hbeside.target_eq).mp hentry
      rw [walk_eq_ok_iff, reach, lookup_eq_behind hbeside.target_eq hfront]
      rw [hbeside.follow_eq (followable_of_walk hwalk) htarget,
        follow_moved hd hbeside hmoves hwalk hfound hclear] at hstep ⊢
      rw [hlinks, resolve_jump hstep hplace, List.append_nil, ← hdrop, hresolve]
      exact ⟨hfault, hend⟩
    · rw [hmoves.at?_moved, if_neg hnePlace, if_neg hneOrigin]

end Moved

/-- **After a move the file is found at the target**, whatever its two names were: two spellings
    of one name, two names of one file, or two entries.  Only a link that the target replaces can
    be in the way. -/
theorem found_of_move {d d' : Directory} {source target : List Char} {found : Place}
    {front : List (List Char)} {own other : List Char} (hd : d.Rooted)
    (hbeside : Beside source target front own other) (hwalk : d.walk source = .ok found)
    (hfound : d.at? found ≠ some .folder)
    (hclear : ∀ place, d.entry target = .ok place → d.at? place ≠ some .folder →
      d.entry source = .ok place ∨ place ∉ d.trail source)
    (hmove : d.move source target = .ok d') :
    ∃ last, d'.walk target = .ok last ∧ d'.bytes? last = d.bytes? found := by
  obtain ⟨origin, place, content, hmoves, hcases⟩ := moves_of_move hmove
  have hsource := followable_of_walk hwalk
  have htarget : pathFault? target = none :=
    followable_of_follow ((entry_eq_ok_iff hbeside.target_eq).mp hmoves.place_eq).1
  rcases hcases with ⟨hsame | hsame, rfl⟩ | ⟨hne, -, rfl⟩
  · -- two spellings of one path
    obtain ⟨-, -, horigin⟩ := hd.entry_cases hbeside.source_eq hmoves.origin_eq hmoves.origin_ne
    obtain ⟨-, -, hplace⟩ := hd.entry_cases hbeside.target_eq hmoves.place_eq hmoves.place_ne
    rw [hbeside.follow_eq hsource htarget, ← hsame, horigin] at hplace
    have hname : own = other :=
      String.ofList_injective (List.singleton_inj.mp (List.append_cancel_left hplace))
    have hlookup : d'.lookup target = d'.lookup source := by
      rw [lookup_of_followable htarget, lookup_of_followable hsource, hbeside.start_eq,
        hbeside.source_eq, hbeside.target_eq, hname]
    refine ⟨found, ?_, rfl⟩
    rw [walk, hlookup]
    exact hwalk
  · -- two names of one file
    obtain ⟨number, horigin, hplace⟩ := sameFile_iff.mp hsame
    have hlast : d'.walk target = .ok place := by
      refine walk_of_entry hbeside.target_eq hmoves.place_eq fun goal => ?_
      simp [hplace]
    have hfirst : d'.walk source = .ok origin := by
      refine walk_of_entry hbeside.source_eq hmoves.origin_eq fun goal => ?_
      simp [horigin]
    obtain rfl := Except.ok.inj (hwalk.symm.trans hfirst)
    exact ⟨place, hlast, (bytes?_of_file hplace).trans (bytes?_of_file horigin).symm⟩
  · have hplace := (hclear place hmoves.place_eq hmoves.place_ne).resolve_left fun hsame =>
      hne (Except.ok.inj (hmoves.origin_eq.symm.trans hsame))
    obtain ⟨last, hlast, hat⟩ :=
      walk_of_moved hd hbeside hmoves hwalk hfound hplace htarget
    refine ⟨last, hlast, ?_⟩
    rw [bytes?, bytes?, hat]
    rfl

end CardSearch.Directory
