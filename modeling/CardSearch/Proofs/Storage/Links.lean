import CardSearch.Proofs.Storage.Lookup

/-
  What a lookup that comes by links passes.

  1. **Budgets (`resolve_more`)** — a lookup that succeeds does not notice if more links may be
     followed.
  2. **Passing (`exists_of_mem_trail`)** — a lookup that comes to a link goes on with the names of its
     target, and may follow one link less from there.
  3. **The crux (`not_mem_trail_of_link`)** — so what a link leads to is found without coming to that
     link again: by infinite descent on the links that may be followed.
  4. **Ends (`content_of_mem_trail`, `end_mem_trail`)** — on the way to a folder there are folders and
     links only, and a file is found where the way ends.
-/

namespace CardSearch.Directory

variable {d : Directory}

/-! ## Budgets -/

/-- One more link that may be followed is left over by a lookup that succeeds without it. -/
theorem resolve_succ {links : Nat} {place : Place} {names : List (List Char)}
    (h : (d.resolve links place names).fault = none) :
    d.resolve (links + 1) place names =
      { d.resolve links place names with links := (d.resolve links place names).links + 1 } := by
  induction links, place, names, h using found_induction with
  | done links place => rw [resolve_nil, resolve_nil]
  | enter links place name rest next hstep hlink _ _ ih =>
    rw [resolve_enter hstep hlink, resolve_enter hstep hlink, ih]
    rfl
  | jump links place name rest next target hstep hlink _ _ ih =>
    rw [resolve_jump hstep hlink, resolve_jump hstep hlink, ih]
    rfl

/-- **More links than are needed make no difference**, neither to where a lookup leads nor to
    where it comes. -/
theorem resolve_more {links more : Nat} (hle : links ≤ more) {place : Place}
    {names : List (List Char)} (h : (d.resolve links place names).fault = none) :
    (d.resolve more place names).fault = none ∧
      (d.resolve more place names).place = (d.resolve links place names).place ∧
      (d.resolve more place names).trail = (d.resolve links place names).trail := by
  induction hle with
  | refl => exact ⟨h, rfl, rfl⟩
  | step _ ih =>
    obtain ⟨hfault, hplace, htrail⟩ := ih
    rw [resolve_succ hfault]
    exact ⟨hfault, hplace, htrail⟩

/-- Names that are found from a place are found at one place only, however many links it took. -/
theorem place_unique {links other : Nat} {place : Place} {names : List (List Char)}
    (h : (d.resolve links place names).fault = none)
    (h' : (d.resolve other place names).fault = none) :
    (d.resolve links place names).place = (d.resolve other place names).place := by
  rcases Nat.le_total links other with hle | hle
  · exact (resolve_more hle h).2.1.symm
  · exact (resolve_more hle h').2.1

/-! ## Passing -/

/-- **A lookup that comes to a link goes on with its target**, from the folder of the link.  From
    there it may follow fewer links, and it finds its end with them; the names of the target come
    before those that are left. -/
theorem exists_of_mem_trail (hd : d.Rooted) {link : Place} {target : String}
    (hlink : d.at? link = some (.link target)) {links : Nat} {place : Place}
    {names : List (List Char)} (h : (d.resolve links place names).fault = none)
    (hmem : link ∈ (d.resolve links place names).trail) :
    ∃ fewer < links, ∃ rest,
      (d.resolve fewer (base link.dropLast target.toList) (linkNames target ++ rest)).fault = none ∧
      (d.resolve fewer (base link.dropLast target.toList) (linkNames target ++ rest)).place =
        (d.resolve links place names).place := by
  induction links, place, names, h using found_induction with
  | done links place =>
    rw [resolve_nil] at hmem
    cases hmem
  | enter links place name rest next hstep hnext _ _ ih =>
    rw [resolve_enter hstep hnext] at hmem ⊢
    rcases List.mem_cons.mp hmem with rfl | hmem
    · exact absurd hlink (hnext target)
    · exact ih hmem
  | jump links place name rest next other hstep hnext hrest _ ih =>
    rw [resolve_jump hstep hnext] at hmem ⊢
    rcases List.mem_cons.mp hmem with rfl | hmem
    · -- the link is one place further than the folder it is found from
      obtain rfl := Content.link.inj (Option.some.inj (hlink.symm.trans hnext))
      rw [hd.dropLast_eq_of_step hstep (by rw [hlink]; exact nofun)]
      exact ⟨links, Nat.lt_succ_self links, rest, hrest, rfl⟩
    · obtain ⟨fewer, hless, found⟩ := ih hmem
      exact ⟨fewer, Nat.lt_succ_of_lt hless, found⟩

/-- **What a link leads to is found without that link.** Otherwise the same target would be found
    with fewer links to follow, and again with fewer, without end. -/
theorem not_mem_trail_of_link (hd : d.Rooted) {link : Place} {target : String}
    (hlink : d.at? link = some (.link target)) {links : Nat}
    (h : (d.resolve links (base link.dropLast target.toList) (linkNames target)).fault = none) :
    link ∉ (d.resolve links (base link.dropLast target.toList) (linkNames target)).trail := by
  induction links using Nat.strongRecOn with
  | ind links ih =>
    intro hmem
    obtain ⟨fewer, hless, rest, hfound, -⟩ := exists_of_mem_trail hd hlink h hmem
    -- with fewer links the target is found as well, and on the same way
    have hfewer := fault_of_append hfound
    refine ih fewer hless hfewer ?_
    rw [← (resolve_more (Nat.le_of_lt hless) hfewer).2.2]
    exact hmem

/-! ## Ends -/

/-- If a lookup leads to a folder, it began in one. -/
theorem folder_of_found {links : Nat} {place : Place} {names : List (List Char)}
    (h : (d.resolve links place names).fault = none)
    (hend : d.at? (d.resolve links place names).place = some .folder) :
    d.at? place = some .folder := by
  cases names with
  | nil => rwa [resolve_nil] at hend
  | cons name rest =>
    cases hstep : d.step place name with
    | ok next => exact at?_of_step hstep
    | error fault =>
      rw [resolve_stuck hstep] at h
      cases h

/-- On the way to a folder there are folders and links only, since no name is looked up in
    anything else. -/
theorem content_of_mem_trail {links : Nat} {place : Place} {names : List (List Char)}
    (h : (d.resolve links place names).fault = none)
    (hend : d.at? (d.resolve links place names).place = some .folder) :
    ∀ passed ∈ (d.resolve links place names).trail,
      d.at? passed = some .folder ∨ ∃ target, d.at? passed = some (.link target) := by
  induction links, place, names, h using found_induction with
  | done links place =>
    rw [resolve_nil]
    exact fun _ hmem => absurd hmem List.not_mem_nil
  | enter links place name rest next hstep hlink hrest _ ih =>
    rw [resolve_enter hstep hlink] at hend ⊢
    exact List.forall_mem_cons.mpr ⟨Or.inl (folder_of_found hrest hend), ih hend⟩
  | jump links place name rest next target hstep hlink _ _ ih =>
    rw [resolve_jump hstep hlink] at hend ⊢
    exact List.forall_mem_cons.mpr ⟨Or.inr ⟨target, hlink⟩, ih hend⟩

/-- Nothing is found in what is no folder, so no name was left to look up. -/
theorem eq_nil_of_not_folder {links : Nat} {place : Place} {names : List (List Char)}
    (hplace : d.at? place ≠ some .folder) (h : (d.resolve links place names).fault = none) :
    names = [] := by
  cases names with
  | nil => rfl
  | cons name rest =>
    cases hstep : d.step place name with
    | ok next => exact absurd (at?_of_step hstep) hplace
    | error fault =>
      rw [resolve_stuck hstep] at h
      cases h

/-- What is found and is no folder is a place that the lookup comes to: it cannot have begun
    there. -/
theorem end_mem_trail {links : Nat} {place : Place} {names : List (List Char)}
    (hplace : d.at? place = some .folder) (h : (d.resolve links place names).fault = none)
    (hend : d.at? (d.resolve links place names).place ≠ some .folder) :
    (d.resolve links place names).place ∈ (d.resolve links place names).trail := by
  induction links, place, names, h using found_induction with
  | done links place =>
    rw [resolve_nil] at hend
    exact absurd hplace hend
  | enter links place name rest next hstep hlink hrest _ ih =>
    rw [resolve_enter hstep hlink] at hend ⊢
    -- the walk goes on from a folder, or ends at what is none
    by_cases hnext : d.at? next = some .folder
    · exact List.mem_cons_of_mem _ (ih hnext hend)
    · obtain rfl := eq_nil_of_not_folder hnext hrest
      rw [resolve_nil]
      exact List.mem_cons_self
  | jump links place name rest next target hstep hlink _ _ ih =>
    rw [resolve_jump hstep hlink] at hend ⊢
    have hbase : d.at? (base place target.toList) = some .folder :=
      holds_base (p := fun start => d.at? start = some .folder) rfl hplace target.toList
    exact List.mem_cons_of_mem _ (ih hbase hend)

end CardSearch.Directory
