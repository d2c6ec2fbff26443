import CardSearch.Proofs.Storage.Contents

/-
  The course of a lookup, and what it depends on.

  1. **Steps** — a name leads one place further from a folder, and from nothing else.
  2. **Courses (`resolve_induction`)** — a lookup is done, or stuck at a name, or it goes on: into what
     a name leads to, or to where a link points while links may still be followed.  Each case has one
     equation, and every fact about lookups goes through these five cases, or through the three in
     which nothing stops it (`found_induction`).
  3. **Parts (`resolve_append`)** — the lookup of names in a row is that of the first, and then that of
     the others from where the first ended.
  4. **The crux (`resolve_congr`, `resolve_eq_of_keeps`)** — a lookup depends on the places that it
     comes to.  Where no folder is lost and no link comes or goes, it depends on its end alone.
-/

namespace CardSearch.Directory

/-! ## Steps -/

section Steps

variable {d d' : Directory} {place next : Place} {name : List Char}

/-- A step depends on what stands where it begins, and on nothing else. -/
theorem step_eq_of_at? (h : d'.at? place = d.at? place) (name : List Char) :
    d'.step place name = d.step place name := by
  rw [step, step, h]

/-- Only from a folder does a name lead anywhere. -/
theorem at?_of_step (h : d.step place name = .ok next) : d.at? place = some .folder := by
  rw [step] at h
  split at h
  · cases h
  · assumption
  · cases h

/-- The place that a name leads to from a folder, if it is no step back: one further, or the same. -/
def enter (place : Place) (name : List Char) : Place :=
  if name = ['.'] then place else place ++ [String.ofList name]

/-- A name leads to the folder where it is looked up, or to one above it, or one place further.
    So where it leads to no folder, it was a name in the proper sense. -/
theorem Rooted.step_cases (hd : d.Rooted) (h : d.step place name = .ok next) :
    d.at? next = some .folder ∨
      name ≠ ['.'] ∧ name ≠ ['.', '.'] ∧ next = place ++ [String.ofList name] := by
  have hfolder := at?_of_step h
  rw [step, hfolder] at h
  simp only [beq_iff_eq] at h
  split at h
  · obtain rfl := Except.ok.inj h
    exact Or.inl hfolder
  rename_i hdot
  split at h
  · obtain rfl := Except.ok.inj h
    split
    · exact Or.inl rfl
    · exact Or.inl (hd.dropLast hfolder)
  rename_i hdots
  split at h
  · cases h
  · exact Or.inr ⟨hdot, hdots, (Except.ok.inj h).symm⟩

/-- Every step leads to a place in a folder, also where nothing stands yet. -/
theorem Rooted.dropLast_of_step (hd : d.Rooted) (h : d.step place name = .ok next) :
    d.at? next.dropLast = some .folder := by
  rcases hd.step_cases h with hfolder | ⟨-, -, rfl⟩
  · exact hd.dropLast hfolder
  · rw [List.dropLast_concat]
    exact at?_of_step h

/-- What a step leads to and is no folder, it found under the name, so it came from the folder
    around it. -/
theorem Rooted.dropLast_eq_of_step {d : Directory} (hd : d.Rooted) {place next : Place}
    {name : List Char} (h : d.step place name = .ok next) (hnext : d.at? next ≠ some .folder) :
    next.dropLast = place := by
  rcases hd.step_cases h with hfolder | ⟨-, -, rfl⟩
  · exact absurd hfolder hnext
  · exact List.dropLast_concat

/-- The target of a link is looked up from the top, or from where the link is. -/
theorem holds_base {p : Place → Prop} (htop : p root) {place : Place} (hplace : p place)
    (target : List Char) : p (base place target) := by
  rw [base]
  split
  · exact htop
  · exact hplace

end Steps

/-! ## Courses -/

namespace Lookup

/-- To come by a place first changes nothing of where a lookup ends, -/
@[simp] theorem place_via (place : Place) (l : Lookup) : (l.via place).place = l.place := rfl

@[simp] theorem links_via (place : Place) (l : Lookup) : (l.via place).links = l.links := rfl

@[simp] theorem trail_via (place : Place) (l : Lookup) : (l.via place).trail = place :: l.trail := rfl

@[simp] theorem left_via (place : Place) (l : Lookup) : (l.via place).left = l.left := rfl

@[simp] theorem fault_via (place : Place) (l : Lookup) : (l.via place).fault = l.fault := rfl

/-- A lookup that came to some places before. -/
def behind (trail : List Place) (l : Lookup) : Lookup := { l with trail := trail ++ l.trail }

/-- A lookup leads somewhere if nothing stops it, and then to where it ends. -/
theorem result_eq_ok_iff {l : Lookup} {place : Place} :
    l.result = .ok place ↔ l.fault = none ∧ l.place = place := by
  rw [result]
  split
  · rename_i hfault
    rw [hfault]
    exact ⟨fun h => ⟨rfl, Except.ok.inj h⟩, fun h => congrArg _ h.2⟩
  · rename_i fault hfault
    rw [hfault]
    exact ⟨nofun, fun h => nomatch h.1⟩

/-- Otherwise it gives what stopped it. -/
theorem result_eq_error_iff {l : Lookup} {fault : Fault} :
    l.result = .error fault ↔ l.fault = some fault := by
  rw [result]
  split
  · rename_i hfault
    rw [hfault]
    exact ⟨nofun, nofun⟩
  · rename_i stopped hfault
    rw [hfault]
    exact ⟨fun h => congrArg _ (Except.error.inj h), fun h => congrArg _ (Option.some.inj h)⟩

end Lookup

section Courses

variable {d : Directory} {place next : Place} {name : List Char} {rest : List (List Char)}
  {target : String}

/-- **Done**: no name is left. -/
theorem resolve_nil (d : Directory) (links : Nat) (place : Place) :
    d.resolve links place [] = { place, links } := by
  cases links <;> rfl

/-- **Stuck**: the next name cannot be looked up here, and is left with all behind it. -/
theorem resolve_stuck {fault : Fault} (h : d.step place name = .error fault) (links : Nat)
    (rest : List (List Char)) :
    d.resolve links place (name :: rest) =
      { place, links, left := name :: rest, fault := some fault } := by
  cases links <;> rw [resolve, along, h]

/-- **One further**: the name leads to something that is no link, and the lookup goes on from
    there. -/
theorem resolve_enter (h : d.step place name = .ok next)
    (hlink : ∀ target, d.at? next ≠ some (.link target)) (links : Nat) (rest : List (List Char)) :
    d.resolve links place (name :: rest) = .via next (d.resolve links next rest) := by
  cases links <;>
  · rw [resolve, along, h]
    -- what stands there is not a link, so the other case of the match applies
    simp only

/-- **Tired**: the name leads to a link, and no more links may be followed. -/
theorem resolve_tired (h : d.step place name = .ok next) (hlink : d.at? next = some (.link target))
    (rest : List (List Char)) :
    d.resolve 0 place (name :: rest) =
      .via next
        { place := base place target.toList, links := 0, left := linkNames target ++ rest,
          fault := some .tooManyLinks } := by
  rw [resolve, along, h]
  simp only [hlink]

/-- **Away**: the name leads to a link, and the names of its target are looked up before those
    that are left. -/
theorem resolve_jump (h : d.step place name = .ok next) (hlink : d.at? next = some (.link target))
    (links : Nat) (rest : List (List Char)) :
    d.resolve (links + 1) place (name :: rest) =
      .via next (d.resolve links (base place target.toList) (linkNames target ++ rest)) := by
  rw [resolve, along, h]
  simp only [hlink]

/-- **The five ways in which a lookup can go on.** The outer induction is on the links that may
    still be followed, the inner one on the names up to the next link.  A jump may make the names
    more, and it is the links that become fewer. -/
theorem resolve_induction (d : Directory) {motive : Nat → Place → List (List Char) → Prop}
    (done : ∀ links place, motive links place [])
    (stuck : ∀ links place name rest fault, d.step place name = .error fault →
      motive links place (name :: rest))
    (enter : ∀ links place name rest next, d.step place name = .ok next →
      (∀ target, d.at? next ≠ some (.link target)) → motive links next rest →
        motive links place (name :: rest))
    (tired : ∀ place name rest next target, d.step place name = .ok next →
      d.at? next = some (.link target) → motive 0 place (name :: rest))
    (jump : ∀ links place name rest next target, d.step place name = .ok next →
      d.at? next = some (.link target) →
        motive links (base place target.toList) (linkNames target ++ rest) →
          motive (links + 1) place (name :: rest))
    (links : Nat) (place : Place) (names : List (List Char)) : motive links place names := by
  induction links generalizing place names with
  | zero =>
    induction names generalizing place with
    | nil => exact done 0 place
    | cons name rest ih =>
      -- without links left, one that is met is not followed
      cases hstep : d.step place name with
      | error fault => exact stuck 0 place name rest fault hstep
      | ok next =>
        by_cases hlink : ∃ target, d.at? next = some (.link target)
        · obtain ⟨target, hlink⟩ := hlink
          exact tired place name rest next target hstep hlink
        · exact enter 0 place name rest next hstep (fun target h => hlink ⟨target, h⟩) (ih next)
  | succ links jumped =>
    induction names generalizing place with
    | nil => exact done _ place
    | cons name rest ih =>
      cases hstep : d.step place name with
      | error fault => exact stuck _ place name rest fault hstep
      | ok next =>
        by_cases hlink : ∃ target, d.at? next = some (.link target)
        · obtain ⟨target, hlink⟩ := hlink
          exact jump links place name rest next target hstep hlink (jumped _ _)
        · exact enter _ place name rest next hstep (fun target h => hlink ⟨target, h⟩) (ih next)

/-- **A lookup that succeeds** goes on in three of these ways only, since in the other two it is
    stopped.  What it does after its first step succeeds as well. -/
@[elab_as_elim]
theorem found_induction {d : Directory}
    {motive : ∀ links place names, (d.resolve links place names).fault = none → Prop}
    (done : ∀ links place h, motive links place [] h)
    (enter : ∀ links place name rest next, d.step place name = .ok next →
      (∀ target, d.at? next ≠ some (.link target)) →
        ∀ (hrest : (d.resolve links next rest).fault = none) h, motive links next rest hrest →
          motive links place (name :: rest) h)
    (jump : ∀ links place name rest next target, d.step place name = .ok next →
      d.at? next = some (.link target) →
        ∀ (hrest : (d.resolve links (base place target.toList)
          (linkNames target ++ rest)).fault = none) h,
            motive links (base place target.toList) (linkNames target ++ rest) hrest →
              motive (links + 1) place (name :: rest) h)
    (links : Nat) (place : Place) (names : List (List Char))
    (h : (d.resolve links place names).fault = none) : motive links place names h := by
  induction links, place, names using resolve_induction d with
  | done links place => exact done links place h
  | stuck links place name rest fault hstep =>
    have hfault := h
    rw [resolve_stuck hstep] at hfault
    cases hfault
  | enter links place name rest next hstep hlink ih =>
    have hrest := h
    rw [resolve_enter hstep hlink] at hrest
    exact enter links place name rest next hstep hlink hrest h (ih hrest)
  | tired place name rest next target hstep hlink =>
    have hfault := h
    rw [resolve_tired hstep hlink] at hfault
    cases hfault
  | jump links place name rest next target hstep hlink ih =>
    have hrest := h
    rw [resolve_jump hstep hlink] at hrest
    exact jump links place name rest next target hstep hlink hrest h (ih hrest)

end Courses

/-! ## Parts -/

section Parts

variable {d : Directory}

/-- **Names in a row** are looked up one after the other, with as many links as the first of them
    have left over. -/
theorem resolve_append {links : Nat} {place : Place} {front : List (List Char)}
    (h : (d.resolve links place front).fault = none) (rest : List (List Char)) :
    d.resolve links place (front ++ rest) =
      (d.resolve (d.resolve links place front).links (d.resolve links place front).place rest).behind
        (d.resolve links place front).trail := by
  induction links, place, front, h using found_induction with
  | done links place =>
    rw [resolve_nil]
    rfl
  | enter links place name front next hstep hlink _ _ ih =>
    rw [resolve_enter hstep hlink, List.cons_append, resolve_enter hstep hlink, ih]
    rfl
  | jump links place name front next target hstep hlink _ _ ih =>
    rw [resolve_jump hstep hlink, List.cons_append, resolve_jump hstep hlink,
      ← List.append_assoc, ih]
    rfl

/-- A lookup that is stopped has not come to what follows, which is only added to what it leaves. -/
theorem resolve_append_of_fault {links : Nat} {place : Place} {front : List (List Char)}
    (h : (d.resolve links place front).fault ≠ none) (rest : List (List Char)) :
    d.resolve links place (front ++ rest) =
      { d.resolve links place front with left := (d.resolve links place front).left ++ rest } := by
  induction links, place, front using resolve_induction d with
  | done links place =>
    rw [resolve_nil] at h
    exact absurd rfl h
  | stuck links place name front fault hstep =>
    rw [List.cons_append, resolve_stuck hstep, resolve_stuck hstep]
    rfl
  | enter links place name front next hstep hlink ih =>
    rw [resolve_enter hstep hlink] at h ⊢
    rw [List.cons_append, resolve_enter hstep hlink, ih h]
    rfl
  | tired place name front next target hstep hlink =>
    rw [List.cons_append, resolve_tired hstep hlink, resolve_tired hstep hlink, ← List.append_assoc]
    rfl
  | jump links place name front next target hstep hlink ih =>
    rw [resolve_jump hstep hlink] at h ⊢
    rw [List.cons_append, resolve_jump hstep hlink, ← List.append_assoc, ih h]
    rfl

theorem fault_of_append {links : Nat} {place : Place} {front rest : List (List Char)}
    (h : (d.resolve links place (front ++ rest)).fault = none) :
    (d.resolve links place front).fault = none := by
  refine Classical.byContradiction fun hfault => ?_
  rw [resolve_append_of_fault hfault] at h
  exact hfault h

/-- Names in a row that are found: first the ones in front, then the others from where those
    ended. -/
theorem fault_append {links : Nat} {place : Place} {front rest : List (List Char)}
    (h : (d.resolve links place (front ++ rest)).fault = none) :
    (d.resolve (d.resolve links place front).links (d.resolve links place front).place rest).fault =
      none := by
  rw [resolve_append (fault_of_append h)] at h
  exact h

/-- A last name that is found was looked up in a folder, that of the names before it. -/
theorem exists_step_of_concat {links : Nat} {place : Place} {front : List (List Char)}
    {name : List Char} (h : (d.resolve links place (front ++ [name])).fault = none) :
    ∃ next, d.step (d.resolve links place front).place name = .ok next := by
  have hlast := fault_append h
  cases hstep : d.step (d.resolve links place front).place name with
  | ok next => exact ⟨next, rfl⟩
  | error fault =>
    rw [resolve_stuck hstep] at hlast
    cases hlast

end Parts

/-! ## Ends -/

section Ends

variable {d : Directory}

/-- **What holds along a lookup.** What holds at the top, and wherever a step leads if no link
    stands there, holds at the end of a lookup if it held at its start. -/
theorem holds_of_found {p : Place → Prop} (htop : p root)
    (hnext : ∀ {place name next}, d.step place name = .ok next →
      (∀ target, d.at? next ≠ some (.link target)) → p next)
    {links : Nat} {place : Place} {names : List (List Char)} (hplace : p place)
    (h : (d.resolve links place names).fault = none) : p (d.resolve links place names).place := by
  induction links, place, names, h using found_induction with
  | done links place =>
    rw [resolve_nil]
    exact hplace
  | enter links place name rest next hstep hlink _ _ ih =>
    rw [resolve_enter hstep hlink]
    exact ih (hnext hstep hlink)
  | jump links place name rest next target hstep hlink _ _ ih =>
    rw [resolve_jump hstep hlink]
    exact ih (holds_base htop hplace target.toList)

/-- No lookup ends at a link, unless it began there and had no name to look up: each link that it
    comes to is followed, or stops it. -/
theorem not_link_of_fault_none {links : Nat} {place : Place} {names : List (List Char)}
    (hplace : ∀ target, d.at? place ≠ some (.link target))
    (h : (d.resolve links place names).fault = none) :
    ∀ target, d.at? (d.resolve links place names).place ≠ some (.link target) :=
  holds_of_found (p := fun place => ∀ target, d.at? place ≠ some (.link target)) (fun _ => nofun)
    (fun _ hlink => hlink) hplace h

/-- What a lookup leads to is in a folder, as each of its steps leads into one. -/
theorem Rooted.dropLast_of_resolve (hd : d.Rooted) {links : Nat} {place : Place}
    {names : List (List Char)} (hplace : d.at? place.dropLast = some .folder)
    (h : (d.resolve links place names).fault = none) :
    d.at? (d.resolve links place names).place.dropLast = some .folder :=
  holds_of_found (p := fun place => d.at? place.dropLast = some .folder) rfl
    (fun hstep _ => hd.dropLast_of_step hstep) hplace h

end Ends

/-! ## What a lookup depends on -/

section Dependence

variable {d d' : Directory}

/-- **A lookup depends on the places that it comes to.** If the same stands there and where it
    starts, it takes the same course. -/
theorem resolve_congr {links : Nat} {place : Place} {names : List (List Char)}
    (hplace : d'.at? place = d.at? place)
    (h : ∀ passed ∈ (d.resolve links place names).trail, d'.at? passed = d.at? passed) :
    d'.resolve links place names = d.resolve links place names := by
  induction links, place, names using resolve_induction d with
  | done links place => rw [resolve_nil, resolve_nil]
  | stuck links place name rest fault hstep =>
    rw [resolve_stuck hstep, resolve_stuck ((step_eq_of_at? hplace name).trans hstep)]
  | enter links place name rest next hstep hlink ih =>
    have hstep' := (step_eq_of_at? hplace name).trans hstep
    rw [resolve_enter hstep hlink] at h ⊢
    obtain ⟨hnext, hrest⟩ := List.forall_mem_cons.mp h
    rw [resolve_enter hstep' fun target => hnext ▸ hlink target, ih hnext hrest]
  | tired place name rest next target hstep hlink =>
    have hstep' := (step_eq_of_at? hplace name).trans hstep
    rw [resolve_tired hstep hlink] at h ⊢
    obtain ⟨hnext, -⟩ := List.forall_mem_cons.mp h
    rw [resolve_tired hstep' (hnext.trans hlink)]
  | jump links place name rest next target hstep hlink ih =>
    have hstep' := (step_eq_of_at? hplace name).trans hstep
    rw [resolve_jump hstep hlink] at h ⊢
    obtain ⟨hnext, hrest⟩ := List.forall_mem_cons.mp h
    have hbase : d'.at? (base place target.toList) = d.at? (base place target.toList) :=
      holds_base (p := fun start => d'.at? start = d.at? start) rfl hplace target.toList
    rw [resolve_jump hstep' (hnext.trans hlink), ih hbase hrest]

/-- No folder is lost, and no link comes or goes. -/
structure Keeps (d d' : Directory) : Prop where
  folder : ∀ {place}, d.at? place = some .folder → d'.at? place = some .folder
  link : ∀ {place target}, d'.at? place = some (.link target) ↔ d.at? place = some (.link target)

theorem Keeps.trans {d'' : Directory} (h : Keeps d d') (h' : Keeps d' d'') : Keeps d d'' :=
  ⟨fun hplace => h'.folder (h.folder hplace), h'.link.trans h.link⟩

/-- A step leads where it led, as it starts in a folder, which is still there. -/
theorem Keeps.step_eq_ok (h : Keeps d d') {place next : Place} {name : List Char}
    (hstep : d.step place name = .ok next) : d'.step place name = .ok next := by
  have hfolder := at?_of_step hstep
  exact (step_eq_of_at? ((h.folder hfolder).trans hfolder.symm) name).trans hstep

/-- What is no link does not become one. -/
theorem Keeps.not_link (h : Keeps d d') {place : Place}
    (hlink : ∀ target, d.at? place ≠ some (.link target)) :
    ∀ target, d'.at? place ≠ some (.link target) :=
  fun target => mt h.link.mp (hlink target)

/-- A place at which a file stands, or can. -/
structure Free (d : Directory) (place : Place) : Prop where
  folder : d.at? place ≠ some .folder
  link : ∀ target, d.at? place ≠ some (.link target)

theorem free_of_none {place : Place} (h : d.at? place = none) : d.Free place :=
  ⟨by rw [h]; exact nofun, fun _ => by rw [h]; exact nofun⟩

/-- To put what is no link at a free place keeps all folders and links. -/
theorem keeps_put {place : Place} (hfree : d.Free place) (content : Content)
    (hcontent : ∀ target, content ≠ .link target) : Keeps d (d.put place content) := by
  constructor
  · intro other hother
    rw [at?_put hfree.folder, if_neg, hother]
    rintro rfl
    exact hfree.folder hother
  · intro other target
    rw [at?_put hfree.folder]
    split
    · rename_i hsame
      subst hsame
      exact iff_of_false (fun h => hcontent target (Option.some.inj h)) (hfree.link target)
    · rfl

theorem keeps_store {place : Place} (hfree : d.Free place) (bytes : ByteArray) :
    Keeps d (d.store place bytes) := by
  obtain ⟨hfolder, hlink⟩ := keeps_put hfree (.file (d.numberFor place)) nofun
  exact ⟨hfolder, hlink⟩

/-- A lookup that leads somewhere leads there still: it came by folders and links only, and at
    its end it asks for nothing. -/
theorem resolve_eq_of_found (hkeeps : Keeps d d') {links : Nat} {place : Place}
    {names : List (List Char)} (h : (d.resolve links place names).fault = none) :
    d'.resolve links place names = d.resolve links place names := by
  induction links, place, names, h using found_induction with
  | done links place => rw [resolve_nil, resolve_nil]
  | enter links place name rest next hstep hlink _ _ ih =>
    rw [resolve_enter hstep hlink, resolve_enter (hkeeps.step_eq_ok hstep) (hkeeps.not_link hlink),
      ih]
  | jump links place name rest next target hstep hlink _ _ ih =>
    rw [resolve_jump hstep hlink,
      resolve_jump (hkeeps.step_eq_ok hstep) (hkeeps.link.mpr hlink), ih]

end Dependence

end CardSearch.Directory
