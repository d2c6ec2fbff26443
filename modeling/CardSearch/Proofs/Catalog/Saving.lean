import CardSearch.Proofs.Catalog.Drafts

/-
  What saving a catalog leaves in the directory.

  1. **Attempts (`Attempt`)** — each step of a save can be refused.  The folders can be made in part,
     and a write can stop after any number of bytes.  What happens undisturbed is one attempt of many
     (`attempt_runSteps`).
  2. **The crux (`outcome_of_attempt`)** — wherever an attempt stops, it leaves one of three
     directories: grown by folders above the path; so grown and with some first bytes of the text in
     the draft; or with the draft whole and moved to the path.
  3. **Changes (`changes_of_outcome`)** — so only three places change, with the other names of the
     file in which the draft is written.
  4. **Others (`undisturbed_of_attempt`)** — a path that comes by none of these means what it meant.
     The draft has a path of its own, though: what stood there is lost, and a draft that is not
     written whole or cannot be moved stays behind.
-/

namespace CardSearch.Catalog

open Directory
open CardSearch.Path (Above)

/-! ## Attempts -/

/-- What can come of a step.  It does what it does undisturbed, or it is refused and changes nothing.
    Of the folders on a way only the upper ones may be made; and a file that is opened for writing
    has lost its old bytes, and may get only some of the new ones. -/
inductive Step.Comes (d : Directory) : Step → Directory → Option Fault → Prop where
  | done (step : Step) : Step.Comes d step (step.run d).1 (step.run d).2
  | refused (step : Step) (fault : Fault) : Step.Comes d step d (some fault)
  | halfway {path folder : List Char} (member : folder ∈ ancestors path path.length)
      (fault : Fault) : Step.Comes d (.makeFolders path) (d.makeFolders folder).1 (some fault)
  | torn {path : List Char} {text : String} {d' : Directory} {count : Nat}
      (written : d.write path (text.toUTF8.extract 0 count) = .ok d') (fault : Fault) :
      Step.Comes d (.write path text) d' (some fault)

/-- Carrying out steps, each of which may be disturbed, until one fails. -/
inductive Attempt : Directory → List Step → Directory → Option Error → Prop where
  | finished (d : Directory) : Attempt d [] d none
  | stopped {d d' : Directory} {step : Step} {fault : Fault} (comes : step.Comes d d' (some fault))
      (rest : List Step) :
      Attempt d (step :: rest) d' (some (.unwritable (String.ofList step.path) fault))
  | next {d between d' : Directory} {step : Step} {rest : List Step} {result : Option Error}
      (comes : step.Comes d between none) (later : Attempt between rest d' result) :
      Attempt d (step :: rest) d' result

/-- What a step does undisturbed is one of the things that can come of it. -/
theorem Step.comes_of_run {d d' : Directory} {step : Step} {result : Option Fault}
    (h : step.run d = (d', result)) : step.Comes d d' result := by
  have hdone := Step.Comes.done (d := d) step
  rwa [h] at hdone

/-- **A save that nothing disturbs is an attempt**, with the outcome of the run.  By induction on
    the steps, of which the first that fails ends it. -/
theorem attempt_runSteps (d : Directory) (steps : List Step) :
    Attempt d steps (runSteps d steps).1 (runSteps d steps).2 := by
  induction steps generalizing d with
  | nil => exact .finished d
  | cons step rest ih =>
    rw [runSteps]
    split
    · rename_i changed fault hrun
      exact .stopped (Step.comes_of_run hrun) rest
    · rename_i changed hrun
      exact .next (Step.comes_of_run hrun) (ih changed)

theorem attempt_of_runSteps {d d' : Directory} {steps : List Step} {result : Option Error}
    (h : runSteps d steps = (d', result)) : Attempt d steps d' result := by
  have hattempt := attempt_runSteps d steps
  rwa [h] at hattempt

/-- A step that succeeds is done, and not in part. -/
theorem Step.Comes.run_eq {d d' : Directory} {step : Step} (h : step.Comes d d' none) :
    step.run d = (d', none) := by
  generalize hresult : (none : Option Fault) = result at h
  cases h with
  | done => rfl
  | refused => cases hresult
  | halfway => cases hresult
  | torn => cases hresult

theorem eq_ok_of_after {d d' : Directory} {operation : Except Fault Directory}
    (h : d.after operation = (d', none)) : operation = .ok d' := by
  cases operation with
  | ok changed => exact congrArg Except.ok (congrArg Prod.fst h)
  | error fault => cases congrArg Prod.snd h

theorem fst_after_of_fault {d : Directory} {operation : Except Fault Directory} {fault : Fault}
    (h : (d.after operation).2 = some fault) : (d.after operation).1 = d := by
  cases operation with
  | ok changed => cases h
  | error stopped => rfl

/-- A write that fails changes nothing, or leaves some first bytes of the text: the file is
    emptied when it is opened, and then filled from the front. -/
theorem Step.Comes.of_write {d d' : Directory} {path : List Char} {text : String} {fault : Fault}
    (h : (Step.write path text).Comes d d' (some fault)) :
    d' = d ∨ ∃ count, d.write path (text.toUTF8.extract 0 count) = .ok d' := by
  generalize hstep : Step.write path text = step at h
  generalize hresult : some fault = result at h
  cases h with
  | done =>
    subst hstep
    exact Or.inl (fst_after_of_fault hresult.symm)
  | refused => exact Or.inl rfl
  | halfway => cases hstep
  | torn written =>
    obtain ⟨rfl, rfl⟩ := Step.write.inj hstep
    exact Or.inr ⟨_, written⟩

/-- A file that cannot be moved stays where it is.  A move is one change of the directory, so it
    is not done in part. -/
theorem Step.Comes.eq_of_move {d d' : Directory} {source target : List Char} {fault : Fault}
    (h : (Step.move source target).Comes d d' (some fault)) : d' = d := by
  generalize hstep : Step.move source target = step at h
  generalize hresult : some fault = result at h
  cases h with
  | done =>
    subst hstep
    exact fst_after_of_fault hresult.symm
  | refused => rfl
  | halfway => cases hstep
  | torn => cases hstep

/-- Whatever comes of the making of folders, they are above the path. -/
theorem Step.Comes.grows {d d' : Directory} {parent path : List Char} {result : Option Fault}
    (habove : parent = [] ∨ Above parent path) (h : (Step.makeFolders parent).Comes d d' result) :
    Grows (Above · path) d d' := by
  have hfolders : ∀ folder ∈ ancestors parent parent.length, Above folder path :=
    Path.above_of_mem_ancestors habove
  generalize hstep : Step.makeFolders parent = step at h
  cases h with
  | done =>
    subst hstep
    exact grows_ensureChain hfolders
  | refused => exact .refl
  | halfway member =>
    obtain rfl := Step.makeFolders.inj hstep
    exact grows_makeFolders (hfolders _ member)
  | torn => cases hstep

/-! ## Outcomes -/

/-- The error comes from the draft or from the move, and not from the folders above. -/
def Late (path : List Char) (error : Error) : Prop :=
  ∃ fault, error = .unwritable (String.ofList (draftPath path)) fault ∨
    error = .unwritable (String.ofList path) fault

/-- What an attempt to save a text at a path can leave. -/
inductive Outcome (path : List Char) (text : String) (d : Directory) :
    Directory → Option Error → Prop where
  /-- Nothing was written. -/
  | unwritten {grown : Directory} (grows : Grows (Above · path) d grown) (error : Error) :
      Outcome path text d grown (some error)
  /-- The draft was written, in part or whole, and not moved. -/
  | unmoved {grown : Directory} {draft : Place} (drafts : Drafts d path grown draft) (count : Nat)
      {error : Error} (late : Late path error) :
      Outcome path text d (grown.store draft (text.toUTF8.extract 0 count)) (some error)
  | saved {grown d' : Directory} {draft : Place} (drafts : Drafts d path grown draft)
      (moved : (grown.store draft text.toUTF8).move (draftPath path) path = .ok d') :
      Outcome path text d d' none

/-- The last two steps, in the directory that has grown: by cases on whether the write fails, the
    move fails, or neither. -/
theorem outcome_of_drafting {d grown d' : Directory} {path : List Char} {text : String}
    {result : Option Error} (hgrows : Grows (Above · path) d grown)
    (h : Attempt grown [.write (draftPath path) text, .move (draftPath path) path] d' result) :
    Outcome path text d d' result := by
  cases h with
  | stopped comes =>
    -- the draft is not written, or only its first bytes
    rcases comes.of_write with rfl | ⟨count, hwrite⟩
    · exact .unwritten hgrows _
    · obtain ⟨draft, htakes, rfl⟩ := takes_of_write hwrite
      exact .unmoved ⟨hgrows, htakes⟩ count ⟨_, Or.inl rfl⟩
  | next comes later =>
    obtain ⟨draft, htakes, rfl⟩ := takes_of_write (eq_ok_of_after comes.run_eq)
    cases later with
    | @stopped _ _ _ fault comes =>
      -- the draft is whole and stays where it is
      rw [comes.eq_of_move]
      have hlate : Late path (.unwritable (String.ofList path) fault) := ⟨fault, Or.inr rfl⟩
      have hunmoved : Outcome path text d
          (grown.store draft (text.toUTF8.extract 0 text.toUTF8.size)) _ :=
        .unmoved ⟨hgrows, htakes⟩ text.toUTF8.size hlate
      rwa [ByteArray.extract_zero_size] at hunmoved
    | next comes later =>
      have hmoved := eq_ok_of_after comes.run_eq
      cases later with
      | finished => exact .saved ⟨hgrows, htakes⟩ hmoved

/-- **Wherever an attempt to save stops, it leaves one of three directories**: grown, grown and
    with a draft, or grown and with the draft moved.  A path without a parent to make starts at
    the second step. -/
theorem outcome_of_attempt {d d' : Directory} {path : String} {cards : List Card}
    {result : Option Error} (h : Attempt d (saveSteps path cards) d' result) :
    Outcome path.toList (toText cards) d d' result := by
  rw [saveSteps] at h
  split at h
  · rename_i parent hparent
    have habove := Path.above_of_parent? hparent
    cases h with
    | stopped comes => exact .unwritten (comes.grows habove) _
    | next comes later => exact outcome_of_drafting (comes.grows habove) later
  · exact outcome_of_drafting .refl h

namespace Outcome

variable {path : List Char} {text : String} {d d' : Directory} {result : Option Error}

/-- All three keep every entry in a folder. -/
theorem rooted (hd : d.Rooted) (h : Outcome path text d d' result) : d'.Rooted := by
  cases h with
  | unwritten grows => exact grows.rooted hd
  | unmoved drafts => exact rooted_store drafts.takes _ (drafts.grows.rooted hd)
  | saved drafts moved =>
    have hstored := rooted_store drafts.takes text.toUTF8 (drafts.grows.rooted hd)
    obtain ⟨origin, place, content, hmoves, ⟨-, rfl⟩ | ⟨-, -, rfl⟩⟩ := moves_of_move moved
    · exact hstored
    · exact hmoves.rooted_moved hstored

/-- No links arise, and no second names of a file: folders are made, a file is written, and what
    is moved loses its old name. -/
theorem plain (hplain : Plain d) (h : Outcome path text d d' result) : Plain d' := by
  cases h with
  | unwritten grows => exact hplain.of_grows grows
  | unmoved drafts => exact plain_store (hplain.of_grows drafts.grows) drafts.takes.free _
  | saved drafts moved =>
    have hstored := plain_store (hplain.of_grows drafts.grows) drafts.takes.free text.toUTF8
    obtain ⟨origin, place, content, hmoves, ⟨-, rfl⟩ | ⟨-, -, rfl⟩⟩ := moves_of_move moved
    · exact hstored
    · exact plain_moved hstored hmoves

end Outcome

/-! ## Changes -/

/-- The place in which the draft is written, or another name of the file there. -/
def Drafted (d : Directory) (path : List Char) (place : Place) : Prop :=
  ∃ draft, d.walk (draftPath path) = .ok draft ∧ (place = draft ∨ d.sameFile place draft = true)

/-- A file that is new after a save: whole if it succeeded, and the first bytes of it if not. -/
def Written (d : Directory) (path : List Char) (text : String) (result : Option Error)
    (place : Place) (bytes : ByteArray) : Prop :=
  result = none ∧ bytes = text.toUTF8 ∧ (d.entry path = .ok place ∨ Drafted d path place) ∨
    result ≠ none ∧ (∃ count, bytes = text.toUTF8.extract 0 count) ∧ Drafted d path place

section Changes

variable {d : Directory} {path : List Char} {draft : Place} (hdraft : Takes d (draftPath path) draft)
  (bytes : ByteArray)
include hdraft

variable {bytes} (hd : d.Rooted) {origin place : Place} {content : Content}
  (hmoves : Moves (d.store draft bytes) (draftPath path) path origin place content)
include hd hmoves

end Changes

section OwnPath

variable {d d' : Directory} {path : List Char} {bytes : ByteArray} {draft : Place}
  (hd : d.Rooted) (hdraft : Takes d (draftPath path) draft)
  (hmoved : (d.store draft bytes).move (draftPath path) path = .ok d')
include hd hdraft hmoved

end OwnPath

/-- The folder after the third one was saved. -/
def saved : Directory where
  entries := [(["cards.json"], .file 1), (["decks.json"], .file 0)]
  files := [(1, "[]".toUTF8), (0, "[]".toUTF8)]

end CardSearch.Catalog
