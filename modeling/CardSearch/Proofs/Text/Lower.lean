import CardSearch.Text.Blank
import CardSearch.Text.Case
import Mathlib.Data.List.Chain
import Mathlib.Data.List.TakeWhile

/-
  Lower case is final: a text in lower case is its own lower case.

  1. **Lowered characters (`lowerFrom_eq_self`)** — a text keeps its characters in lower case if each
     does on its own and none is `Σ`, whose lower case depends on its neighbours.
  2. **The crux (`covers_image`)** — no code point that the table gives is one that the table maps.
     The stretches ascend, so for the images of a stretch it is enough to look at the first stretch
     that does not end before them: they lie in front of it, or beside its own code points where it
     maps every second one (`CaseRun.isClear`).
  3. **Texts (`lower_lower`)** — so every character of a lower case is lowered.
  4. **Other characters (`mem_of_mem_lower`)** — the characters of ASCII behind its letters come from
     no letter: they stand in a lower case only if they stand in the text.
-/

namespace CardSearch.Text

/-! ## Texts that are their own lower case -/

/-- A character that is its own lower case wherever it stands. -/
def IsLowered (c : Char) : Prop := lowerChar c = [c] ∧ c ≠ 'Σ'

/-- A text of such characters stays as it is.  By induction on the text, whatever stands before
    it. -/
theorem lowerFrom_eq_self {text : List Char} (h : ∀ c ∈ text, IsLowered c) (before : List Char) :
    lowerFrom before text = text := by
  induction text generalizing before with
  | nil => rfl
  | cons c rest ih =>
    obtain ⟨⟨hkept, hsigma⟩, hrest⟩ := List.forall_mem_cons.mp h
    rw [lowerFrom, if_neg (by simp [hsigma]), hkept, ih hrest]
    rfl

/-- So a text whose characters are all lowered is its own lower case. -/
theorem lower_eq_self {text : List Char} (h : ∀ c ∈ text, IsLowered c) : lower text = text :=
  lowerFrom_eq_self h []

/-- The capitals of ASCII become the letters thirty-two places on, and nothing else changes. -/
theorem toLower_cases (c : Char) :
    (65 ≤ c.toNat ∧ c.toNat ≤ 90 ∧ c.toLower.toNat = c.toNat + 32) ∨
      ((c.toNat < 65 ∨ 90 < c.toNat) ∧ c.toLower = c) := by
  by_cases hcapital : c.val ≥ 'A'.val ∧ c.val ≤ 'Z'.val
  · have hlow : 65 ≤ c.toNat := hcapital.1
    have hhigh : c.toNat ≤ 90 := hcapital.2
    have hvalue : c.toLower.val = c.val + 32 := congrArg Char.val (dif_pos hcapital)
    have hletter : c.toLower.toNat = (c.toNat + 32) % 2 ^ 32 := by
      show c.toLower.val.toNat = _
      rw [hvalue]
      rfl
    exact Or.inl ⟨hlow, hhigh, by omega⟩
  · refine Or.inr ⟨?_, dif_neg hcapital⟩
    by_contra hrange
    exact hcapital ⟨show 65 ≤ c.toNat by omega, show c.toNat ≤ 90 by omega⟩

/-- An ASCII character that is no capital. -/
def IsSmall (c : Char) : Prop := c.toNat < 0x80 ∧ c.toLower = c

/-- The ASCII characters other than capitals are lowered. -/
theorem IsSmall.isLowered {c : Char} (h : IsSmall c) : IsLowered c := by
  obtain ⟨hascii, hkept⟩ := h
  constructor
  · rw [lowerChar, if_pos hascii, hkept]
  · rintro rfl
    exact absurd hascii (by decide)

/-- The lower case of an ASCII character. -/
theorem isSmall_toLower {c : Char} (h : c.toNat < 0x80) : IsSmall c.toLower := by
  rcases toLower_cases c with ⟨_, _, hletter⟩ | ⟨_, hkept⟩
  · refine ⟨by omega, ?_⟩
    rcases toLower_cases c.toLower with ⟨_, _, _⟩ | ⟨_, hkept⟩
    · omega
    · exact hkept
  · rw [hkept]
    exact ⟨h, hkept⟩

/-! ## The table -/

/-- A code point that no stretch covers is mapped to nothing.  By induction on the stretches. -/
theorem mapRuns_eq_none {n : Nat} {runs : List CaseRun} (h : ∀ r ∈ runs, r.covers n = false) :
    mapRuns n runs = none := by
  induction runs with
  | nil => rfl
  | cons r rest ih =>
    obtain ⟨hr, hrest⟩ := List.forall_mem_cons.mp h
    rw [mapRuns, hr, ih hrest]
    split <;> rfl

/-- An image is that of a stretch that covers the code point.  By induction on the stretches, of
    which the first that covers it gives the image. -/
theorem exists_run_of_mapRuns {n image : Nat} {runs : List CaseRun}
    (h : mapRuns n runs = some image) :
    ∃ r ∈ runs, r.covers n = true ∧ image = (n + r.shift).toNat := by
  induction runs with
  | nil => cases h
  | cons r rest ih =>
    rw [mapRuns] at h
    split at h
    · cases h
    split at h
    · rename_i hcovers
      exact ⟨r, List.mem_cons_self, hcovers, (Option.some.inj h).symm⟩
    · obtain ⟨r', hr', hcovers, himage⟩ := ih h
      exact ⟨r', List.mem_cons_of_mem _ hr', hcovers, himage⟩

/-- The image of the first code point of a stretch. -/
def CaseRun.firstImage (r : CaseRun) : Nat := (r.first + r.shift).toNat

/-- The image of the last code point of a stretch. -/
def CaseRun.lastImage (r : CaseRun) : Nat := (r.last + r.shift).toNat

/-- Whether the images of a stretch are every second code point, or only one. -/
def CaseRun.alternates (r : CaseRun) : Bool := r.step == 2 || r.first == r.last

/-- Whether no image of a stretch is covered by ascending stretches. -/
def CaseRun.isClear (r : CaseRun) (runs : List CaseRun) : Bool :=
  match runs.dropWhile (·.last.blt r.firstImage) with
  | [] => true
  | s :: rest =>
    r.lastImage < s.first ||
      (r.alternates && s.step == 2 && (r.firstImage + s.first) % 2 == 1 &&
        rest.head?.all (r.lastImage < ·.first))

/-- A stretch covers its code points from the first to the last, at every step of it. -/
theorem covers_iff {r : CaseRun} {n : Nat} :
    r.covers n = true ↔ r.first ≤ n ∧ n ≤ r.last ∧ (n - r.first) % r.step = 0 := by
  simp [CaseRun.covers, and_assoc]

theorem covers_eq_false {r : CaseRun} {n : Nat} (h : n < r.first ∨ r.last < n) :
    r.covers n = false := by
  refine Bool.eq_false_iff.mpr fun hcovers => ?_
  obtain ⟨hfirst, hlast, _⟩ := covers_iff.mp hcovers
  omega

theorem image_bounds {r : CaseRun} {n : Nat} (h : r.covers n = true) :
    r.firstImage ≤ (n + r.shift).toNat ∧ (n + r.shift).toNat ≤ r.lastImage := by
  obtain ⟨hfirst, hlast, _⟩ := covers_iff.mp h
  rw [CaseRun.firstImage, CaseRun.lastImage]
  omega

/-- Beside the code points of a stretch that maps every second one. -/
theorem image_parity {r : CaseRun} {n : Nat} (h : r.covers n = true) (hr : r.alternates = true)
    (hpositive : 0 < r.firstImage) : (n + r.shift).toNat % 2 = r.firstImage % 2 := by
  obtain ⟨hfirst, hlast, hstep⟩ := covers_iff.mp h
  rw [CaseRun.firstImage] at hpositive ⊢
  rcases Bool.or_eq_true_iff.mp hr with htwo | hsingle
  · rw [eq_of_beq htwo] at hstep
    omega
  · have hends : r.first = r.last := eq_of_beq hsingle
    omega

/-- **The crux**: an image of a stretch that is clear of ascending stretches is not covered.  The
    stretches that end before the images cover none of them; the first that does not is the one
    that was looked at; and those behind it begin later still. -/
theorem covers_image {r : CaseRun} {runs : List CaseRun}
    (hascending : runs.Pairwise (·.first < ·.first)) (hpositive : 0 < r.firstImage)
    (hclear : r.isClear runs = true) {n : Nat} (hn : r.covers n = true) :
    ∀ s ∈ runs, s.covers (n + r.shift).toNat = false := by
  obtain ⟨hlow, hhigh⟩ := image_bounds hn
  intro s hs
  rw [← List.takeWhile_append_dropWhile (p := (·.last.blt r.firstImage)) (l := runs)] at hs
  rcases List.mem_append.mp hs with hbefore | hafter
  · -- a stretch that ends before the first image
    have hends : s.last < r.firstImage := by
      have himp := List.mem_takeWhile_imp (p := fun s : CaseRun => s.last.blt r.firstImage) hbefore
      exact Nat.blt_eq.mp himp
    exact covers_eq_false (Or.inr (by omega))
  · rw [CaseRun.isClear] at hclear
    have hsorted := hascending.sublist (List.dropWhile_sublist (·.last.blt r.firstImage))
    cases hrest : runs.dropWhile (·.last.blt r.firstImage) with
    | nil =>
      rw [hrest] at hafter
      cases hafter
    | cons t rest =>
      rw [hrest] at hafter hclear hsorted
      obtain ⟨hfirst, hsorted⟩ := List.pairwise_cons.mp hsorted
      rcases Bool.or_eq_true_iff.mp hclear with hfront | hbeside
      · -- the images lie in front of this stretch, and so of all behind it
        have hfront : r.lastImage < t.first := of_decide_eq_true hfront
        rcases List.mem_cons.mp hafter with rfl | hmem
        · exact covers_eq_false (Or.inl (by omega))
        · have hlater := hfirst s hmem
          exact covers_eq_false (Or.inl (by omega))
      · -- the images lie between the code points of this stretch, and in front of all behind it
        simp only [Bool.and_eq_true, beq_iff_eq] at hbeside
        obtain ⟨⟨⟨halternates, htwo⟩, hodd⟩, hnext⟩ := hbeside
        rcases List.mem_cons.mp hafter with rfl | hmem
        · have hparity := image_parity hn halternates hpositive
          refine Bool.eq_false_iff.mpr fun hcovers => ?_
          obtain ⟨hstart, _, hstep⟩ := covers_iff.mp hcovers
          rw [htwo] at hstep
          omega
        · cases rest with
          | nil => cases hmem
          | cons u rest =>
            have hfront : r.lastImage < u.first := of_decide_eq_true hnext
            have hle : u.first ≤ s.first := by
              rcases List.mem_cons.mp hmem with rfl | hmore
              · exact Nat.le_refl _
              · exact Nat.le_of_lt ((List.pairwise_cons.mp hsorted).1 s hmore)
            exact covers_eq_false (Or.inl (by omega))

set_option maxRecDepth 4000 in
theorem ascending_lowerRuns : lowerRuns.Pairwise (·.first < ·.first) := by
  have hchain : lowerRuns.IsChain (·.first < ·.first) := by decide
  exact List.isChain_iff_pairwise.mp hchain

set_option maxRecDepth 4000 in
/-- No image is a capital of ASCII, and none is the letter `İ`, which the table leaves out.  What
    lies in ASCII is a letter. -/
theorem firstImage_lowerRuns :
    ∀ r ∈ lowerRuns, 90 < r.firstImage ∧ (r.lastImage < 0x130 ∨ 0x130 < r.firstImage) ∧
      (r.lastImage ≤ 122 ∨ 0x80 ≤ r.firstImage) := by
  decide

set_option maxRecDepth 4000 in
/-- The capital sigma is in the table; its two small forms and the dot above are not. -/
theorem mapRuns_lowerRuns_sigma :
    mapRuns 'Σ'.toNat lowerRuns ≠ none ∧
      ∀ n ∈ ['ς'.toNat, 'σ'.toNat, 0x307], mapRuns n lowerRuns = none := by
  decide

/-- Each stretch of the table is clear of the whole table, which is decided stretch by stretch
    and not code point by code point. -/
theorem isClear_lowerRuns : ∀ r ∈ lowerRuns, r.isClear lowerRuns = true := by decide +kernel

/-- Behind the capitals of ASCII, a character that the table maps to nothing is lowered; `İ`
    alone has a rule of its own. -/
theorem isLowered_of_none {c : Char} (hcapital : 90 < c.toNat) (hdotted : c.toNat ≠ 0x130)
    (hnone : mapRuns c.toNat lowerRuns = none) : IsLowered c := by
  constructor
  · rw [lowerChar]
    split
    · rcases toLower_cases c with ⟨_, _, _⟩ | ⟨_, hkept⟩
      · omega
      · rw [hkept]
    · rw [if_neg (by simp [hdotted]), hnone]
  · rintro rfl
    exact mapRuns_lowerRuns_sigma.1 hnone

/-- What the table gives is lowered, as no stretch covers it. -/
theorem isLowered_of_mapRuns {n image : Nat} (h : mapRuns n lowerRuns = some image) :
    IsLowered (Char.ofNat image) := by
  obtain ⟨r, hr, hcovers, rfl⟩ := exists_run_of_mapRuns h
  obtain ⟨hcapital, hdotted, _⟩ := firstImage_lowerRuns r hr
  obtain ⟨hlow, hhigh⟩ := image_bounds hcovers
  have hnone : mapRuns (n + r.shift).toNat lowerRuns = none :=
    mapRuns_eq_none (covers_image ascending_lowerRuns (by omega) (isClear_lowerRuns r hr) hcovers)
  generalize (n + r.shift).toNat = image at hlow hhigh hnone
  unfold Char.ofNat
  by_cases hvalid : image.isValidChar
  · rw [dif_pos hvalid]
    exact isLowered_of_none (c := Char.ofNatAux image hvalid) (by show 90 < image; omega)
      (by show image ≠ 0x130; omega) hnone
  · -- a number that is no code point stands for the character zero
    rw [dif_neg hvalid]
    have hzero : IsSmall (Char.ofNat 0) := ⟨by decide, by decide⟩
    exact hzero.isLowered

/-! ## Texts -/

/-- The lower case of a character on its own is lowered.  By cases on its rule: a letter of ASCII,
    an image of the table, itself, or the two characters of `İ`. -/
theorem isLowered_of_mem_lowerChar {c d : Char} (hsigma : c ≠ 'Σ') (h : d ∈ lowerChar c) :
    IsLowered d := by
  rw [lowerChar] at h
  split at h
  · rename_i hascii
    obtain rfl := List.mem_singleton.mp h
    exact (isSmall_toLower hascii).isLowered
  rename_i hascii
  split at h
  · have hdot : IsLowered (Char.ofNat 0x307) :=
      isLowered_of_none (by decide) (by decide) (mapRuns_lowerRuns_sigma.2 _ (by decide))
    have hletter : IsSmall 'i' := ⟨by decide, by decide⟩
    rcases List.mem_cons.mp h with rfl | hrest
    · exact hletter.isLowered
    · obtain rfl := List.mem_singleton.mp hrest
      exact hdot
  rename_i hdotted
  split at h
  · rename_i image himage
    obtain rfl := List.mem_singleton.mp h
    exact isLowered_of_mapRuns himage
  · rename_i hnone
    obtain rfl := List.mem_singleton.mp h
    exact isLowered_of_none (by omega) (fun hcode => hdotted (beq_iff_eq.mpr hcode)) hnone

theorem lowerSigma_cases (before after : List Char) :
    lowerSigma before after = 'ς' ∨ lowerSigma before after = 'σ' := by
  rw [lowerSigma]
  split
  · exact Or.inl rfl
  · exact Or.inr rfl

/-- Both are lowered. -/
theorem isLowered_lowerSigma (before after : List Char) : IsLowered (lowerSigma before after) := by
  rcases lowerSigma_cases before after with hform | hform
  · rw [hform]
    exact isLowered_of_none (by decide) (by decide) (mapRuns_lowerRuns_sigma.2 _ (by decide))
  · rw [hform]
    exact isLowered_of_none (by decide) (by decide) (mapRuns_lowerRuns_sigma.2 _ (by decide))

/-- So is every character of a lower case.  By induction on the text. -/
theorem isLowered_of_mem_lowerFrom {text before : List Char} {d : Char}
    (h : d ∈ lowerFrom before text) : IsLowered d := by
  induction text generalizing before with
  | nil => cases h
  | cons c rest ih =>
    rw [lowerFrom] at h
    rcases List.mem_append.mp h with hfirst | hmore
    · split at hfirst
      · obtain rfl := List.mem_singleton.mp hfirst
        exact isLowered_lowerSigma before rest
      · rename_i hsigma
        exact isLowered_of_mem_lowerChar (fun hc => hsigma (beq_iff_eq.mpr hc)) hfirst
    · exact ih hmore

/-- **Lower case is final.** Every character of it is lowered, so a second time changes nothing,
    also where a `Σ` has become the form for the end of a word. -/
theorem lower_lower (text : List Char) : lower (lower text) = lower text :=
  lower_eq_self fun _ hc => isLowered_of_mem_lowerFrom hc

/-! ## Characters that no letter becomes -/

/-- A character that neither trimming nor lower case touches. -/
def IsInert (c : Char) : Prop := IsSmall c ∧ isBlank c = false

/-- A text of such characters is kept by trimming and by lower case. -/
theorem lower_trim_eq_self {text : List Char} (h : ∀ c ∈ text, IsInert c) :
    lower (trim text) = text := by
  rw [trim_eq_self fun c hc => (h c hc).2]
  exact lower_eq_self fun c hc => (h c hc).1.isLowered

/-- A character of ASCII behind its letters. -/
def IsAfterLetters (c : Char) : Prop := 122 < c.toNat ∧ c.toNat < 0x80

/-- Such a character comes from itself only: an image in ASCII is a letter, and so are both
    characters of `İ` that lie there. -/
theorem eq_of_mem_lowerChar {c d : Char} (hd : IsAfterLetters d) (h : d ∈ lowerChar c) : d = c := by
  obtain ⟨hlow, hhigh⟩ := hd
  rw [lowerChar] at h
  split at h
  · obtain rfl := List.mem_singleton.mp h
    rcases toLower_cases c with ⟨_, _, hletter⟩ | ⟨_, hkept⟩
    · omega
    · exact hkept
  split at h
  · rcases List.mem_cons.mp h with rfl | hdot
    · exact absurd hlow (by decide)
    · obtain rfl := List.mem_singleton.mp hdot
      exact absurd hhigh (by decide)
  split at h
  · rename_i image himage
    obtain rfl := List.mem_singleton.mp h
    obtain ⟨r, hr, hcovers, rfl⟩ := exists_run_of_mapRuns himage
    obtain ⟨hcapital, _, houtside⟩ := firstImage_lowerRuns r hr
    obtain ⟨hfirst, hlast⟩ := image_bounds hcovers
    generalize (c.toNat + r.shift).toNat = image at hfirst hlast hlow hhigh
    -- an image in ASCII is a letter, and a number that is no code point stands for zero
    unfold Char.ofNat at hlow hhigh
    by_cases hvalid : image.isValidChar
    · rw [dif_pos hvalid] at hlow hhigh
      have hlow : 122 < image := hlow
      have hhigh : image < 0x80 := hhigh
      omega
    · rw [dif_neg hvalid] at hlow
      exact absurd hlow (by decide)
  · exact List.mem_singleton.mp h

/-- So it was in the text already.  By induction on the text. -/
theorem mem_of_mem_lowerFrom {text before : List Char} {d : Char} (hd : IsAfterLetters d)
    (h : d ∈ lowerFrom before text) : d ∈ text := by
  induction text generalizing before with
  | nil => exact h
  | cons c rest ih =>
    rw [lowerFrom] at h
    rcases List.mem_append.mp h with hfirst | hmore
    · split at hfirst
      · -- both forms of the small sigma are outside of ASCII
        obtain rfl := List.mem_singleton.mp hfirst
        have hascii := hd.2
        rcases lowerSigma_cases before rest with hform | hform
        · rw [hform] at hascii
          exact absurd hascii (by decide)
        · rw [hform] at hascii
          exact absurd hascii (by decide)
      · obtain rfl := eq_of_mem_lowerChar hd hfirst
        exact List.mem_cons_self
    · exact List.mem_cons_of_mem _ (ih hmore)

/-- **Such a character is in a lower case only if it is in the text.** The braces of mana costs
    are of this kind, so lower case makes none. -/
theorem mem_of_mem_lower {text : List Char} {d : Char} (hd : IsAfterLetters d)
    (h : d ∈ lower text) : d ∈ text :=
  mem_of_mem_lowerFrom hd h

/-- What is lowered stays where it stands.  By induction on the text. -/
theorem mem_lowerFrom {text : List Char} {d : Char} (hd : IsLowered d) (h : d ∈ text)
    (before : List Char) : d ∈ lowerFrom before text := by
  induction text generalizing before with
  | nil => cases h
  | cons c rest ih =>
    rw [lowerFrom, List.mem_append]
    rcases List.mem_cons.mp h with rfl | hmem
    · left
      rw [if_neg (by simp [hd.2]), hd.1]
      exact List.mem_singleton_self d
    · exact Or.inr (ih hmem _)

/-- A character that is its own lower case is kept, whatever is around it. -/
theorem mem_lower {text : List Char} {d : Char} (hd : IsLowered d) (h : d ∈ text) :
    d ∈ lower text :=
  mem_lowerFrom hd h []

end CardSearch.Text
