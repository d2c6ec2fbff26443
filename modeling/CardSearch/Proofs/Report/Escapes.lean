import CardSearch.Report.Style
import Mathlib.Data.Bool.AllAny
import Mathlib.Data.List.Forall2

/-
  Escape sequences, and what a text shows without them.

  1. **Stripping (`strip`)** — a reader passes a text from the left and leaves out every escape
     sequence, whatever it stands for.
  2. **The step (`strip_escape`)** — what turns a style on or off is one sequence, so it is left out
     before any text.
  3. **Showing (`Shows`)** — two texts put one after the other may make a sequence that neither of
     them holds.  So a text shows another only if it does before every text; then the parts of a line
     may be looked at one by one.
  4. **Lines (`strip_stack_eq_iff`)** — where lines may show more than they should, the text of all of
     them is right only if each line is.
-/

namespace CardSearch.Report

/-! ## Stripping -/

/-- The character that begins every escape sequence. -/
def escapeChar : Char := '\x1b'

/-- Where a reader of a text with escape sequences is. -/
inductive Place where
  /-- Between sequences. -/
  | text
  /-- Behind an escape character. -/
  | escape
  /-- In a sequence that a bracket has opened. -/
  | sequence

/-- Whether a character closes a sequence that a bracket has opened. -/
def closesSequence (c : Char) : Bool := 0x40 ≤ c.toNat && c.toNat ≤ 0x7e

/-- The rest of a text without escape sequences.  Behind an escape character a bracket opens a
    sequence, and any other character is the end of one. -/
def stripFrom : Place → List Char → List Char
  | _, [] => []
  | .text, c :: rest => if c == escapeChar then stripFrom .escape rest else c :: stripFrom .text rest
  | .escape, c :: rest => stripFrom (if c == '[' then .sequence else .text) rest
  | .sequence, c :: rest => stripFrom (if closesSequence c then .text else .sequence) rest

/-- A text without its escape sequences. -/
def strip (text : List Char) : List Char := stripFrom .text text

/-- A sequence is left out up to what closes it.  By induction on what is in it. -/
theorem stripFrom_sequence {inner : List Char} (h : ∀ c ∈ inner, closesSequence c = false)
    {close : Char} (hclose : closesSequence close = true) (rest : List Char) :
    stripFrom .sequence (inner ++ close :: rest) = strip rest := by
  induction inner with
  | nil =>
    rw [List.nil_append, stripFrom, if_pos hclose]
    rfl
  | cons c inner ih =>
    obtain ⟨hc, hinner⟩ := List.forall_mem_cons.mp h
    rw [List.cons_append, stripFrom, if_neg (by simp [hc]), ih hinner]

/-- **The step**: the sequence of a number is left out, wherever it stands outside of another
    one. -/
theorem strip_escape {number : String} (h : ∀ c ∈ number.toList, closesSequence c = false)
    (rest : List Char) : strip (escape number ++ rest) = strip rest := by
  show stripFrom .sequence (number.toList ++ ['m'] ++ rest) = strip rest
  rw [List.append_assoc, List.singleton_append]
  exact stripFrom_sequence h (by decide) rest

theorem closesSequence_start (style : Style) :
    ∀ c ∈ style.start.toList, closesSequence c = false := by
  cases style <;> exact List.all_iff_forall_prop.mp (by decide)

theorem closesSequence_stop (style : Style) :
    ∀ c ∈ style.stop.toList, closesSequence c = false := by
  cases style <;> exact List.all_iff_forall_prop.mp (by decide)

/-! ## Texts without an escape character -/

/-- A text holds no escape character. -/
def Unescaped (text : List Char) : Prop := ∀ c ∈ text, c ≠ escapeChar

instance (text : List Char) : Decidable (Unescaped text) :=
  decidable_of_iff (text.all (· ≠ escapeChar) = true) List.all_iff_forall_prop

@[simp] theorem unescaped_nil : Unescaped [] := fun _ hc => nomatch hc

@[simp] theorem unescaped_cons {c : Char} {text : List Char} :
    Unescaped (c :: text) ↔ c ≠ escapeChar ∧ Unescaped text :=
  List.forall_mem_cons

@[simp] theorem unescaped_append {a b : List Char} :
    Unescaped (a ++ b) ↔ Unescaped a ∧ Unescaped b :=
  List.forall_mem_append

/-- A text of characters of another one has no escape character that the other does not have. -/
theorem Unescaped.mono {a b : List Char} (h : Unescaped b) (hsubset : a ⊆ b) : Unescaped a :=
  fun c hc => h c (hsubset hc)

theorem unescaped_flatMap {α : Type} {items : List α} {text : α → List Char}
    (h : ∀ item ∈ items, Unescaped (text item)) : Unescaped (items.flatMap text) := by
  intro c hc
  obtain ⟨item, hitem, hc⟩ := List.mem_flatMap.mp hc
  exact h item hitem c hc

/-- Such a text is kept as it is, whatever follows.  By induction on the text. -/
theorem strip_append {text : List Char} (h : Unescaped text) (rest : List Char) :
    strip (text ++ rest) = text ++ strip rest := by
  induction text with
  | nil => rfl
  | cons c text ih =>
    obtain ⟨hc, htext⟩ := unescaped_cons.mp h
    show stripFrom .text (c :: (text ++ rest)) = c :: (text ++ strip rest)
    rw [stripFrom, if_neg (by simp [hc])]
    exact congrArg (List.cons c) (ih htext)

/-! ## What a text shows -/

/-- A text shows another: this is all that is left of it, whatever comes behind it. -/
def Shows (text shown : List Char) : Prop := ∀ rest, strip (text ++ rest) = shown ++ strip rest

theorem Shows.strip_eq {text shown : List Char} (h : Shows text shown) : strip text = shown := by
  have hend := h []
  rwa [List.append_nil, show strip [] = [] from rfl, List.append_nil] at hend

/-- Texts one after the other show what each of them shows: a text that shows another leaves no
    sequence open. -/
theorem Shows.append {a b shown other : List Char} (ha : Shows a shown) (hb : Shows b other) :
    Shows (a ++ b) (shown ++ other) := by
  intro rest
  rw [List.append_assoc, ha, hb, List.append_assoc]

theorem Unescaped.shows {text : List Char} (h : Unescaped text) : Shows text text :=
  strip_append h

/-- **Paint adds nothing but escapes**, as each of its two sequences is left out as one. -/
theorem Unescaped.shows_paint {text : List Char} (h : Unescaped text) (style : Style) :
    Shows (paint style text) text := by
  intro rest
  calc strip (paint style text ++ rest)
    _ = strip (escape style.start ++ (text ++ (escape style.stop ++ rest))) := by
        rw [paint, List.append_assoc, List.append_assoc]
    _ = text ++ strip (escape style.stop ++ rest) := by
        rw [strip_escape (closesSequence_start style), strip_append h]
    _ = text ++ strip rest := by rw [strip_escape (closesSequence_stop style)]

/-! ## Lines -/

/-- Lines one below the other. -/
def stack (lines : List (List Char)) : List Char := lines.flatMap (· ++ ['\n'])

/-- Lines show what each of them shows.  By induction on the lines. -/
theorem shows_stack {texts shown : List (List Char)} (h : List.Forall₂ Shows texts shown) :
    Shows (stack texts) (stack shown) := by
  have hbreak : Unescaped ['\n'] := by decide
  induction h with
  | nil => exact unescaped_nil.shows
  | cons hfirst _ ih => exact (hfirst.append hbreak.shows).append ih

theorem map_strip_of_shows {texts shown : List (List Char)} (h : List.Forall₂ Shows texts shown) :
    texts.map strip = shown := by
  induction h with
  | nil => rfl
  | cons hfirst _ ih => rw [List.map_cons, hfirst.strip_eq, ih]

/-- A line with something behind it. -/
def Extends (longer line : List Char) : Prop := ∃ filling, longer = line ++ filling

/-- Longer lines make no shorter text.  By induction on the lines. -/
theorem length_stack_le {longer lines : List (List Char)}
    (h : List.Forall₂ Extends longer lines) : (stack lines).length ≤ (stack longer).length := by
  induction h with
  | nil => exact Nat.le_refl _
  | cons hfirst _ ih =>
    obtain ⟨filling, rfl⟩ := hfirst
    simp only [stack, List.flatMap_cons, List.length_append] at ih ⊢
    omega

/-- **Where the text is the same, nothing stands behind any line**: it would make the text
    longer.  By induction on the lines, from whose lengths the first one is compared. -/
theorem stack_eq_iff {longer lines : List (List Char)} (h : List.Forall₂ Extends longer lines) :
    stack longer = stack lines ↔ longer = lines := by
  refine ⟨fun hsame => ?_, congrArg stack⟩
  induction h with
  | nil => rfl
  | @cons _ line longer lines hfirst hrest ih =>
    obtain ⟨filling, rfl⟩ := hfirst
    have hstep : line ++ filling ++ ['\n'] ++ stack longer = line ++ ['\n'] ++ stack lines := hsame
    have hlength := congrArg List.length hstep
    have hle := length_stack_le hrest
    simp only [List.length_append] at hlength
    have hnone : filling = [] := List.eq_nil_of_length_eq_zero (by omega)
    subst hnone
    rw [List.append_nil] at hstep ⊢
    rw [ih (List.append_cancel_left hstep)]

/-- **Lines that show more than others, if anything**: their text shows that of the others
    exactly if each shows its own.  What they show more is then nothing, by the lengths of the
    texts. -/
theorem strip_stack_eq_iff {texts lines : List (List Char)}
    (h : List.Forall₂ (fun text line => ∃ filling, Shows text (line ++ filling)) texts lines) :
    strip (stack texts) = stack lines ↔ texts.map strip = lines := by
  have hshown : ∃ shown, List.Forall₂ Shows texts shown ∧ List.Forall₂ Extends shown lines := by
    induction h with
    | nil => exact ⟨[], .nil, .nil⟩
    | cons hfirst _ ih =>
      obtain ⟨filling, hshows⟩ := hfirst
      obtain ⟨shown, hall, hextends⟩ := ih
      exact ⟨_, .cons hshows hall, .cons ⟨filling, rfl⟩ hextends⟩
  obtain ⟨shown, hall, hextends⟩ := hshown
  rw [(shows_stack hall).strip_eq, map_strip_of_shows hall]
  exact stack_eq_iff hextends

end CardSearch.Report
