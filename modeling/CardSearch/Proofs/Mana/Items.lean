import CardSearch.Proofs.Mana.Spelling
import CardSearch.Proofs.Text.Trim

/-
  The grammar of cost texts.

      cost  ::= item+
      item  ::= "{" part "}" | "{" part "/" part "}" | run | letter
      part  ::= blank* (run | letter) blank*

  A run is all the digits that stand together.  An item is written down here with its blanks, so
  that a list of items is one way to spell a text and nothing else.

  1. **Parts (`isCostPart_iff`)** — the reader's parts are runs and letters.
  2. **The step (`costFrom_item`)** — an item before a text is read as its group, whatever follows;
     a run only where no digit does.
  3. **The crux (`exists_items`)** — every text that is read is spelled by items.  What stands
     between braces is cut at the slashes and trimmed, and both can be undone (`exists_padded`).
  4. **One way only (`items_unique`)** — the first character of a text tells the kind of its first
     item, and the kind tells where the item ends.
  5. **Costs (`parseCost_iff_items`)** — the reader accepts the grammar, no more and no less.
-/

namespace CardSearch.Mana

/-! ## Items -/

/-- A run of digits. -/
structure IsRun (digits : List Char) : Prop where
  ne_nil : digits ≠ []
  all : ∀ c ∈ digits, isDigit c = true

/-- A letter of a cost. -/
def IsLetter (c : Char) : Prop := c ∈ colorLetters ++ otherLetters

instance (c : Char) : Decidable (IsLetter c) :=
  inferInstanceAs (Decidable (c ∈ colorLetters ++ otherLetters))

/-- A part of a cost: a run of digits, or one letter. -/
inductive IsPart : List Char → Prop where
  | run {digits : List Char} (h : IsRun digits) : IsPart digits
  | letter {c : Char} (h : IsLetter c) : IsPart [c]

/-- A part with the blanks around it. -/
structure Padded where
  before : List Char
  part : List Char
  after : List Char
  isPart : IsPart part
  isBlank_before : ∀ c ∈ before, Text.isBlank c = true
  isBlank_after : ∀ c ∈ after, Text.isBlank c = true

/-- A part as it is written. -/
def Padded.text (p : Padded) : List Char := p.before ++ p.part ++ p.after

/-- An item of a cost text. -/
inductive Item where
  /-- One part in braces, or two with a slash between them. -/
  | braced (parts : List Padded) (count : parts.length = 1 ∨ parts.length = 2)
  | run (digits : List Char) (h : IsRun digits)
  | letter (c : Char) (h : IsLetter c)

namespace Item

/-- An item as it is written. -/
def text : Item → List Char
  | braced parts _ => '\x7b' :: Text.join ['/'] (parts.map Padded.text) ++ ['\x7d']
  | run digits _ => digits
  | letter c _ => [c]

/-- The parts of an item, in order. -/
def group : Item → Group
  | braced parts _ => parts.map fun p => String.ofList p.part
  | run digits _ => [String.ofList digits]
  | letter c _ => [String.ofList [c]]

/-- The characters that an item of a kind begins with. -/
def Begins (c : Char) : Item → Prop
  | braced _ _ => c = '\x7b'
  | run _ _ => isDigit c = true
  | letter _ _ => IsLetter c

/-- Whether a text may follow an item: behind a run comes no digit. -/
def EndsBefore (rest : List Char) : Item → Prop
  | run _ _ => ∀ c ∈ rest.head?, isDigit c = false
  | _ => True

end Item

/-- Items one after the other. -/
def written (items : List Item) : List Char := items.flatMap Item.text

/-- Every run of digits is as long as it can be. -/
def Maximal : List Item → Prop
  | [] => True
  | item :: rest => item.EndsBefore (written rest) ∧ Maximal rest

/-- The ways to spell a text: at least one item, and no run of digits cut short. -/
structure Spells (items : List Item) (text : List Char) : Prop where
  ne_nil : items ≠ []
  maximal : Maximal items
  written_eq : written items = text

/-! ## Parts -/

theorem isCostLetter_iff {c : Char} : isCostLetter c = true ↔ IsLetter c := by
  rw [isCostLetter, Bool.or_eq_true, List.contains_iff_mem, List.contains_iff_mem, IsLetter,
    List.mem_append]

/-- A letter is neither a digit nor a brace, so the first character of a text tells the three
    kinds of items apart. -/
theorem IsLetter.apart {c : Char} (h : IsLetter c) : isDigit c = false ∧ c ≠ '\x7b' := by
  have hall : ∀ c ∈ colorLetters ++ otherLetters, isDigit c = false ∧ c ≠ '\x7b' :=
    List.all_iff_forall_prop.mp (by decide)
  exact hall c h

theorem ne_brace_of_isDigit {c : Char} (h : isDigit c = true) : c ≠ '\x7b' := by
  rintro rfl
  exact absurd h (by decide)

theorem IsRun.singleton {c : Char} (h : isDigit c = true) : IsRun [c] :=
  ⟨List.cons_ne_nil _ _, List.forall_mem_singleton.mpr h⟩

/-- A digit and all the digits behind it are a run, the one that the reader takes. -/
theorem IsRun.takeWhile {c : Char} (h : isDigit c = true) (rest : List Char) :
    IsRun (c :: rest.takeWhile isDigit) :=
  ⟨List.cons_ne_nil _ _, List.forall_mem_cons.mpr ⟨h, fun d hd =>
    List.all_eq_true.mp List.all_takeWhile d hd⟩⟩

/-- Behind all the digits that stand together there is no digit. -/
theorem not_isDigit_of_dropWhile {text : List Char} {c : Char}
    (h : c ∈ (text.dropWhile isDigit).head?) : isDigit c = false := by
  have hhead := List.head?_dropWhile_not isDigit text
  rw [Option.mem_def.mp h] at hhead
  exact hhead

theorem IsPart.ne_nil {part : List Char} (h : IsPart part) : part ≠ [] := by
  cases h with
  | run h => exact h.ne_nil
  | letter h => exact List.cons_ne_nil _ _

/-- **The reader's parts are runs of digits and letters.** A letter is one of exactly one
    character; two letters are no part. -/
theorem isCostPart_iff {part : List Char} : isCostPart part = true ↔ IsPart part := by
  constructor
  · intro h
    match part with
    | [] => cases h
    | [c] =>
      rcases Bool.or_eq_true_iff.mp h with hdigit | hletter
      · exact .run (.singleton hdigit)
      · exact .letter (isCostLetter_iff.mp hletter)
    | c :: d :: more => exact .run ⟨List.cons_ne_nil _ _, List.all_eq_true.mp h⟩
  · rintro (hrun | hletter)
    · match part with
      | [] => exact absurd rfl hrun.ne_nil
      | [c] => exact Bool.or_eq_true_iff.mpr (Or.inl (hrun.all c List.mem_cons_self))
      | c :: d :: more => exact List.all_eq_true.mpr hrun.all
    · exact Bool.or_eq_true_iff.mpr (Or.inr (isCostLetter_iff.mpr hletter))

namespace Padded

variable (p : Padded)

theorem isCostChar {c : Char} (hc : c ∈ p.part) : isCostChar c = true :=
  isCostChar_of_isCostPart (isCostPart_iff.mpr p.isPart) c hc

/-- No part holds a slash or a brace, also not among its blanks.  So slashes and braces can be
    told from parts. -/
theorem ne_of_mem_text {c : Char} (hc : c ∈ p.text) : c ≠ '/' ∧ c ≠ '\x7d' := by
  have hblank : Text.isBlank c = true → c ≠ '/' ∧ c ≠ '\x7d' := by
    intro h
    constructor <;> (rintro rfl; exact absurd h (by decide))
  rcases List.mem_append.mp hc with hc | hc
  · rcases List.mem_append.mp hc with hc | hc
    · exact hblank (p.isBlank_before c hc)
    · obtain ⟨_, hslash, _, hclose⟩ := isCostChar_apart (p.isCostChar hc)
      exact ⟨hslash, hclose⟩
  · exact hblank (p.isBlank_after c hc)

theorem isBlank_of_mem_part {c : Char} (hc : c ∈ p.part) : Text.isBlank c = false :=
  (isCostChar_apart (p.isCostChar hc)).1.2

/-- The blanks in front end where the part begins, so trimming finds the part. -/
theorem run_text : p.text.takeWhile Text.isBlank = p.before ∧
    p.text.dropWhile Text.isBlank = p.part ++ p.after := by
  have hhead : ∀ c ∈ (p.part ++ p.after).head?, Text.isBlank c = false := by
    intro c hc
    rw [List.head?_append_of_ne_nil _ p.isPart.ne_nil] at hc
    exact p.isBlank_of_mem_part (List.mem_of_mem_head? hc)
  rw [text, List.append_assoc]
  exact Text.run_append_of_forall p.isBlank_before hhead

/-- **Trimming leaves the part**: only the blanks around it go. -/
theorem trim_text : Text.trim p.text = p.part := by
  have hlast : ∀ c ∈ p.part.reverse.head?, Text.isBlank c = false := fun c hc =>
    p.isBlank_of_mem_part (List.mem_reverse.mp (List.mem_of_mem_head? hc))
  have hafter : ∀ c ∈ p.after.reverse, Text.isBlank c = true := fun c hc =>
    p.isBlank_after c (List.mem_reverse.mp hc)
  rw [Text.trim, Text.trimStart, p.run_text.2, Text.trimEnd, List.reverse_append,
    (Text.run_append_of_forall hafter hlast).2, List.reverse_reverse]

end Padded

/-- A part is written in one way with its blanks: where they end is where the part begins and
    ends. -/
theorem Padded.text_injective : Function.Injective Padded.text := by
  intro p q h
  have hpart : p.part = q.part := by rw [← p.trim_text, h, q.trim_text]
  have hbefore : p.before = q.before := by rw [← p.run_text.1, h, q.run_text.1]
  have hafter : p.after = q.after := by
    have htext : p.before ++ p.part ++ p.after = q.before ++ q.part ++ q.after := h
    rw [hbefore, hpart] at htext
    exact List.append_cancel_left htext
  cases p
  cases q
  obtain rfl := hpart
  obtain rfl := hbefore
  obtain rfl := hafter
  rfl

/-- **Texts that trimming makes parts of are parts with blanks around them.** What trimming takes
    away at either end are the blanks to write down. -/
theorem exists_padded {pieces : List (List Char)}
    (h : ∀ piece ∈ pieces, IsPart (Text.trim piece)) :
    ∃ parts : List Padded, parts.map Padded.text = pieces ∧
      parts.map Padded.part = pieces.map Text.trim := by
  induction pieces with
  | nil => exact ⟨[], rfl, rfl⟩
  | cons piece pieces ih =>
    obtain ⟨hpiece, hpieces⟩ := List.forall_mem_cons.mp h
    obtain ⟨parts, htexts, hparts⟩ := ih hpieces
    obtain ⟨before, after, htext, hbefore, hafter⟩ := Text.exists_blanks_trim piece
    refine ⟨⟨before, Text.trim piece, after, hpiece, hbefore, hafter⟩ :: parts, ?_, ?_⟩
    · rw [List.map_cons, htexts, Padded.text, ← htext]
    · rw [List.map_cons, hparts, List.map_cons]

/-! ## Between braces -/

section Braces

variable {parts : List Padded}

/-- Parts that are joined by slashes are cut at them again, since no part holds one. -/
theorem splitOn_join (hne : parts ≠ []) :
    (Text.join ['/'] (parts.map Padded.text)).splitOn '/' = parts.map Padded.text := by
  have hslash : ∀ piece ∈ parts.map Padded.text, '/' ∉ piece := by
    intro piece hpiece hmem
    obtain ⟨p, _, rfl⟩ := List.mem_map.mp hpiece
    exact (p.ne_of_mem_text hmem).1 rfl
  rw [Text.join_eq_intercalate]
  exact List.splitOn_intercalate '/' hslash (by simpa using hne)

theorem bracedParts_join (hne : parts ≠ []) :
    bracedParts (Text.join ['/'] (parts.map Padded.text)) = parts.map Padded.part := by
  rw [bracedParts, Text.splitBy_eq_splitOn, splitOn_join hne, List.map_map]
  exact List.map_congr_left fun p _ => p.trim_text

/-- The first closing brace is the one behind the parts. -/
theorem brace_not_mem_join (parts : List Padded) :
    '\x7d' ∉ Text.join ['/'] (parts.map Padded.text) := by
  intro hmem
  rcases Text.mem_join hmem with hslash | ⟨piece, hpiece, hbrace⟩
  · exact absurd hslash (by decide)
  · obtain ⟨p, _, rfl⟩ := List.mem_map.mp hpiece
    exact (p.ne_of_mem_text hbrace).2 rfl

end Braces

/-- What is cut and trimmed into parts is parts with blanks around them and slashes between.  This
    undoes both steps of the reader. -/
theorem exists_parts_of_bracedParts {inner : List Char}
    (h : ∀ part ∈ bracedParts inner, isCostPart part = true) :
    ∃ parts : List Padded, Text.join ['/'] (parts.map Padded.text) = inner ∧
      parts.map Padded.part = bracedParts inner := by
  rw [bracedParts, Text.splitBy_eq_splitOn] at h ⊢
  have hpieces : ∀ piece ∈ inner.splitOn '/', IsPart (Text.trim piece) := fun piece hpiece =>
    isCostPart_iff.mp (h _ (List.mem_map_of_mem hpiece))
  obtain ⟨parts, htexts, hparts⟩ := exists_padded hpieces
  refine ⟨parts, ?_, hparts⟩
  rw [htexts, Text.join_eq_intercalate]
  exact List.intercalate_splitOn '/'

/-! ## Reading items -/

/-- A digit begins a group of all the digits there are, and what follows is read from the first
    other character. -/
theorem costFrom_digit {c : Char} (hc : isDigit c = true) (text : List Char) :
    costFrom (c :: text) = (costFrom (text.dropWhile isDigit)).map
      ([String.ofList (c :: text.takeWhile isDigit)] :: ·) := by
  rw [costFrom, if_neg (by simp [ne_brace_of_isDigit hc]), if_pos hc]

theorem costFrom_letter {c : Char} (hc : IsLetter c) (text : List Char) :
    costFrom (c :: text) = (costFrom text).map ([String.ofList [c]] :: ·) := by
  obtain ⟨hdigit, hbrace⟩ := hc.apart
  rw [costFrom, if_neg (by simp [hbrace]), if_neg (by simp [hdigit]),
    if_pos (isCostLetter_iff.mpr hc)]

/-- **The step**: an item before a text is read as its group.  For a run this needs that no digit
    follows; braces and letters end by themselves. -/
theorem costFrom_item (item : Item) {rest : List Char} (hends : item.EndsBefore rest) :
    costFrom (item.text ++ rest) = (costFrom rest).map (item.group :: ·) := by
  cases item with
  | braced parts count =>
    have hne : parts ≠ [] := by
      rintro rfl
      simp at count
    have hparts : ((bracedParts (Text.join ['/'] (parts.map Padded.text))).length ≤ 2 &&
        (bracedParts (Text.join ['/'] (parts.map Padded.text))).all isCostPart) = true := by
      rw [bracedParts_join hne, List.length_map, Bool.and_eq_true]
      refine ⟨decide_eq_true (by omega), List.all_eq_true.mpr ?_⟩
      intro part hpart
      obtain ⟨p, _, rfl⟩ := List.mem_map.mp hpart
      exact isCostPart_iff.mpr p.isPart
    have hread := costFrom_braced (brace_not_mem_join parts) hparts rest
    rw [bracedParts_join hne, List.map_map] at hread
    exact hread
  | run digits h =>
    obtain ⟨c, more, rfl⟩ := List.exists_cons_of_ne_nil h.ne_nil
    obtain ⟨hc, hmore⟩ := List.forall_mem_cons.mp h.all
    -- the digits of the run are all that stand there
    obtain ⟨htake, hdrop⟩ := Text.run_append_of_forall hmore hends
    rw [Item.text, List.cons_append, costFrom_digit hc, htake, hdrop, Item.group]
  | letter c h => exact costFrom_letter h rest

/-- **Items are read as their groups**, one after the other, if no run of digits is cut short. -/
theorem costFrom_written {items : List Item} (h : Maximal items) :
    costFrom (written items) = some (items.map Item.group) := by
  induction items with
  | nil => rw [written, List.flatMap_nil, costFrom, List.map_nil]
  | cons item rest ih =>
    obtain ⟨hends, hrest⟩ := h
    have htext : written (item :: rest) = item.text ++ written rest := List.flatMap_cons
    rw [htext, costFrom_item item hends, ih hrest, Option.map_some, List.map_cons]

/-- **The crux**: what is read is spelled by items.  By induction along the reader: each of its
    cases takes one item off the text, and a run takes all the digits, so that the rest cannot
    begin with one. -/
theorem exists_items {text : List Char} {cost : Cost} (h : costFrom text = some cost) :
    ∃ items, Maximal items ∧ written items = text ∧ items.map Item.group = cost := by
  fun_induction costFrom text generalizing cost with
  | case1 =>
    obtain rfl := Option.some.inj h
    exact ⟨[], trivial, rfl, rfl⟩
  | case2 | case4 | case7 => cases h
  | case3 c rest hbrace close more hdrop parts hparts =>
    rename_i ih
    obtain ⟨groups, hgroups, rfl⟩ := Option.map_eq_some_iff.mp h
    obtain ⟨items, hmaximal, hwritten, rfl⟩ := ih hgroups
    obtain ⟨hlength, hall⟩ := Bool.and_eq_true_iff.mp hparts
    obtain ⟨padded, hinner, hpadded⟩ := exists_parts_of_bracedParts (List.all_eq_true.mp hall)
    have hcount : padded.length = 1 ∨ padded.length = 2 := by
      have hsame : padded.length = parts.length := by
        have := congrArg List.length hpadded
        rwa [List.length_map] at this
      have hpositive : parts ≠ [] := by simp [parts, bracedParts, Text.splitBy_ne_nil]
      have := List.length_pos_iff.mpr hpositive
      have := of_decide_eq_true hlength
      omega
    refine ⟨.braced padded hcount :: items, ⟨trivial, hmaximal⟩, ?_, ?_⟩
    · -- the braces stand around what was cut
      have hclose : close = '\x7d' := by
        have hhead := List.head?_dropWhile_not (· != '\x7d') rest
        rw [hdrop] at hhead
        simpa using hhead
      subst hclose
      have hrest : rest.takeWhile (· != '\x7d') ++ '\x7d' :: more = rest := by
        rw [← hdrop, List.takeWhile_append_dropWhile]
      calc written (.braced padded hcount :: items)
        _ = '\x7b' :: (rest.takeWhile (· != '\x7d') ++ '\x7d' :: more) := by
          rw [written, List.flatMap_cons, ← written, hwritten, Item.text, hinner]
          simp
        _ = c :: rest := by rw [hrest, eq_of_beq hbrace]
    · show _ = (bracedParts _).map String.ofList :: _
      rw [← hpadded, List.map_map]
      rfl
  | case5 c rest _ hdigit ih =>
    obtain ⟨groups, hgroups, rfl⟩ := Option.map_eq_some_iff.mp h
    obtain ⟨items, hmaximal, hwritten, rfl⟩ := ih hgroups
    refine ⟨.run _ (.takeWhile hdigit rest) :: items, ⟨?_, hmaximal⟩, ?_, rfl⟩
    · -- the run ends where no digit follows
      intro d hd
      rw [hwritten] at hd
      exact not_isDigit_of_dropWhile hd
    · rw [written, List.flatMap_cons, ← written, hwritten, Item.text, List.cons_append,
        List.takeWhile_append_dropWhile]
  | case6 c rest _ _ hletter ih =>
    obtain ⟨groups, hgroups, rfl⟩ := Option.map_eq_some_iff.mp h
    obtain ⟨items, hmaximal, hwritten, rfl⟩ := ih hgroups
    refine ⟨.letter c (isCostLetter_iff.mp hletter) :: items, ⟨trivial, hmaximal⟩, ?_, rfl⟩
    rw [written, List.flatMap_cons, ← written, hwritten]
    rfl

/-! ## One way to spell a text -/

/-- No item is empty, and its first character is one for its kind. -/
theorem Item.exists_begins (item : Item) : ∃ c more, item.text = c :: more ∧ item.Begins c := by
  cases item with
  | braced parts count => exact ⟨_, _, rfl, rfl⟩
  | run digits h =>
    obtain ⟨c, more, rfl⟩ := List.exists_cons_of_ne_nil h.ne_nil
    exact ⟨c, more, rfl, h.all c List.mem_cons_self⟩
  | letter c h => exact ⟨c, [], rfl, h⟩

/-- Braces close at the first closing brace, and there is one way to cut what they hold.  So equal
    texts have equal parts and equal rests. -/
theorem eq_of_braced_append {parts parts' : List Padded} {rest rest' : List Char}
    (hne : parts ≠ []) (hne' : parts' ≠ [])
    (h : Text.join ['/'] (parts.map Padded.text) ++ '\x7d' :: rest =
      Text.join ['/'] (parts'.map Padded.text) ++ '\x7d' :: rest') :
    parts = parts' ∧ rest = rest' := by
  obtain ⟨htake, hdrop⟩ := run_append_brace (brace_not_mem_join parts) rest
  obtain ⟨htake', hdrop'⟩ := run_append_brace (brace_not_mem_join parts') rest'
  constructor
  · have hinner := htake.symm.trans ((congrArg _ h).trans htake')
    have htexts := congrArg (List.splitOn '/') hinner
    rw [splitOn_join hne, splitOn_join hne'] at htexts
    exact Padded.text_injective.list_map htexts
  · have hmore := hdrop.symm.trans ((congrArg _ h).trans hdrop')
    exact List.tail_eq_of_cons_eq hmore

/-- **The step**: a text tells its first item and where it ends.  Items of different kinds begin
    with different characters; two runs are equal because each is as long as it can be. -/
theorem Item.eq_of_append {item other : Item} {rest more : List Char}
    (hends : item.EndsBefore rest) (hends' : other.EndsBefore more)
    (h : item.text ++ rest = other.text ++ more) : item = other ∧ rest = more := by
  obtain ⟨c, tail, htext, hbegins⟩ := item.exists_begins
  obtain ⟨d, tail', htext', hbegins'⟩ := other.exists_begins
  obtain rfl : c = d := by
    have hsame := h
    rw [htext, htext'] at hsame
    exact (List.cons.inj hsame).1
  clear htext htext'
  -- the first character tells the three kinds of items apart
  cases item with
  | braced parts count =>
    obtain rfl : c = '\x7b' := hbegins
    cases other with
    | braced parts' count' =>
      have hcut : Text.join ['/'] (parts.map Padded.text) ++ '\x7d' :: rest =
          Text.join ['/'] (parts'.map Padded.text) ++ '\x7d' :: more := by
        simpa [text] using h
      obtain ⟨rfl, rfl⟩ := eq_of_braced_append (by rintro rfl; simp at count)
        (by rintro rfl; simp at count') hcut
      exact ⟨rfl, rfl⟩
    | run _ _ => exact absurd rfl (ne_brace_of_isDigit hbegins')
    | letter _ _ => exact absurd rfl hbegins'.apart.2
  | run digits hrun =>
    cases other with
    | braced _ _ => exact absurd hbegins' (ne_brace_of_isDigit hbegins)
    | run digits' hrun' =>
      -- neither run can go on with what follows it, so both are all the digits at the front
      obtain ⟨htake, hdrop⟩ := Text.run_append_of_forall hrun.all hends
      obtain ⟨htake', hdrop'⟩ := Text.run_append_of_forall hrun'.all hends'
      obtain rfl : digits = digits' := htake.symm.trans ((congrArg _ h).trans htake')
      exact ⟨rfl, hdrop.symm.trans ((congrArg _ h).trans hdrop')⟩
    | letter _ _ => exact absurd hbegins (Bool.eq_false_iff.mp hbegins'.apart.1)
  | letter e hletter =>
    cases other with
    | braced _ _ => exact absurd hbegins' hbegins.apart.2
    | run _ _ => exact absurd hbegins' (Bool.eq_false_iff.mp hbegins.apart.1)
    | letter e' hletter' =>
      obtain ⟨rfl, rfl⟩ := List.cons.inj h
      exact ⟨rfl, rfl⟩

/-- **No text is spelled by items in two ways.** By induction on the items, with the step for the
    first of each list. -/
theorem items_unique {items others : List Item} (h : Maximal items) (h' : Maximal others)
    (hsame : written items = written others) : items = others := by
  have hne : ∀ (item : Item) (rest : List Item), written (item :: rest) ≠ [] := by
    intro item rest
    obtain ⟨c, more, htext, _⟩ := item.exists_begins
    rw [written, List.flatMap_cons, htext]
    exact List.cons_ne_nil _ _
  induction items generalizing others with
  | nil =>
    cases others with
    | nil => rfl
    | cons other more => exact absurd hsame.symm (hne other more)
  | cons item rest ih =>
    cases others with
    | nil => exact absurd hsame (hne item rest)
    | cons other more =>
      -- the first items are the same, and so is what is written behind them
      obtain ⟨hends, hrest⟩ := h
      obtain ⟨hends', hmore⟩ := h'
      have htexts : item.text ++ written rest = other.text ++ written more := hsame
      obtain ⟨rfl, hwritten⟩ := Item.eq_of_append hends hends' htexts
      rw [ih hrest hmore hwritten]

/-! ## Cost texts -/

theorem Item.length_group (item : Item) : item.group.length = 1 ∨ item.group.length = 2 := by
  cases item with
  | braced parts count => rwa [group, List.length_map]
  | run _ _ => exact Or.inl rfl
  | letter _ _ => exact Or.inl rfl

/-- A cost is read from a text that items spell, and lists their groups in the order of the text. -/
theorem parseCost_eq_some_iff_items {text : String} {cost : Cost} :
    parseCost text = some cost ↔ ∃ items, Spells items (Text.lower (Text.trim text.toList)) ∧
      items.map Item.group = cost := by
  rw [parseCost_eq_some_iff]
  constructor
  · rintro ⟨hne, hread⟩
    obtain ⟨items, hmaximal, hwritten, rfl⟩ := exists_items hread
    refine ⟨items, ⟨?_, hmaximal, hwritten⟩, rfl⟩
    rintro rfl
    exact hne rfl
  · rintro ⟨items, hspells, rfl⟩
    refine ⟨by simpa using hspells.ne_nil, ?_⟩
    rw [← hspells.written_eq]
    exact costFrom_written hspells.maximal

/-- **The reader of costs accepts the grammar, no more and no less.**
    (1) A text has a cost exactly when items spell it, trimmed and in lower case, and the cost lists
    the parts of the items in order.
    (2) Any other text has none.
    (3) Items spell a text in one way.
    (4) So every group has one part or two. -/
theorem parseCost_iff_items (text : String) :
    (∀ cost, parseCost text = some cost ↔
      ∃ items, Spells items (Text.lower (Text.trim text.toList)) ∧ items.map Item.group = cost) ∧
    (parseCost text = none ↔ ¬ ∃ items, Spells items (Text.lower (Text.trim text.toList))) ∧
    (∀ items others, Spells items (Text.lower (Text.trim text.toList)) →
      Spells others (Text.lower (Text.trim text.toList)) → items = others) ∧
    (∀ cost, parseCost text = some cost → ∀ group ∈ cost, group.length = 1 ∨ group.length = 2) := by
  refine ⟨fun cost => parseCost_eq_some_iff_items, ?_, ?_, ?_⟩
  · constructor
    · rintro hnone ⟨items, hspells⟩
      have hread : parseCost text = some (items.map Item.group) :=
        parseCost_eq_some_iff_items.mpr ⟨items, hspells, rfl⟩
      rw [hnone] at hread
      cases hread
    · intro hunspelled
      cases hread : parseCost text with
      | none => rfl
      | some cost =>
        obtain ⟨items, hspells, _⟩ := parseCost_eq_some_iff_items.mp hread
        exact absurd ⟨items, hspells⟩ hunspelled
  · intro items others hspells hspells'
    exact items_unique hspells.maximal hspells'.maximal
      (hspells.written_eq.trans hspells'.written_eq.symm)
  · intro cost hread group hgroup
    obtain ⟨items, _, rfl⟩ := parseCost_eq_some_iff_items.mp hread
    obtain ⟨item, _, rfl⟩ := List.mem_map.mp hgroup
    exact item.length_group

/-- Two parts with a blank behind one of them, then a run of two digits and a letter: three
    groups, all in lower case. -/
theorem parseCost_iff_items_mixed :
    parseCost " \x7bW\u2003/P\x7d10X" = some [["w", "p"], ["10"], ["x"]] := by
  have hw : IsPart ['w'] := .letter (by decide)
  have hp : IsPart ['p'] := .letter (by decide)
  have hten : IsRun ['1', '0'] := ⟨by decide, List.all_eq_true.mp (by decide)⟩
  have hblank : ∀ c ∈ ['\u2003'], Text.isBlank c = true := List.all_eq_true.mp (by decide)
  let first : Padded := ⟨[], ['w'], ['\u2003'], hw, by simp, hblank⟩
  let second : Padded := ⟨[], ['p'], [], hp, by simp, by simp⟩
  have hbody : Text.lower (Text.trim " \x7bW\u2003/P\x7d10X".toList) =
      "\x7bw\u2003/p\x7d10x".toList := by decide +kernel
  have hspells : Spells [.braced [first, second] (Or.inr rfl), .run ['1', '0'] hten,
      .letter 'x' (by decide)] (Text.lower (Text.trim " \x7bW\u2003/P\x7d10X".toList)) := by
    refine ⟨List.cons_ne_nil _ _, ⟨trivial, ?_, trivial, trivial⟩, hbody.symm⟩
    -- a letter comes behind the run
    intro c hc
    obtain rfl := Option.some.inj hc
    decide
  exact ((parseCost_iff_items _).1 _).mpr ⟨_, hspells, rfl⟩

/-- Texts beside the grammar: unclosed, empty and nested braces, three parts, a blank between items
    and a sign that no item begins with. -/
example : ["\x7bw", "\x7b\x7d", "\x7b\x7b2\x7d\x7d", "\x7bw/u/b\x7d", "1 0", "-1"].map parseCost =
    [none, none, none, none, none, none] := by decide +kernel

end CardSearch.Mana
