import CardSearch.Proofs.Json.Numeral

/-
  Documents that are written and read back.

  1. **Strings (`leaves_readString_escape`)** — what is escaped comes back as the character it stands
     for, one case for each kind of escape.
  2. **Documents (`Writable`)** — nested no deeper than the reader goes, with whole numbers of 64 bits
     and other numbers that are read as some number, not always as the one that was written.
  3. **The crux (`readOff_of_writable`)** — a writable document is read off the front of any text
     that it begins, blanks aside, if what follows does not go on with a numeral; and what is read is
     the document with the numbers as they are read (`mapReals`).  The induction is on the document;
     lists and objects add one on their items.
  4. **Whole texts (`entries_write`)** — so the entries of a written list are its items, if its
     numbers read back.
-/

namespace CardSearch.Json

/-! ## Strings -/

/-- An escape of one letter is read as the character it stands for. -/
theorem leaves_readString_plain {e c : Char} {read t rest : List Char} {string : String}
    (he : e ≠ 'u') (hc : plainEscape? e = some c)
    (h : Leaves (readString (c :: read) t) string rest) :
    Leaves (readString read ('\\' :: e :: t)) string rest := by
  obtain ⟨_, h⟩ := h
  rw [readString, readEscape]
  · simp only [hc, Text.Within.cons, Text.Within.all, h]
    exact ⟨_, rfl⟩
  · exact he

theorem hexDigit?_digitChar : ∀ d < 16, hexDigit? (Nat.digitChar d) = some d := by decide

/-- The four digits of a control character are read as the character.  Two of them are zeros,
    since a control character has two digits. -/
theorem leaves_readString_control {c : Char} {read t rest : List Char} {string : String}
    (hc : c.toNat < 0x20) (h : Leaves (readString (c :: read) t) string rest) :
    Leaves (readString read ('\\' :: 'u' :: '0' :: '0' :: Nat.digitChar (c.toNat / 16) ::
      Nat.digitChar (c.toNat % 16) :: t)) string rest := by
  obtain ⟨_, h⟩ := h
  have hzero : hexDigit? '0' = some 0 := by decide
  have hhigh := hexDigit?_digitChar (c.toNat / 16) (by omega)
  have hlow := hexDigit?_digitChar (c.toNat % 16) (by omega)
  have hvalue : ((0 * 16 + 0) * 16 + c.toNat / 16) * 16 + c.toNat % 16 = c.toNat := by omega
  have hhex : hex4? '0' '0' (Nat.digitChar (c.toNat / 16)) (Nat.digitChar (c.toNat % 16)) =
      some c.toNat := by
    simp only [hex4?, hzero, hhigh, hlow, bind, Option.bind, pure, hvalue]
  have htrailing : (0xDC00 ≤ c.toNat && c.toNat ≤ 0xDFFF) = false := by
    simp only [Bool.and_eq_false_iff, decide_eq_false_iff_not]
    omega
  have hleading : (0xD800 ≤ c.toNat && c.toNat ≤ 0xDBFF) = false := by
    simp only [Bool.and_eq_false_iff, decide_eq_false_iff_not]
    omega
  rw [readString, readEscape, readHex, hhex]
  simp only [htrailing, hleading, Bool.false_eq_true, if_false, Char.ofNat_toNat,
    Text.Within.trans, Text.Within.cons, Text.Within.all, h]
  exact ⟨_, rfl⟩

/-- Any other character stands for itself. -/
theorem leaves_readString_self {c : Char} {read t rest : List Char} {string : String}
    (hquote : c ≠ '"') (hslash : c ≠ '\\') (hc : ¬ c.toNat < 0x20)
    (h : Leaves (readString (c :: read) t) string rest) :
    Leaves (readString read (c :: t)) string rest := by
  obtain ⟨_, h⟩ := h
  rw [readString]
  · simp only [hc, if_false, h]
    exact ⟨_, rfl⟩
  · exact hquote
  · exact hslash

/-- The three ways in which a character is written: by a letter behind a backslash, by four
    digits, or as it is. -/
theorem escape_cases (c : Char) :
    (∃ e, e ≠ 'u' ∧ plainEscape? e = some c ∧ escape c = ['\\', e]) ∨
      (c.toNat < 0x20 ∧ escape c =
        ['\\', 'u', '0', '0', Nat.digitChar (c.toNat / 16), Nat.digitChar (c.toNat % 16)]) ∨
      (c ≠ '"' ∧ c ≠ '\\' ∧ ¬ c.toNat < 0x20 ∧ escape c = [c]) := by
  -- seven characters have a letter of their own, the other control characters have digits
  by_cases h1 : c = '"'
  · subst h1
    exact Or.inl ⟨'"', by decide, rfl, rfl⟩
  by_cases h2 : c = '\\'
  · subst h2
    exact Or.inl ⟨'\\', by decide, rfl, rfl⟩
  by_cases h3 : c = '\n'
  · subst h3
    exact Or.inl ⟨'n', by decide, rfl, rfl⟩
  by_cases h4 : c = '\r'
  · subst h4
    exact Or.inl ⟨'r', by decide, rfl, rfl⟩
  by_cases h5 : c = '\t'
  · subst h5
    exact Or.inl ⟨'t', by decide, rfl, rfl⟩
  by_cases h6 : c = '\x08'
  · subst h6
    exact Or.inl ⟨'b', by decide, rfl, rfl⟩
  by_cases h7 : c = '\x0C'
  · subst h7
    exact Or.inl ⟨'f', by decide, rfl, rfl⟩
  by_cases hcontrol : c.toNat < 0x20
  · exact Or.inr (Or.inl ⟨hcontrol, by simp [escape, h1, h2, h3, h4, h5, h6, h7, hcontrol]⟩)
  · exact Or.inr (Or.inr ⟨h1, h2, hcontrol, by simp [escape, h1, h2, h3, h4, h5, h6, h7, hcontrol]⟩)

/-- In each of them it is read back. -/
theorem leaves_readString_char {c : Char} {read t rest : List Char} {string : String}
    (h : Leaves (readString (c :: read) t) string rest) :
    Leaves (readString read (escape c ++ t)) string rest := by
  rcases escape_cases c with ⟨e, he, hplain, hwritten⟩ | ⟨hcontrol, hwritten⟩ |
    ⟨hquote, hslash, hcontrol, hwritten⟩
  · rw [hwritten]
    exact leaves_readString_plain he hplain h
  · rw [hwritten]
    exact leaves_readString_control hcontrol h
  · rw [hwritten]
    exact leaves_readString_self hquote hslash hcontrol h

/-- **An escaped string is read back**, after what is read already.  By induction on the string,
    one character at a time. -/
theorem leaves_readString_escape (text read rest : List Char) :
    Leaves (readString read (text.flatMap escape ++ '"' :: rest))
      (String.ofList (read.reverse ++ text)) rest := by
  induction text generalizing read with
  | nil =>
    rw [List.flatMap_nil, List.nil_append, readString, List.append_nil]
    exact ⟨_, rfl⟩
  | cons c text ih =>
    rw [List.flatMap_cons, List.append_assoc]
    have hread := ih (c :: read)
    rw [List.reverse_cons, List.append_assoc] at hread
    exact leaves_readString_char hread

/-! ## Blanks -/

/-- A layout whose separators are blank, but for the colon. -/
structure Spacing.IsBlank (sp : Spacing) : Prop where
  line : ∀ depth, ∀ c ∈ sp.line depth, isSpace c = true
  colon : ∃ blanks, sp.colon = ':' :: blanks ∧ ∀ c ∈ blanks, isSpace c = true

theorem isBlank_compactSpacing : compactSpacing.IsBlank where
  line _ _ h := absurd h List.not_mem_nil
  colon := ⟨[], rfl, fun _ h => absurd h List.not_mem_nil⟩

/-- The pretty one has line breaks and two blanks for each level. -/
theorem isBlank_prettySpacing : prettySpacing.IsBlank where
  line depth c h := by
    rcases List.mem_cons.mp h with rfl | h
    · decide
    · obtain ⟨_, rfl⟩ := List.mem_replicate.mp h
      decide
  colon := ⟨[' '], rfl, fun _ h => List.mem_singleton.mp h ▸ rfl⟩

theorem skipSpace_append {blanks : List Char} (h : ∀ c ∈ blanks, isSpace c = true)
    (s : List Char) : skipSpace (blanks ++ s) = skipSpace s :=
  List.dropWhile_append_of_pos h

/-- No numeral goes on with a blank, nor with what stands behind blanks. -/
theorem ends_of_blank {blanks rest : List Char} {c : Char}
    (h : ∀ d ∈ blanks, isSpace d = true) (hc : endsNumeral c = true) :
    Ends (blanks ++ c :: rest) := by
  cases blanks with
  | nil => exact ends_cons hc
  | cons d blanks =>
    have hd := h d List.mem_cons_self
    simp only [isSpace, Bool.or_eq_true, beq_iff_eq] at hd
    rcases hd with ((rfl | rfl) | rfl) | rfl <;> exact ends_cons (by decide)

/-! ## Documents -/

mutual

/-- A document with other numbers in the place of its own; whole numbers stay. -/
def mapReals (reads : Number → Number) : Json → Json
  | .real x => .real (reads x)
  | .list items => .list (mapRealItems reads items)
  | .object members => .object (mapRealMembers reads members)
  | value => value

/-- The items of a list. -/
def mapRealItems (reads : Number → Number) : List Json → List Json
  | [] => []
  | item :: items => mapReals reads item :: mapRealItems reads items

/-- The members of an object. -/
def mapRealMembers (reads : Number → Number) : List (String × Json) → List (String × Json)
  | [] => []
  | (key, value) :: members => (key, mapReals reads value) :: mapRealMembers reads members

end

section Reals

variable (reads : Number → Number)

/-- The items with other numbers, each on its own.  By induction on the items. -/
theorem mapRealItems_eq (items : List Json) :
    mapRealItems reads items = items.map (mapReals reads) := by
  induction items with
  | nil => rfl
  | cons item items ih => rw [mapRealItems, ih, List.map_cons]

theorem mapRealMembers_eq (members : List (String × Json)) :
    mapRealMembers reads members = members.map fun member => (member.1, mapReals reads member.2) := by
  induction members with
  | nil => rfl
  | cons member members ih => rw [mapRealMembers, ih, List.map_cons]

/-- A list with other numbers is the list of its items with other numbers. -/
theorem mapReals_list (items : List Json) :
    mapReals reads (.list items) = .list (items.map (mapReals reads)) := by
  rw [mapReals, mapRealItems_eq]

theorem mapReals_object (members : List (String × Json)) :
    mapReals reads (.object members) =
      .object (members.map fun member => (member.1, mapReals reads member.2)) := by
  rw [mapReals, mapRealMembers_eq]

end Reals

/-- A document that can be written so that it is read with its numbers as they are read, with at most
    `depth` further levels. -/
inductive Writable (reads : Number → Number) : Nat → Json → Prop where
  | null {depth : Nat} : Writable reads depth .null
  | bool {depth : Nat} (value : Bool) : Writable reads depth (.bool value)
  | whole {depth : Nat} {n : Int} (low : -(Nat.pow 2 63 : Int) ≤ n)
      (high : n < (coefficientBound : Int)) : Writable reads depth (.whole n)
  | real {depth : Nat} {x : Number} (back : x.ReadsAs (reads x)) : Writable reads depth (.real x)
  | text {depth : Nat} (value : String) : Writable reads depth (.text value)
  | list {depth : Nat} {items : List Json} (each : ∀ item ∈ items, Writable reads depth item) :
      Writable reads (depth + 1) (.list items)
  | object {depth : Nat} {members : List (String × Json)}
      (each : ∀ member ∈ members, Writable reads depth member.2) :
      Writable reads (depth + 1) (.object members)

/-- Where the numbers read back, so does the document.  By induction on the document. -/
theorem Writable.mapReals_id {depth : Nat} {value : Json} (h : Writable id depth value) :
    mapReals id value = value := by
  induction h with
  | null | bool | whole | real | text => rfl
  | list each ih =>
    rw [mapReals_list]
    exact congrArg Json.list ((List.map_congr_left ih).trans (List.map_id' _))
  | object each ih =>
    rw [mapReals_object]
    have hmembers : ∀ member ∈ _, (member.1, mapReals id member.2) = member :=
      fun member hmember => by rw [ih member hmember]
    exact congrArg Json.object ((List.map_congr_left hmembers).trans (List.map_id' _))

section Documents

variable {sp : Spacing} (hsp : sp.IsBlank)

/-- A document is read off the front of every text that begins with another one as it is written,
    blanks aside, if no numeral goes on with what follows. -/
def ReadOff (sp : Spacing) (depth : Nat) (value result : Json) : Prop :=
  ∀ (level : Nat) (s t : List Char), Ends t →
    skipSpace s = skipSpace (write sp level value ++ t) →
    ∃ w, Leaves (readValue depth s) result w ∧ skipSpace w = skipSpace t

include hsp

/-- Items that are read off one by one are read off as a list.  By induction on the items: behind
    each stands a comma or the closing bracket, and with neither does a numeral go on. -/
theorem leaves_readItemsFrom_write {read : Json → Json} {depth level : Nat} {item : Json}
    {items : List Json} (h : ∀ x ∈ item :: items, ReadOff sp depth x (read x))
    {close s rest : List Char} (hclose : ∀ c ∈ close, isSpace c = true)
    (hs : skipSpace s = skipSpace (write sp level item ++ (writeItems sp level items ++
      (close ++ ']' :: rest)))) :
    Leaves (readItemsFrom depth s) ((item :: items).map read) rest := by
  induction items generalizing item s with
  | nil =>
    rw [writeItems, List.nil_append] at hs
    obtain ⟨w, hread, hw⟩ := h item List.mem_cons_self level s _ (ends_of_blank hclose (by decide)) hs
    rw [skipSpace_append hclose] at hw
    exact leaves_readItemsFrom_iff.mpr ⟨read item, w, hread, Or.inl ⟨hw, rfl⟩⟩
  | cons next items ih =>
    obtain ⟨hitem, hmore⟩ := List.forall_mem_cons.mp h
    simp only [writeItems, List.cons_append, List.append_assoc] at hs
    obtain ⟨w, hread, hw⟩ := hitem level s _ (ends_cons (by decide)) hs
    exact leaves_readItemsFrom_iff.mpr ⟨read item, w, hread,
      Or.inr ⟨_, _, hw, ih hmore (skipSpace_append (hsp.line level) _), rfl⟩⟩

omit hsp in
/-- A written key and the colon after it. -/
theorem leaves_readKey_quoted {s rest blanks : List Char} {key : String}
    (hs : skipSpace s = quoted key ++ (sp.colon ++ rest)) (hcolon : sp.colon = ':' :: blanks)
    (hblanks : ∀ c ∈ blanks, isSpace c = true) :
    ∃ after, Leaves (readKey s) key after ∧ skipSpace after = skipSpace rest := by
  refine ⟨blanks ++ rest, ?_, skipSpace_append hblanks rest⟩
  simp only [quoted, List.cons_append, List.append_assoc, List.nil_append] at hs
  have hkey := leaves_readString_escape key.toList [] (sp.colon ++ rest)
  rw [List.reverse_nil, List.nil_append, String.ofList_toList] at hkey
  refine leaves_readKey hs hkey ?_
  rw [hcolon]
  rfl

/-- And so are members, each behind its key and a colon.  By induction on the members. -/
theorem leaves_readMembersFrom_write {read : Json → Json} {depth level : Nat} {key : String}
    {value : Json} {members : List (String × Json)}
    (h : ∀ x ∈ (key, value) :: members, ReadOff sp depth x.2 (read x.2)) {close s rest : List Char}
    (hclose : ∀ c ∈ close, isSpace c = true)
    (hs : skipSpace s = quoted key ++ (sp.colon ++ (write sp level value ++
      (writeMembers sp level members ++ (close ++ '\x7d' :: rest))))) :
    Leaves (readMembersFrom depth s)
      (((key, value) :: members).map fun member => (member.1, read member.2)) rest := by
  obtain ⟨blanks, hcolon, hblanks⟩ := hsp.colon
  induction members generalizing key value s with
  | nil =>
    obtain ⟨after, hkey, hafter⟩ := leaves_readKey_quoted hs hcolon hblanks
    rw [writeMembers, List.nil_append] at hafter
    obtain ⟨w, hread, hw⟩ :=
      h (key, value) List.mem_cons_self level after _ (ends_of_blank hclose (by decide)) hafter
    rw [skipSpace_append hclose] at hw
    exact leaves_readMembersFrom hkey hread (Or.inl ⟨hw, rfl⟩)
  | cons next members ih =>
    obtain ⟨hvalue, hmore⟩ := List.forall_mem_cons.mp h
    obtain ⟨after, hkey, hafter⟩ := leaves_readKey_quoted hs hcolon hblanks
    simp only [writeMembers, List.cons_append, List.append_assoc] at hafter
    obtain ⟨w, hread, hw⟩ := hvalue level after _ (ends_cons (by decide)) hafter
    exact leaves_readMembersFrom hkey hread
      (Or.inr ⟨_, hw, ih hmore (skipSpace_append (hsp.line level) _)⟩)

/-- **A writable document is read off the front of a text.** By induction on the document.  A
    numeral ends where the text that follows does not go on with it; all other documents end by
    themselves. -/
theorem readOff_of_writable {reads : Number → Number} {depth : Nat} {value : Json}
    (h : Writable reads depth value) : ReadOff sp depth value (mapReals reads value) := by
  induction h with
  | null =>
    intro level s t _ hs
    refine ⟨t, ?_, rfl⟩
    exact (leaves_readValue_scalar_iff hs (by decide) (by decide) (by decide)).mpr ⟨_, rfl⟩
  | bool value =>
    intro level s t _ hs
    refine ⟨t, ?_, rfl⟩
    cases value with
    | false => exact (leaves_readValue_scalar_iff hs (by decide) (by decide) (by decide)).mpr ⟨_, rfl⟩
    | true => exact (leaves_readValue_scalar_iff hs (by decide) (by decide) (by decide)).mpr ⟨_, rfl⟩
  | @whole depth n low high =>
    intro level s t ht hs
    have hnumber : IsNumber (.whole n) := trivial
    have hread := leaves_readValue_whole low high maxDepth
    exact ⟨t, leaves_readValue_append hnumber ht hread hs, rfl⟩
  | @real depth x back =>
    intro level s t ht hs
    have hnumber : IsNumber (.real (reads x)) := trivial
    -- alone the numeral is read with blanks at most behind it, which stand before what follows
    obtain ⟨rest, hread, hrest⟩ := exists_leaves_of_read back
    refine ⟨rest ++ t, leaves_readValue_append hnumber ht hread hs, skipSpace_append ?_ t⟩
    exact List.dropWhile_eq_nil_iff.mp hrest
  | text value =>
    intro level s t _ hs
    refine ⟨t, ?_, rfl⟩
    have hstring := leaves_readString_escape value.toList [] t
    rw [List.reverse_nil, List.nil_append, String.ofList_toList] at hstring
    -- a text is read from its opening quote on
    simp only [write, scalar, quoted, List.cons_append, List.append_assoc, List.nil_append] at hs
    refine (leaves_readValue_scalar_iff hs (by decide) (by decide) (by decide)).mpr ?_
    obtain ⟨_, hstring⟩ := hstring
    rw [readScalar, hstring]
    exact ⟨_, rfl⟩
  | @list depth items each ih =>
    intro level s t _ hs
    refine ⟨t, ?_, rfl⟩
    rw [mapReals_list]
    cases items with
    | nil => exact leaves_readValue_list hs (leaves_readItems_iff.mpr (Or.inl ⟨rfl, rfl⟩))
    | cons item items =>
      simp only [write, List.cons_append, List.append_assoc, List.nil_append] at hs
      refine leaves_readValue_list hs ?_
      have hitem := skipSpace_append (hsp.line (level + 1)) (write sp (level + 1) item ++
        (writeItems sp (level + 1) items ++ (sp.line level ++ ']' :: t)))
      have hfrom := leaves_readItemsFrom_write hsp ih (hsp.line level) hitem
      refine leaves_readItems_iff.mpr (Or.inr ⟨?_, hfrom⟩)
      -- the first item is no closing bracket, so the list is not taken for an empty one
      obtain ⟨_, _, hvalue, _⟩ := leaves_readItemsFrom_iff.mp hfrom
      exact not_closing_of_leaves hvalue
  | @object depth members each ih =>
    intro level s t _ hs
    refine ⟨t, ?_, rfl⟩
    rw [mapReals_object]
    cases members with
    | nil => exact leaves_readValue_object hs (leaves_readMembers_nil rfl)
    | cons member members =>
      simp only [write, List.cons_append, List.append_assoc, List.nil_append] at hs
      refine leaves_readValue_object hs ?_
      have hkey := skipSpace_append (hsp.line (level + 1)) (quoted member.1 ++ (sp.colon ++
        (write sp (level + 1) member.2 ++ (writeMembers sp (level + 1) members ++
          (sp.line level ++ '\x7d' :: t)))))
      exact leaves_readMembers_cons hkey
        (leaves_readMembersFrom_write hsp ih (hsp.line level) hkey)

/-- **A written list gives its items as entries**, with their numbers as they are read, and no
    problem, for nothing is left behind the closing bracket. -/
theorem entries_write_of_reads {reads : Number → Number} {items : List Json}
    (h : Writable reads maxDepth (.list items)) (level : Nat) :
    entries (write sp level (.list items)) = ⟨items.map (mapReals reads), none⟩ := by
  cases h with
  | list each =>
    cases items with
    | nil => rfl
    | cons item items =>
      have hline := skipSpace_append (hsp.line (level + 1)) (write sp (level + 1) item ++
        (writeItems sp (level + 1) items ++ (sp.line level ++ [']'])))
      have hfrom := leaves_readItemsFrom_write hsp
        (fun x hx => readOff_of_writable hsp (each x hx)) (hsp.line level) hline
      refine entries_eq_iff.mpr ⟨_, [], ?_, leaves_readItems_iff.mpr (Or.inr ⟨?_, hfrom⟩), rfl⟩
      · simp only [write, List.cons_append, List.append_assoc]
        rfl
      · obtain ⟨_, _, hvalue, _⟩ := leaves_readItemsFrom_iff.mp hfrom
        exact not_closing_of_leaves hvalue

/-- Where the numbers read back, the entries are the items themselves. -/
theorem entries_write {items : List Json} (h : Writable id maxDepth (.list items)) (level : Nat) :
    entries (write sp level (.list items)) = ⟨items, none⟩ := by
  have hitems : items.map (mapReals id) = items := by
    have hsame := h.mapReals_id
    rw [mapReals_list] at hsame
    exact Json.list.inj hsame
  rw [entries_write_of_reads hsp h, hitems]

end Documents

end CardSearch.Json
