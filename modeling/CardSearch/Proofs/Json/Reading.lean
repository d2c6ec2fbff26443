import CardSearch.Json.Read

/-
  What the reader of JSON takes off the front of a text.

  The readers return the rest of the text with a proof of its length, which later statements do not
  need: `Leaves` says what was read and what is left.

  1. **Rules (`leaves_readValue_list`, `leaves_readItemsFrom_iff` …)** — each reader said by the
     readers that it calls, so that later proofs never open them.
  2. **The crux (`entriesFrom_eq_iff`)** — `entries` keeps what it has read when a problem turns up.
     When none does, it reads what the plain reader of lists reads.
  3. **Whole texts (`entries_eq_iff`, `read_of_entries`)** — so a text has entries without a problem
     exactly when it is one list of them and nothing else.
-/

namespace CardSearch.Json

/-- A reader took a value off the front of a text and left the rest. -/
def Leaves {α : Type} {P : List Char → Prop}
    (result : Except Problem (α × { rest : List Char // P rest })) (value : α)
    (rest : List Char) : Prop :=
  ∃ h, result = .ok (value, ⟨rest, h⟩)

section Returned

variable {α : Type} {P Q : List Char → Prop} {value : α} {rest : List Char}

/-- A result that is a value and a rest is that value and that rest, whatever the proof of its
    length. -/
theorem eq_of_ok {found : α} {last : { rest : List Char // P rest }} {h : P rest}
    (hresult : (.ok (found, last) : Except Problem _) = .ok (value, ⟨rest, h⟩)) :
    found = value ∧ last.val = rest := by
  obtain ⟨hfound, hlast⟩ := Prod.mk.inj (Except.ok.inj hresult)
  exact ⟨hfound, congrArg Subtype.val hlast⟩

/-- A reader that has succeeded leaves what it left. -/
theorem leaves_ok_iff {found : α} {last : { rest : List Char // P rest }} :
    Leaves (.ok (found, last)) value rest ↔ found = value ∧ last.val = rest := by
  constructor
  · rintro ⟨_, h⟩
    exact eq_of_ok h
  · rintro ⟨rfl, rfl⟩
    exact ⟨last.2, rfl⟩

/-- Saying otherwise how long the rest is changes nothing.  The readers do so when they pass on
    the rest of another reader. -/
theorem leaves_map_iff {result : Except Problem (α × { rest : List Char // P rest })}
    (lift : { rest : List Char // P rest } → { rest : List Char // Q rest })
    (hlift : ∀ last, (lift last).val = last.val) :
    Leaves (result.map fun (a, last) => (a, lift last)) value rest ↔ Leaves result value rest := by
  cases result with
  | error e => exact iff_of_false (fun ⟨_, h⟩ => nomatch h) fun ⟨_, h⟩ => nomatch h
  | ok found =>
    change Leaves (.ok (found.1, lift found.2)) value rest ↔
      Leaves (.ok (found.1, found.2)) value rest
    rw [leaves_ok_iff, leaves_ok_iff, hlift]

end Returned

/-- A blank text has no value, and is unfinished. -/
theorem readValue_of_nil {depth : Nat} {s : List Char} (h : skipSpace s = []) :
    readValue depth s = .error .unfinished := by
  rw [readValue.eq_def]
  split
  · rfl
  · rename_i hcons
    rw [h] at hcons
    cases hcons

/-! ## Values that hold no other -/

/-- A value that begins with a digit is a numeral. -/
theorem leaves_readValue_digit_iff {depth : Nat} {s r w : List Char} {c : Char} {value : Json}
    (hs : skipSpace s = c :: r) (hc : isDigit c = true) :
    Leaves (readValue depth s) value w ↔ Leaves (readNumeral false c r) value w := by
  rw [readValue.eq_def]
  split
  · rename_i hnil
    rw [hs] at hnil
    cases hnil
  rename_i c' r' hcons
  rw [hs] at hcons
  obtain ⟨rfl, rfl⟩ := List.cons.inj hcons
  have hbracket : (c == '[') = false := by
    refine beq_eq_false_iff_ne.mpr ?_
    rintro rfl
    exact absurd hc (by decide)
  have hbrace : (c == '\x7b') = false := by
    refine beq_eq_false_iff_ne.mpr ?_
    rintro rfl
    exact absurd hc (by decide)
  simp only [hbracket, hbrace, hc, Bool.false_eq_true, if_false, if_true]
  rw [← leaves_map_iff (fun last : Text.Within r => last.shorter (length_lt_of_skipSpace hs))
    fun _ => rfl]
  cases readNumeral false c r <;> rfl

/-- One that begins with no digit and no bracket is a word, a text or a negative numeral. -/
theorem leaves_readValue_scalar_iff {depth : Nat} {s r w : List Char} {c : Char} {value : Json}
    (hs : skipSpace s = c :: r) (hbracket : c ≠ '[') (hbrace : c ≠ '\x7b')
    (hc : isDigit c = false) :
    Leaves (readValue depth s) value w ↔ Leaves (readScalar c r) value w := by
  rw [readValue.eq_def]
  split
  · rename_i hnil
    rw [hs] at hnil
    cases hnil
  rename_i c' r' hcons
  rw [hs] at hcons
  obtain ⟨rfl, rfl⟩ := List.cons.inj hcons
  simp only [beq_eq_false_iff_ne.mpr hbracket, beq_eq_false_iff_ne.mpr hbrace, hc,
    Bool.false_eq_true, if_false]
  rw [← leaves_map_iff (fun last : Text.Within r => last.shorter (length_lt_of_skipSpace hs))
    fun _ => rfl]
  cases readScalar c r <;> rfl

/-- A value begins with no closing bracket, which is how the reader tells an empty list. -/
theorem not_closing_of_leaves {depth : Nat} {s w : List Char} {value : Json}
    (h : Leaves (readValue depth s) value w) (r : List Char) : skipSpace s ≠ ']' :: r := by
  intro hs
  obtain ⟨_, h⟩ := (leaves_readValue_scalar_iff hs (by decide) (by decide) (by decide)).mp h
  cases h

/-! ## Lists -/

/-- A list is what its items are, one level further in. -/
theorem leaves_readValue_list {depth : Nat} {s r rest : List Char} {items : List Json}
    (hs : skipSpace s = '[' :: r) (h : Leaves (readItems depth r) items rest) :
    Leaves (readValue (depth + 1) s) (.list items) rest := by
  obtain ⟨hrest, hread⟩ := h
  rw [readValue.eq_def]
  split
  · rename_i hnil
    rw [hs] at hnil
    cases hnil
  · rename_i c r' hcons
    rw [hs] at hcons
    obtain ⟨rfl, rfl⟩ := List.cons.inj hcons
    simp only [beq_self_eq_true, if_true, hread]
    exact ⟨_, rfl⟩

/-- Only a list begins with a bracket, so a value that does is one. -/
theorem eq_list_of_leaves {depth : Nat} {s r rest : List Char} {value : Json}
    (hs : skipSpace s = '[' :: r) (h : Leaves (readValue depth s) value rest) :
    ∃ items, value = .list items := by
  obtain ⟨_, h⟩ := h
  rw [readValue.eq_def] at h
  split at h
  · cases h
  rename_i c r' hcons
  rw [hs] at hcons
  obtain ⟨rfl, rfl⟩ := List.cons.inj hcons
  simp only [beq_self_eq_true, if_true] at h
  split at h
  · cases h
  split at h
  · cases h
  obtain ⟨rfl, _⟩ := eq_of_ok h
  exact ⟨_, rfl⟩

/-- **The items from one on**: a value, and behind it the end of the list or a comma and further
    items.  Later proofs use this in place of the reader. -/
theorem leaves_readItemsFrom_iff {depth : Nat} {s rest : List Char} {items : List Json} :
    Leaves (readItemsFrom depth s) items rest ↔
      ∃ value after, Leaves (readValue depth s) value after ∧
        ((skipSpace after = ']' :: rest ∧ items = [value]) ∨
          ∃ more later, skipSpace after = ',' :: more ∧
            Leaves (readItemsFrom depth more) later rest ∧ items = value :: later) := by
  constructor
  · rintro ⟨hrest, h⟩
    rw [readItemsFrom.eq_def] at h
    split at h
    · cases h
    rename_i value after hafter hread
    refine ⟨value, after, ⟨hafter, hread⟩, ?_⟩
    split at h
    · cases h
    -- the list is closed, or goes on behind a comma
    rename_i c more hmore
    split at h
    · rename_i hc
      obtain ⟨rfl, rfl⟩ := eq_of_ok h
      exact Or.inl ⟨(beq_iff_eq.mp hc) ▸ hmore, rfl⟩
    · split at h
      · rename_i hc
        split at h
        · cases h
        rename_i later last hlater
        obtain ⟨rfl, rfl⟩ := eq_of_ok h
        exact Or.inr ⟨more, later, (beq_iff_eq.mp hc) ▸ hmore, ⟨_, hlater⟩, rfl⟩
      · cases h
  · rintro ⟨value, after, ⟨hafter, hread⟩, hend⟩
    rw [readItemsFrom.eq_def]
    simp only [hread]
    split
    · rename_i hnil
      rcases hend with ⟨hclose, _⟩ | ⟨_, _, hcomma, _⟩
      · rw [hclose] at hnil
        cases hnil
      · rw [hcomma] at hnil
        cases hnil
    · rename_i c more hmore
      rcases hend with ⟨hclose, rfl⟩ | ⟨more', later, hcomma, ⟨_, hlater⟩, rfl⟩
      · rw [hclose] at hmore
        obtain ⟨rfl, rfl⟩ := List.cons.inj hmore
        exact ⟨_, rfl⟩
      · rw [hcomma] at hmore
        obtain ⟨rfl, rfl⟩ := List.cons.inj hmore
        simp only [hlater]
        exact ⟨_, rfl⟩

/-- No item stands in a text in which only blanks are left. -/
theorem not_leaves_readItemsFrom {depth : Nat} {s rest : List Char} {items : List Json}
    (hnil : skipSpace s = []) : ¬ Leaves (readItemsFrom depth s) items rest := by
  intro hfrom
  obtain ⟨_, _, ⟨_, hread⟩, _⟩ := leaves_readItemsFrom_iff.mp hfrom
  rw [readValue_of_nil hnil] at hread
  cases hread

/-- A list is empty if its bracket is closed at once, and else it has items from one on. -/
theorem leaves_readItems_iff {depth : Nat} {s rest : List Char} {items : List Json} :
    Leaves (readItems depth s) items rest ↔
      (skipSpace s = ']' :: rest ∧ items = []) ∨
        ((∀ r, skipSpace s ≠ ']' :: r) ∧ Leaves (readItemsFrom depth s) items rest) := by
  rw [readItems.eq_def]
  split
  · rename_i hnil
    constructor
    · rintro ⟨_, h⟩
      cases h
    · -- nothing is left to read from
      rintro (⟨hclose, _⟩ | ⟨_, hfrom⟩)
      · rw [hnil] at hclose
        cases hclose
      · exact absurd hfrom (not_leaves_readItemsFrom hnil)
  · rename_i c r hcons
    by_cases hc : c = ']'
    · subst hc
      simp only [beq_self_eq_true, if_true]
      constructor
      · rintro ⟨_, h⟩
        obtain ⟨rfl, rfl⟩ := eq_of_ok h
        exact Or.inl ⟨hcons, rfl⟩
      · rintro (⟨hclose, rfl⟩ | ⟨hopen, _⟩)
        · rw [hcons] at hclose
          obtain ⟨_, rfl⟩ := List.cons.inj hclose
          exact ⟨_, rfl⟩
        · exact absurd hcons (hopen r)
    · simp only [beq_eq_false_iff_ne.mpr hc, Bool.false_eq_true, if_false]
      have hopen : ∀ r, skipSpace s ≠ ']' :: r := by
        intro r' hclose
        rw [hcons] at hclose
        exact hc (List.cons.inj hclose).1
      constructor
      · exact fun h => Or.inr ⟨hopen, h⟩
      · rintro (⟨hclose, _⟩ | ⟨_, h⟩)
        · exact absurd hclose (hopen rest)
        · exact h

/-! ## Objects -/

/-- An object is what its members are, one level further in. -/
theorem leaves_readValue_object {depth : Nat} {s r rest : List Char}
    {members : List (String × Json)} (hs : skipSpace s = '\x7b' :: r)
    (h : Leaves (readMembers depth r) members rest) :
    Leaves (readValue (depth + 1) s) (.object members) rest := by
  obtain ⟨hrest, hread⟩ := h
  rw [readValue.eq_def]
  split
  · rename_i hnil
    rw [hs] at hnil
    cases hnil
  · rename_i c r' hcons
    rw [hs] at hcons
    obtain ⟨rfl, rfl⟩ := List.cons.inj hcons
    have hbrace : ('\x7b' == '[') = false := by decide
    simp only [hbrace, Bool.false_eq_true, if_false, beq_self_eq_true, if_true, hread]
    exact ⟨_, rfl⟩

/-- Only an object begins with a brace, so a value that does is one. -/
theorem eq_object_of_leaves {depth : Nat} {s r rest : List Char} {value : Json}
    (hs : skipSpace s = '\x7b' :: r) (h : Leaves (readValue depth s) value rest) :
    ∃ members, value = .object members := by
  obtain ⟨_, h⟩ := h
  rw [readValue.eq_def] at h
  split at h
  · cases h
  rename_i c r' hcons
  rw [hs] at hcons
  obtain ⟨rfl, rfl⟩ := List.cons.inj hcons
  have hbracket : ('\x7b' == '[') = false := by decide
  simp only [hbracket, Bool.false_eq_true, if_false, beq_self_eq_true, if_true] at h
  split at h
  · cases h
  split at h
  · cases h
  obtain ⟨rfl, _⟩ := eq_of_ok h
  exact ⟨_, rfl⟩

/-- A key is a string and a colon, with blanks before and between. -/
theorem leaves_readKey {s r after rest : List Char} {key : String}
    (hs : skipSpace s = '"' :: r) (h : Leaves (readString [] r) key after)
    (hcolon : skipSpace after = ':' :: rest) : Leaves (readKey s) key rest := by
  obtain ⟨hafter, hread⟩ := h
  rw [readKey.eq_def]
  split
  · rename_i hnil
    rw [hs] at hnil
    cases hnil
  rename_i c r' hcons
  rw [hs] at hcons
  obtain ⟨rfl, rfl⟩ := List.cons.inj hcons
  simp only [beq_self_eq_true, if_true, hread]
  split
  · rename_i hnil
    rw [hcolon] at hnil
    cases hnil
  · rename_i d last hlast
    rw [hcolon] at hlast
    obtain ⟨rfl, rfl⟩ := List.cons.inj hlast
    exact ⟨_, rfl⟩

/-- An object whose brace is closed at once is empty. -/
theorem leaves_readMembers_nil {depth : Nat} {s rest : List Char}
    (hs : skipSpace s = '\x7d' :: rest) : Leaves (readMembers depth s) [] rest := by
  rw [readMembers.eq_def]
  split
  · rename_i hnil
    rw [hs] at hnil
    cases hnil
  · rename_i c r hcons
    rw [hs] at hcons
    obtain ⟨rfl, rfl⟩ := List.cons.inj hcons
    exact ⟨_, rfl⟩

/-- Members begin with a quote, that of the first key. -/
theorem leaves_readMembers_cons {depth : Nat} {s r rest : List Char}
    {members : List (String × Json)} (hs : skipSpace s = '"' :: r)
    (h : Leaves (readMembersFrom depth s) members rest) :
    Leaves (readMembers depth s) members rest := by
  rw [readMembers.eq_def]
  split
  · rename_i hnil
    rw [hs] at hnil
    cases hnil
  · rename_i c r' hcons
    rw [hs] at hcons
    obtain ⟨rfl, rfl⟩ := List.cons.inj hcons
    exact h

/-- A key, a value, and behind it the end of the object or a comma and further members. -/
theorem leaves_readMembersFrom {depth : Nat} {s after next rest : List Char} {key : String}
    {value : Json} {members : List (String × Json)} (hkey : Leaves (readKey s) key after)
    (hvalue : Leaves (readValue depth after) value next)
    (hend : (skipSpace next = '\x7d' :: rest ∧ members = []) ∨
      ∃ more, skipSpace next = ',' :: more ∧ Leaves (readMembersFrom depth more) members rest) :
    Leaves (readMembersFrom depth s) ((key, value) :: members) rest := by
  obtain ⟨hafter, hkey⟩ := hkey
  obtain ⟨hnext, hvalue⟩ := hvalue
  rw [readMembersFrom.eq_def]
  simp only [hkey, hvalue]
  split
  · rename_i hnil
    rcases hend with ⟨hclose, _⟩ | ⟨_, hcomma, _⟩
    · rw [hclose] at hnil
      cases hnil
    · rw [hcomma] at hnil
      cases hnil
  · rename_i c more hmore
    rcases hend with ⟨hclose, rfl⟩ | ⟨more', hcomma, ⟨_, hmembers⟩⟩
    · rw [hclose] at hmore
      obtain ⟨rfl, rfl⟩ := List.cons.inj hmore
      exact ⟨_, rfl⟩
    · rw [hcomma] at hmore
      obtain ⟨rfl, rfl⟩ := List.cons.inj hmore
      simp only [hmembers]
      exact ⟨_, rfl⟩

/-! ## Whole texts -/

/-- The items from one on, when no problem turns up among them or after them.  The text behind the
    list is looked at once the last item is read. -/
theorem entriesFrom_eq_step {s : List Char} {items : List Json} :
    entriesFrom s = ⟨items, none⟩ ↔
      ∃ value after, Leaves (readValue (maxDepth - 1) s) value after ∧
        ((∃ rest, skipSpace after = ']' :: rest ∧ trailing? rest = none ∧ items = [value]) ∨
          ∃ more later, skipSpace after = ',' :: more ∧ entriesFrom more = ⟨later, none⟩ ∧
            items = value :: later) := by
  constructor
  · intro h
    rw [entriesFrom.eq_def] at h
    split at h
    · cases h
    rename_i value after hafter hread
    refine ⟨value, after, ⟨hafter, hread⟩, ?_⟩
    split at h
    · cases h
    -- the list is closed and nothing follows it, or it goes on behind a comma
    rename_i c more hmore
    split at h
    · rename_i hc
      obtain ⟨rfl, hend⟩ := Entries.mk.inj h
      exact Or.inl ⟨more, (beq_iff_eq.mp hc) ▸ hmore, hend, rfl⟩
    split at h
    · rename_i hc
      obtain ⟨rfl, hend⟩ := Entries.mk.inj h
      refine Or.inr ⟨more, (entriesFrom more).items, (beq_iff_eq.mp hc) ▸ hmore, ?_, rfl⟩
      rw [← hend]
    · cases h
  · rintro ⟨value, after, ⟨hafter, hread⟩, hend⟩
    rw [entriesFrom.eq_def]
    simp only [hread]
    split
    · rename_i hnil
      rcases hend with ⟨_, hclose, _⟩ | ⟨_, _, hcomma, _⟩
      · rw [hclose] at hnil
        cases hnil
      · rw [hcomma] at hnil
        cases hnil
    · rename_i c more hmore
      rcases hend with ⟨rest, hclose, hend, rfl⟩ | ⟨more', later, hcomma, hlater, rfl⟩
      · rw [hclose] at hmore
        obtain ⟨rfl, rfl⟩ := List.cons.inj hmore
        simp only [beq_self_eq_true, if_true, hend]
      · rw [hcomma] at hmore
        obtain ⟨rfl, rfl⟩ := List.cons.inj hmore
        have hcomma : (',' == ']') = false := by decide
        simp only [hcomma, Bool.false_eq_true, if_false, beq_self_eq_true, if_true, hlater]

/-- **Entries without a problem are the items that the reader of lists finds.** By induction on
    the items, with the step above for both readers. -/
theorem entriesFrom_eq_iff {s : List Char} {items : List Json} :
    entriesFrom s = ⟨items, none⟩ ↔
      ∃ rest, Leaves (readItemsFrom (maxDepth - 1) s) items rest ∧ trailing? rest = none := by
  induction items generalizing s with
  | nil =>
    rw [entriesFrom_eq_step]
    constructor
    · -- a reader of items finds one at least
      rintro ⟨_, _, _, ⟨_, _, _, h⟩ | ⟨_, _, _, _, h⟩⟩ <;> cases h
    · rintro ⟨_, h, _⟩
      obtain ⟨_, _, _, ⟨_, h⟩ | ⟨_, _, _, _, h⟩⟩ := leaves_readItemsFrom_iff.mp h <;> cases h
  | cons item items ih =>
    rw [entriesFrom_eq_step]
    constructor
    · rintro ⟨value, after, hread,
        ⟨rest, hclose, hend, hitems⟩ | ⟨more, later, hcomma, hlater, hitems⟩⟩
      · refine ⟨rest, leaves_readItemsFrom_iff.mpr ?_, hend⟩
        exact ⟨value, after, hread, Or.inl ⟨hclose, hitems⟩⟩
      · obtain ⟨rfl, rfl⟩ := List.cons.inj hitems
        obtain ⟨rest, hrest, hend⟩ := ih.mp hlater
        exact ⟨rest, leaves_readItemsFrom_iff.mpr
          ⟨item, after, hread, Or.inr ⟨more, items, hcomma, hrest, rfl⟩⟩, hend⟩
    · rintro ⟨rest, hread, hend⟩
      obtain ⟨value, after, hvalue, ⟨hclose, hitems⟩ | ⟨more, later, hcomma, hlater, hitems⟩⟩ :=
        leaves_readItemsFrom_iff.mp hread
      · exact ⟨value, after, hvalue, Or.inl ⟨rest, hclose, hend, hitems⟩⟩
      · obtain ⟨rfl, rfl⟩ := List.cons.inj hitems
        exact ⟨item, after, hvalue,
          Or.inr ⟨more, items, hcomma, ih.mpr ⟨rest, hlater, hend⟩, rfl⟩⟩

/-- Behind an opening bracket the entries are the items that the reader of lists finds, also if
    there are none. -/
theorem entries_list_eq_iff {s r : List Char} {items : List Json} (hs : skipSpace s = '[' :: r) :
    entries s = ⟨items, none⟩ ↔
      ∃ rest, Leaves (readItems (maxDepth - 1) r) items rest ∧ trailing? rest = none := by
  rw [entries.eq_def, hs]
  simp only [beq_self_eq_true, if_true, leaves_readItems_iff]
  split
  · -- neither reader finds an end
    rename_i hnil
    refine iff_of_false (fun h => by cases h) ?_
    rintro ⟨rest, ⟨hclose, _⟩ | ⟨_, hfrom⟩, _⟩
    · rw [hnil] at hclose
      cases hclose
    · exact absurd hfrom (not_leaves_readItemsFrom hnil)
  rename_i d more hmore
  by_cases hd : d = ']'
  · subst hd
    simp only [hmore, beq_self_eq_true, if_true, List.cons.injEq, true_and]
    constructor
    · intro h
      obtain ⟨rfl, hend⟩ := Entries.mk.inj h
      exact ⟨more, Or.inl ⟨rfl, rfl⟩, hend⟩
    · rintro ⟨rest, ⟨rfl, rfl⟩ | ⟨hopen, _⟩, hend⟩
      · exact congrArg (Entries.mk []) hend
      · exact absurd rfl (hopen more)
  · have hopen : ∀ r', skipSpace r ≠ ']' :: r' := by
      intro r' hclose
      rw [hmore] at hclose
      exact hd (List.cons.inj hclose).1
    rw [if_neg (by simpa using hd), entriesFrom_eq_iff]
    constructor
    · rintro ⟨rest, hfrom, hend⟩
      exact ⟨rest, Or.inr ⟨hopen, hfrom⟩, hend⟩
    · rintro ⟨rest, ⟨hclose, _⟩ | ⟨_, hfrom⟩, hend⟩
      · exact absurd hclose (hopen rest)
      · exact ⟨rest, hfrom, hend⟩

/-- A text has entries without a problem when it is a list and nothing follows.  Any other
    document is misshapen, or has a problem of its own. -/
theorem entries_eq_iff {s : List Char} {items : List Json} :
    entries s = ⟨items, none⟩ ↔
      ∃ r rest, skipSpace s = '[' :: r ∧ Leaves (readItems (maxDepth - 1) r) items rest ∧
        trailing? rest = none := by
  constructor
  · intro h
    have hentries := h
    rw [entries.eq_def] at h
    split at h
    · cases h
    rename_i c r hs
    split at h
    · rename_i hc
      rw [beq_iff_eq.mp hc] at hs
      obtain ⟨rest, hitems, hend⟩ := (entries_list_eq_iff hs).mp hentries
      exact ⟨r, rest, hs, hitems, hend⟩
    -- another document is misshapen, or has a problem of its own
    split at h
    · cases h
    split at h <;> cases h
  · rintro ⟨r, rest, hs, hitems, hend⟩
    exact (entries_list_eq_iff hs).mpr ⟨rest, hitems, hend⟩

/-- Reading a text to its end leaves only blanks. -/
theorem exists_leaves_of_read {s : List Char} {value : Json} (h : read s = .ok value) :
    ∃ rest, Leaves (readValue maxDepth s) value rest ∧ skipSpace rest = [] := by
  rw [read] at h
  split at h
  · cases h
  rename_i found rest hread
  split at h
  · cases h
  rename_i hend
  obtain rfl := Except.ok.inj h
  refine ⟨rest.val, ⟨rest.2, hread⟩, ?_⟩
  rw [trailing?] at hend
  split at hend
  · rename_i hempty
    exact List.isEmpty_iff.mp hempty
  · cases hend

/-- **A text that is read to its end as a list of entries is a document**, so what is shown of
    documents holds of catalogs. -/
theorem read_of_entries {s : List Char} {items : List Json} (h : entries s = ⟨items, none⟩) :
    read s = .ok (.list items) := by
  obtain ⟨r, rest, hopen, hitems, hend⟩ := entries_eq_iff.mp h
  obtain ⟨_, hread⟩ : Leaves (readValue maxDepth s) (.list items) rest :=
    leaves_readValue_list hopen hitems
  rw [read, hread]
  simp only [hend]

end CardSearch.Json
