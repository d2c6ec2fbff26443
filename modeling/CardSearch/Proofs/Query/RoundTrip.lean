import CardSearch.Proofs.Query.Chain
import CardSearch.Proofs.Query.Spelling

/-
  Writing trees as queries, and reading them back.

  A well-formed tree is written condition by condition: the field by its canonical name, the
  operator, and in double quotes some text of the value.  Every group stands in parentheses, with
  its members set apart by a blank or by a word between blanks, and a dash stands before whatever is
  negated.  A value has many texts, so writing is a relation.

  1. **Leaves (`cuts_condition`)** — a written condition is one comparison.  A canonical name
     consists of letters, so it is one word and ends at the operator (`cuts_comparison`); the quotes
     keep the text whole, since every double quote and backslash in it is escaped
     (`scanQuoted_escape`).
  2. **The crux (`isTerm_of_written`)** — a written tree is cut into the tokens of a term that has
     this tree.  The induction is on well-formedness: the members of a group are terms one after
     the other, so between the parentheses they are a chain.
  3. **Both ways (`parse_written`)** — what is read is well-formed, and what is well-formed can be
     written and is read back as it was.
-/

namespace CardSearch.Query

open Phrase

/-! ## Written trees -/

/-- A text with a backslash before each double quote and each backslash. -/
def escape : List Char → List Char
  | [] => []
  | c :: rest => if c = '"' ∨ c = '\\' then '\\' :: c :: escape rest else c :: escape rest

/-- A text in double quotes. -/
def quote (text : List Char) : List Char := '"' :: (escape text ++ ['"'])

mutual

/-- A tree is written as a text, with some text for the value of each condition. -/
inductive Node.Written : Node → List Char → Prop where
  | condition {leaf : Condition} {raw : String} (nonempty : raw ≠ "")
      (reads : Value.ofText? leaf.field raw = some leaf.value) :
      Node.Written (.condition leaf)
        (dash leaf.negated ++ (leaf.field.title.toList ++ (leaf.operator.symbol.toList ++
          quote raw.toList)))
  | emptyName {negated : Bool} :
      Node.Written (.condition ⟨.name, .colon, negated, .text ""⟩) (dash negated ++ quote [])
  | group {negated : Bool} {first : Node} {rest : List (Connective × Node)}
      {text more : List Char} (writtenFirst : Node.Written first text)
      (writtenRest : WrittenMembers rest more) :
      Node.Written (.group negated first rest) (dash negated ++ '(' :: (text ++ (more ++ [')'])))

/-- The further members of a group are written as a text. -/
inductive WrittenMembers : List (Connective × Node) → List Char → Prop where
  | nil : WrittenMembers [] []
  | cons {connective : Connective} {node : Node} {rest : List (Connective × Node)}
      {text more : List Char} (writtenNode : Node.Written node text)
      (writtenRest : WrittenMembers rest more) :
      WrittenMembers ((connective, node) :: rest) (separator connective ++ (text ++ more))

end

/-- Every well-formed tree can be written.  By induction on the tree, with the members of a group
    written one after the other. -/
theorem exists_written {node : Node} (h : node.WellFormed) : ∃ text, node.Written text := by
  induction h with
  | @condition leaf stated =>
    obtain ⟨field, operator, negated, value⟩ := leaf
    rcases stated with ⟨_, raw, hraw, hvalue⟩ | ⟨rfl, rfl, rfl⟩
    · exact ⟨_, .condition hraw hvalue⟩
    · exact ⟨_, .emptyName⟩
  | @group negated first rest _ _ _ _ ihfirst ihrest =>
    obtain ⟨text, htext⟩ := ihfirst
    -- any members that can be written can be written one after the other
    have hmembers : ∀ members : List (Connective × Node),
        (∀ member ∈ members, ∃ text, member.2.Written text) →
        ∃ more, WrittenMembers members more := by
      intro members
      induction members with
      | nil => exact fun _ => ⟨[], .nil⟩
      | cons member others ih =>
        intro hall
        obtain ⟨text, htext⟩ := hall member List.mem_cons_self
        obtain ⟨more, hmore⟩ := ih fun other hother => hall other (List.mem_cons_of_mem _ hother)
        exact ⟨_, .cons htext hmore⟩
    obtain ⟨more, hmore⟩ := hmembers rest ihrest
    exact ⟨_, .group htext hmore⟩

/-! ## Leaves -/

/-- An escaped text is read back up to its closing quote.  By induction on the text: a quote or a
    backslash in it is behind a backslash, and all else stands for itself. -/
theorem scanQuoted_escape (text rest : List Char) :
    scanQuoted '"' (escape text ++ '"' :: rest) = .ok (text, rest) := by
  induction text with
  | nil =>
    rw [escape, List.nil_append, scanQuoted.eq_def]
    exact if_pos rfl
  | cons c text ih =>
    by_cases hc : c = '"' ∨ c = '\\'
    · rw [escape, if_pos hc, List.cons_append, List.cons_append, scanQuoted.eq_def]
      simp [ih]
    · obtain ⟨hquote, hslash⟩ := not_or.mp hc
      rw [escape, if_neg hc, List.cons_append, scanQuoted.eq_def]
      simp [hquote, hslash, ih]

/-- A small letter ends no word. -/
theorem endsWord_of_isLower {c : Char} (h : c.isLower = true) (rest : List Char) :
    endsWord (c :: rest) = false ∧ Operator.take? (c :: rest) = none ∧ isQuote c = false ∧
      Text.isBlank c = false ∧ c ≠ '(' ∧ c ≠ ')' ∧ c ≠ '-' := by
  have hne : ∀ d : Char, d.isLower = false → c ≠ d := by
    rintro d hd rfl
    rw [h] at hd
    cases hd
  have hblank : Text.isBlank c = false := by
    have hrange : (decide (97 ≤ c.val) && decide (c.val ≤ 122)) = true := h
    have hlow : 97 ≤ c.toNat ∧ c.toNat ≤ 122 := by
      simpa [UInt32.le_iff_toNat_le] using hrange
    simp [Text.isBlank]
    omega
  have htake : Operator.take? (c :: rest) = none := by
    simp [Operator.take?, hne ':' rfl, hne '=' rfl, hne '!' rfl, hne '<' rfl, hne '>' rfl]
  refine ⟨?_, htake, ?_, hblank, hne '(' rfl, hne ')' rfl, hne '-' rfl⟩
  · simp [endsWord, hblank, htake, hne '(' rfl, hne ')' rfl, hne '"' rfl]
  · simp [isQuote, hne '"' rfl, hne '\'' rfl]

/-- Canonical names consist of small letters. -/
theorem isLower_of_mem_title (field : Field) : ∀ c ∈ field.title.toList, c.isLower = true := by
  have hall : field.title.toList.all Char.isLower = true := by
    cases field with
    | devotion color => cases color <;> decide
    | _ => decide
  exact List.all_eq_true.mp hall

theorem take?_symbol (operator : Operator) (rest : List Char) :
    Operator.take? (operator.symbol.toList ++ '"' :: rest) = some (operator, '"' :: rest) := by
  cases operator <;> rfl

/-- A word of small letters goes on to where it is ended.  By induction on the word. -/
theorem scanWord_letters {word rest : List Char} (h : ∀ c ∈ word, c.isLower = true)
    (hends : endsWord rest = true) : scanWord (word ++ rest) = (word, rest) := by
  induction word with
  | nil => exact scanWord_of_endsWord hends
  | cons c word ih =>
    obtain ⟨hc, hword⟩ := List.forall_mem_cons.mp h
    rw [List.cons_append, scanWord, (endsWord_of_isLower hc _).1, ih hword]
    rfl

/-- **A word of small letters, an operator and a value are one comparison**, if the operator is taken
    as it stands and the value goes on to the end. -/
theorem cuts_comparison {field : String} (hne : field ≠ "")
    (hletters : ∀ c ∈ field.toList, c.isLower = true) {operator : Operator}
    {written value : List Char}
    (htake : Operator.take? (operator.symbol.toList ++ written) = some (operator, written))
    (hvalue : scanValue written = .ok (value, [])) :
    Cuts (field.toList ++ (operator.symbol.toList ++ written))
      [.comparison field operator (String.ofList value)] := by
  have hnonempty : field.toList ≠ [] := fun hempty => hne (String.toList_eq_nil_iff.mp hempty)
  obtain ⟨c, word, hfield⟩ := List.exists_cons_of_ne_nil hnonempty
  rw [hfield] at hletters
  obtain ⟨hc, hword⟩ := List.forall_mem_cons.mp hletters
  obtain ⟨_, hoperator, hquote, hblank, hmarks⟩ :=
    endsWord_of_isLower hc (word ++ (operator.symbol.toList ++ written))
  have hscan : scanTerm (c :: word) (operator.symbol.toList ++ written) =
      .ok (.comparison field operator (String.ofList value), []) := by
    rw [scanTerm, htake]
    simp only [hvalue, ← hfield, String.ofList_toList]
  have hends : endsWord (operator.symbol.toList ++ written) = true :=
    endsWord_of_take? (isSome_take?_symbol operator written)
  rw [hfield, List.cons_append]
  refine .token hblank (.term hmarks hquote hoperator ?_) .nil
  rw [scanWord_letters hword hends]
  exact hscan

/-- A value without blanks and parentheses, that begins with neither quote nor operator, is taken
    whole. -/
theorem cuts_plain {field : String} (hne : field ≠ "")
    (hletters : ∀ c ∈ field.toList, c.isLower = true) (operator : Operator) {c : Char}
    {rest : List Char} (hquote : isQuote c = false) (hequal : c ≠ '=') (hgreater : c ≠ '>')
    (h : ∀ d ∈ c :: rest, endsValue d = false) :
    Cuts (field.toList ++ (operator.symbol.toList ++ c :: rest))
      [.comparison field operator (String.ofList (c :: rest))] :=
  cuts_comparison hne hletters (take?_before hequal hgreater operator rest)
    (scanValue_whole hquote h)

/-- A comparison with a quoted value has the text between the quotes for its value: the word ends
    at the operator, and the operator at the quote. -/
theorem cuts_quoted {field : String} (hne : field ≠ "")
    (hletters : ∀ c ∈ field.toList, c.isLower = true) (operator : Operator) (raw : String) :
    Cuts (field.toList ++ (operator.symbol.toList ++ quote raw.toList))
      [.comparison field operator raw] := by
  have hvalue : scanValue (quote raw.toList) = .ok (raw.toList, []) := by
    rw [quote, scanValue_of_quote rfl, scanQuoted_escape]
  have htake := take?_symbol operator (escape raw.toList ++ ['"'])
  have hcuts := cuts_comparison hne hletters htake hvalue
  rwa [String.ofList_toList] at hcuts

/-- **A written condition is one comparison**, with the text of its value. -/
theorem cuts_condition (field : Field) (operator : Operator) (raw : String) :
    Cuts (field.title.toList ++ (operator.symbol.toList ++ quote raw.toList))
      [.comparison field.title operator raw] := by
  have hnonempty : field.title ≠ "" := by
    cases field with
    | devotion color => cases color <;> decide
    | _ => decide
  exact cuts_quoted hnonempty (isLower_of_mem_title field) operator raw

theorem cuts_emptyName : Cuts (quote []) [.quoted ""] := .token rfl (.quoted rfl rfl) .nil

/-! ## Reading back -/

/-- A tree that is read back: whatever it is written as is a term with this tree. -/
def ReadBack (node : Node) : Prop := ∀ {text : List Char}, node.Written text → IsTerm text node

/-- Members that are read back, where they are written one after the other.  By induction on the
    members. -/
theorem memberTexts_of_written {members : List (Connective × Node)} {more : List Char}
    (hread : ∀ member ∈ members, ReadBack member.2) (h : WrittenMembers members more) :
    MemberTexts members more := by
  induction members generalizing more with
  | nil =>
    cases h
    exact .nil
  | cons member rest ih =>
    obtain ⟨hmember, hrest⟩ := List.forall_mem_cons.mp hread
    cases h with
    | cons hnode hmore => exact .cons (hmember hnode) (ih hrest hmore)

/-- A chain of further members is one un-negated group; a group of one member would not be. -/
theorem chain_eq_group {first : Node} {rest : List (Connective × Node)} (h : rest ≠ []) :
    chain first rest = .group false first rest := by
  obtain ⟨second, others, rfl⟩ := List.exists_cons_of_ne_nil h
  rfl

/-- **A well-formed tree is read back as a term.** By induction on the tree.  A group is in
    parentheses, a condition is one comparison, and a dash before either negates it; the empty
    name has its own way to be written. -/
theorem isTerm_of_written {node : Node} (h : node.WellFormed) : ReadBack node := by
  induction h with
  | @condition leaf stated =>
    intro text hwritten
    cases hwritten with
    | @condition _ raw hraw hvalue =>
      obtain ⟨field, operator, negated, value⟩ := leaf
      -- the empty name has an operator of its field as well
      have hoperator : operator ∈ field.operators := by
        rcases stated with ⟨hoperator, _⟩ | ⟨rfl, rfl, _⟩
        · exact hoperator
        · decide
      have hcondition : condition field.title operator raw = .ok ⟨field, operator, false, value⟩ :=
        condition_eq_ok_iff.mpr
          ⟨field, value, Field.ofAbbreviation?_title field, hoperator, hraw, hvalue, rfl⟩
      have hplain : IsTerm _ (.condition ⟨field, operator, false, value⟩) :=
        ⟨.comparison field.title operator raw,
          comparison_tree?_eq_some_iff.mpr ⟨_, hcondition, rfl⟩, cuts_condition field operator raw⟩
      have hdashed := hplain.dashed negated
      cases negated <;> exact hdashed
    | @emptyName negated =>
      have hplain : IsTerm (quote []) (.bare "") := ⟨.quoted "", rfl, cuts_emptyName⟩
      have hdashed := hplain.dashed negated
      cases negated <;> exact hdashed
  | @group negated first rest hfurther halike _ _ ihfirst ihrest =>
    intro text hwritten
    cases hwritten with
    | @group _ _ _ text more htext hmore =>
      obtain ⟨phrase, htree, hcuts⟩ := exists_alternatives detached_closing cuts_closing
        (ihfirst htext) (memberTexts_of_written ihrest hmore) halike
      rw [chain_eq_group hfurther] at htree
      have hdashed := (isTerm_parens htree hcuts).dashed negated
      cases negated <;> exact hdashed

/-! ## Both ways -/

/-- **Writing and reading are inverse.**  A tree is well-formed exactly when some query has it; and
    a well-formed tree can be written, and is read back from whatever it is written as. -/
theorem parse_written :
    (∀ text tree, parse text = .ok tree → tree.WellFormed) ∧
    ∀ tree : Node, tree.WellFormed →
      (∃ text : String, tree.Written text.toList) ∧
      ∀ text : String, tree.Written text.toList → parse text = .ok tree := by
  refine ⟨fun text tree => wellFormed_of_parse, fun tree htree => ⟨?_, fun text hwritten => ?_⟩⟩
  · obtain ⟨text, hwritten⟩ := exists_written htree
    exact ⟨String.ofList text, by rwa [String.toList_ofList]⟩
  · exact (isTerm_of_written htree hwritten).parse

/-- A plain word is read as a tree that is well-formed; and a negated choice between a name with a
    double quote in it and a negated empty name is read back from what it is written as. -/
theorem parse_written_choice :
    let tree : Node := .group true (.condition ⟨.name, .colon, false, .text "a\"b"⟩)
      [(.or, .condition ⟨.name, .colon, true, .text ""⟩)]
    (parse "elf" = .ok (.bare "elf") ∧ (Node.bare "elf").WellFormed) ∧
      tree.WellFormed ∧ tree.Written "-(name:\"a\\\"b\" or -\"\")".toList ∧
        parse "-(name:\"a\\\"b\" or -\"\")" = .ok tree := by
  intro tree
  have helf : IsTerm "elf".toList (.bare "elf") :=
    ⟨.word "elf", rfl, .token rfl (.term (by decide) rfl rfl rfl) .nil⟩
  have hraw : "a\"b" ≠ "" := by decide
  have hvalue : Value.ofText? .name "a\"b" = some (.text "a\"b") := rfl
  have hwell : tree.WellFormed := by
    refine .group (List.cons_ne_nil _ _) (Or.inl (by simp))
      (.condition (Or.inl ⟨by decide, "a\"b", hraw, hvalue⟩)) fun member hmember => ?_
    obtain rfl := List.mem_singleton.mp hmember
    exact .condition (Or.inr ⟨rfl, rfl, rfl⟩)
  have hwritten : tree.Written "-(name:\"a\\\"b\" or -\"\")".toList :=
    .group (.condition hraw hvalue) (.cons .emptyName .nil)
  exact ⟨⟨helf.parse, parse_written.1 "elf" _ helf.parse⟩, hwell, hwritten,
    (parse_written.2 tree hwell).2 _ hwritten⟩

end CardSearch.Query
