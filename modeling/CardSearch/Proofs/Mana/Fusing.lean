import CardSearch.Proofs.Mana.Order
import CardSearch.Proofs.Mana.Spelling

/-
  Pools are not always read back as they are shown.

  A pool is shown without braces, so what keeps two of its symbols apart is only that one of them is
  a letter.

  1. **The crux (`poolFrom_append`)** — before the text of a pool, a run of digits takes in the
     digits at its start and nothing else (`absorb`).
  2. **Pools (`poolFrom_shown`)** — so what is shown for a pool is read with the neighbouring amounts
     run together (`fuse`).
  3. **Which pools (`fuse_eq_self_iff`)** — that is the pool itself if no amounts are neighbours, and
     in a text without braces none are (`shown_of_poolFrom`).
-/

namespace CardSearch.Mana

open Text (IsInert)

/-! ## Amounts that are neighbours -/

/-- Whether a symbol is a run of digits. -/
def isRun (symbol : String) : Bool := symbol.toList.all isDigit

/-- A symbol put before the symbols of a text without a brace between them: two amounts become one. -/
def absorb (symbol : String) : Pool → Pool
  | [] => [symbol]
  | next :: more =>
    if isRun symbol && isRun next then (symbol ++ next) :: more else symbol :: next :: more

/-- A pool with its neighbouring amounts run together. -/
def fuse : Pool → Pool
  | [] => []
  | symbol :: rest => absorb symbol (fuse rest)

/-- No two amounts of a pool are neighbours. -/
def Separated (pool : Pool) : Prop :=
  pool.IsChain fun symbol next => (isRun symbol && isRun next) = false

/-- A symbol is one of its own in front of a pool unless two amounts meet. -/
theorem absorb_eq_cons_iff {symbol : String} {pool : Pool} :
    absorb symbol pool = symbol :: pool ↔
      ∀ next ∈ pool.head?, (isRun symbol && isRun next) = false := by
  cases pool with
  | nil => exact iff_of_true rfl fun _ hnext => nomatch hnext
  | cons next more =>
    rw [absorb]
    constructor
    · intro hkept other hother
      obtain rfl := Option.some.inj hother
      refine Bool.eq_false_iff.mpr fun hruns => ?_
      rw [if_pos hruns] at hkept
      have hlength := congrArg List.length hkept
      simp at hlength
    · intro hapart
      rw [if_neg (by simpa using hapart next rfl)]

/-- What is put before a pool is a symbol of its own, or the pool gets no longer.  This is how a
    length tells whether anything was run together. -/
theorem absorb_cases (symbol : String) (pool : Pool) :
    absorb symbol pool = symbol :: pool ∨ (absorb symbol pool).length = pool.length := by
  cases pool with
  | nil => exact Or.inl rfl
  | cons next more =>
    rw [absorb]
    split
    · exact Or.inr rfl
    · exact Or.inl rfl

/-- Running amounts together makes a pool no longer. -/
theorem length_fuse_le (pool : Pool) : (fuse pool).length ≤ pool.length := by
  induction pool with
  | nil => exact Nat.le_refl 0
  | cons symbol rest ih =>
    rw [fuse, List.length_cons]
    rcases absorb_cases symbol (fuse rest) with hkept | hlength
    · rw [hkept, List.length_cons]
      omega
    · omega

/-- **Only a pool whose amounts are no neighbours stays as it is.** If two were run together
    somewhere, the pool would have become shorter, and nothing behind makes up for that. -/
theorem fuse_eq_self_iff {pool : Pool} : fuse pool = pool ↔ Separated pool := by
  induction pool with
  | nil => exact iff_of_true rfl .nil
  | cons symbol rest ih =>
    rw [fuse, Separated, List.isChain_cons]
    constructor
    · intro hsame
      have hshort := length_fuse_le rest
      have hlength := congrArg List.length hsame
      rw [List.length_cons] at hlength
      rcases absorb_cases symbol (fuse rest) with hkept | hshorter
      · have hrest : fuse rest = rest := List.tail_eq_of_cons_eq (hkept.symm.trans hsame)
        rw [hrest] at hkept
        exact ⟨absorb_eq_cons_iff.mp hkept, ih.mp hrest⟩
      · omega
    · rintro ⟨hapart, hrest⟩
      rw [ih.mpr hrest]
      exact absorb_eq_cons_iff.mpr hapart

/-- Something is left of every pool that is not empty. -/
theorem fuse_ne_nil {pool : Pool} (h : pool ≠ []) : fuse pool ≠ [] := by
  cases pool with
  | nil => exact absurd rfl h
  | cons symbol rest =>
    rw [fuse]
    cases fuse rest with
    | nil => exact List.cons_ne_nil _ _
    | cons next more =>
      rw [absorb]
      split <;> exact List.cons_ne_nil _ _

/-! ## Reading pools -/

/-- A letter is a symbol of its own, and the reading goes on behind it. -/
theorem poolFrom_letter {c : Char} (hc : c ∈ colorLetters) (text : List Char) :
    poolFrom (c :: text) = (poolFrom text).map (String.ofList [c] :: ·) := by
  have hall : ∀ c ∈ colorLetters,
      (c == '\x7b' || c == '\x7d') = false ∧ isDigit c = false :=
    List.all_iff_forall_prop.mp (by decide)
  obtain ⟨hbrace, hdigit⟩ := hall c hc
  rw [poolFrom, if_neg (by simp [hbrace]), if_neg (by simp [hdigit]),
    if_pos (List.contains_iff_mem.mpr hc)]

/-- A digit begins a symbol of all the digits there are; this is what runs two amounts together. -/
theorem poolFrom_digit {c : Char} (hc : isDigit c = true) (text : List Char) :
    poolFrom (c :: text) = (poolFrom (text.dropWhile isDigit)).map
      (String.ofList (c :: text.takeWhile isDigit) :: ·) := by
  have hbrace : (c == '\x7b' || c == '\x7d') = false := by
    obtain ⟨_, hhigh⟩ := toNat_of_isDigit hc
    rw [Bool.or_eq_false_iff]
    constructor <;> (refine beq_eq_false_iff_ne.mpr ?_; rintro rfl; exact absurd hhigh (by decide))
  rw [poolFrom, if_neg (by simp [hbrace]), if_pos hc]

/-- What begins with neither a brace nor a digit begins with a letter, and this letter is the
    first symbol. -/
theorem exists_letter_of_poolFrom {c : Char} {rest : List Char} {pool : Pool}
    (hopen : c ≠ '\x7b' ∧ c ≠ '\x7d') (hdigit : ¬ isDigit c = true)
    (h : poolFrom (c :: rest) = some pool) :
    c ∈ colorLetters ∧ ∃ more, pool = String.ofList [c] :: more := by
  rw [poolFrom, if_neg (by simp [hopen]), if_neg hdigit] at h
  split at h
  · rename_i hletter
    obtain ⟨more, _, rfl⟩ := Option.map_eq_some_iff.mp h
    exact ⟨List.contains_iff_mem.mp hletter, more, rfl⟩
  · cases h

/-! ## A symbol before a text -/

theorem isRun_letter {c : Char} (hc : c ∈ colorLetters) : isRun (String.ofList [c]) = false := by
  have hall : ∀ c ∈ colorLetters, isDigit c = false := List.all_iff_forall_prop.mp (by decide)
  rw [isRun, String.toList_ofList, List.all_cons, hall c hc]
  rfl

/-- A letter is never run together with what comes next, be it an amount or not. -/
theorem absorb_of_not_isRun {symbol : String} (h : isRun symbol = false) (pool : Pool) :
    absorb symbol pool = symbol :: pool :=
  absorb_eq_cons_iff.mpr fun next _ => by rw [h, Bool.false_and]

/-- Two runs of digits are one, that of the first with the second behind it. -/
theorem absorb_run {symbol next : String} (h : isRun symbol = true) (hnext : isRun next = true)
    (more : Pool) : absorb symbol (next :: more) = (symbol ++ next) :: more := by
  rw [absorb, h, hnext]
  rfl

/-- **The crux**: a symbol before a text that does not begin with a brace.  If it is a run of digits
    it takes in those at the start of the text, which are the first symbol of the text. -/
theorem poolFrom_append {symbol : String} (h : IsPoolSymbol symbol) {text : List Char}
    {pool : Pool} (hopen : ∀ c ∈ text.head?, c ≠ '\x7b' ∧ c ≠ '\x7d')
    (hread : poolFrom text = some pool) :
    poolFrom (symbol.toList ++ text) = some (absorb symbol pool) := by
  rcases h with ⟨letter, hletter, rfl⟩ | ⟨hne, hrun⟩
  · rw [String.toList_ofList, List.singleton_append, poolFrom_letter hletter, hread,
      absorb_of_not_isRun (isRun_letter hletter), Option.map_some]
  obtain ⟨c, digits, hsymbol⟩ := List.exists_cons_of_ne_nil hne
  rw [hsymbol] at hrun
  obtain ⟨hc, hdigits⟩ := List.forall_mem_cons.mp hrun
  have hisRun : isRun symbol = true := by
    rw [isRun, hsymbol]
    exact List.all_eq_true.mpr hrun
  have hwhole : symbol = String.ofList (c :: digits) := by
    rw [← hsymbol, String.ofList_toList]
  rw [hsymbol, List.cons_append, poolFrom_digit hc, List.takeWhile_append_of_pos hdigits,
    List.dropWhile_append_of_pos hdigits]
  cases text with
  | nil =>
    rw [poolFrom] at hread
    obtain rfl := Option.some.inj hread
    rw [List.dropWhile_nil, List.takeWhile_nil, List.append_nil, poolFrom, Option.map_some,
      ← hwhole]
    rfl
  | cons d rest =>
    by_cases hd : isDigit d = true
    · -- the digits go on, and what follows them is read as before
      rw [poolFrom_digit hd] at hread
      obtain ⟨more, hmore, rfl⟩ := Option.map_eq_some_iff.mp hread
      have hnext : isRun (String.ofList (d :: rest.takeWhile isDigit)) = true := by
        rw [isRun, String.toList_ofList, List.all_cons, hd, List.all_takeWhile]
        rfl
      rw [List.dropWhile_cons_of_pos hd, List.takeWhile_cons_of_pos hd, hmore, Option.map_some,
        absorb_run hisRun hnext, hwhole, ← String.ofList_append, List.cons_append]
    · -- the digits end here, and a letter comes next
      obtain ⟨hletter, more, rfl⟩ := exists_letter_of_poolFrom (hopen d rfl) hd hread
      have hapart : absorb symbol (String.ofList [d] :: more) =
          symbol :: String.ofList [d] :: more := by
        refine absorb_eq_cons_iff.mpr fun next hnext => ?_
        obtain rfl := Option.some.inj hnext
        rw [isRun_letter hletter, Bool.and_false]
      rw [List.dropWhile_cons_of_neg hd, List.takeWhile_cons_of_neg hd, List.append_nil, hread,
        Option.map_some, ← hwhole, hapart]

/-! ## What is shown -/

/-- The characters of symbols stand in costs too: they are letters of colors and digits. -/
theorem isCostChar_of_mem {symbol : String} (h : IsPoolSymbol symbol) {c : Char}
    (hc : c ∈ symbol.toList) : isCostChar c = true := by
  rcases h with ⟨letter, hletter, rfl⟩ | ⟨_, hrun⟩
  · rw [String.toList_ofList] at hc
    obtain rfl := List.mem_singleton.mp hc
    have hcolor : colorLetters.contains c = true := List.contains_iff_mem.mpr hletter
    rw [isCostChar, isCostLetter, hcolor, Bool.true_or, Bool.or_true]
  · rw [isCostChar, hrun c hc, Bool.true_or]

/-- The text of a pool, as it is shown. -/
def shown (pool : Pool) : List Char := pool.flatMap String.toList

/-- So do all characters that are shown for a pool, and none of them is a blank, a brace or a
    capital. -/
theorem isCostChar_of_mem_shown {pool : Pool} (h : ∀ symbol ∈ pool, IsPoolSymbol symbol) {c : Char}
    (hc : c ∈ shown pool) : isCostChar c = true := by
  obtain ⟨symbol, hsymbol, hmem⟩ := List.mem_flatMap.mp hc
  exact isCostChar_of_mem (h symbol hsymbol) hmem

/-- **What is shown for a pool is read with its neighbouring amounts run together**, by induction
    from the end of the pool, as each symbol stands before the text of those behind it. -/
theorem poolFrom_shown {pool : Pool} (h : ∀ symbol ∈ pool, IsPoolSymbol symbol) :
    poolFrom (shown pool) = some (fuse pool) := by
  induction pool with
  | nil =>
    rw [shown, List.flatMap_nil, poolFrom]
    rfl
  | cons symbol rest ih =>
    obtain ⟨hsymbol, hrest⟩ := List.forall_mem_cons.mp h
    have hopen : ∀ c ∈ (shown rest).head?, c ≠ '\x7b' ∧ c ≠ '\x7d' := fun c hc =>
      (isCostChar_apart (isCostChar_of_mem_shown hrest (List.mem_of_mem_head? hc))).2.2
    exact poolFrom_append hsymbol hopen (ih hrest)

/-- Without braces the symbols of a text are all of it, so the text is what is shown of its pool. -/
theorem shown_of_poolFrom {text : List Char} {pool : Pool} (h : poolFrom text = some pool)
    (hplain : ∀ c ∈ text, c ≠ '\x7b' ∧ c ≠ '\x7d') : shown pool = text := by
  fun_induction poolFrom text generalizing pool with
  | case1 =>
    obtain rfl := Option.some.inj h
    rfl
  | case2 c rest hbrace =>
    obtain ⟨hopen, hclose⟩ := hplain c List.mem_cons_self
    simp [hopen, hclose] at hbrace
  | case3 c rest _ _ ih =>
    obtain ⟨more, hmore, rfl⟩ := Option.map_eq_some_iff.mp h
    -- a run of digits is one symbol, and what follows it has no braces either
    have hrest : ∀ c ∈ rest.dropWhile isDigit, c ≠ '\x7b' ∧ c ≠ '\x7d' := fun d hd =>
      hplain d (List.mem_cons_of_mem c ((List.dropWhile_suffix isDigit).mem hd))
    have hshown := ih hmore hrest
    rw [shown] at hshown ⊢
    rw [List.flatMap_cons, hshown, String.toList_ofList, List.cons_append,
      List.takeWhile_append_dropWhile]
  | case4 c rest _ _ _ ih =>
    obtain ⟨more, hmore, rfl⟩ := Option.map_eq_some_iff.mp h
    have hshown := ih hmore (List.forall_mem_cons.mp hplain).2
    rw [shown] at hshown ⊢
    rw [List.flatMap_cons, hshown, String.toList_ofList, List.singleton_append]
  | case5 => cases h

/-- A text is read without its blank ends and in lower case, and must hold a symbol. -/
theorem parsePool_eq_some_iff {text : String} {pool : Pool} :
    parsePool text = some pool ↔
      pool ≠ [] ∧ poolFrom (Text.lower (Text.trim text.toList)) = some pool := by
  rw [parsePool, Option.filter_eq_some_iff, and_comm]
  simp

/-- The symbols of a pool are read with the neighbouring amounts run together; trimming and lower
    case change nothing in what is shown. -/
theorem parsePool_symbols {pool : Pool} (hne : pool ≠ [])
    (hsymbols : ∀ symbol ∈ pool, IsPoolSymbol symbol) :
    parsePool (String.ofList (shown pool)) = some (fuse pool) := by
  have hinert : ∀ c ∈ shown pool, IsInert c := fun c hc =>
    (isCostChar_apart (isCostChar_of_mem_shown hsymbols hc)).1
  rw [parsePool_eq_some_iff, String.toList_ofList, Text.lower_trim_eq_self hinert]
  exact ⟨fuse_ne_nil hne, poolFrom_shown hsymbols⟩

/-- So is a pool that a text holds, since all its symbols are letters or runs of digits. -/
theorem parsePool_shown {text : String} {pool : Pool} (h : parsePool text = some pool) :
    parsePool (String.ofList (shown pool)) = some (fuse pool) :=
  parsePool_symbols (parsePool_eq_some_iff.mp h).1 (isPoolSymbol_of_parsePool h)

/-- The pool of a text without braces has no amounts that are neighbours: two runs of digits side
    by side would have been read as one. -/
theorem separated_of_parsePool {text : String} {pool : Pool} (h : parsePool text = some pool)
    (hplain : ∀ c ∈ text.toList, c ≠ '\x7b' ∧ c ≠ '\x7d') : Separated pool := by
  obtain ⟨_, hread⟩ := parsePool_eq_some_iff.mp h
  have hbraces : ∀ c ∈ Text.lower (Text.trim text.toList), c ≠ '\x7b' ∧ c ≠ '\x7d' := by
    intro c hc
    constructor
    · rintro rfl
      have hmem := Text.mem_of_mem_lower ⟨by decide, by decide⟩ hc
      exact (hplain _ (Text.mem_of_mem_trim hmem)).1 rfl
    · rintro rfl
      have hmem := Text.mem_of_mem_lower ⟨by decide, by decide⟩ hc
      exact (hplain _ (Text.mem_of_mem_trim hmem)).2 rfl
  have hshown := shown_of_poolFrom hread hbraces
  rw [← hshown, poolFrom_shown (isPoolSymbol_of_parsePool h)] at hread
  exact fuse_eq_self_iff.mp (Option.some.inj hread)

/-- **Which pools are read back as they are shown.**
    (1) What is shown for a pool is read as the pool with its neighbouring amounts run together.
    (2) So it is read back exactly if no two amounts are neighbours.
    (3) None are in the pool of a text without braces. -/
theorem parsePool_value {text : String} {pool : Pool} (h : parsePool text = some pool) :
    parsePool (String.ofList (Report.value (.manaPool pool))) = some (fuse pool) ∧
    (parsePool (String.ofList (Report.value (.manaPool pool))) = some pool ↔ Separated pool) ∧
    ((∀ c ∈ text.toList, c ≠ '\x7b' ∧ c ≠ '\x7d') → Separated pool) := by
  have hvalue : Report.value (.manaPool pool) = shown pool := rfl
  have hread := parsePool_shown h
  rw [hvalue]
  refine ⟨hread, ?_, separated_of_parsePool h⟩
  rw [hread, Option.some_inj]
  exact fuse_eq_self_iff

/-- Two amounts beside a letter: they become one amount, and the letter stays apart. -/
theorem parsePool_value_fused :
    parsePool "\x7b2\x7d\x7b3\x7dW" = some ["2", "3", "w"] ∧ fuse ["2", "3", "w"] = ["23", "w"] ∧
      parsePool (String.ofList (Report.value (.manaPool ["2", "3", "w"]))) =
        some (fuse ["2", "3", "w"]) := by
  have hread : parsePool "\x7b2\x7d\x7b3\x7dW" = some ["2", "3", "w"] := by decide +kernel
  exact ⟨hread, by decide, (parsePool_value hread).1⟩

/-- A pool of two amounts is shown as one amount. -/
theorem parsePool_value_amounts :
    parsePool "\x7b2\x7d\x7b3\x7d" = some ["2", "3"] ∧
      parsePool (String.ofList (Report.value (.manaPool ["2", "3"]))) = some ["23"] := by
  decide +kernel

end CardSearch.Mana
