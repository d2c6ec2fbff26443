import CardSearch.Proofs.Mana.Fusing
import CardSearch.Proofs.Mana.Items

/-
  The grammar of pool texts.

      pool    ::= brace* (symbol brace*)+
      symbol  ::= run | color letter

  A run is all the digits that stand together.  Braces mean nothing in a pool but that a run ends at
  them, so they need not close, may be empty and may hold several symbols.

  1. **The step (`poolFrom_piece`)** — a piece before a text is read as its symbol, or as nothing if
     it is a brace, whatever follows; a run only where no digit does.
  2. **Pools (`poolFrom_eq_some_iff`)** — so a text has a pool exactly if it consists of pieces.
  3. **Well-braced texts (`poolFrom_written`)** — the items of costs that are plain, a symbol alone or
     in braces of its own, are read by the reader of pools as by that of costs.
  4. **The crux (`isPlain_of_poolFrom`)** — where a pool is read there is neither a blank nor a slash,
     so a text that is a pool and a cost has plain items only.
-/

namespace CardSearch.Mana

/-! ## Pieces -/

/-- An opening or a closing brace. -/
def IsBrace (c : Char) : Prop := c = '\x7b' ∨ c = '\x7d'

/-- A piece of a pool text. -/
inductive Piece where
  | run (digits : List Char) (h : IsRun digits)
  | letter (c : Char) (h : c ∈ colorLetters)
  | brace (c : Char) (h : IsBrace c)

namespace Piece

/-- A piece as it is written. -/
def text : Piece → List Char
  | run digits _ => digits
  | letter c _ => [c]
  | brace c _ => [c]

/-- What a piece adds to the pool. -/
def symbols : Piece → Pool
  | run digits _ => [String.ofList digits]
  | letter c _ => [String.ofList [c]]
  | brace _ _ => []

/-- Whether a text may follow a piece: behind a run comes no digit. -/
def EndsBefore (rest : List Char) : Piece → Prop
  | run _ _ => ∀ c ∈ rest.head?, isDigit c = false
  | _ => True

/-- Pieces one after the other. -/
def written (pieces : List Piece) : List Char := pieces.flatMap Piece.text

/-- Every run of digits is as long as it can be. -/
def Maximal : List Piece → Prop
  | [] => True
  | piece :: rest => piece.EndsBefore (written rest) ∧ Maximal rest

end Piece

/-- The ways to take a text apart into the pieces of a pool: at least one of them is a symbol, and no
    run of digits is cut short. -/
structure Scatters (pieces : List Piece) (text : List Char) : Prop where
  ne_nil : pieces.flatMap Piece.symbols ≠ []
  maximal : Piece.Maximal pieces
  written_eq : Piece.written pieces = text

/-! ## Reading pieces -/

/-- A brace is passed over, whether it opens or closes and whatever stands inside. -/
theorem poolFrom_brace {c : Char} (hc : IsBrace c) (text : List Char) :
    poolFrom (c :: text) = poolFrom text := by
  have hbrace : (c == '\x7b' || c == '\x7d') = true := by
    rw [Bool.or_eq_true, beq_iff_eq, beq_iff_eq]
    exact hc
  rw [poolFrom, if_pos hbrace]

/-- A run of digits is a symbol where no digit follows, as the reader takes all the digits it
    finds. -/
theorem poolFrom_run {digits rest : List Char} (h : IsRun digits)
    (hends : ∀ c ∈ rest.head?, isDigit c = false) :
    poolFrom (digits ++ rest) = (poolFrom rest).map (String.ofList digits :: ·) := by
  obtain ⟨c, more, rfl⟩ := List.exists_cons_of_ne_nil h.ne_nil
  obtain ⟨hc, hmore⟩ := List.forall_mem_cons.mp h.all
  -- the digits of the run are all that stand there
  obtain ⟨htake, hdrop⟩ := Text.run_append_of_forall hmore hends
  rw [List.cons_append, poolFrom_digit hc, htake, hdrop]

/-- **The step**: a piece before a text is read as its symbol, or as none if it is a brace. -/
theorem poolFrom_piece (piece : Piece) {rest : List Char} (hends : piece.EndsBefore rest) :
    poolFrom (piece.text ++ rest) = (poolFrom rest).map (piece.symbols ++ ·) := by
  cases piece with
  | run digits h => exact poolFrom_run h hends
  | letter c h => exact poolFrom_letter h rest
  | brace c h =>
    show poolFrom (c :: rest) = (poolFrom rest).map fun pool => pool
    rw [Option.map_id_fun', poolFrom_brace h]
    rfl

/-- Pieces are read as their symbols, one after the other. -/
theorem poolFrom_pieces {pieces : List Piece} (h : Piece.Maximal pieces) :
    poolFrom (Piece.written pieces) = some (pieces.flatMap Piece.symbols) := by
  induction pieces with
  | nil => rw [Piece.written, List.flatMap_nil, poolFrom, List.flatMap_nil]
  | cons piece rest ih =>
    obtain ⟨hends, hrest⟩ := h
    have htext : Piece.written (piece :: rest) = piece.text ++ Piece.written rest :=
      List.flatMap_cons
    rw [htext, poolFrom_piece piece hends, ih hrest, Option.map_some, List.flatMap_cons]

/-- What is read consists of pieces.  By induction along the reader, whose cases are the kinds of
    pieces. -/
theorem exists_pieces {text : List Char} {pool : Pool} (h : poolFrom text = some pool) :
    ∃ pieces, Piece.Maximal pieces ∧ Piece.written pieces = text ∧
      pieces.flatMap Piece.symbols = pool := by
  fun_induction poolFrom text generalizing pool with
  | case1 =>
    obtain rfl := Option.some.inj h
    exact ⟨[], trivial, rfl, rfl⟩
  | case2 c rest hbrace ih =>
    obtain ⟨pieces, hmaximal, hwritten, rfl⟩ := ih h
    have hc : IsBrace c := by
      rw [Bool.or_eq_true, beq_iff_eq, beq_iff_eq] at hbrace
      exact hbrace
    exact ⟨.brace c hc :: pieces, ⟨trivial, hmaximal⟩, congrArg (c :: ·) hwritten, rfl⟩
  | case3 c rest _ hdigit ih =>
    obtain ⟨more, hmore, rfl⟩ := Option.map_eq_some_iff.mp h
    obtain ⟨pieces, hmaximal, hwritten, rfl⟩ := ih hmore
    refine ⟨.run _ (.takeWhile hdigit rest) :: pieces, ⟨?_, hmaximal⟩, ?_, rfl⟩
    · -- the run ends where no digit follows
      intro d hd
      rw [hwritten] at hd
      exact not_isDigit_of_dropWhile hd
    · rw [Piece.written, List.flatMap_cons, ← Piece.written, hwritten, Piece.text,
        List.cons_append, List.takeWhile_append_dropWhile]
  | case4 c rest _ _ hletter ih =>
    obtain ⟨more, hmore, rfl⟩ := Option.map_eq_some_iff.mp h
    obtain ⟨pieces, hmaximal, hwritten, rfl⟩ := ih hmore
    exact ⟨.letter c (List.contains_iff_mem.mp hletter) :: pieces, ⟨trivial, hmaximal⟩,
      congrArg (c :: ·) hwritten, rfl⟩
  | case5 => cases h

/-- **A text has a pool exactly if it consists of pieces**, and the pool lists their symbols in
    order. -/
theorem poolFrom_eq_some_iff {text : List Char} {pool : Pool} :
    poolFrom text = some pool ↔ ∃ pieces, Piece.Maximal pieces ∧ Piece.written pieces = text ∧
      pieces.flatMap Piece.symbols = pool := by
  constructor
  · exact exists_pieces
  · rintro ⟨pieces, hmaximal, rfl, rfl⟩
    exact poolFrom_pieces hmaximal

/-- The text is trimmed and put in lower case first, and one of its pieces must be a symbol. -/
theorem parsePool_eq_some_iff_pieces {text : String} {pool : Pool} :
    parsePool text = some pool ↔ ∃ pieces,
      Scatters pieces (Text.lower (Text.trim text.toList)) ∧
        pieces.flatMap Piece.symbols = pool := by
  rw [parsePool_eq_some_iff, poolFrom_eq_some_iff]
  constructor
  · rintro ⟨hne, pieces, hmaximal, hwritten, rfl⟩
    exact ⟨pieces, ⟨hne, hmaximal, hwritten⟩, rfl⟩
  · rintro ⟨pieces, hscatters, rfl⟩
    exact ⟨hscatters.ne_nil, pieces, hscatters.maximal, hscatters.written_eq, rfl⟩

/-! ## Well-braced texts -/

namespace Item

/-- An item that is one symbol of a pool, alone or in braces of its own. -/
def IsPlain : Item → Prop
  | braced parts _ => ∃ p : Padded, parts = [p] ∧ p.before = [] ∧ p.after = [] ∧
      IsPoolSymbol (String.ofList p.part)
  | run _ _ => True
  | letter c _ => c ∈ colorLetters

/-- Such an item has one part, and this is a symbol of the pool. -/
theorem IsPlain.exists_group {item : Item} (h : item.IsPlain) : ∃ symbol, item.group = [symbol] := by
  cases item with
  | braced parts count =>
    obtain ⟨p, rfl, _⟩ := h
    exact ⟨_, rfl⟩
  | run digits _ => exact ⟨_, rfl⟩
  | letter c _ => exact ⟨_, rfl⟩

end Item

/-- A symbol is read before a text that begins with no digit, be it a letter or a run. -/
theorem poolFrom_symbol {symbol : List Char} (h : IsPoolSymbol (String.ofList symbol))
    {rest : List Char} (hends : ∀ c ∈ rest.head?, isDigit c = false) :
    poolFrom (symbol ++ rest) = (poolFrom rest).map (String.ofList symbol :: ·) := by
  rcases h with ⟨letter, hletter, hsymbol⟩ | ⟨hne, hdigits⟩
  · obtain rfl := String.ofList_injective hsymbol
    exact poolFrom_letter hletter rest
  · rw [String.toList_ofList] at hne hdigits
    exact poolFrom_run ⟨hne, hdigits⟩ hends

/-- A plain item before a text is read as its symbol: of the braces around it nothing remains. -/
theorem poolFrom_item {item : Item} (h : item.IsPlain) {rest : List Char}
    (hends : item.EndsBefore rest) :
    poolFrom (item.text ++ rest) = (poolFrom rest).map (item.group ++ ·) := by
  cases item with
  | braced parts count =>
    obtain ⟨p, rfl, hbefore, hafter, hsymbol⟩ := h
    have htext : Item.text (.braced [p] count) ++ rest =
        '\x7b' :: (p.part ++ ('\x7d' :: rest)) := by
      simp [Item.text, Text.join, Padded.text, hbefore, hafter]
    have hclose : ∀ c ∈ ('\x7d' :: rest).head?, isDigit c = false := by
      intro c hc
      obtain rfl := Option.some.inj hc
      decide
    rw [htext, poolFrom_brace (Or.inl rfl), poolFrom_symbol hsymbol hclose,
      poolFrom_brace (Or.inr rfl)]
    rfl
  | run digits hrun => exact poolFrom_run hrun hends
  | letter c hletter => exact poolFrom_letter h rest

/-- Plain items are read as their symbols, so the reader of pools agrees with that of costs on
    them. -/
theorem poolFrom_written {items : List Item} (hplain : ∀ item ∈ items, item.IsPlain)
    (h : Maximal items) : poolFrom (written items) = some (items.flatMap Item.group) := by
  induction items with
  | nil => rw [written, List.flatMap_nil, poolFrom, List.flatMap_nil]
  | cons item rest ih =>
    obtain ⟨hitem, hrest⟩ := List.forall_mem_cons.mp hplain
    obtain ⟨hends, hmaximal⟩ := h
    have htext : written (item :: rest) = item.text ++ written rest := List.flatMap_cons
    rw [htext, poolFrom_item hitem hends, ih hrest hmaximal, Option.map_some, List.flatMap_cons]

/-- The groups of plain items are their symbols, each alone.  So the cost of such a text lists the
    pool symbol by symbol. -/
theorem map_group_of_isPlain {items : List Item} (hplain : ∀ item ∈ items, item.IsPlain) :
    items.map Item.group = (items.flatMap Item.group).map fun symbol => [symbol] := by
  induction items with
  | nil => rfl
  | cons item rest ih =>
    obtain ⟨hitem, hrest⟩ := List.forall_mem_cons.mp hplain
    obtain ⟨symbol, hgroup⟩ := hitem.exists_group
    rw [List.map_cons, List.flatMap_cons, ih hrest, hgroup]
    rfl

/-- The texts whose braces each hold one symbol and nothing else. -/
def WellBraced (text : List Char) : Prop :=
  ∃ items, Spells items text ∧ ∀ item ∈ items, item.IsPlain

/-! ## Pools that are costs -/

/-- The characters of pool texts are digits, letters of colors and braces; the reader refuses all
    others. -/
theorem mem_of_poolFrom {text : List Char} {pool : Pool} (h : poolFrom text = some pool) {c : Char}
    (hc : c ∈ text) : isDigit c = true ∨ c ∈ colorLetters ∨ IsBrace c := by
  obtain ⟨pieces, _, rfl, _⟩ := poolFrom_eq_some_iff.mp h
  obtain ⟨piece, _, hmem⟩ := List.mem_flatMap.mp hc
  cases piece with
  | run digits hrun => exact Or.inl (hrun.all c hmem)
  | letter d hletter =>
    obtain rfl := List.mem_singleton.mp hmem
    exact Or.inr (Or.inl hletter)
  | brace d hbrace =>
    obtain rfl := List.mem_singleton.mp hmem
    exact Or.inr (Or.inr hbrace)

/-- Neither blanks nor slashes stand in pool texts, so an item with two parts, or with blanks
    around one, is not among them. -/
theorem apart_of_mem_poolFrom {text : List Char} {pool : Pool} (h : poolFrom text = some pool)
    {c : Char} (hc : c ∈ text) : Text.isBlank c = false ∧ c ≠ '/' := by
  rcases mem_of_poolFrom h hc with hdigit | hletter | rfl | rfl
  · obtain ⟨hinert, hslash, _⟩ := isCostChar_apart (Bool.or_eq_true_iff.mpr (Or.inl hdigit))
    exact ⟨hinert.2, hslash⟩
  · have hall : ∀ c ∈ colorLetters, Text.isBlank c = false ∧ c ≠ '/' :=
      List.all_iff_forall_prop.mp (by decide)
    exact hall c hletter
  · decide
  · decide

/-- A letter of a cost that stands in a pool text is that of a color, and no mark of a variable
    amount. -/
theorem mem_colorLetters_of_poolFrom {text : List Char} {pool : Pool}
    (h : poolFrom text = some pool) {c : Char} (hc : c ∈ text) (hletter : IsLetter c) :
    c ∈ colorLetters := by
  have hclose : ¬ IsLetter '\x7d' := by decide
  rcases mem_of_poolFrom h hc with hdigit | hcolor | rfl | rfl
  · exact absurd hdigit (Bool.eq_false_iff.mp hletter.apart.1)
  · exact hcolor
  · exact absurd rfl hletter.apart.2
  · exact absurd hletter hclose

/-- A part that stands in a pool text is a symbol of pools, since all its characters are. -/
theorem isPoolSymbol_of_poolFrom_part {text : List Char} {pool : Pool}
    (h : poolFrom text = some pool) {part : List Char} (hpart : IsPart part) (hmem : part ⊆ text) :
    IsPoolSymbol (String.ofList part) := by
  cases hpart with
  | run hrun =>
    refine Or.inr ?_
    rw [String.toList_ofList]
    exact ⟨hrun.ne_nil, hrun.all⟩
  | @letter c hletter =>
    have hcolor := mem_colorLetters_of_poolFrom h (hmem (List.mem_singleton_self c)) hletter
    exact Or.inl ⟨c, hcolor, rfl⟩

/-- **The crux**: an item that stands in a pool text is plain.  Two parts would need a slash and
    blanks are excluded, so one part is all that its braces hold. -/
theorem isPlain_of_poolFrom {text : List Char} {pool : Pool} (h : poolFrom text = some pool)
    {item : Item} (hitem : item.text ⊆ text) : item.IsPlain := by
  cases item with
  | run digits _ => trivial
  | letter c hletter =>
    exact mem_colorLetters_of_poolFrom h (hitem (List.mem_singleton_self c)) hletter
  | braced parts count =>
    have hinner : Text.join ['/'] (parts.map Padded.text) ⊆ text := fun c hc =>
      hitem (List.mem_cons_of_mem _ (List.mem_append_left _ hc))
    match parts, count with
    | [p, q], _ =>
      have hslash : '/' ∈ Text.join ['/'] ([p, q].map Padded.text) := by simp [Text.join]
      exact absurd rfl (apart_of_mem_poolFrom h (hinner hslash)).2
    | [p], _ =>
      rw [List.map_singleton, Text.join_eq_intercalate, List.intercalate_singleton] at hinner
      obtain ⟨hends, hafter⟩ := List.append_subset.mp hinner
      obtain ⟨hbefore, hpart⟩ := List.append_subset.mp hends
      -- no blank stands in the text, so there is none around the part
      have hnil : ∀ blanks : List Char, (∀ c ∈ blanks, Text.isBlank c = true) → blanks ⊆ text →
          blanks = [] := by
        intro blanks hblank hmem
        refine List.eq_nil_iff_forall_not_mem.mpr fun c hc => ?_
        exact Bool.eq_false_iff.mp (apart_of_mem_poolFrom h (hmem hc)).1 (hblank c hc)
      exact ⟨p, rfl, hnil _ p.isBlank_before hbefore, hnil _ p.isBlank_after hafter,
        isPoolSymbol_of_poolFrom_part h p.isPart hpart⟩

/-- A text that is a pool and a cost is well-braced: the items that spell the cost stand in a
    pool text. -/
theorem wellBraced_of_parsePool {text : String} {pool : Pool} {cost : Cost}
    (hpool : parsePool text = some pool) (hcost : parseCost text = some cost) :
    WellBraced (Text.lower (Text.trim text.toList)) := by
  obtain ⟨_, hread⟩ := parsePool_eq_some_iff.mp hpool
  obtain ⟨items, hspells, _⟩ := parseCost_eq_some_iff_items.mp hcost
  refine ⟨items, hspells, fun item hitem => isPlain_of_poolFrom hread fun c hc => ?_⟩
  rw [← hspells.written_eq]
  exact List.mem_flatMap.mpr ⟨item, hitem, hc⟩

/-- Plain items spell a pool and, with each symbol as a group of its own, a cost.  So on these
    texts the two readers agree. -/
theorem parse_of_isPlain {text : String} {items : List Item}
    (hspells : Spells items (Text.lower (Text.trim text.toList)))
    (hplain : ∀ item ∈ items, item.IsPlain) :
    parsePool text = some (items.flatMap Item.group) ∧
      parseCost text = some ((items.flatMap Item.group).map fun symbol => [symbol]) := by
  constructor
  · rw [parsePool_eq_some_iff, ← hspells.written_eq]
    refine ⟨?_, poolFrom_written hplain hspells.maximal⟩
    obtain ⟨item, rest, rfl⟩ := List.exists_cons_of_ne_nil hspells.ne_nil
    obtain ⟨symbol, hgroup⟩ := (hplain item List.mem_cons_self).exists_group
    rw [List.flatMap_cons, hgroup]
    exact List.cons_ne_nil _ _
  · exact parseCost_eq_some_iff_items.mpr ⟨items, hspells, map_group_of_isPlain hplain⟩

/-- **The reader of pools accepts symbols with braces strewn among them, no more and no less.**
    (1) A text has a pool exactly when it is scattered into pieces, trimmed and in lower case, and the
    pool lists their symbols in order.
    (2) Any other text has none.
    (3) A well-braced text has for its pool the symbols of its items in order.
    (4) Of the texts that have a pool, just those that are well-braced are costs as well, with each
    symbol of the pool as a group of one part. -/
theorem parsePool_iff_pieces (text : String) :
    (∀ pool, parsePool text = some pool ↔
      ∃ pieces, Scatters pieces (Text.lower (Text.trim text.toList)) ∧
        pieces.flatMap Piece.symbols = pool) ∧
    (parsePool text = none ↔
      ¬ ∃ pieces, Scatters pieces (Text.lower (Text.trim text.toList))) ∧
    (∀ items, Spells items (Text.lower (Text.trim text.toList)) →
      (∀ item ∈ items, item.IsPlain) → parsePool text = some (items.flatMap Item.group)) ∧
    (∀ pool, parsePool text = some pool →
      ((∃ cost, parseCost text = some cost) ↔
        WellBraced (Text.lower (Text.trim text.toList))) ∧
      ∀ cost, parseCost text = some cost → cost = pool.map fun symbol => [symbol]) := by
  refine ⟨fun pool => parsePool_eq_some_iff_pieces, ?none,
    fun items hspells hplain => (parse_of_isPlain hspells hplain).1, ?costs⟩
  case none =>
    constructor
    · rintro hnone ⟨pieces, hscatters⟩
      have hread := parsePool_eq_some_iff_pieces.mpr ⟨pieces, hscatters, rfl⟩
      rw [hnone] at hread
      cases hread
    · intro hapart
      cases hread : parsePool text with
      | none => rfl
      | some pool =>
        obtain ⟨pieces, hscatters, _⟩ := parsePool_eq_some_iff_pieces.mp hread
        exact absurd ⟨pieces, hscatters⟩ hapart
  case costs =>
    intro pool hpool
    refine ⟨⟨?_, ?_⟩, ?_⟩
    · rintro ⟨cost, hcost⟩
      exact wellBraced_of_parsePool hpool hcost
    · rintro ⟨items, hspells, hplain⟩
      exact ⟨_, (parse_of_isPlain hspells hplain).2⟩
    · intro cost hcost
      obtain ⟨items, hspells, hplain⟩ := wellBraced_of_parsePool hpool hcost
      obtain ⟨hsymbols, hgroups⟩ := parse_of_isPlain hspells hplain
      obtain rfl := Option.some.inj (hpool.symm.trans hsymbols)
      exact Option.some.inj (hcost.symm.trans hgroups)

/-- A run that a brace cuts in two, which makes two symbols of it, and a well-braced text, which
    is a cost too. -/
theorem parsePool_iff_pieces_strewn :
    parsePool " \x7d1\x7b0W" = some ["1", "0", "w"] ∧
      (parsePool "\x7b10\x7dW" = some ["10", "w"] ∧
        ∃ cost, parseCost "\x7b10\x7dW" = some cost ∧ cost = [["10"], ["w"]]) := by
  have hone : IsRun ['1'] := .singleton (by decide)
  have hzero : IsRun ['0'] := .singleton (by decide)
  have hten : IsRun ['1', '0'] := ⟨by decide, List.all_eq_true.mp (by decide)⟩
  have hstrewn : Text.lower (Text.trim " \x7d1\x7b0W".toList) = "\x7d1\x7b0w".toList := by
    decide +kernel
  have hbraced : Text.lower (Text.trim "\x7b10\x7dW".toList) = "\x7b10\x7dw".toList := by
    decide +kernel
  have hends : ∀ (d : Char) (rest : List Char), isDigit d = false →
      ∀ c ∈ (d :: rest).head?, isDigit c = false := by
    intro d rest hd c hc
    obtain rfl := Option.some.inj hc
    exact hd
  have hscatters : Scatters [.brace '\x7d' (Or.inr rfl), .run ['1'] hone, .brace '\x7b' (Or.inl rfl),
      .run ['0'] hzero, .letter 'w' (by decide)]
      (Text.lower (Text.trim " \x7d1\x7b0W".toList)) :=
    ⟨List.cons_ne_nil _ _, ⟨trivial, hends _ _ rfl, trivial, hends _ _ rfl, trivial, trivial⟩,
      hstrewn.symm⟩
  let part : Padded := ⟨[], ['1', '0'], [], .run hten, by simp, by simp⟩
  have hspells : Spells [.braced [part] (Or.inl rfl), .letter 'w' (by decide)]
      (Text.lower (Text.trim "\x7b10\x7dW".toList)) :=
    ⟨List.cons_ne_nil _ _, ⟨trivial, trivial, trivial⟩, hbraced.symm⟩
  have hplain : ∀ item ∈ [Item.braced [part] (Or.inl rfl), .letter 'w' (by decide)],
      item.IsPlain := by
    refine List.forall_mem_cons.mpr ⟨⟨part, rfl, rfl, rfl, Or.inr ?_⟩, ?_⟩
    · rw [String.toList_ofList]
      exact ⟨hten.ne_nil, hten.all⟩
    · exact List.forall_mem_singleton.mpr (show 'w' ∈ colorLetters by decide)
  have hread := (parsePool_iff_pieces "\x7b10\x7dW").2.2.1 _ hspells hplain
  obtain ⟨hboth, hgroups⟩ := (parsePool_iff_pieces "\x7b10\x7dW").2.2.2 _ hread
  obtain ⟨cost, hcost⟩ := hboth.mpr ⟨_, hspells, hplain⟩
  exact ⟨((parsePool_iff_pieces _).1 _).mpr ⟨_, hscatters, rfl⟩, hread, cost, hcost,
    hgroups cost hcost⟩

/-- Two symbols in one pair of braces are a pool, though their text is not well-braced and no
    cost. -/
theorem parsePool_sharedBraces :
    parsePool "\x7bwu\x7d" = some ["w", "u"] ∧ parseCost "\x7bwu\x7d" = none ∧
      ¬ WellBraced (Text.lower (Text.trim "\x7bwu\x7d".toList)) := by
  have hnone : parseCost "\x7bwu\x7d" = none := by decide +kernel
  refine ⟨by decide +kernel, hnone, ?_⟩
  rintro ⟨items, hspells, hplain⟩
  obtain ⟨_, hcost⟩ := parse_of_isPlain hspells hplain
  rw [hnone] at hcost
  cases hcost

end CardSearch.Mana
