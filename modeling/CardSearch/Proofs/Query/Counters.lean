import CardSearch.Proofs.Number.Rounding
import CardSearch.Proofs.Query.RoundTrip
import CardSearch.Proofs.Query.Showing
import CardSearch.Proofs.Query.Single

/-
  Counters in queries.

  How many cubes hold a card, and how often it was picked, are whole numbers, and so is what a query
  compares them with.  They are compared as floating-point numbers.

  1. **Orders (`ordering_ofInt_iff`)** — which is comparing the nearest integers of 53 bits.
  2. **Queries (`exists_filter`)** — a literal behind a counter is one value, and is read as its number;
     so is the name of the other counter.
  3. **Exactness (`compares_exactly_iff`)** — the answers are those of the counts themselves, unless
     two different numbers go to one (`picks_rounded`).
-/

namespace CardSearch.Query

open Number

/-! ## Orders -/

/-- The relation of integers that an operator asks for. -/
def Operator.Compares (a b : Int) : Operator → Prop
  | .colon | .equal => a = b
  | .notEqual | .lessGreater => a ≠ b
  | .less => a < b
  | .lessEqual => a ≤ b
  | .greater => b < a
  | .greaterEqual => b ≤ a

instance (a b : Int) : (operator : Operator) → Decidable (operator.Compares a b)
  | .colon | .equal => inferInstanceAs (Decidable (a = b))
  | .notEqual | .lessGreater => inferInstanceAs (Decidable (a ≠ b))
  | .less => inferInstanceAs (Decidable (a < b))
  | .lessEqual => inferInstanceAs (Decidable (a ≤ b))
  | .greater => inferInstanceAs (Decidable (b < a))
  | .greaterEqual => inferInstanceAs (Decidable (b ≤ a))

/-- Integers are compared as the nearest of 53 bits, by each of the eight operators. -/
theorem ordering_ofInt_iff {a b : Int} (ha : a.natAbs.log2 < 1024) (hb : b.natAbs.log2 < 1024)
    (operator : Operator) :
    ordering operator (Number.ofInt a) (Number.ofInt b) = true ↔
      operator.Compares (nearestInt a) (nearestInt b) := by
  have hequal : Comparable.equals (Number.ofInt a) (Number.ofInt b) = true ↔
      nearestInt a = nearestInt b := by
    show (Number.ofInt a).equals (Number.ofInt b) = true ↔ _
    rw [equals_ofInt ha hb, beq_iff_eq]
  have hless : Comparable.below (Number.ofInt a) (Number.ofInt b) = true ↔
      nearestInt a < nearestInt b := by
    show (Number.ofInt a).below (Number.ofInt b) = true ↔ _
    rw [below_ofInt ha hb, decide_eq_true_iff]
  have hgreater : Comparable.below (Number.ofInt b) (Number.ofInt a) = true ↔
      nearestInt b < nearestInt a := by
    show (Number.ofInt b).below (Number.ofInt a) = true ↔ _
    rw [below_ofInt hb ha, decide_eq_true_iff]
  cases operator <;>
    simp only [ordering, Operator.Compares, Bool.or_eq_true, Bool.not_eq_true', ← Bool.not_eq_true,
      hequal, hless, hgreater] <;> omega

/-- **What comparing the nearest integers has to do with comparing the integers**: they compare
    alike exactly if the two are equal or do not go to one number, since rounding keeps the
    order. -/
theorem compares_exactly_iff (a b : Int) :
    (∀ operator : Operator, operator.Compares (nearestInt a) (nearestInt b) ↔
      operator.Compares a b) ↔ a = b ∨ nearestInt a ≠ nearestInt b := by
  constructor
  · intro h
    have hequal : nearestInt a = nearestInt b ↔ a = b := h .equal
    exact (Classical.em (a = b)).imp_right fun hne hsame => hne (hequal.mp hsame)
  · intro h operator
    have hless : a ≤ b → nearestInt a ≤ nearestInt b := nearestInt_mono
    have hgreater : b ≤ a → nearestInt b ≤ nearestInt a := nearestInt_mono
    have hsame : a = b → nearestInt a = nearestInt b := congrArg nearestInt
    cases operator <;> simp only [Operator.Compares] <;> omega

/-! ## Queries -/

/-- The counts of a card. -/
inductive Counter where
  | cubes
  | picks

namespace Counter

/-- The field of a counter. -/
def field : Counter → Field
  | .cubes => .cubes
  | .picks => .picks

/-- The count of a card. -/
def count : Counter → Card → Nat
  | .cubes => Card.cubeCount
  | .picks => Card.pickCount

/-- The query that compares a counter with a value. -/
def query (counter : Counter) (operator : Operator) (value : List Char) : String :=
  String.ofList (counter.field.title.toList ++ (operator.symbol.toList ++ value))

variable (counter : Counter) (operator : Operator)

theorem mem_operators : operator ∈ counter.field.operators := by
  cases counter <;> cases operator <;> decide

end Counter

section

variable (counter : Counter) (operator : Operator)

/-- **A value behind a counter gives the test of its meaning.** The text is cut into the name of
    the counter, the operator and the value, since the value does not begin as an operator goes
    on. -/
theorem exists_filter {c : Char} {rest : List Char} (hquote : isQuote c = false) (hequal : c ≠ '=')
    (hgreater : c ≠ '>') (h : ∀ d ∈ c :: rest, endsValue d = false) {value : Value}
    (hvalue : Value.ofText? counter.field (String.ofList (c :: rest)) = some value) {test : Test}
    (htest : conditionTest counter.field operator value = .ok test) :
    ∃ filter, Filter.ofText (counter.query operator (c :: rest)) = .ok (some filter) ∧
      ∀ card, passes (some filter) card = test card := by
  have hcondition : condition counter.field.title operator (String.ofList (c :: rest)) =
      .ok ⟨counter.field, operator, false, value⟩ :=
    condition_eq_ok_iff.mpr ⟨_, _, Field.ofAbbreviation?_title _, counter.mem_operators operator,
      by simp, hvalue, rfl⟩
  have hne : counter.field.title ≠ "" := by cases counter <;> decide
  have hcuts := cuts_plain hne (isLower_of_mem_title counter.field) operator hquote hequal hgreater h
  rw [← String.toList_ofList (l := counter.field.title.toList ++ _)] at hcuts
  exact ⟨_, ofText_of_condition hcuts hcondition htest, fun _ => rfl⟩

/-- A literal is read as its number, which is tried before the names of fields. -/
theorem ofText?_literal {field : Field} (hkind : field.kind = .integer) {literal : List Char}
    {n : Int} (h : signed64? literal = some n) :
    Value.ofText? field (String.ofList literal) = some (.integer n) := by
  obtain ⟨hne, hchars⟩ := isIntegral_of_signed? h
  obtain ⟨c, rest, rfl⟩ := List.exists_cons_of_ne_nil hne
  have hname : Value.fieldNamed? field (String.ofList (c :: rest)) = none :=
    fieldNamed?_of_head (hchars c (List.mem_cons_self ..)).toNat.2 _ _
  have htrim : Text.trim (c :: rest) = c :: rest :=
    Text.trim_eq_self fun d hd => (hchars d hd).not_isBlank
  rw [Value.ofText?, hname, hkind]
  show (signed64? (Text.trim (String.ofList (c :: rest)).toList)).map Value.integer = _
  rw [String.toList_ofList, htrim, h, Option.map_some]

/-- **A literal behind a counter is compared with the count.** It is made of signs and digits,
    none of which ends a value. -/
theorem exists_filter_literal {literal : List Char} {n : Int} (h : signed64? literal = some n) :
    ∃ filter, Filter.ofText (counter.query operator literal) = .ok (some filter) ∧
      ∀ card, passes (some filter) card =
        ordering operator (Number.ofInt (counter.count card)) (Number.ofInt n) := by
  have hkind : counter.field.kind = .integer := by cases counter <;> rfl
  have hvalue := ofText?_literal hkind h
  obtain ⟨hne, hchars⟩ := isIntegral_of_signed? h
  obtain ⟨c, rest, rfl⟩ := List.exists_cons_of_ne_nil hne
  -- signs and digits stand together in ASCII, away from all that ends a value
  have hother : ∀ d : Char, d.toNat < 43 ∨ 57 < d.toNat → c ≠ d := by
    rintro d hd rfl
    have hplace := (hchars c (List.mem_cons_self ..)).toNat
    omega
  have hquote : isQuote c = false := by
    rw [isQuote, beq_false_of_ne (hother '"' (by decide)), beq_false_of_ne (hother '\'' (by decide))]
    rfl
  have hkept : ∀ d ∈ c :: rest, endsValue d = false := by
    intro d hd
    have hparen : d ≠ ')' := by
      rintro rfl
      exact absurd (hchars _ hd).toNat (by decide)
    rw [endsValue, (hchars d hd).not_isBlank, beq_false_of_ne hparen]
    rfl
  have htest : conditionTest counter.field operator (.integer n) = .ok fun card =>
      ordering operator (Number.ofInt (counter.count card)) (Number.ofInt n) := by
    cases counter <;> rfl
  exact exists_filter counter operator hquote (hother '=' (by decide)) (hother '>' (by decide))
    hkept hvalue htest

end

/-- The name of the other counter behind `cubes` is compared with it. -/
theorem exists_filter_picks (operator : Operator) :
    ∃ filter, Filter.ofText (Counter.cubes.query operator Field.picks.title.toList) =
        .ok (some filter) ∧
      ∀ card, passes (some filter) card =
        ordering operator (Number.ofInt card.cubeCount) (Number.ofInt card.pickCount) := by
  have hvalue : Value.ofText? Counter.cubes.field (String.ofList "picks".toList) =
      some (.field .picks) := by decide +kernel
  have hkept : ∀ c ∈ "picks".toList, endsValue c = false :=
    List.all_iff_forall_prop.mp (by decide)
  exact exists_filter .cubes operator (by decide) (by decide) (by decide) hkept hvalue rfl

/-- **Counters are compared as the nearest integers of 53 bits.**  For a card whose counts have 64
    bits:
    (1) every literal of 64 bits behind a counter makes a query, and the card passes exactly if its
        count, rounded, stands to the number, rounded, as the operator asks;
    (2) so it is with `picks` behind `cubes`, for the two counts;
    (3) all operators answer as for the numbers themselves exactly where these are equal or are
        rounded to different numbers;
    (4) that is so wherever one of the two is below 2⁵³. -/
theorem counters_compare_nearest (card : Card) (hcubes : card.cubeCount < Nat.pow 2 64)
    (hpicks : card.pickCount < Nat.pow 2 64) :
    (∀ (counter : Counter) (operator : Operator) (literal : List Char) (n : Int),
      signed64? literal = some n →
      ∃ filter, Filter.ofText (counter.query operator literal) = .ok (some filter) ∧
        (passes (some filter) card = true ↔
          operator.Compares (nearestInt (counter.count card)) (nearestInt n))) ∧
    (∀ operator : Operator,
      ∃ filter, Filter.ofText (Counter.cubes.query operator "picks".toList) = .ok (some filter) ∧
        (passes (some filter) card = true ↔
          operator.Compares (nearestInt card.cubeCount) (nearestInt card.pickCount))) ∧
    (∀ a b : Int, (∀ operator : Operator, operator.Compares (nearestInt a) (nearestInt b) ↔
      operator.Compares a b) ↔ a = b ∨ nearestInt a ≠ nearestInt b) ∧
    ∀ a b : Int, a.natAbs < Nat.pow 2 53 → a = b ∨ nearestInt a ≠ nearestInt b := by
  -- a number of 64 bits is far below the greatest one that can be rounded
  have hsmall : ∀ n : Int, n.natAbs < Nat.pow 2 64 → n.natAbs.log2 < 1024 := fun n hn =>
    Nat.lt_trans (log2_lt_of_lt (by decide) hn) (by decide)
  have hcount : ∀ counter : Counter, (counter.count card : Int).natAbs.log2 < 1024 := by
    rintro (_ | _)
    · exact hsmall _ hcubes
    · exact hsmall _ hpicks
  refine ⟨?_, ?_, compares_exactly_iff, ?_⟩
  · intro counter operator literal n hliteral
    obtain ⟨filter, hfilter, hpasses⟩ := exists_filter_literal counter operator hliteral
    refine ⟨filter, hfilter, ?_⟩
    have hbits : n.natAbs < Nat.pow 2 64 := by
      have hbounds : -9223372036854775808 ≤ n ∧ n < 9223372036854775808 :=
        bounds_of_signed? hliteral
      show n.natAbs < 18446744073709551616
      omega
    rw [hpasses]
    exact ordering_ofInt_iff (hcount counter) (hsmall n hbits) operator
  · intro operator
    obtain ⟨filter, hfilter, hpasses⟩ := exists_filter_picks operator
    refine ⟨filter, hfilter, ?_⟩
    rw [hpasses]
    exact ordering_ofInt_iff (hcount .cubes) (hcount .picks) operator
  · intro a b ha
    exact (Classical.em (a = b)).imp_right (nearestInt_ne ha)

/-- Two counts around 2⁵³, the picks one more than can be told from it. -/
theorem counters_compare_nearest_picks :
    let card : Card := .ofPrinting
      { name := "Plains", cubeCount := 9007199254740990, pickCount := 9007199254740993 }
    (∃ filter, Filter.ofText "cubes<9007199254740991" = .ok (some filter) ∧
      passes (some filter) card = true) ∧
    ∃ filter, Filter.ofText "cubes<picks" = .ok (some filter) ∧
      passes (some filter) card = true := by
  intro card
  obtain ⟨hliterals, hfields, -⟩ :=
    counters_compare_nearest card (by decide +kernel) (by decide +kernel)
  obtain ⟨filter, hfilter, hpasses⟩ :=
    hliterals .cubes .less "9007199254740991".toList 9007199254740991 (by decide +kernel)
  obtain ⟨other, hother, hbelow⟩ := hfields .less
  exact ⟨⟨filter, hfilter, hpasses.mpr (by decide +kernel)⟩,
    other, hother, hbelow.mpr (by decide +kernel)⟩

/-- **A count that is rounded**: the card was picked once more often than the query asks for, and
    is found all the same. -/
theorem picks_rounded :
    let card : Card := .ofPrinting { name := "Plains", pickCount := 9007199254740993 }
    ∃ filter, Filter.ofText "picks=9007199254740992" = .ok (some filter) ∧
      passes (some filter) card = true ∧ card.pickCount ≠ 9007199254740992 := by
  intro card
  obtain ⟨filter, hfilter, hpasses⟩ := exists_filter_literal .picks .equal
    (show signed64? "9007199254740992".toList = some 9007199254740992 by decide +kernel)
  exact ⟨filter, hfilter, (hpasses card).trans (by decide +kernel), by decide +kernel⟩

end CardSearch.Query
