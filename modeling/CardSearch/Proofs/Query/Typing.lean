import CardSearch.Proofs.Query.WellFormed
import CardSearch.Proofs.Text.Lower
import CardSearch.Query.Meaning

/-
  Why the tree of a query always has a test.

  Three tables say what a condition may be: the operators of a field, the kind of value that its text
  is read as, and the tests that `conditionTest` knows.  Nothing but this module ties them together.

  1. **Values (`fits_of_ofText?`)** — a text is read as a value that fits the field: one of the
     field's kind, or another number where the field is one.  A rarity also has a place in the order
     (`rarityRank_of_rarity?`), in whatever case and however short it was written.
  2. **The crux (`exists_conditionTest`)** — an operator of a field and a value that fits it have a
     test.  Every family of tests accepts the operators of the fields that it serves.
  3. **Trees (`exists_test`)** — so every well-formed tree has a test.
-/

namespace CardSearch.Query

/-! ## Rarities -/

/-- Only an ASCII character has a small ASCII letter for its lower case. -/
theorem toNat_lt_of_toLower {c d : Char} (h : c.toLower = d) (hd : d.toNat < 0x80) :
    c.toNat < 0x80 := by
  rcases Text.toLower_cases c with ⟨_, _, _⟩ | ⟨_, hkept⟩
  · omega
  · rw [hkept] at h
    rw [h]
    exact hd

/-- The lower case of a text that begins with an ASCII character begins with that character in
    lower case. -/
theorem head?_lower {c : Char} (rest : List Char) (h : c.toNat < 0x80) :
    (Text.lower (c :: rest)).head? = some c.toLower := by
  have hsigma : (c == 'Σ') = false := by
    refine beq_eq_false_iff_ne.mpr ?_
    rintro rfl
    exact absurd h (by decide)
  rw [Text.lower, Text.lowerFrom, hsigma, Text.lowerChar, if_pos h]
  rfl

/-- The letters with which rarities begin. -/
def rarityLetters : List Char := ['c', 'u', 'r', 'm', 's']

theorem small_of_mem_rarityLetters {letter : Char} (h : letter ∈ rarityLetters) :
    letter.toNat < 0x80 ∧ letter.toLower = letter := by
  simp only [rarityLetters, List.mem_cons, List.not_mem_nil, or_false] at h
  rcases h with rfl | rfl | rfl | rfl | rfl <;> decide

/-- A text has a place among the rarities by its first letter, in either case, and by nothing
    else. -/
theorem rarityRank_nonneg_iff {rarity : String} :
    0 ≤ Value.rarityRank rarity ↔
      ∃ letter ∈ rarityLetters, rarity.toList.head?.map Char.toLower = some letter := by
  rw [Value.rarityRank]
  constructor
  · intro h
    split at h
    case h_6 => exact absurd h (by decide)
    all_goals
      rename_i hhead
      refine ⟨_, ?_, hhead⟩
      decide
  · rintro ⟨letter, hletter, hhead⟩
    rw [hhead]
    simp only [rarityLetters, List.mem_cons, List.not_mem_nil, or_false] at hletter
    rcases hletter with rfl | rfl | rfl | rfl | rfl <;> decide

/-- A text in lower case keeps its place, as its first letter is one of ASCII. -/
theorem rarityRank_lower {rarity : String} (h : 0 ≤ Value.rarityRank rarity) :
    0 ≤ Value.rarityRank (String.ofList (Text.lower rarity.toList)) := by
  obtain ⟨letter, hletter, hhead⟩ := rarityRank_nonneg_iff.mp h
  obtain ⟨c, hc, hlower⟩ := Option.map_eq_some_iff.mp hhead
  obtain ⟨rest, htext⟩ := List.head?_eq_some_iff.mp hc
  obtain ⟨hascii, hkept⟩ := small_of_mem_rarityLetters hletter
  refine rarityRank_nonneg_iff.mpr ⟨letter, hletter, ?_⟩
  rw [String.toList_ofList, htext, head?_lower rest (toNat_lt_of_toLower hlower hascii), hlower,
    Option.map_some, hkept]

/-- What is read as a rarity has a place in their order, whether it is the word of a letter or a
    text that begins so. -/
theorem rarityRank_of_rarity? {raw rarity : String} (h : Value.rarity? raw = some rarity) :
    0 ≤ Value.rarityRank rarity := by
  unfold Value.rarity? at h
  split at h
  · cases h
  rename_i hraw
  obtain rfl := Option.some.inj h
  split
  · -- one letter: the word that begins with it, if there is one
    cases hfull : Value.rarities.find? fun name =>
        (Text.lower raw.toList).isPrefixOf name.toList with
    | none => exact rarityRank_lower (Int.not_lt.mp hraw)
    | some name =>
      have hname : name ∈ Value.rarities := List.mem_of_find?_eq_some hfull
      have hall : ∀ name ∈ Value.rarities, 0 ≤ Value.rarityRank name := by decide
      exact hall name hname
  · exact rarityRank_lower (Int.not_lt.mp hraw)

/-! ## Values -/

/-- The values of a kind.  A color field is tested against colors or their number, and a rarity has a
    place among the rarities. -/
inductive Value.OfKind : ValueKind → Value → Prop where
  | text (s : String) : OfKind .text (.text s)
  | identifier (s : String) : OfKind .identifier (.identifier s)
  | integer (n : Int) : OfKind .integer (.integer n)
  | halfInteger (x : Number) : OfKind .halfInteger (.halfInteger x)
  | dollars (x : Number) : OfKind .dollars (.dollars x)
  | colors (codes : List String) : OfKind .colors (.colors codes)
  | count (n : Nat) : OfKind .colors (.count n)
  | manaCost (cost : Mana.Cost) : OfKind .manaCost (.manaCost cost)
  | manaPool (pool : Mana.Pool) : OfKind .manaPool (.manaPool pool)
  | rarity {s : String} (placed : 0 ≤ Value.rarityRank s) : OfKind .rarity (.rarity s)
  | status (s : String) : OfKind .status (.status s)
  | finish (s : String) : OfKind .finish (.finish s)
  | category (c : Category) : OfKind .category (.category c)
  | date (d : Date) : OfKind .date (.date d)

/-- A value that a field can be tested against. -/
inductive Value.Fits (field : Field) : Value → Prop where
  | ofKind {value : Value} (kind : value.OfKind field.kind) : Fits field value
  | field {other : Field} (numeric : field.isNumeric = true)
      (otherNumeric : other.isNumeric = true) : Fits field (.field other)

/-- What is read as a value of a kind is one.  By cases on the kind. -/
theorem ofKind_of_ofKind? {kind : ValueKind} {raw : String} {value : Value}
    (h : Value.ofKind? kind raw = some value) : value.OfKind kind := by
  cases kind with
  | text =>
    obtain rfl := Option.some.inj h
    exact .text raw
  | identifier =>
    obtain rfl := Option.some.inj h
    exact .identifier raw
  | colors =>
    rw [Value.ofKind?] at h
    split at h
    · -- a number of colors is tried before colors
      obtain rfl := Option.some.inj h
      exact .count _
    · obtain ⟨codes, _, rfl⟩ := Option.map_eq_some_iff.mp h
      exact .colors codes
  | rarity =>
    obtain ⟨rarity, hread, rfl⟩ := Option.map_eq_some_iff.mp h
    exact .rarity (rarityRank_of_rarity? hread)
  | _ =>
    obtain ⟨x, _, rfl⟩ := Option.map_eq_some_iff.mp h
    constructor

/-- **What is read after a field fits it**: it is a value of the kind of the field, or the name
    of another number. -/
theorem fits_of_ofText? {field : Field} {raw : String} {value : Value}
    (h : Value.ofText? field raw = some value) : value.Fits field := by
  rw [Value.ofText?] at h
  split at h
  · rename_i other hother
    obtain rfl := Option.some.inj h
    rw [Value.fieldNamed?] at hother
    split at hother
    · rename_i hnumeric
      exact .field hnumeric (Option.filter_eq_some_iff.mp hother).2
    · cases hother
  · exact .ofKind (ofKind_of_ofKind? h)

/-! ## Families of tests -/

/-- The operators of equality and inequality, which every family accepts. -/
def plainOperators : List Operator := [.colon, .equal, .notEqual, .lessGreater]

/-- What holds of the four plain operators holds of each of them. -/
theorem of_mem_plain {holds : Operator → Prop} (hcolon : holds .colon) (hequal : holds .equal)
    (hnotEqual : holds .notEqual) (hlessGreater : holds .lessGreater) :
    ∀ operator ∈ plainOperators, holds operator := by
  simp only [plainOperators, List.forall_mem_cons]
  exact ⟨hcolon, hequal, hnotEqual, hlessGreater, fun _ h => absurd h List.not_mem_nil⟩

theorem exists_substringTest (value : String) :
    ∀ operator ∈ plainOperators, ∃ test, substringTest operator value = .ok test :=
  of_mem_plain ⟨_, rfl⟩ ⟨_, rfl⟩ ⟨_, rfl⟩ ⟨_, rfl⟩

theorem exists_containsTest (value : String) :
    ∀ operator ∈ plainOperators, ∃ test, containsTest operator value = .ok test :=
  of_mem_plain ⟨_, rfl⟩ ⟨_, rfl⟩ ⟨_, rfl⟩ ⟨_, rfl⟩

theorem exists_equalityTest {α : Type} [BEq α] (value : α) :
    ∀ operator ∈ plainOperators, ∃ test, equalityTest operator value = .ok test :=
  of_mem_plain ⟨_, rfl⟩ ⟨_, rfl⟩ ⟨_, rfl⟩ ⟨_, rfl⟩

theorem exists_membershipTest (value : String) :
    ∀ operator ∈ plainOperators, ∃ test, membershipTest operator value = .ok test :=
  of_mem_plain ⟨_, rfl⟩ ⟨_, rfl⟩ ⟨_, rfl⟩ ⟨_, rfl⟩

theorem exists_costTest (value : Mana.Cost) :
    ∀ operator ∈ plainOperators, ∃ test, costTest operator value = .ok test :=
  of_mem_plain ⟨_, rfl⟩ ⟨_, rfl⟩ ⟨_, rfl⟩ ⟨_, rfl⟩

/-- The formats that are read differ, and neither refuses an operator. -/
theorem exists_legalityTest (format : String) :
    ∀ operator ∈ plainOperators, ∃ test, legalityTest operator format = .ok test := by
  intro operator hoperator
  obtain ⟨test, htest⟩ := exists_membershipTest format operator hoperator
  unfold legalityTest
  rw [htest]
  -- the formats that are read differ, and neither reading fails
  by_cases hvintage : Text.lowerAscii format.toList == "vintage".toList
  · exact ⟨_, if_pos hvintage⟩
  · exact ⟨_, if_neg hvintage⟩

theorem exists_castableTest (pool : Mana.Pool) {operator : Operator}
    (h : operator ∈ Field.castable.operators) : ∃ test, castableTest operator pool = .ok test := by
  cases operator with
  | less => exact absurd h (by decide)
  | greaterEqual => exact absurd h (by decide)
  | _ => exact ⟨_, rfl⟩

theorem exists_rarityTest (operator : Operator) {rarity : String}
    (h : 0 ≤ Value.rarityRank rarity) : ∃ test, rarityTest operator rarity = .ok test := by
  unfold rarityTest
  rw [if_neg (Int.not_lt.mpr h)]
  cases operator <;> exact ⟨_, rfl⟩

/-! ## Conditions -/

theorem exists_bind_ok {ε α β : Type} {x : Except ε α} {f : α → β} (h : ∃ a, x = .ok a) :
    ∃ b, (x >>= fun a => .ok (f a)) = .ok b := by
  obtain ⟨a, rfl⟩ := h
  exact ⟨f a, rfl⟩

theorem exists_number {field : Field} (h : field.isNumeric = true) :
    ∃ accessor, field.number? = some accessor := by
  cases field with
  | manaValue | power | toughness | loyalty | price | priceFoil | priceEur | priceTix | elo
  | popularity | cubes | picks | words | devotion => exact ⟨_, rfl⟩
  | _ => cases h

theorem exists_fieldTest {field other : Field} (operator : Operator)
    (hfield : field.isNumeric = true) (hother : other.isNumeric = true) :
    ∃ test, conditionTest field operator (.field other) = .ok test := by
  obtain ⟨left, hleft⟩ := exists_number hfield
  obtain ⟨right, hright⟩ := exists_number hother
  simp only [conditionTest, hleft, hright]
  exact ⟨_, rfl⟩

/-- A field is tested against every value of its kind, by each of its operators.  By cases on the
    kind and then on the fields of the kind; the operators of a field are those that its family
    of tests takes. -/
theorem exists_kindTest {field : Field} {operator : Operator} {value : Value}
    (hoperator : operator ∈ field.operators) (hvalue : value.OfKind field.kind) :
    ∃ test, conditionTest field operator value = .ok test := by
  cases field with
  | name | typeLine | artist =>
    cases hvalue with
    | text s => exact exists_bind_ok (exists_substringTest s operator hoperator)
  | oracle =>
    cases hvalue with
    | text s => exact exists_bind_ok (exists_containsTest s operator hoperator)
  | tag | banned | restricted =>
    cases hvalue with
    | text s => exact exists_bind_ok (exists_membershipTest s operator hoperator)
  | legality =>
    cases hvalue with
    | text s => exact exists_legalityTest s operator hoperator
  | set | oracleId | printingId | layout =>
    cases hvalue with
    | identifier s => exact exists_bind_ok (exists_equalityTest _ operator hoperator)
  | status =>
    cases hvalue with
    | status s => exact exists_bind_ok (exists_equalityTest s operator hoperator)
  | finish =>
    cases hvalue with
    | finish s => exact exists_bind_ok (exists_equalityTest s operator hoperator)
  | category =>
    cases hvalue with
    | category c => exact exists_bind_ok (exists_equalityTest true operator hoperator)
  | cost =>
    cases hvalue with
    | manaCost cost => exact exists_bind_ok (exists_costTest cost operator hoperator)
  | castable =>
    cases hvalue with
    | manaPool pool => exact exists_bind_ok (exists_castableTest pool hoperator)
  | rarity =>
    cases hvalue with
    | rarity hplace => exact exists_bind_ok (exists_rarityTest operator hplace)
  | color | identity =>
    -- colors or their number
    cases hvalue <;> exact ⟨_, rfl⟩
  | _ =>
    -- numbers and dates: every operator has a meaning for an order
    cases hvalue
    exact ⟨_, rfl⟩

/-- **A condition that a query can state has a test**: its value is another field, or one of its
    kind. -/
theorem exists_conditionTest {leaf : Condition} (h : leaf.WellFormed) :
    ∃ test, conditionTest leaf.field leaf.operator leaf.value = .ok test := by
  obtain ⟨field, operator, negated, value⟩ := leaf
  rcases h with ⟨hoperator, raw, _, hvalue⟩ | ⟨hfield, hcolon, hempty⟩
  · cases fits_of_ofText? hvalue with
    | ofKind hkind => exact exists_kindTest hoperator hkind
    | field hfield hother => exact exists_fieldTest operator hfield hother
  · obtain rfl : field = .name := hfield
    obtain rfl : operator = .colon := hcolon
    obtain rfl : value = .text "" := hempty
    exact ⟨_, rfl⟩

/-! ## Trees -/

/-- Members that have tests have a test together.  By induction on the members, for whatever was
    tested before them. -/
theorem exists_foldTests {members : List (Connective × Node)}
    (h : ∀ member ∈ members, ∃ test, member.2.test? = .ok test) (left : Test) :
    ∃ test, Node.foldTests left members = .ok test := by
  induction members generalizing left with
  | nil => exact ⟨left, rfl⟩
  | cons member rest ih =>
    obtain ⟨⟨right, hright⟩, hrest⟩ := List.forall_mem_cons.mp h
    rw [Node.foldTests, hright]
    exact ih hrest _

/-- **A tree that a query can have has a test.** By induction on the tree. -/
theorem exists_test {node : Node} (h : node.WellFormed) : ∃ test, node.test? = .ok test := by
  induction h with
  | condition stated =>
    rw [Node.test?]
    exact exists_bind_ok (exists_conditionTest stated)
  | group _ _ _ _ ihfirst ihrest =>
    obtain ⟨first, hfirst⟩ := ihfirst
    rw [Node.test?, hfirst]
    exact exists_bind_ok (exists_foldTests ihrest first)

end CardSearch.Query
