import CardSearch.Proofs.Distinct
import CardSearch.Proofs.Query.Complement
import CardSearch.Proofs.Query.Pairing
import CardSearch.Proofs.Query.Showing

/-
  Lists that stand for sets, and the numbers of their elements.

  A list of colors may repeat a color and have them in any order.  Sets are compared element by
  element and sizes are counted after repetitions are dropped, so the two readings of a color field,
  by colors and by their number, share no code.

  1. **Sets (`setTest_iff`)** — each operator decides a relation of the two finite sets.
  2. **Sizes (`setSize_eq_card`)** — what is counted is the cardinality.
  3. **The crux (`relatesSizes_of_relatesSets`)** — a set that is included in another is no larger,
     and a proper part is smaller.
  4. **The result (`setTest_implies_count`)** — so what is asked of colors holds of their number.
-/

namespace CardSearch.Query

/-! ## Relations -/

/-- What an operator asks of the elements of a field and those of a value. -/
def Operator.RelatesSets (field value : Finset String) : Operator → Prop
  | .colon | .greaterEqual => value ⊆ field
  | .equal => field = value
  | .notEqual | .lessGreater => field ≠ value
  | .less => field ⊂ value
  | .lessEqual => field ⊆ value
  | .greater => value ⊂ field

/-- What an operator asks of the number of a field's elements and a number. -/
def Operator.RelatesSizes (size n : Nat) : Operator → Prop
  | .colon | .equal => size = n
  | .notEqual | .lessGreater => size ≠ n
  | .less => size < n
  | .lessEqual => size ≤ n
  | .greater => n < size
  | .greaterEqual => n ≤ size

theorem isSubset_iff_toFinset {a b : List String} :
    isSubset a b = true ↔ a.toFinset ⊆ b.toFinset := by
  rw [isSubset_iff, Finset.subset_iff]
  refine forall_congr' fun x => ?_
  rw [List.mem_toFinset, List.mem_toFinset]

theorem properSubset_iff {a b : List String} {same : Bool}
    (hsame : same = true ↔ a.toFinset = b.toFinset) :
    (isSubset a b && !same) = true ↔ a.toFinset ⊂ b.toFinset := by
  rw [Bool.and_eq_true, isSubset_iff_toFinset, Bool.not_eq_true', Finset.ssubset_iff_subset_ne,
    ← Bool.not_eq_true, hsame]

/-- **A test of sets decides the relation of its operator**, whatever stands twice in the lists and
    in whatever order. -/
theorem setTest_iff (operator : Operator) (value field : List String) :
    setTest operator value field = true ↔
      operator.RelatesSets field.toFinset value.toFinset := by
  have hsame : sameSet field value = true ↔ field.toFinset = value.toFinset := sameSet_iff_toFinset
  cases operator with
  | colon | greaterEqual | lessEqual => exact isSubset_iff_toFinset
  | equal => exact hsame
  | notEqual | lessGreater =>
    show (!sameSet field value) = true ↔ field.toFinset ≠ value.toFinset
    rw [Bool.not_eq_true', ← Bool.not_eq_true, hsame]
  | less => exact properSubset_iff hsame
  | greater => exact properSubset_iff (hsame.trans eq_comm)

/-- Sorting brings equal elements together, so dropping repetitions side by side drops all of
    them, and each element is counted once. -/
theorem setSize_eq_length_eraseDups (elements : List String) :
    setSize elements = (elements.mergeSort fun a b => a ≤ b).eraseDups.length := by
  have hsorted : (elements.mergeSort fun a b => a ≤ b).Pairwise (· ≤ ·) := by
    have htrans : ∀ a b c : String, decide (a ≤ b) = true → decide (b ≤ c) = true →
        decide (a ≤ c) = true := fun a b c hab hbc =>
      decide_eq_true (String.le_trans (of_decide_eq_true hab) (of_decide_eq_true hbc))
    have htotal : ∀ a b : String, (decide (a ≤ b) || decide (b ≤ a)) = true := fun a b => by
      simpa using String.le_total a b
    exact (List.pairwise_mergeSort htrans htotal elements).imp of_decide_eq_true
  rw [setSize, eraseReps_eq_eraseDups (fun a b => String.le_antisymm) hsorted]

/-- **What is counted is the cardinality**, since sorting changes no set. -/
theorem setSize_eq_card (elements : List String) : setSize elements = elements.toFinset.card := by
  rw [setSize_eq_length_eraseDups, length_eraseDups]
  exact congrArg Finset.card (List.toFinset_eq_of_perm _ _ (List.mergeSort_perm elements _))

/-- Natural numbers are compared as they are. -/
theorem ordering_nat_iff (operator : Operator) (size n : Nat) :
    ordering operator size n = true ↔ operator.RelatesSizes size n := by
  cases operator with
  | colon | equal => exact beq_iff_eq
  | notEqual | lessGreater => exact bne_iff_ne
  | less | greater => exact decide_eq_true_iff
  | lessEqual =>
    show (decide (size < n) || size == n) = true ↔ size ≤ n
    rw [Bool.or_eq_true, decide_eq_true_iff, beq_iff_eq, Nat.le_iff_lt_or_eq]
  | greaterEqual =>
    show (decide (n < size) || size == n) = true ↔ n ≤ size
    rw [Bool.or_eq_true, decide_eq_true_iff, beq_iff_eq, Nat.le_iff_lt_or_eq, eq_comm]

/-! ## From sets to sizes -/

/-- The operators that order sets, or ask for the same set. -/
def orderOperators : List Operator := [.equal, .less, .lessEqual, .greater, .greaterEqual]

/-- **The crux**: what holds of two sets holds of their sizes.  The converse does not, so a query
    for colors is the narrower one. -/
theorem relatesSizes_of_relatesSets {operator : Operator} (h : operator ∈ orderOperators)
    {field value : Finset String} (hsets : operator.RelatesSets field value) :
    operator.RelatesSizes field.card value.card := by
  cases operator with
  | equal => exact congrArg Finset.card hsets
  | less | greater => exact Finset.card_lt_card hsets
  | lessEqual | greaterEqual => exact Finset.card_le_card hsets
  | colon | notEqual | lessGreater => exact absurd h (by decide)

/-! ## Color fields -/

section

variable {field : Field} {raw : String} {codes : List String}

/-- Only color fields take colors for a value. -/
theorem kind_of_colors (h : Value.ofText? field raw = some (.colors codes)) :
    field.kind = .colors := by
  have hfits : (Value.colors codes).Fits field := fits_of_ofText? h
  cases hfits with
  | ofKind hkind =>
    generalize field.kind = kind at hkind
    cases hkind
    rfl

theorem ofText?_of_kind (hkind : field.kind = .colors) (raw : String) :
    Value.ofText? field raw = Value.ofKind? .colors raw := by
  have hnumeric : field.isNumeric = false := by
    rw [Field.isNumeric, hkind]
  rw [Value.ofText?, Value.fieldNamed?, hnumeric, hkind]
  rfl

/-- The colors of a text are among five, so their number can be written as one. -/
theorem card_le_of_colors (h : Value.ofText? field raw = some (.colors codes)) :
    codes.toFinset.card ≤ 5 := by
  rw [ofText?_of_kind (kind_of_colors h), Value.ofKind?] at h
  split at h
  · cases h
  · obtain ⟨_, hread, hsame⟩ := Option.map_eq_some_iff.mp h
    obtain rfl := Value.colors.inj hsame
    obtain ⟨colors, hcolors, rfl⟩ := List.mem_map.mp (mem_of_colors? hread)
    calc (colors.map Color.code).toFinset.card
      _ ≤ (colors.map Color.code).length := List.toFinset_card_le _
      _ = colors.length := List.length_map _
      _ ≤ Color.wheel.length := (List.mem_sublists.mp hcolors).length_le

/-- The digits of a number are read as a number of colors, which is tried before colors are. -/
theorem ofText?_digits (hkind : field.kind = .colors) {n : Nat} (hn : n < Nat.pow 2 64) :
    Value.ofText? field (String.ofList (digits n)) = some (.count n) := by
  rw [ofText?_of_kind hkind]
  refine ofKind?_count ?_
  rw [String.toList_ofList, trim_digits]
  exact naturalBelow?_digits hn

theorem conditionTest_colors (hkind : field.kind = .colors) (operator : Operator)
    (codes : List String) :
    conditionTest field operator (.colors codes) = .ok (colorsTest field operator codes) := by
  cases field with
  | color | identity => rfl
  | _ => cases hkind

/-- The condition of a color field and a number compares sizes. -/
theorem conditionTest_count (hkind : field.kind = .colors) (operator : Operator) (n : Nat) :
    conditionTest field operator (.count n) =
      .ok fun card => ordering operator (setSize (colorsRead field card)) n := by
  cases field with
  | color | identity => rfl
  | _ => cases hkind

theorem mem_operators_of_kind (hkind : field.kind = .colors) (operator : Operator) :
    operator ∈ field.operators := by
  rw [Field.operators, hkind]
  cases operator <;> decide

/-- **What is asked of the colors holds of their number**, for the cards that pass and for no
    more. -/
theorem ordering_of_colorsTest {operator : Operator} (h : operator ∈ orderOperators) {card : Card}
    (hcolors : colorsTest field operator codes card = true) :
    ordering operator (setSize (colorsRead field card)) codes.toFinset.card = true := by
  have hnot : (operator == .colon && codes.isEmpty) = false := by
    rw [beq_false_of_ne, Bool.false_and]
    rintro rfl
    exact absurd h (by decide)
  have hset : setTest operator codes (colorsRead field card) = true := by
    rw [colorsTest, hnot] at hcolors
    exact hcolors
  rw [ordering_nat_iff, setSize_eq_card]
  exact relatesSizes_of_relatesSets h ((setTest_iff operator _ _).mp hset)

end

/-- **Sets are compared as finite sets, and counted by their cardinality.**
    (1) Each operator decides its relation of the two sets of elements.
    (2) The number of distinct elements is compared as the cardinality of the set.
    (3) A text that is read as colors after a color field can be replaced by their number: `=` and
    the orders are accepted with both, and every card that the colors match is matched by the number. -/
theorem setTest_implies_count :
    (∀ (operator : Operator) (value field : List String), setTest operator value field = true ↔
      operator.RelatesSets field.toFinset value.toFinset) ∧
    (∀ (operator : Operator) (field : List String) (n : Nat),
      ordering operator (setSize field) n = true ↔
        operator.RelatesSizes field.toFinset.card n) ∧
    ∀ (word raw : String) (field : Field) (codes : List String),
      Field.ofAbbreviation? word = some field → Value.ofText? field raw = some (.colors codes) →
      ∀ operator ∈ orderOperators, ∃ byColors byNumber,
        stated word operator raw = .ok byColors ∧
        stated word operator (String.ofList (digits codes.toFinset.card)) = .ok byNumber ∧
        ∀ card, byColors card = true → byNumber card = true := by
  refine ⟨setTest_iff, ?_, ?_⟩
  · intro operator field n
    rw [setSize_eq_card]
    exact ordering_nat_iff operator _ n
  · intro word raw field codes hword hvalue operator hoperator
    have hkind := kind_of_colors hvalue
    have haccepted := mem_operators_of_kind hkind operator
    have hraw : raw ≠ "" := by
      rintro rfl
      rw [ofText?_of_kind hkind] at hvalue
      have hnone : Value.ofKind? .colors "" = none := by decide
      rw [hnone] at hvalue
      cases hvalue
    -- the number is typed by its digits, which are read as a number of colors
    have hcount : Value.ofText? field (String.ofList (digits codes.toFinset.card)) =
        some (.count codes.toFinset.card) := by
      have hfew := card_le_of_colors hvalue
      exact ofText?_digits hkind (Nat.lt_of_le_of_lt hfew (by decide))
    have hdigits : String.ofList (digits codes.toFinset.card) ≠ "" := by
      intro hempty
      have hnil := congrArg String.toList hempty
      rw [String.toList_ofList] at hnil
      exact digits_ne_nil _ hnil
    exact ⟨_, _,
      stated_eq_ok hword haccepted hraw hvalue (conditionTest_colors hkind operator codes),
      stated_eq_ok hword haccepted hdigits hcount (conditionTest_count hkind operator _),
      fun card => ordering_of_colorsTest hoperator⟩

/-- A combination by its name: what has more colors than Bant has more than three. -/
theorem setTest_implies_count_bant :
    Field.ofAbbreviation? "C" = some .color ∧
      Value.ofText? .color " Bant" = some (.colors ["W", "U", "G"]) ∧
      ∃ byColors byNumber, stated "C" .greater " Bant" = .ok byColors ∧
        stated "C" .greater "3" = .ok byNumber ∧
        ∀ card, byColors card = true → byNumber card = true := by
  have hword : Field.ofAbbreviation? "C" = some .color := by decide
  have hvalue : Value.ofText? .color " Bant" = some (.colors ["W", "U", "G"]) := by decide
  exact ⟨hword, hvalue, setTest_implies_count.2.2 "C" " Bant" .color _ hword hvalue .greater
    (by decide)⟩

end CardSearch.Query
