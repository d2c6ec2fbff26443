import CardSearch.Proofs.Query.Typing

/-
  Equality and inequality of a condition.

  For most fields `!=` and `<>` ask for what `=` denies.  The families of tests see to it one by one,
  also where an attribute is missing or is no number, and the bindings of fields to families must
  read the same attribute for each operator.

  1. **Opposed tests** — `Opposed` relates two tests of which exactly one holds, and each family gives
     such a pair (`opposed_equalityTest` …).  Testing an attribute keeps it (`Opposed.comap`).
  2. **Rules text (`oracleTest_eq_bind`)** — as written *or* as marked for an equality, as written
     *and* as marked for an inequality: so by De Morgan these tests are opposed too.
  3. **The crux (`opposed_conditionTest`)** — a field other than a name field and a value that fits it
     have opposed tests.  The cases are those of the kinds of values.
  4. **The result (`equality_inequality_complement`)** — said of conditions as they are written.  A
     name field is asked for a piece and for another whole, so there the two tests overlap.
-/

namespace CardSearch.Query

/-! ## Opposed tests -/

section Families

variable {α : Type}

/-- Two tests that are both there and of which exactly one holds. -/
def Opposed (left right : Except Error (α → Bool)) : Prop :=
  ∃ f g, left = .ok f ∧ right = .ok g ∧ ∀ x, g x = !f x

theorem Opposed.comap {left right : Except Error (α → Bool)} (h : Opposed left right)
    (read : Card → α) :
    Opposed (left >>= fun test => .ok fun card => test (read card))
      (right >>= fun test => .ok fun card => test (read card)) := by
  obtain ⟨f, g, rfl, rfl, hopposed⟩ := h
  exact ⟨_, _, rfl, rfl, fun card => hopposed (read card)⟩

theorem opposed_equalityTest [BEq α] (value : α) :
    Opposed (equalityTest .equal value) (equalityTest .notEqual value) :=
  ⟨_, _, rfl, rfl, fun _ => rfl⟩

theorem opposed_membershipTest (value : String) :
    Opposed (membershipTest .equal value) (membershipTest .notEqual value) :=
  ⟨_, _, rfl, rfl, fun _ => rfl⟩

theorem opposed_costTest (value : Mana.Cost) :
    Opposed (costTest .equal value) (costTest .notEqual value) :=
  ⟨_, _, rfl, rfl, fun _ => rfl⟩

theorem opposed_castableTest (pool : Mana.Pool) :
    Opposed (castableTest .equal pool) (castableTest .notEqual pool) :=
  ⟨_, _, rfl, rfl, fun _ => rfl⟩

theorem opposed_castableTest_unlimited (pool : Mana.Pool) :
    Opposed (castableTest .lessEqual pool) (castableTest .greater pool) :=
  ⟨_, _, rfl, rfl, fun _ => rfl⟩

/-- Rarities are compared by their rank, if the asked one has a rank. -/
theorem opposed_rarityTest {rarity : String} (h : 0 ≤ Value.rarityRank rarity) :
    Opposed (rarityTest .equal rarity) (rarityTest .notEqual rarity) := by
  unfold rarityTest
  simp only [if_neg (Int.not_lt.mpr h)]
  exact ⟨_, _, rfl, rfl, fun _ => rfl⟩

/-- To have a format among those in which the card is legal, and not to; for one format those in
    which it is restricted count as well, for both operators. -/
theorem opposed_legalityTest (format : String) :
    Opposed (legalityTest .equal format) (legalityTest .notEqual format) := by
  unfold legalityTest
  by_cases hvintage : Text.lowerAscii format.toList == "vintage".toList
  · simp only [if_pos hvintage]
    exact (opposed_membershipTest format).comap fun card => card.legalIn ++ card.restrictedIn
  · simp only [if_neg hvintage]
    exact (opposed_membershipTest format).comap Card.legalIn

/-- Also where either attribute is missing: it is then unequal to the other, and two missing ones
    are no exception. -/
theorem orderingOrMissing_notEqual [Comparable α] (actual value : Option α) :
    orderingOrMissing .notEqual actual value = !orderingOrMissing .equal actual value := by
  cases actual with
  | none => rfl
  | some x =>
    cases value with
    | none => rfl
    | some y => rfl

end Families

/-! ## Rules text -/

/-- **Rules text is tested as written and as marked**, and an inequality must hold of both.
    Written this way, the tests of a piece are all that is left to compare. -/
theorem oracleTest_eq_bind (operator : Operator) (value : String) :
    oracleTest operator value = containsTest operator value >>= fun test => .ok fun card =>
      if operator.isNegative then
        test card.oracleText && test (String.ofList (selfMarked card))
      else test card.oracleText || test (String.ofList (selfMarked card)) := by
  unfold oracleTest
  cases containsTest operator value with
  | error e => rfl
  | ok test =>
    refine congrArg Except.ok (funext fun card => ?_)
    dsimp only
    cases operator.isNegative <;> cases test card.oracleText <;> rfl

/-- So by De Morgan the equality and the inequality of rules text are opposed. -/
theorem opposed_oracleTest (value : String) :
    Opposed (oracleTest .equal value) (oracleTest .notEqual value) := by
  rw [oracleTest_eq_bind, oracleTest_eq_bind]
  exact ⟨_, _, rfl, rfl, fun card => (Bool.not_or _ _).symm⟩

/-- A text without the piece is not the piece, so what `!=` matches `<>` does too. -/
theorem lessGreater_of_notEqual_oracle (value : String) :
    ∃ notEqual lessGreater, oracleTest .notEqual value = .ok notEqual ∧
      oracleTest .lessGreater value = .ok lessGreater ∧
      ∀ card, notEqual card = true → lessGreater card = true := by
  have hpiece : ∀ text : List Char, (!Text.occurs (lowered value) text) = true →
      (text != lowered value) = true := by
    intro text habsent
    refine bne_iff_ne.mpr ?_
    rintro rfl
    rw [Text.occurs_iff.mpr (List.infix_refl _)] at habsent
    cases habsent
  rw [oracleTest_eq_bind, oracleTest_eq_bind]
  refine ⟨_, _, rfl, rfl, fun card h => ?_⟩
  obtain ⟨hplain, hmarked⟩ := (Bool.and_eq_true _ _).mp h
  exact (Bool.and_eq_true _ _).mpr ⟨hpiece _ hplain, hpiece _ hmarked⟩

/-! ## Conditions -/

/-- The fields whose `=` asks for a piece and whose inequalities ask for another whole. -/
def nameFields : List Field := [.name, .typeLine, .artist]

/-- **The equality and the inequality of a field other than a name field are opposed.** By cases
    on the value, and where fields of one kind have families of their own, on the field. -/
theorem opposed_conditionTest {field : Field} {value : Value} (hvalue : value.Fits field)
    (hfield : field ∉ nameFields) :
    Opposed (conditionTest field .equal value) (conditionTest field .notEqual value) := by
  cases hvalue with
  | field hnumeric hother =>
    obtain ⟨left, hleft⟩ := exists_number hnumeric
    obtain ⟨right, hright⟩ := exists_number hother
    simp only [conditionTest, hleft, hright]
    exact ⟨_, _, rfl, rfl, fun card => orderingOrMissing_notEqual _ _⟩
  | ofKind hkind =>
    cases field with
    | name | typeLine | artist => exact absurd (by decide) hfield
    | oracle =>
      cases hkind with
      | text s => exact opposed_oracleTest s
    | tag | banned | restricted =>
      cases hkind with
      | text s => exact (opposed_membershipTest s).comap _
    | legality =>
      cases hkind with
      | text s => exact opposed_legalityTest s
    | set | oracleId | printingId | layout =>
      cases hkind with
      | identifier s => exact (opposed_equalityTest _).comap _
    | status =>
      cases hkind with
      | status s => exact (opposed_equalityTest s).comap _
    | finish =>
      cases hkind with
      | finish s => exact (opposed_equalityTest s).comap _
    | category =>
      cases hkind with
      | category c => exact (opposed_equalityTest true).comap _
    | cost =>
      cases hkind with
      | manaCost cost => exact (opposed_costTest cost).comap _
    | castable =>
      cases hkind with
      | manaPool pool => exact (opposed_castableTest pool).comap _
    | rarity =>
      cases hkind with
      | rarity placed => exact (opposed_rarityTest placed).comap _
    | color | identity =>
      -- colors or their number
      cases hkind <;> exact ⟨_, _, rfl, rfl, fun _ => rfl⟩
    | _ =>
      -- numbers and dates, which may be missing
      cases hkind
      exact ⟨_, _, rfl, rfl, fun card => orderingOrMissing_notEqual _ _⟩

/-- **The two inequalities are one**, except for rules text, where they differ by design of its
    tests. -/
theorem conditionTest_lessGreater {field : Field} (hfield : field ≠ .oracle) (value : Value) :
    conditionTest field .lessGreater value = conditionTest field .notEqual value := by
  cases field with
  | oracle => exact absurd rfl hfield
  | _ => cases value <;> rfl

/-- Of a name field one of the two holds: a text that is the value has it as a piece, so where
    there is no piece there is another whole. -/
theorem equal_or_notEqual_of_name {field : Field} {value : Value} (hvalue : value.Fits field)
    (hfield : field ∈ nameFields) :
    ∃ equal notEqual, conditionTest field .equal value = .ok equal ∧
      conditionTest field .notEqual value = .ok notEqual ∧
      ∀ card, (equal card || notEqual card) = true := by
  have hcover : ∀ wanted text : List Char,
      (Text.occurs wanted text || text != wanted) = true := by
    intro wanted text
    by_cases hwhole : text = wanted
    · rw [hwhole, Text.occurs_iff.mpr (List.infix_refl wanted), Bool.true_or]
    · rw [bne_iff_ne.mpr hwhole, Bool.or_true]
  simp only [nameFields, List.mem_cons, List.not_mem_nil, or_false] at hfield
  rcases hfield with rfl | rfl | rfl
  all_goals
    cases hvalue with
    | field hnumeric => cases hnumeric
    | ofKind hkind =>
      cases hkind with
      | text s => exact ⟨_, _, rfl, rfl, fun card => hcover (lowered s) _⟩

/-! ## Conditions as they are written -/

/-- The test that a field, an operator and the text of a value state. -/
def stated (word : String) (operator : Operator) (raw : String) : Except Error Test :=
  condition word operator raw >>= fun leaf => (Node.condition leaf).test?

/-- A stated test is that of the field and the value, if the field takes the operator. -/
theorem stated_eq_ok {word raw : String} {operator : Operator} {field : Field} {value : Value}
    {test : Test} (hword : Field.ofAbbreviation? word = some field)
    (hoperator : operator ∈ field.operators) (hraw : raw ≠ "")
    (hvalue : Value.ofText? field raw = some value)
    (htest : conditionTest field operator value = .ok test) :
    stated word operator raw = .ok test := by
  have hleaf : condition word operator raw = .ok ⟨field, operator, false, value⟩ :=
    condition_eq_ok_iff.mpr ⟨field, value, hword, hoperator, hraw, hvalue, rfl⟩
  rw [stated, hleaf]
  show (Node.condition _).test? = _
  rw [Node.test?, htest]
  exact congrArg Except.ok (funext fun card => Bool.bne_false _)

/-- Every field takes the operators of equality and inequality. -/
theorem mem_operators_of_mem_plain (field : Field) :
    ∀ operator ∈ plainOperators, operator ∈ field.operators := by
  cases field with
  | devotion color => cases color <;> decide
  | _ => decide

/-- **Equality and inequality are complements.**  Where a field, `=` and a value are accepted, so are
    `!=` and `<>` with that value.
    (1) Except for the name fields, exactly one of `=` and `!=` matches a card.
    (2) `!=` and `<>` match the same cards; for rules text `<>` matches what `!=` does.
    (3) For casting also exactly one of `<=` and `>` matches, and `:` does when `<=` does.
    (4) For the name fields one of `=` and `!=` matches, or both. -/
theorem equality_inequality_complement {word raw : String} {leaf : Condition}
    (h : condition word .equal raw = .ok leaf) :
    ∃ equal notEqual lessGreater, stated word .equal raw = .ok equal ∧
      stated word .notEqual raw = .ok notEqual ∧ stated word .lessGreater raw = .ok lessGreater ∧
      (leaf.field ∉ nameFields → ∀ card, notEqual card = !equal card) ∧
      (leaf.field ≠ .oracle → ∀ card, lessGreater card = notEqual card) ∧
      (leaf.field = .oracle → ∀ card, notEqual card = true → lessGreater card = true) ∧
      (leaf.field = .castable → ∃ colon lessEqual greater, stated word .colon raw = .ok colon ∧
        stated word .lessEqual raw = .ok lessEqual ∧ stated word .greater raw = .ok greater ∧
        ∀ card, (greater card = !lessEqual card) ∧ colon card = lessEqual card) ∧
      (leaf.field ∈ nameFields → ∀ card, (equal card || notEqual card) = true) := by
  obtain ⟨field, value, hword, _, hraw, hvalue, rfl⟩ := condition_eq_ok_iff.mp h
  have hfits : value.Fits field := fits_of_ofText? hvalue
  have hplain := mem_operators_of_mem_plain field
  have hstated : ∀ {operator : Operator} {test : Test}, operator ∈ field.operators →
      conditionTest field operator value = .ok test → stated word operator raw = .ok test :=
    fun hoperator htest => stated_eq_ok hword hoperator hraw hvalue htest
  -- the tests of the plain operators
  have hfound : ∀ operator ∈ plainOperators, ∃ test, conditionTest field operator value = .ok test ∧
      stated word operator raw = .ok test := by
    intro operator hoperator
    have hleaf : Condition.WellFormed ⟨field, operator, false, value⟩ :=
      Or.inl ⟨hplain operator hoperator, raw, hraw, hvalue⟩
    obtain ⟨test, htest⟩ := exists_conditionTest hleaf
    exact ⟨test, htest, hstated (hplain operator hoperator) htest⟩
  obtain ⟨equal, hequal, hequalStated⟩ := hfound .equal (by decide)
  obtain ⟨notEqual, hnotEqual, hnotEqualStated⟩ := hfound .notEqual (by decide)
  obtain ⟨lessGreater, hlessGreater, hlessGreaterStated⟩ := hfound .lessGreater (by decide)
  refine ⟨equal, notEqual, lessGreater, hequalStated, hnotEqualStated, hlessGreaterStated,
    ?opposed, ?agree, ?oracle, ?casting, ?names⟩
  case opposed =>
    intro hfield
    obtain ⟨f, g, hf, hg, hopposed⟩ := opposed_conditionTest hfits hfield
    obtain rfl := Except.ok.inj (hequal.symm.trans hf)
    obtain rfl := Except.ok.inj (hnotEqual.symm.trans hg)
    exact hopposed
  case agree =>
    intro hfield card
    rw [conditionTest_lessGreater hfield, hnotEqual] at hlessGreater
    rw [Except.ok.inj hlessGreater]
  case oracle =>
    rintro rfl
    cases hfits with
    | field hnumeric => cases hnumeric
    | ofKind hkind =>
      cases hkind with
      | text s =>
        obtain ⟨f, g, hf, hg, himplies⟩ := lessGreater_of_notEqual_oracle s
        obtain rfl := Except.ok.inj (hnotEqual.symm.trans hf)
        obtain rfl := Except.ok.inj (hlessGreater.symm.trans hg)
        exact himplies
  case casting =>
    rintro rfl
    cases hfits with
    | field hnumeric => cases hnumeric
    | ofKind hkind =>
      cases hkind with
      | manaPool pool =>
        obtain ⟨lessEqual, greater, hlessEqual, hgreater, hopposed⟩ :=
          (opposed_castableTest_unlimited pool).comap Card.cost
        exact ⟨lessEqual, lessEqual, greater, hstated (by decide) hlessEqual,
          hstated (by decide) hlessEqual, hstated (by decide) hgreater,
          fun card => ⟨hopposed card, rfl⟩⟩
  case names =>
    intro hfield
    obtain ⟨f, g, hf, hg, hcover⟩ := equal_or_notEqual_of_name hfits hfield
    obtain rfl := Except.ok.inj (hequal.symm.trans hf)
    obtain rfl := Except.ok.inj (hnotEqual.symm.trans hg)
    exact hcover

/-- What `cw=wu` denies, `cw!=wu` and `cw<>wu` ask for. -/
theorem equality_inequality_complement_casting :
    condition "cw" .equal "wu" = .ok ⟨.castable, .equal, false, .manaPool ["w", "u"]⟩ ∧
      ∃ equal notEqual lessGreater, stated "cw" .equal "wu" = .ok equal ∧
        stated "cw" .notEqual "wu" = .ok notEqual ∧
        stated "cw" .lessGreater "wu" = .ok lessGreater ∧
        ∀ card, (notEqual card = !equal card) ∧ lessGreater card = notEqual card := by
  have hleaf : condition "cw" .equal "wu" =
      .ok ⟨.castable, .equal, false, .manaPool ["w", "u"]⟩ :=
    condition_eq_ok_iff.mpr ⟨.castable, .manaPool ["w", "u"], by decide +kernel, by decide,
      by decide, by decide +kernel, rfl⟩
  obtain ⟨equal, notEqual, lessGreater, hequal, hnotEqual, hlessGreater, hopposed, hagree, _⟩ :=
    equality_inequality_complement hleaf
  exact ⟨hleaf, equal, notEqual, lessGreater, hequal, hnotEqual, hlessGreater,
    fun card => ⟨hopposed (by decide) card, hagree (by decide) card⟩⟩

end CardSearch.Query
