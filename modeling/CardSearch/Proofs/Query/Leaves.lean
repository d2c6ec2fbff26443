import CardSearch.Proofs.Query.Combining

/-
  The test of a tree, said by its conditions.

  A tree need not come from a text here: its groups may mix connectives or have a single member, and
  its conditions may hold values and operators that no text gives to their fields.

  1. **Reference** — `Node.leaves` lists the conditions from left to right, and `Node.holds`
     evaluates a tree when it is known which of its conditions are true.
  2. **Conditions** — a condition alone is tried without its negation.  It has an error (`fault?`),
     or on every card a truth (`truth`).
  3. **The crux (`test?_eq_verdict`)** — the outcome of a tree is the first error among its
     conditions, or else the evaluation of the tree on each card.  The fold of a group starts at what
     was read before it, so the statement about its further members holds for every left side.
  4. **The result (`test?_decided_by_leaves`)** — so conditions decide whether a tree has a test, the
     error that it has instead, and the test.  Negating a tree changes no condition's error
     (`findSome?_leaves_negate`), and its test is turned around.
-/

namespace CardSearch.Query

/-! ## Reference -/

/-- The opposite of a truth value, if it is negated. -/
def flipIf (negated : Bool) (value : Bool) : Bool := if negated then !value else value

/-- Two truth values joined. -/
def Connective.join : Connective → Bool → Bool → Bool
  | .implicit, left, right | .and, left, right => left && right
  | .or, left, right => left || right

namespace Node

mutual

/-- The conditions of a tree from left to right. -/
def leaves : Node → List Condition
  | .condition leaf => [leaf]
  | .group _ first rest => first.leaves ++ leavesOf rest
  termination_by structural node => node

/-- The conditions of the further members of a group. -/
def leavesOf : List (Connective × Node) → List Condition
  | [] => []
  | (_, node) :: rest => node.leaves ++ leavesOf rest
  termination_by structural members => members

end

mutual

/-- Whether a tree holds, by the truth of its conditions without their negation. -/
def holds (truth : Condition → Bool) : Node → Bool
  | .condition leaf => flipIf leaf.negated (truth leaf)
  | .group negated first rest => flipIf negated (joinAll truth (first.holds truth) rest)
  termination_by structural node => node

/-- A truth value joined with the further members of a group, from the left. -/
def joinAll (truth : Condition → Bool) (left : Bool) : List (Connective × Node) → Bool
  | [] => left
  | (connective, node) :: rest => joinAll truth (connective.join left (node.holds truth)) rest
  termination_by structural members => members

end

end Node

/-! ## Conditions -/

namespace Condition

/-- A condition alone and without its negation, as a tree. -/
def alone (leaf : Condition) : Node := .condition { leaf with negated := false }

/-- The error of a condition, if it has no test. -/
def fault? (leaf : Condition) : Option Error :=
  match leaf.alone.test? with
  | .ok _ => none
  | .error e => some e

/-- Whether a condition is true of a card.  One without a test is true of none. -/
def truth (card : Card) (leaf : Condition) : Bool :=
  match leaf.alone.test? with
  | .ok test => test card
  | .error _ => false

theorem fault?_eq_none_iff {leaf : Condition} :
    leaf.fault? = none ↔ ∃ test, leaf.alone.test? = .ok test := by
  rw [fault?]
  cases leaf.alone.test? with
  | ok test => exact iff_of_true rfl ⟨test, rfl⟩
  | error e => exact iff_of_false (by simp) (by simp)

theorem fault?_eq_some_iff {leaf : Condition} {e : Error} :
    leaf.fault? = some e ↔ leaf.alone.test? = .error e := by
  rw [fault?]
  cases leaf.alone.test? with
  | ok test => exact iff_of_false (by simp) (by simp)
  | error other => simp

end Condition

/-! ## Trees -/

/-- A test, unless there is an error. -/
def verdict (fault : Option Error) (test : Test) : Except Error Test :=
  match fault with
  | none => .ok test
  | some e => .error e

theorem verdict_eq_ok_iff {fault : Option Error} {test result : Test} :
    verdict fault test = .ok result ↔ fault = none ∧ test = result := by
  cases fault with
  | none => simp [verdict]
  | some e => simp [verdict]

theorem verdict_eq_error_iff {fault : Option Error} {test : Test} {e : Error} :
    verdict fault test = .error e ↔ fault = some e := by
  cases fault with
  | none => simp [verdict]
  | some other => simp [verdict]

/-- Of two verdicts in a row, the first error counts; where there is none, the second test is
    made from the first. -/
theorem verdict_bind (first second : Option Error) (test : Test) (next : Test → Test) :
    (verdict first test >>= fun left => verdict second (next left)) =
      verdict (first.or second) (next test) := by
  cases first with
  | none => rfl
  | some e => rfl

/-- The test of a condition that stands alone is its test before any negation. -/
theorem test?_alone (leaf : Condition) :
    leaf.alone.test? = conditionTest leaf.field leaf.operator leaf.value := by
  show (conditionTest leaf.field leaf.operator leaf.value >>= fun test =>
    .ok (negateIf false test)) = _
  cases conditionTest leaf.field leaf.operator leaf.value with
  | error e => rfl
  | ok test => exact congrArg Except.ok (negateIf_false test)

theorem negateIf_apply (negated : Bool) (test : Test) (card : Card) :
    negateIf negated test card = flipIf negated (test card) := by
  cases negated <;> simp [negateIf, flipIf]

theorem Connective.apply_apply (connective : Connective) (left right : Test) (card : Card) :
    connective.apply left right card = connective.join (left card) (right card) := by
  cases connective <;> rfl

/-- A condition is tried as if it stood alone, and its negation applied to the answer, so the
    negation plays no part in its error. -/
theorem test?_condition (leaf : Condition) :
    (Node.condition leaf).test? =
      verdict leaf.fault? fun card => flipIf leaf.negated (Condition.truth card leaf) := by
  show (conditionTest leaf.field leaf.operator leaf.value >>= fun test =>
    .ok (negateIf leaf.negated test)) = _
  unfold Condition.fault? Condition.truth
  rw [← test?_alone leaf]
  cases leaf.alone.test? with
  | error e => rfl
  | ok test => exact congrArg Except.ok (funext fun card => negateIf_apply leaf.negated test card)

mutual

/-- **The outcome of a tree is the first error among its conditions, or else its evaluation.** By
    induction on the tree, together with the fold over the further members of a group. -/
theorem test?_eq_verdict : ∀ node : Node, node.test? =
    verdict (node.leaves.findSome? Condition.fault?) fun card => node.holds (Condition.truth card)
  | .condition leaf => by
    rw [test?_condition, Node.leaves, List.findSome?_singleton]
    rfl
  | .group negated first rest => by
    -- the further members, with the negation of the group, for every test of the first
    have hrest : ∀ left, (Node.foldTests left rest >>= fun test => .ok (negateIf negated test)) =
        verdict ((Node.leavesOf rest).findSome? Condition.fault?) fun card =>
          flipIf negated (Node.joinAll (Condition.truth card) (left card) rest) := by
      intro left
      rw [foldTests_eq_verdict]
      cases (Node.leavesOf rest).findSome? Condition.fault? with
      | some e => rfl
      | none => exact congrArg Except.ok (funext fun card => negateIf_apply negated _ card)
    calc (Node.group negated first rest).test?
      _ = (first.test? >>= fun left =>
            Node.foldTests left rest >>= fun test => .ok (negateIf negated test)) := rfl
      _ = (verdict (first.leaves.findSome? Condition.fault?)
              (fun card => first.holds (Condition.truth card)) >>= fun left =>
            verdict ((Node.leavesOf rest).findSome? Condition.fault?) fun card =>
              flipIf negated (Node.joinAll (Condition.truth card) (left card) rest)) := by
          rw [test?_eq_verdict first, funext hrest]
      _ = _ := by
          rw [verdict_bind, Node.leaves, List.findSome?_append]
          rfl

/-- So is the outcome of the further members of a group, joined to what was read before them, for
    whatever that was. -/
theorem foldTests_eq_verdict : ∀ (left : Test) (members : List (Connective × Node)),
    Node.foldTests left members =
      verdict ((Node.leavesOf members).findSome? Condition.fault?) fun card =>
        Node.joinAll (Condition.truth card) (left card) members
  | left, [] => rfl
  | left, (connective, node) :: rest => by
    have hjoin : ∀ right : Test, Node.foldTests (connective.apply left right) rest =
        verdict ((Node.leavesOf rest).findSome? Condition.fault?) fun card =>
          Node.joinAll (Condition.truth card) (connective.join (left card) (right card)) rest := by
      intro right
      simp only [foldTests_eq_verdict _ rest, Connective.apply_apply]
    rw [Node.foldTests, test?_eq_verdict node, funext hjoin, verdict_bind, Node.leavesOf,
      List.findSome?_append]
    rfl

end

mutual

/-- **The conditions of a well-formed tree are well-formed.** By induction on the tree. -/
theorem wellFormed_of_mem_leaves : ∀ {node : Node}, node.WellFormed →
    ∀ leaf ∈ node.leaves, leaf.WellFormed
  | .condition _, .condition stated => List.forall_mem_singleton.mpr stated
  | .group _ _ _, .group _ _ wellFirst wellRest => List.forall_mem_append.mpr
    ⟨wellFormed_of_mem_leaves wellFirst, wellFormed_of_mem_leavesOf wellRest⟩

/-- So are those of further members. -/
theorem wellFormed_of_mem_leavesOf : ∀ {members : List (Connective × Node)},
    (∀ member ∈ members, member.2.WellFormed) → ∀ leaf ∈ Node.leavesOf members, leaf.WellFormed
  | [], _ => fun _ hleaf => nomatch hleaf
  | _ :: _, h => List.forall_mem_append.mpr
    ⟨wellFormed_of_mem_leaves (List.forall_mem_cons.mp h).1,
      wellFormed_of_mem_leavesOf (List.forall_mem_cons.mp h).2⟩

end

/-- Negating a tree keeps the errors of its conditions, since it flips one mark. -/
theorem findSome?_leaves_negate (node : Node) :
    node.negate.leaves.findSome? Condition.fault? = node.leaves.findSome? Condition.fault? := by
  cases node with
  | condition leaf => rfl
  | group negated first rest => rfl

/-- **A tree is tested as its conditions are.**  It has a test if each of its conditions has one when
    it stands alone; otherwise its error is that of the first that has none, from left to right.  The
    test is the evaluation of the tree on each card, by which of its conditions are true of it.  Its
    opposite has the same error or the opposite test. -/
theorem test?_decided_by_leaves (node : Node) :
    ((∃ test, node.test? = .ok test) ↔
      ∀ leaf ∈ node.leaves, ∃ test, leaf.alone.test? = .ok test) ∧
    (∀ e, node.test? = .error e ↔
      ∃ before leaf after, node.leaves = before ++ leaf :: after ∧
        (∀ other ∈ before, ∃ test, other.alone.test? = .ok test) ∧
        leaf.alone.test? = .error e) ∧
    (∀ test, node.test? = .ok test → ∀ card, test card = node.holds (Condition.truth card)) ∧
    (∀ e, node.test? = .error e → node.negate.test? = .error e) ∧
    (∀ test, node.test? = .ok test →
      ∃ opposite, node.negate.test? = .ok opposite ∧ ∀ card, opposite card = !test card) := by
  refine ⟨?_, ?_, ?_, ?_, fun test htest => ⟨_, test?_negate htest, fun card => rfl⟩⟩
  · rw [test?_eq_verdict]
    simp only [verdict_eq_ok_iff, exists_and_left, exists_eq', and_true,
      List.findSome?_eq_none_iff, Condition.fault?_eq_none_iff]
  · intro e
    rw [test?_eq_verdict]
    simp only [verdict_eq_error_iff, List.findSome?_eq_some_iff, Condition.fault?_eq_some_iff,
      Condition.fault?_eq_none_iff]
    constructor
    · rintro ⟨before, leaf, after, hleaves, herror, hbefore⟩
      exact ⟨before, leaf, after, hleaves, hbefore, herror⟩
    · rintro ⟨before, leaf, after, hleaves, hbefore, herror⟩
      exact ⟨before, leaf, after, hleaves, herror, hbefore⟩
  · intro test htest card
    rw [test?_eq_verdict] at htest
    obtain ⟨_, rfl⟩ := verdict_eq_ok_iff.mp htest
    rfl
  · intro e herror
    -- the opposite has the same conditions, and so the same first error
    rw [test?_eq_verdict, verdict_eq_error_iff] at herror ⊢
    rw [findSome?_leaves_negate, herror]

/-- A negated group that mixes connectives and ends in a group of one member.  With a rarity that is a
    number and a name that is compared by order, the rarity decides the error; with a power and a name
    in their places, the group is read from the left. -/
theorem test?_decided_by_mixed_leaves :
    (Node.group true (.bare "elf") [(.or, .condition ⟨.rarity, .colon, true, .integer 3⟩),
        (.and, .group false (.condition ⟨.name, .less, false, .text "orc"⟩) [])]).negate.test? =
      .error (.unfitValue .rarity (.integer 3)) ∧
    ∃ test, (Node.group true (.bare "elf") [(.or, .condition ⟨.power, .less, true, .integer 3⟩),
        (.and, .group false (.bare "orc") [])]).test? = .ok test ∧
      ∀ card, test card = !((Condition.truth card ⟨.name, .colon, false, .text "elf"⟩ ||
        !Condition.truth card ⟨.power, .less, true, .integer 3⟩) &&
          Condition.truth card ⟨.name, .colon, false, .text "orc"⟩) := by
  constructor
  · obtain ⟨_, hfirst, _, hkept, _⟩ := test?_decided_by_leaves
      (.group true (.bare "elf") [(.or, .condition ⟨.rarity, .colon, true, .integer 3⟩),
        (.and, .group false (.condition ⟨.name, .less, false, .text "orc"⟩) [])])
    refine hkept _ ((hfirst _).mpr
      ⟨[⟨.name, .colon, false, .text "elf"⟩], _, [⟨.name, .less, false, .text "orc"⟩], rfl, ?_, rfl⟩)
    intro other hother
    obtain rfl := List.mem_singleton.mp hother
    exact ⟨_, rfl⟩
  · obtain ⟨hall, _, hreference, _⟩ := test?_decided_by_leaves
      (.group true (.bare "elf") [(.or, .condition ⟨.power, .less, true, .integer 3⟩),
        (.and, .group false (.bare "orc") [])])
    obtain ⟨test, htest⟩ := hall.mpr (by
      rintro leaf (_ | ⟨_, _ | ⟨_, _ | ⟨_, h⟩⟩⟩)
      · exact ⟨_, rfl⟩
      · exact ⟨_, rfl⟩
      · exact ⟨_, rfl⟩
      · cases h)
    exact ⟨test, htest, hreference test htest⟩

end CardSearch.Query
