import CardSearch.Proofs.Query.Dependence

/-
  The fields that a query lists, and their order.

  The list of fields is what a user is shown of a query, so it matters that it names each field once
  and in the order in which the fields are met.

  1. **Order** — a tree is walked from left to right, and a condition shows its own field before the
     field that it is compared with.  A field stands where it is met first (`pairwise_eraseDups`).
  2. **Marks (`Node.Remarked`)** — negations and connectives are passed over.
  3. **The crux (`collect_eq_withNew`)** — the walk of a group goes on where the members before have
     ended.  So the statement is made for whatever was met before the tree, to which the walk adds the
     fields that are not listed yet.
  4. **The result (`fieldsUsed_exact`)** — said of every tree, also of one that no text is read as.
-/

namespace CardSearch.Query

/-! ## Conditions -/

/-- A condition shows its own field, and the one that it compares it with. -/
theorem mem_fieldsOf {leaf : Condition} {field : Field} :
    field ∈ Node.fieldsOf leaf ↔ leaf.field = field ∨ leaf.value = .field field := by
  obtain ⟨own, operator, negated, value⟩ := leaf
  cases value with
  | field other => simp [Node.fieldsOf, eq_comm]
  | _ => simp [Node.fieldsOf, eq_comm]

/-! ## Marks -/

mutual

/-- A tree with any of its negations flipped and any of its connectives changed. -/
inductive Node.Remarked : Node → Node → Prop where
  | condition {field : Field} {operator : Operator} {value : Value} (negated negated' : Bool) :
      Node.Remarked (.condition ⟨field, operator, negated, value⟩)
        (.condition ⟨field, operator, negated', value⟩)
  | group {first first' : Node} {rest rest' : List (Connective × Node)} (negated negated' : Bool)
      (head : first.Remarked first') (tail : Node.MembersRemarked rest rest') :
      Node.Remarked (.group negated first rest) (.group negated' first' rest')

/-- The further members of a group with other marks. -/
inductive Node.MembersRemarked :
    List (Connective × Node) → List (Connective × Node) → Prop where
  | nil : Node.MembersRemarked [] []
  | cons {node node' : Node} {rest rest' : List (Connective × Node)}
      (connective connective' : Connective) (head : node.Remarked node')
      (tail : Node.MembersRemarked rest rest') :
      Node.MembersRemarked ((connective, node) :: rest) ((connective', node') :: rest')

end

mutual

/-- **Marks are passed over** in walking a tree, whatever was met before it.  By induction on the
    marked tree, together with the further members of groups. -/
theorem Node.Remarked.collect_eq : ∀ {node other : Node}, node.Remarked other →
    ∀ met, other.collect met = node.collect met
  | _, _, .condition _ _, _ => rfl
  | _, _, .group _ _ head tail, met => by
    rw [Node.collect, Node.collect, head.collect_eq, tail.collectRest_eq]

/-- So they are in walking the further members of a group. -/
theorem Node.MembersRemarked.collectRest_eq : ∀ {members others : List (Connective × Node)},
    Node.MembersRemarked members others →
      ∀ met, Node.collectRest met others = Node.collectRest met members
  | _, _, .nil, _ => rfl
  | _, _, .cons _ _ head tail, met => by
    rw [Node.collectRest, Node.collectRest, head.collect_eq, tail.collectRest_eq]

end

mutual

/-- To flip or change nothing is allowed too.  By induction on the tree. -/
theorem Node.Remarked.refl : ∀ node : Node, node.Remarked node
  | .condition ⟨_, _, negated, _⟩ => .condition negated negated
  | .group negated first rest => .group negated negated (.refl first) (.refl rest)

theorem Node.MembersRemarked.refl : ∀ members : List (Connective × Node),
    Node.MembersRemarked members members
  | [] => .nil
  | (connective, node) :: rest => .cons connective connective (.refl node) (.refl rest)

end

/-- The opposite of a tree is the tree with its outermost negation flipped. -/
theorem Node.remarked_negate : ∀ node : Node, node.Remarked node.negate
  | .condition ⟨_, _, negated, _⟩ => .condition negated (!negated)
  | .group negated first rest => .group negated (!negated) (.refl first) (.refl rest)

/-! ## Groups -/

/-- **The crux**: a walk adds to what was met before it the fields that the tree alone lists.
    What was met only keeps fields from being listed once more. -/
theorem collect_eq_withNew (node : Node) (met : List Field) :
    node.collect met = withNew met node.fieldsUsed := by
  rw [collect_eq_foldl, foldl_push, fieldsUsed_eq_eraseDups]

/-- So does the walk of each further member of a group.  By induction on the members, for whatever
    was met. -/
theorem collectRest_eq_foldl_withNew (members : List (Connective × Node)) (met : List Field) :
    Node.collectRest met members =
      members.foldl (fun listed member => withNew listed member.2.fieldsUsed) met := by
  induction members generalizing met with
  | nil => rfl
  | cons member rest ih =>
    obtain ⟨connective, node⟩ := member
    rw [Node.collectRest, ih, collect_eq_withNew, List.foldl_cons]

/-- A joined tree lists the fields of its members, each after those before it. -/
theorem fieldsUsed_join (first : Node) (rest : List (Connective × Node)) :
    (Node.join first rest).fieldsUsed =
      rest.foldl (fun listed member => withNew listed member.2.fieldsUsed) first.fieldsUsed := by
  cases rest with
  | nil => rfl
  | cons member rest => exact collectRest_eq_foldl_withNew (member :: rest) first.fieldsUsed

/-! ## Trees -/

/-- **What a tree lists.**
    (1) No field is listed twice.
    (2) Listed are the fields that a condition tests or compares its own field with, and no others.
    (3) They stand in the order in which a walk of the conditions from left to right first meets
    them.
    (4) Flipping negations and changing connectives changes nothing.
    (5) Joined trees list the fields of the first, and then of each other those not yet listed. -/
theorem fieldsUsed_exact (node : Node) :
    node.fieldsUsed.Nodup ∧
    (∀ field, field ∈ node.fieldsUsed ↔
      ∃ leaf ∈ node.leaves, leaf.field = field ∨ leaf.value = .field field) ∧
    (node.fieldsUsed.Pairwise fun f g =>
      (node.leaves.flatMap Node.fieldsOf).idxOf f < (node.leaves.flatMap Node.fieldsOf).idxOf g) ∧
    (∀ other, node.Remarked other → other.fieldsUsed = node.fieldsUsed) ∧
    ∀ rest, (Node.join node rest).fieldsUsed =
      rest.foldl (fun listed member => withNew listed member.2.fieldsUsed) node.fieldsUsed := by
  refine ⟨?_, ?_, ?_, fun other hmarks => hmarks.collect_eq [], fieldsUsed_join node⟩
  · rw [fieldsUsed_eq_eraseDups]
    exact nodup_eraseDups _
  · intro field
    rw [mem_fieldsUsed]
    exact exists_congr fun leaf => and_congr_right fun _ => mem_fieldsOf
  · rw [fieldsUsed_eq_eraseDups]
    exact pairwise_eraseDups _

/-- A condition that compares two fields, behind a group that tests one of them: the group can be
    negated and its connective changed. -/
theorem fieldsUsed_exact_compared :
    let name := Node.bare "elf"
    let toughness := Node.condition ⟨.toughness, .equal, false, .halfInteger .zero⟩
    let compared := Node.condition ⟨.power, .greater, false, .field .toughness⟩
    let choice := Node.group false name [(.or, toughness)]
    let denied := Node.group true name.negate [(.implicit, toughness)]
    choice.Remarked denied ∧ denied.fieldsUsed = choice.fieldsUsed ∧
      (Node.join choice [(.and, compared)]).fieldsUsed = [.name, .toughness, .power] := by
  intro name toughness compared choice denied
  have hmarks : choice.Remarked denied :=
    .group _ _ (Node.remarked_negate name) (.cons _ _ (.refl toughness) .nil)
  obtain ⟨_, _, _, hsame, hjoin⟩ := fieldsUsed_exact choice
  refine ⟨hmarks, hsame denied hmarks, ?_⟩
  rw [hjoin]
  decide

end CardSearch.Query
