/-
  Numbers as cards and queries carry them: 64-bit binary floating point.

  Mana values, prices and ratings are binary floating-point numbers, and what a query answers
  depends on their exact values, so they are held in a form that can be reasoned about.  The
  representable magnitudes are numbered in ascending order: rank 0 is zero, rank 1 the smallest
  positive magnitude, and the last rank, `infinityRank`, is infinity.  A number is then `nan` or a
  sign with a rank.

  1. **Order** — comparing two numbers is comparing two integers: the rank, counted downwards for
     negative numbers (`key`).  Both zeros have key 0, and `nan` compares with nothing.
  2. **Value** — every finite magnitude is a whole multiple of the smallest one, 2⁻¹⁰⁷⁴; `units`
     counts how many.  Sums of powers of two never enter.
  3. **Rounding** — `rankOf n d` is the rank nearest to the fraction `n / d` of units, ties to the
     even rank.  Below 2⁵³ units the rank is the number of units itself; above, each doubling of
     the value adds 2⁵² ranks.
-/

namespace CardSearch

/-- The number of ranks within one doubling of the magnitude. -/
abbrev ranksPerDoubling : Nat := Nat.pow 2 52

/-- The rank after that of the greatest finite magnitude. -/
abbrev infinityRank : Nat := 2047 * ranksPerDoubling

/-- How many smallest magnitudes make one whole. -/
abbrev unitsPerWhole : Nat := Nat.pow 2 1074

/-- A 64-bit binary floating-point number. -/
inductive Number where
  | nan
  | signed (negative : Bool) (rank : Fin (infinityRank + 1))
  deriving DecidableEq, Repr

namespace Number

/-! ## The value of a rank -/

/-- The significand: below the first doubling the rank itself, above it the position within the
    doubling with the leading bit restored. -/
def significand (rank : Nat) : Nat :=
  if rank < ranksPerDoubling then rank else ranksPerDoubling + rank % ranksPerDoubling

/-- The magnitude of a rank in smallest magnitudes. -/
def units (rank : Nat) : Nat := significand rank * Nat.pow 2 (rank / ranksPerDoubling - 1)

/-! ## Rounding -/

/-- The whole number nearest to `n / d`, a tie going to the even one. -/
def roundDiv (n d : Nat) : Nat :=
  let whole := n / d
  let rest := n % d
  if 2 * rest < d || (2 * rest == d && whole % 2 == 0) then whole else whole + 1

/-- The rank nearest to `n / d` smallest magnitudes.  Beyond the finite ranks lies infinity. -/
def rankOf (n d : Nat) : Nat :=
  let doublings := (n / d).log2 - 52
  min infinityRank (doublings * ranksPerDoubling + roundDiv n (d * Nat.pow 2 doublings))

/-- The number with a sign and a rank; ranks beyond infinity are infinity. -/
def ofRank (negative : Bool) (rank : Nat) : Number :=
  .signed negative ⟨min rank infinityRank, by omega⟩

/-- The number nearest to `± n / d`. -/
def ofRatio (negative : Bool) (n d : Nat) : Number :=
  ofRank negative (rankOf (n * unitsPerWhole) d)

/-- The number nearest to a natural number. -/
def ofNat (n : Nat) : Number := ofRatio false n 1

/-- The number nearest to an integer. -/
def ofInt (n : Int) : Number := ofRatio (n < 0) n.natAbs 1

/-- Positive zero. -/
def zero : Number := ofRank false 0

/-- Infinity of either sign. -/
def infinity (negative : Bool) : Number := ofRank negative infinityRank

/-! ## Order -/

/-- The place of a signed rank on the integer line. -/
def key (negative : Bool) (rank : Nat) : Int := if negative then -rank else rank

/-- Numeric equality: the two zeros are equal, and `nan` equals nothing. -/
def equals : Number → Number → Bool
  | .signed a r, .signed b s => key a r == key b s
  | _, _ => false

/-- Numeric order; `nan` is below nothing. -/
def below : Number → Number → Bool
  | .signed a r, .signed b s => key a r < key b s
  | _, _ => false

/-- Below or equal. -/
def atMost (x y : Number) : Bool := x.below y || x.equals y

/-! ## Parts of a number -/

/-- Whether a number is neither infinite nor `nan`. -/
def isFinite : Number → Bool
  | .signed _ r => r.val < infinityRank
  | .nan => false

/-- A number without its fraction; the sign stays, also on zero. -/
def truncate : Number → Number
  | .signed negative r =>
    if r.val < infinityRank then ofRatio negative (units r.val / unitsPerWhole) 1
    else .signed negative r
  | .nan => .nan

/-- Whether a number is a multiple of one half whose double is representable. -/
def isHalfWhole : Number → Bool
  | .signed _ r =>
    r.val + ranksPerDoubling < infinityRank && units r.val * 2 % unitsPerWhole == 0
  | .nan => false

/-! ## Products and quotients of finite magnitudes -/

/-- The product of two magnitudes, rounded. -/
def mulRank (a b : Nat) : Nat := rankOf (units a * units b) unitsPerWhole

/-- The quotient of two magnitudes, rounded. -/
def divRank (a b : Nat) : Nat := rankOf (units a * unitsPerWhole) (units b)

/-! ## First facts -/

theorem equals_symm (x y : Number) : x.equals y = y.equals x := by
  cases x <;> cases y <;> simp [equals, Bool.beq_comm]

/-- No number equals what is no number, not even itself. -/
theorem nan_equals (x : Number) : Number.nan.equals x = false := by cases x <;> rfl

theorem equals_self_of_ne_nan {x : Number} (h : x ≠ .nan) : x.equals x = true := by
  cases x with
  | nan => exact absurd rfl h
  | signed => simp [equals]

/-- Rounding divides exactly where it can. -/
theorem roundDiv_of_dvd {n d : Nat} (hd : 0 < d) (h : n % d = 0) : roundDiv n d = n / d := by
  simp [roundDiv, h, hd]

/-- A rounded quotient is one of the two whole numbers around the exact one. -/
theorem roundDiv_bounds (n d : Nat) : n / d ≤ roundDiv n d ∧ roundDiv n d ≤ n / d + 1 := by
  unfold roundDiv
  dsimp only
  split <;> omega

end Number

end CardSearch
