import CardSearch.Number.Read
import CardSearch.Proofs.Number.Digits
import CardSearch.Proofs.Number.Rounding

/-
  Which numbers are finite.

  1. **The crux (`infinityRank_le_rankOf_iff`)** — a quotient is rounded to infinity exactly from half
     a step above the greatest finite number on.
  2. **Decimals (`isFinite_ofDecimal_iff`)** — so a decimal is finite unless it is that large, also
     where its size is told by its exponent alone.
  3. **Texts (`forall_isFinite_read?_iff`)** — a text gives no number or a finite one unless it is one
     of three words or such a decimal.
-/

namespace CardSearch.Number

/-! ## Quotients -/

/-- The least whole number that is rounded to infinity: half a step above the greatest finite one. -/
def leastInfinite : Nat := (Nat.pow 2 54 - 1) * Nat.pow 2 970

/-- The least number of units that is rounded to infinity.  The exponent is kept apart from its
    power, so that it is not computed. -/
theorem exists_leastInfinite_eq :
    ∃ k, k = 2044 ∧ leastInfinite * unitsPerWhole = (Nat.pow 2 54 - 1) * Nat.pow 2 k := by
  obtain ⟨i, hi, hleast⟩ : ∃ i, i = 970 ∧ leastInfinite = (Nat.pow 2 54 - 1) * Nat.pow 2 i := by
    refine ⟨970, rfl, ?_⟩
    delta leastInfinite
    exact Eq.refl _
  obtain ⟨j, hj, hunits⟩ := exists_unitsPerWhole_eq
  refine ⟨i + j, by omega, ?_⟩
  rw [hleast, hunits, Nat.mul_assoc, two_pow_mul_two_pow rfl]

/-- A number is below the powers of two that are above its own. -/
theorem lt_two_pow_of_log2 {n k : Nat} (h : n.log2 < k) : n < Nat.pow 2 k :=
  Nat.lt_of_lt_of_le Nat.lt_log2_self (Nat.pow_le_pow_right (by decide) h)

/-- Below a power of two there is room before the half step, for a significand of 53 bits leaves
    one bit to it. -/
theorem lt_of_div_lt {n d k : Nat} (hd : 0 < d) (h : n / d < Nat.pow 2 (k + 53)) :
    n < (Nat.pow 2 54 - 1) * Nat.pow 2 k * d := by
  have hscale : Nat.pow 2 (k + 53) ≤ (Nat.pow 2 54 - 1) * Nat.pow 2 k := by
    rw [← two_pow_mul_two_pow (Nat.add_comm 53 k)]
    exact Nat.mul_le_mul_right _ (by decide)
  exact (Nat.div_lt_iff_lt_mul hd).mp (Nat.lt_of_lt_of_le h hscale)

theorem le_of_le_div {n d k : Nat} (hd : 0 < d) (h : Nat.pow 2 (k + 54) ≤ n / d) :
    (Nat.pow 2 54 - 1) * Nat.pow 2 k * d ≤ n := by
  have hscale : (Nat.pow 2 54 - 1) * Nat.pow 2 k ≤ Nat.pow 2 (k + 54) := by
    rw [← two_pow_mul_two_pow (Nat.add_comm 54 k)]
    exact Nat.mul_le_mul_right _ (by decide)
  exact (Nat.le_div_iff_mul_le hd).mp (Nat.le_trans hscale h)

/-- The greatest place of a doubling is passed from the half step before it on.  The place behind
    it is even, so the half step itself is rounded up. -/
theorem two_mul_le_roundDiv_iff {n d k : Nat} (hd : 0 < d) :
    2 * ranksPerDoubling ≤ roundDiv n (d * Nat.pow 2 (k + 1)) ↔
      (Nat.pow 2 54 - 1) * Nat.pow 2 k * d ≤ n := by
  have hhalf : (2 * (2 * ranksPerDoubling) - 1) * (d * Nat.pow 2 (k + 1)) =
      2 * ((Nat.pow 2 54 - 1) * Nat.pow 2 k * d) := by
    show (Nat.pow 2 54 - 1) * (d * 2 ^ (k + 1)) = 2 * ((Nat.pow 2 54 - 1) * 2 ^ k * d)
    rw [pow_succ]
    ring
  have hstep : 0 < ranksPerDoubling := two_pow_pos 52
  have heven : 2 * ranksPerDoubling % 2 = 0 := Nat.mul_mod_right 2 _
  rw [le_roundDiv_iff (Nat.mul_pos hd (two_pow_pos (k + 1))) (by omega), hhalf]
  omega

/-- **A quotient is rounded to infinity exactly if it reaches the half step above the greatest
    finite number.** By cases on the doubling of the quotient: in all but the last one the rank
    is far from the bound on either side. -/
theorem infinityRank_le_rankOf_iff {n d : Nat} (hd : 0 < d) :
    infinityRank ≤ rankOf n d ↔ leastInfinite * unitsPerWhole * d ≤ n := by
  obtain ⟨k, hk, hleast⟩ := exists_leastInfinite_eq
  rw [hleast, rankOf, Nat.le_min, and_iff_right (Nat.le_refl _)]
  have hlast : infinityRank = (k + 3) * ranksPerDoubling := by rw [hk]
  have hstep : 0 < ranksPerDoubling := two_pow_pos 52
  rcases Nat.lt_or_ge (n / d).log2 52 with hsmall | hlarge
  · -- the quotient is its own rank, or one less
    have hless : n / d < ranksPerDoubling := lt_two_pow_of_log2 hsmall
    have hbounds := roundDiv_bounds n d
    have hvalue := lt_of_div_lt (k := k) hd
      (Nat.lt_of_lt_of_le hless (Nat.pow_le_pow_right (by decide) (by omega)))
    rw [Nat.sub_eq_zero_of_le (Nat.le_of_lt hsmall), Nat.zero_mul, Nat.zero_add]
    have hmany : 2 * ranksPerDoubling ≤ (k + 3) * ranksPerDoubling :=
      Nat.mul_le_mul_right _ (by omega)
    refine iff_of_false ?_ (Nat.not_le.mpr hvalue)
    show ¬ _ ≤ roundDiv n (d * 1)
    rw [hlast, Nat.mul_one]
    omega
  obtain ⟨hlow, hhigh⟩ := quotient_bounds hlarge
  obtain ⟨doublings, hdoublings⟩ := Nat.exists_eq_add_of_le hlarge
  rw [hdoublings, Nat.add_sub_cancel_left] at hlow hhigh ⊢
  rcases Nat.lt_trichotomy doublings (k + 1) with hbelow | rfl | habove
  · have hvalue : n / d < Nat.pow 2 (k + 53) := lt_two_pow_of_log2 (by omega)
    refine iff_of_false ?_ (Nat.not_le.mpr (lt_of_div_lt hd hvalue))
    have hmul := Nat.mul_le_mul_right ranksPerDoubling (Nat.le_of_lt_succ hbelow)
    rw [hlast, Nat.add_mul]
    omega
  · -- in the last doubling only the upper end is infinite, which is reached from the half step on
    have hrank : infinityRank ≤ (k + 1) * ranksPerDoubling +
        roundDiv n (d * Nat.pow 2 (k + 1)) ↔
          2 * ranksPerDoubling ≤ roundDiv n (d * Nat.pow 2 (k + 1)) := by
      rw [hlast, Nat.add_mul, Nat.add_mul]
      omega
    rw [hrank, two_mul_le_roundDiv_iff hd]
  · have hne : n / d ≠ 0 := by
      intro hzero
      rw [hzero, Nat.log2_zero] at hdoublings
      omega
    have hvalue : Nat.pow 2 (k + 54) ≤ n / d :=
      Nat.le_trans (Nat.pow_le_pow_right (by decide) (by omega)) (Nat.log2_self_le hne)
    refine iff_of_true ?_ (le_of_le_div hd hvalue)
    rw [hlast, Nat.succ_mul]
    exact Nat.add_le_add (Nat.mul_le_mul_right _ habove) hlow

/-! ## Finite ranks -/

/-- A number is finite when its rank is below that of infinity, whatever its sign. -/
theorem isFinite_ofRank_iff {negative : Bool} {rank : Nat} :
    (ofRank negative rank).isFinite = true ↔ rank < infinityRank := by
  show decide (min rank infinityRank < infinityRank) = true ↔ _
  rw [decide_eq_true_iff, min_lt_iff, or_iff_left (Nat.lt_irrefl _)]

/-- A finite rank is worth less than the half step, for the greatest of them is the greatest
    finite number. -/
theorem units_lt_of_lt {rank : Nat} (h : rank < infinityRank) :
    units rank < leastInfinite * unitsPerWhole := by
  obtain ⟨k, hk, hleast⟩ := exists_leastInfinite_eq
  have hlast : infinityRank - 1 = (k + 1) * ranksPerDoubling + (2 * ranksPerDoubling - 1) := by
    rw [hk]
    rfl
  calc units rank
    _ ≤ units (infinityRank - 1) := units_strictMono.monotone (Nat.le_sub_one_of_lt h)
    _ = (2 * ranksPerDoubling - 1) * Nat.pow 2 (k + 1) := by
        rw [hlast, units_of_significand (by decide) (by decide)]
    _ = (Nat.pow 2 54 - 2) * Nat.pow 2 k := by
        show (2 * ranksPerDoubling - 1) * 2 ^ (k + 1) = (Nat.pow 2 54 - 2) * 2 ^ k
        rw [pow_succ', ← Nat.mul_assoc]
        rfl
    _ < leastInfinite * unitsPerWhole := by
        rw [hleast]
        exact Nat.mul_lt_mul_of_pos_right (by decide) (two_pow_pos k)

/-- **What is no greater than a finite number is rounded to one.** Rounding keeps the order, and
    the bound is where it turns. -/
theorem rankOf_lt_of_le {n d rank : Nat} (hd : 0 < d) (hrank : rank < infinityRank)
    (h : n ≤ units rank * d) : rankOf n d < infinityRank := by
  refine Nat.not_le.mp fun hinfinite => ?_
  have hleast := (infinityRank_le_rankOf_iff hd).mp hinfinite
  have hless := Nat.mul_lt_mul_of_pos_right (units_lt_of_lt hrank) hd
  omega

/-- A ratio is finite when it is below the least whole number that is not. -/
theorem isFinite_ofRatio_iff {negative : Bool} {n d : Nat} (hd : 0 < d) :
    (ofRatio negative n d).isFinite = true ↔ n < leastInfinite * d := by
  have hscale : leastInfinite * unitsPerWhole * d = leastInfinite * d * unitsPerWhole :=
    Nat.mul_right_comm _ _ _
  rw [ofRatio, isFinite_ofRank_iff, ← Nat.not_le, infinityRank_le_rankOf_iff hd, hscale,
    Nat.mul_le_mul_right_iff unitsPerWhole_pos, Nat.not_le]

/-- A number and its whole part are finite alike: the part is no greater, and infinity is its
    own. -/
theorem isFinite_truncate (x : Number) : x.truncate.isFinite = x.isFinite := by
  cases x with
  | nan => rfl
  | signed negative rank =>
    rw [truncate]
    split
    · rename_i hrank
      have hwhole : units rank.val / unitsPerWhole * unitsPerWhole ≤ units rank.val * 1 := by
        rw [Nat.mul_one]
        exact Nat.div_mul_le_self _ _
      rw [ofRatio, isFinite_ofRank_iff.mpr (rankOf_lt_of_le (by decide) hrank hwhole)]
      exact (decide_eq_true hrank).symm
    · rfl

/-! ## Decimals -/

theorem lt_pow_length_digits (n : Nat) : n < 10 ^ (digits n).length :=
  (Nat.length_toDigits_le_iff (by decide) (List.length_pos_iff.mpr (digits_ne_nil n))).mp
    (Nat.le_refl _)

/-- And it reaches the one before, as its first digit is not zero. -/
theorem pow_length_digits_le {n : Nat} (hn : n ≠ 0) : 10 ^ ((digits n).length - 1) ≤ n := by
  rcases Nat.eq_zero_or_pos ((digits n).length - 1) with hone | hmore
  · rw [hone]
    exact Nat.pos_of_ne_zero hn
  · refine Nat.not_lt.mp fun hless => ?_
    have hshort := (Nat.length_toDigits_le_iff (by decide) hmore).mpr hless
    have hlength : (digits n).length ≤ (digits n).length - 1 := hshort
    omega

/-- A decimal that is too large for a finite number. -/
def Decimal.Overflows (d : Decimal) : Prop :=
  leastInfinite * 10 ^ (-d.exponent).toNat ≤ d.coefficient * 10 ^ d.exponent.toNat

theorem leastInfinite_pos : 0 < leastInfinite := by decide +kernel

theorem leastInfinite_le : leastInfinite ≤ 10 ^ 400 := by decide +kernel

/-- **A decimal is read as a finite number unless it is too large.** The reader computes no power
    where the digits already tell; there the decimal is far above the bound, or far below it. -/
theorem isFinite_ofDecimal_iff {negative : Bool} {d : Decimal} :
    (ofDecimal negative d).isFinite = true ↔ ¬ d.Overflows := by
  rw [Decimal.Overflows, Nat.not_le, ofDecimal]
  have hzero : (ofRank negative 0).isFinite = true := isFinite_ofRank_iff.mpr (by decide)
  have hpow : ∀ k, 0 < 10 ^ k := fun k => Nat.pow_pos (by decide)
  have hten : ∀ k, Nat.pow 10 k = 10 ^ k := fun _ => rfl
  by_cases hcoefficient : d.coefficient = 0
  · rw [if_pos (by simpa using hcoefficient), hcoefficient, Nat.zero_mul]
    exact iff_of_true hzero (Nat.mul_pos leastInfinite_pos (hpow _))
  have hlow := pow_length_digits_le hcoefficient
  have hhigh := lt_pow_length_digits d.coefficient
  have hlength := List.length_pos_iff.mpr (digits_ne_nil d.coefficient)
  rw [if_neg (by simpa using hcoefficient)]
  split
  · -- 10⁴⁰⁰ or more
    refine iff_of_false (by cases negative <;> decide) (Nat.not_lt.mpr ?_)
    calc leastInfinite * 10 ^ (-d.exponent).toNat
      _ ≤ 10 ^ 400 * 10 ^ (-d.exponent).toNat := Nat.mul_le_mul_right _ leastInfinite_le
      _ ≤ 10 ^ ((digits d.coefficient).length - 1) * 10 ^ d.exponent.toNat := by
          rw [← pow_add, ← pow_add]
          exact Nat.pow_le_pow_right (by decide) (by omega)
      _ ≤ d.coefficient * 10 ^ d.exponent.toNat := Nat.mul_le_mul_right _ hlow
  split
  · -- below 10⁻⁴⁰⁰
    refine iff_of_true hzero ?_
    calc d.coefficient * 10 ^ d.exponent.toNat
      _ < 10 ^ (digits d.coefficient).length * 10 ^ d.exponent.toNat :=
          Nat.mul_lt_mul_of_pos_right hhigh (hpow _)
      _ ≤ 10 ^ (-d.exponent).toNat := by
          rw [← pow_add]
          exact Nat.pow_le_pow_right (by decide) (by omega)
      _ ≤ leastInfinite * 10 ^ (-d.exponent).toNat := Nat.le_mul_of_pos_left _ leastInfinite_pos
  split
  · have hnone : (-d.exponent).toNat = 0 := by omega
    rw [hnone, pow_zero, hten, isFinite_ofRatio_iff (by decide)]
  · have hnone : d.exponent.toNat = 0 := by omega
    rw [hnone, pow_zero, Nat.mul_one, hten, isFinite_ofRatio_iff (hpow _)]

/-! ## Texts -/

/-- A written number without its sign. -/
def unsigned : List Char → List Char
  | '-' :: rest => rest
  | '+' :: rest => rest
  | text => text

/-- The words that are read as numbers, in lower case. -/
def words : List (List Char) :=
  [['i', 'n', 'f'], ['i', 'n', 'f', 'i', 'n', 'i', 't', 'y'], ['n', 'a', 'n']]

/-- A text that is read as a number and is not a real one: a word, or a decimal that is too large. -/
def SpellsUnreal (text : List Char) : Prop :=
  (unsigned text).map Char.toLower ∈ words ∨
    ∃ d, decimal? (unsigned text) = some d ∧ d.Overflows

/-- A text without a sign is left as it is. -/
theorem unsigned_of_no_sign {text : List Char} (hminus : ∀ rest, text ≠ '-' :: rest)
    (hplus : ∀ rest, text ≠ '+' :: rest) : unsigned text = text := by
  unfold unsigned
  split
  · exact absurd rfl (hminus _)
  · exact absurd rfl (hplus _)
  · rfl

/-- A text is read as its magnitude with a sign. -/
theorem exists_read?_eq (text : List Char) :
    ∃ negative, read? text = magnitude? negative (unsigned text) := by
  unfold read?
  split
  · exact ⟨true, rfl⟩
  · exact ⟨false, rfl⟩
  · rename_i hminus hplus
    exact ⟨false, congrArg _ (unsigned_of_no_sign hminus hplus).symm⟩

/-- **A text gives a finite number or none, unless it spells no real one.** By cases on what its
    magnitude is: a word, which is never finite, or a decimal. -/
theorem forall_isFinite_read?_iff (text : List Char) :
    (∀ x, read? text = some x → x.isFinite = true) ↔ ¬ SpellsUnreal text := by
  obtain ⟨negative, hread⟩ := exists_read?_eq text
  rw [hread, SpellsUnreal, words, magnitude?]
  generalize unsigned text = body
  split
  · rename_i hword
    rw [Bool.or_eq_true, beq_iff_eq, beq_iff_eq] at hword
    refine iff_of_false (fun hall => ?_) (not_not.mpr (Or.inl ?_))
    · exact absurd (hall _ rfl) (by cases negative <;> decide)
    · rcases hword with hword | hword <;> simp [hword]
  split
  · rename_i hword
    refine iff_of_false (fun hall => absurd (hall _ rfl) (by decide)) (not_not.mpr (Or.inl ?_))
    simp [beq_iff_eq.mp hword]
  · rename_i hinfinite hnan
    rw [Bool.or_eq_true, beq_iff_eq, beq_iff_eq, not_or] at hinfinite
    rw [beq_iff_eq] at hnan
    -- no word: what is left is a decimal, or no number at all
    have hword : body.map Char.toLower ∉
        [['i', 'n', 'f'], ['i', 'n', 'f', 'i', 'n', 'i', 't', 'y'], ['n', 'a', 'n']] := by
      simp [hinfinite, hnan]
    rw [or_iff_right hword]
    cases decimal? body with
    | none => simp
    | some d => simp [isFinite_ofDecimal_iff]

end CardSearch.Number
