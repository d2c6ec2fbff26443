import CardSearch.Number.Basic
import Mathlib.Order.Monotone.Basic
import Mathlib.Tactic.Ring

/-
  Whole numbers as floating-point numbers.

  A number has a significand of 53 bits, so a whole number of more bits is rounded to a multiple of a
  power of two, its grid.

  1. **Ties (`le_roundDiv_iff`)** — a quotient is rounded up to a number or beyond exactly from the
     half before it on, and from the half itself if the number is even.
  2. **Ranks (`units_strictMono`)** — a rank is higher exactly if it is worth more.
  3. **The crux (`units_rankOf_whole`)** — the rank of a whole number is worth the nearest number on
     its grid.  So comparing the ranks is comparing those numbers (`equals_ofInt`, `below_ofInt`).
  4. **Exactness (`nearestInt_ne`)** — that is comparing the whole numbers themselves, unless two of
     them go to one number; below 2⁵³ none do.
-/

namespace CardSearch.Number

/-! ## Rounded quotients -/

/-- **A rounded quotient reaches a number from the half before it on**; at the half itself only
    an even number.  This one condition says all of the rounding, and the later proofs rest on it
    alone. -/
theorem le_roundDiv_iff {n d k : Nat} (hd : 0 < d) (hk : 0 < k) :
    k ≤ roundDiv n d ↔ (2 * k - 1) * d < 2 * n ∨ (2 * k - 1) * d = 2 * n ∧ k % 2 = 0 := by
  obtain ⟨j, rfl⟩ : ∃ j, k = j + 1 := ⟨k - 1, by omega⟩
  have hodd : 2 * (j + 1) - 1 = 2 * j + 1 := by omega
  have hsplit : d * (n / d) + n % d = n := Nat.div_add_mod n d
  have hrest : n % d < d := Nat.mod_lt n hd
  rw [hodd, roundDiv]
  generalize n / d = whole at *
  generalize n % d = rest at *
  have hhalf : (2 * j + 1) * d = 2 * (d * j) + d := by ring
  rw [hhalf]
  -- the number is at most the whole part, one more than it, or greater still; only in the second
  -- case does the remainder decide
  rcases Nat.lt_trichotomy j whole with hbelow | rfl | habove
  · have hstep : d * j + d ≤ d * whole := Nat.mul_le_mul_left d (show j + 1 ≤ whole from hbelow)
    split <;> omega
  · split
    · rename_i h
      rw [Bool.or_eq_true, Bool.and_eq_true, decide_eq_true_iff, beq_iff_eq, beq_iff_eq] at h
      omega
    · rename_i h
      rw [Bool.not_eq_true, Bool.or_eq_false_iff, Bool.and_eq_false_iff, decide_eq_false_iff_not,
        beq_eq_false_iff_ne, beq_eq_false_iff_ne] at h
      omega
  · have hstep : d * whole + d ≤ d * j := Nat.mul_le_mul_left d (show whole + 1 ≤ j from habove)
    split <;> omega

/-- Rounding keeps the order, since the condition is easier for a greater number. -/
theorem roundDiv_mono {a b d : Nat} (hd : 0 < d) (h : a ≤ b) : roundDiv a d ≤ roundDiv b d := by
  rcases Nat.eq_zero_or_pos (roundDiv a d) with hzero | hpos
  · omega
  · have hreached := (le_roundDiv_iff hd hpos).mp (Nat.le_refl _)
    exact (le_roundDiv_iff hd hpos).mpr (by omega)

/-- Both numbers of a quotient may be multiplied, for the remainder is multiplied with them. -/
theorem roundDiv_mul_right (n d : Nat) {c : Nat} (hc : 0 < c) :
    roundDiv (n * c) (d * c) = roundDiv n d := by
  have hless : 2 * (n % d * c) < d * c ↔ 2 * (n % d) < d := by
    rw [← Nat.mul_assoc, Nat.mul_lt_mul_right hc]
  have hequal : 2 * (n % d * c) = d * c ↔ 2 * (n % d) = d := by
    rw [← Nat.mul_assoc, Nat.mul_left_inj (Nat.ne_of_gt hc)]
  have hbeq : (2 * (n % d * c) == d * c) = (2 * (n % d) == d) :=
    Bool.eq_iff_iff.mpr (by rw [beq_iff_eq, beq_iff_eq, hequal])
  simp only [roundDiv, Nat.mul_div_mul_right n d hc, Nat.mul_mod_mul_right, hless, hbeq]

theorem roundDiv_one (n : Nat) : roundDiv n 1 = n :=
  (roundDiv_of_dvd (by decide) (Nat.mod_one n)).trans (Nat.div_one n)

theorem two_pow_pos (k : Nat) : 0 < Nat.pow 2 k := Nat.two_pow_pos k

/-! ## Ranks and what they are worth -/

/-- The first ranks, before any doubling, are worth themselves. -/
theorem units_of_lt {rank : Nat} (h : rank < ranksPerDoubling) : units rank = rank := by
  rw [units, significand, if_pos h, Nat.div_eq_of_lt h]
  exact Nat.mul_one rank

/-- The rank at a place of a doubling is worth the significand of the place, doubled as often. -/
theorem units_at {doubling place : Nat} (h : place < ranksPerDoubling) :
    units ((doubling + 1) * ranksPerDoubling + place) =
      (ranksPerDoubling + place) * Nat.pow 2 doubling := by
  have hpos : 0 < ranksPerDoubling := Nat.two_pow_pos 52
  have hdoubling : ((doubling + 1) * ranksPerDoubling + place) / ranksPerDoubling = doubling + 1 := by
    rw [Nat.add_comm, Nat.add_mul_div_right _ _ hpos, Nat.div_eq_of_lt h, Nat.zero_add]
  have hplace : ((doubling + 1) * ranksPerDoubling + place) % ranksPerDoubling = place := by
    rw [Nat.add_comm, Nat.add_mul_mod_self_right, Nat.mod_eq_of_lt h]
  have hnormal : ¬ (doubling + 1) * ranksPerDoubling + place < ranksPerDoubling := by
    rw [Nat.succ_mul]
    omega
  rw [units, significand, if_neg hnormal, hdoubling, hplace, Nat.add_sub_cancel]

/-- **A significand of 53 bits is worth itself, doubled**; also where it has just reached 54, and
    is the first of the next doubling. -/
theorem units_of_significand {doublings s : Nat} (hlow : ranksPerDoubling ≤ s)
    (hhigh : s ≤ 2 * ranksPerDoubling) :
    units (doublings * ranksPerDoubling + s) = s * Nat.pow 2 doublings := by
  rcases Nat.lt_or_eq_of_le hhigh with hless | rfl
  · obtain ⟨place, rfl⟩ := Nat.exists_eq_add_of_le hlow
    have hrank : doublings * ranksPerDoubling + (ranksPerDoubling + place) =
        (doublings + 1) * ranksPerDoubling + place := by ring
    rw [hrank, units_at (by omega)]
  · have hrank : doublings * ranksPerDoubling + 2 * ranksPerDoubling =
        (doublings + 1 + 1) * ranksPerDoubling + 0 := by ring
    rw [hrank, units_at (Nat.two_pow_pos 52)]
    show (ranksPerDoubling + 0) * 2 ^ (doublings + 1) = 2 * ranksPerDoubling * 2 ^ doublings
    ring

/-- **A higher rank is worth more.** It is enough to look at one rank and the next, which is in
    the same doubling or the first of the next one. -/
theorem units_strictMono : StrictMono units := by
  refine strictMono_nat_of_lt_succ fun rank => ?_
  have hpos : 0 < ranksPerDoubling := Nat.two_pow_pos 52
  rcases Nat.lt_or_ge rank ranksPerDoubling with hsmall | hlarge
  · rw [units_of_lt hsmall]
    rcases Nat.lt_or_eq_of_le (show rank + 1 ≤ ranksPerDoubling from hsmall) with hless | hequal
    · rw [units_of_lt hless]
      exact Nat.lt_succ_self rank
    · have hunits : units (0 * ranksPerDoubling + ranksPerDoubling) =
          ranksPerDoubling * Nat.pow 2 0 :=
        units_of_significand (Nat.le_refl ranksPerDoubling) (by omega)
      rw [Nat.zero_mul, Nat.zero_add, show Nat.pow 2 0 = 1 from rfl, Nat.mul_one] at hunits
      rw [hequal, hunits]
      exact hsmall
  · -- in the doublings: the next place, or the start of the next doubling
    have hsplit := Nat.div_add_mod rank ranksPerDoubling
    have hplace : rank % ranksPerDoubling < ranksPerDoubling := Nat.mod_lt rank hpos
    obtain ⟨doublings, hdoublings⟩ : ∃ doublings, rank / ranksPerDoubling = doublings + 1 :=
      ⟨rank / ranksPerDoubling - 1, by have := Nat.div_pos hlarge hpos; omega⟩
    rw [hdoublings, Nat.mul_succ, Nat.mul_comm] at hsplit
    generalize rank % ranksPerDoubling = place at hsplit hplace
    have hrank : rank = doublings * ranksPerDoubling + (ranksPerDoubling + place) := by omega
    have hnext : rank + 1 = doublings * ranksPerDoubling + (ranksPerDoubling + place + 1) := by omega
    rw [hnext, hrank, units_of_significand (by omega) (by omega),
      units_of_significand (by omega) (by omega)]
    exact Nat.mul_lt_mul_of_pos_right (Nat.lt_succ_self _) (Nat.two_pow_pos doublings)

/-! ## Whole numbers on their grid -/

/-- The distance of the 53-bit significands around a whole number. -/
def grid (n : Nat) : Nat := Nat.pow 2 (n.log2 - 52)

/-- The nearest whole number with a significand of 53 bits, of two the one with the even
    significand. -/
def nearest (n : Nat) : Nat := roundDiv n (grid n) * grid n

theorem grid_pos (n : Nat) : 0 < grid n := Nat.two_pow_pos _

/-- A number below a power of two has its own power below that. -/
theorem log2_lt_of_lt {n k : Nat} (hk : 0 < k) (h : n < Nat.pow 2 k) : n.log2 < k := by
  by_cases hn : n = 0
  · subst hn
    exact hk
  · exact (Nat.log2_lt hn).mpr h

/-- Below 2⁵³ the grid is one, as all bits are in the significand. -/
theorem grid_of_lt {n : Nat} (h : n < Nat.pow 2 53) : grid n = 1 := by
  have hlog : n.log2 < 53 := log2_lt_of_lt (by decide) h
  rw [grid, Nat.sub_eq_zero_of_le (by omega)]

/-- **Below 2⁵³ a whole number is its own nearest.** -/
theorem nearest_of_lt {n : Nat} (h : n < Nat.pow 2 53) : nearest n = n := by
  rw [nearest, grid_of_lt h, roundDiv_one, Nat.mul_one]

/-- Where a quotient has 53 bits or more, its significand has 53 bits, or has just reached 54 by
    being rounded up. -/
theorem quotient_bounds {n d : Nat} (h : 52 ≤ (n / d).log2) :
    ranksPerDoubling ≤ roundDiv n (d * Nat.pow 2 ((n / d).log2 - 52)) ∧
      roundDiv n (d * Nat.pow 2 ((n / d).log2 - 52)) ≤ 2 * ranksPerDoubling := by
  have hne : n / d ≠ 0 := by
    intro hzero
    rw [hzero] at h
    exact absurd h (by decide)
  obtain ⟨more, hmore⟩ := Nat.exists_eq_add_of_le h
  have hlow : 2 ^ (52 + more) ≤ n / d := hmore ▸ Nat.log2_self_le hne
  have hhigh : n / d < 2 ^ (52 + more + 1) := hmore ▸ Nat.lt_log2_self
  rw [hmore, Nat.add_sub_cancel_left]
  have hbounds := roundDiv_bounds n (d * Nat.pow 2 more)
  have hfloor : 2 ^ 52 ≤ n / (d * Nat.pow 2 more) := by
    rw [← Nat.div_div_eq_div_mul]
    refine (Nat.le_div_iff_mul_le (two_pow_pos more)).mpr ?_
    exact (pow_add 2 52 more).symm.trans_le hlow
  have hceil : n / (d * Nat.pow 2 more) < 2 ^ 53 := by
    rw [← Nat.div_div_eq_div_mul]
    refine (Nat.div_lt_iff_lt_mul (two_pow_pos more)).mpr ?_
    exact hhigh.trans_eq ((congrArg (2 ^ ·) (by omega)).trans (pow_add 2 53 more))
  exact ⟨Nat.le_trans hfloor hbounds.1, Nat.le_trans hbounds.2 hceil⟩

/-- From 2⁵² on the significand of a whole number has 53 bits, or has just reached 54. -/
theorem significand_bounds {n : Nat} (h : 52 ≤ n.log2) :
    ranksPerDoubling ≤ roundDiv n (grid n) ∧ roundDiv n (grid n) ≤ 2 * ranksPerDoubling := by
  have hbounds := quotient_bounds (n := n) (d := 1) (by rwa [Nat.div_one])
  rwa [Nat.div_one, Nat.one_mul] at hbounds

/-- From 2⁵² on, the nearest number lies in the doubling of the number, its ends included. -/
theorem nearest_bounds {n : Nat} (h : 52 ≤ n.log2) :
    2 ^ n.log2 ≤ nearest n ∧ nearest n ≤ 2 ^ (n.log2 + 1) := by
  obtain ⟨hlow, hhigh⟩ := significand_bounds h
  have hgrid : 2 ^ n.log2 = ranksPerDoubling * grid n := by
    show 2 ^ n.log2 = 2 ^ 52 * 2 ^ (n.log2 - 52)
    rw [← pow_add]
    exact congrArg _ (by omega)
  rw [pow_succ, hgrid]
  refine ⟨Nat.mul_le_mul_right _ hlow, ?_⟩
  calc nearest n ≤ 2 * ranksPerDoubling * grid n := Nat.mul_le_mul_right _ hhigh
    _ = ranksPerDoubling * grid n * 2 := by ring

theorem log2_of_le {n : Nat} (h : Nat.pow 2 53 ≤ n) : 53 ≤ n.log2 :=
  (Nat.le_log2 (Nat.ne_of_gt (Nat.lt_of_lt_of_le (Nat.two_pow_pos 53) h))).mpr h

theorem log2_mono {a b : Nat} (ha : a ≠ 0) (h : a ≤ b) : a.log2 ≤ b.log2 :=
  (Nat.le_log2 (by omega)).mpr (Nat.le_trans (Nat.log2_self_le ha) h)

theorem le_nearest {n : Nat} (h : Nat.pow 2 53 ≤ n) : Nat.pow 2 53 ≤ nearest n := by
  have hlog := log2_of_le h
  exact Nat.le_trans (Nat.pow_le_pow_right (by decide) hlog) (nearest_bounds (by omega)).1

/-- **The nearest numbers are in the order of the numbers.** In one doubling the grid is the
    same, and between two of them stands a power of two, which is on both grids. -/
theorem nearest_mono {a b : Nat} (h : a ≤ b) : nearest a ≤ nearest b := by
  rcases Nat.lt_or_ge a (Nat.pow 2 53) with ha | ha
  · rw [nearest_of_lt ha]
    rcases Nat.lt_or_ge b (Nat.pow 2 53) with hb | hb
    · rwa [nearest_of_lt hb]
    · exact Nat.le_trans (Nat.le_of_lt ha) (le_nearest hb)
  have halog := log2_of_le ha
  have hblog := log2_of_le (Nat.le_trans ha h)
  have hane : a ≠ 0 := Nat.ne_of_gt (Nat.lt_of_lt_of_le (two_pow_pos 53) ha)
  have hlog : a.log2 ≤ b.log2 := log2_mono hane h
  rcases Nat.lt_or_eq_of_le hlog with hless | hequal
  · -- the common end of their doublings lies between
    calc nearest a ≤ 2 ^ (a.log2 + 1) := (nearest_bounds (by omega)).2
      _ ≤ 2 ^ b.log2 := Nat.pow_le_pow_right (by decide) hless
      _ ≤ nearest b := (nearest_bounds (by omega)).1
  · have hgrid : grid a = grid b := by rw [grid, grid, hequal]
    rw [nearest, nearest, hgrid]
    exact Nat.mul_le_mul_right _ (roundDiv_mono (grid_pos b) h)

/-! ## The rank of a whole number -/

/-- Doubling adds bits. -/
theorem log2_mul_two_pow {n : Nat} (hn : n ≠ 0) (k : Nat) :
    (n * Nat.pow 2 k).log2 = n.log2 + k := by
  have hne : n * 2 ^ k ≠ 0 := Nat.mul_ne_zero hn (Nat.ne_of_gt (Nat.two_pow_pos k))
  refine (Nat.log2_eq_iff hne).mpr ?_
  rw [pow_add, Nat.add_right_comm, pow_add]
  exact ⟨Nat.mul_le_mul_right _ (Nat.log2_self_le hn),
    Nat.mul_lt_mul_of_pos_right Nat.lt_log2_self (Nat.two_pow_pos k)⟩

theorem two_pow_mul_two_pow {j k n : Nat} (h : j + k = n) :
    Nat.pow 2 j * Nat.pow 2 k = Nat.pow 2 n := by
  rw [← h]
  exact (Nat.pow_add 2 j k).symm

/-- The exponent is kept apart from the power, which would be computed. -/
theorem exists_unitsPerWhole_eq : ∃ k, k = 1074 ∧ unitsPerWhole = Nat.pow 2 k := by
  refine ⟨1074, rfl, ?_⟩
  delta unitsPerWhole
  exact Eq.refl _

theorem unitsPerWhole_pos : 0 < unitsPerWhole := by
  obtain ⟨k, -, hunits⟩ := exists_unitsPerWhole_eq
  rw [hunits]
  exact two_pow_pos k

theorem log2_units {n : Nat} (hn : n ≠ 0) : (n * unitsPerWhole).log2 = n.log2 + 1074 := by
  obtain ⟨k, hk, hunits⟩ := exists_unitsPerWhole_eq
  rw [hunits, log2_mul_two_pow hn, hk]

/-- The significand of a whole number and how often it is doubled, in smallest magnitudes. -/
theorem exists_significand {n : Nat} (hn : n ≠ 0) {doublings : Nat}
    (hdoublings : doublings = n.log2 + 1074 - 52) :
    ∃ s, ranksPerDoubling ≤ s ∧ s ≤ 2 * ranksPerDoubling ∧
      roundDiv (n * unitsPerWhole) (1 * Nat.pow 2 doublings) = s ∧
      s * Nat.pow 2 doublings = nearest n * unitsPerWhole := by
  rcases Nat.lt_or_ge n.log2 52 with hsmall | hlarge
  · -- the number is doubled up to a significand of 53 bits
    have hlow : Nat.pow 2 n.log2 ≤ n := Nat.log2_self_le hn
    have hhigh : n < Nat.pow 2 (n.log2 + 1) := Nat.lt_log2_self
    have hlt : n < Nat.pow 2 53 :=
      Nat.lt_of_lt_of_le hhigh (Nat.pow_le_pow_right (by decide) (by omega))
    have hscale : Nat.pow 2 (52 - n.log2) * Nat.pow 2 doublings = unitsPerWhole := by
      obtain ⟨k, hk, hunits⟩ := exists_unitsPerWhole_eq
      rw [hunits]
      exact two_pow_mul_two_pow (by omega)
    have hexact : n * unitsPerWhole = n * Nat.pow 2 (52 - n.log2) * Nat.pow 2 doublings := by
      rw [Nat.mul_assoc, hscale]
    refine ⟨n * Nat.pow 2 (52 - n.log2), ?_, ?_, ?_, ?_⟩
    · calc ranksPerDoubling
        _ = Nat.pow 2 n.log2 * Nat.pow 2 (52 - n.log2) := (two_pow_mul_two_pow (by omega)).symm
        _ ≤ n * Nat.pow 2 (52 - n.log2) := Nat.mul_le_mul_right _ hlow
    · calc n * Nat.pow 2 (52 - n.log2)
        _ ≤ Nat.pow 2 (n.log2 + 1) * Nat.pow 2 (52 - n.log2) :=
            Nat.mul_le_mul_right _ (Nat.le_of_lt hhigh)
        _ = Nat.pow 2 53 := two_pow_mul_two_pow (by omega)
        _ = 2 * ranksPerDoubling := rfl
    · rw [hexact, roundDiv_mul_right _ _ (two_pow_pos doublings), roundDiv_one]
    · rw [nearest_of_lt hlt, hexact]
  · -- the number is rounded to its grid
    obtain ⟨hlow, hhigh⟩ := significand_bounds hlarge
    have hgrid : Nat.pow 2 doublings = grid n * unitsPerWhole := by
      obtain ⟨k, hk, hunits⟩ := exists_unitsPerWhole_eq
      rw [hunits]
      exact (two_pow_mul_two_pow (by omega)).symm
    refine ⟨roundDiv n (grid n), hlow, hhigh, ?_, ?_⟩
    · rw [Nat.one_mul, hgrid, roundDiv_mul_right _ _ unitsPerWhole_pos]
    · rw [hgrid, nearest, Nat.mul_assoc]

/-- **The crux**: the rank of a whole number is worth the nearest number on its grid.  The
    quotient is doubled far enough to have 53 bits in units, where rounding it is rounding the
    number to its grid. -/
theorem units_rankOf_whole {n : Nat} (h : n.log2 < 1024) :
    units (rankOf (n * unitsPerWhole) 1) = nearest n * unitsPerWhole := by
  by_cases hn : n = 0
  · have hzero : rankOf (0 * unitsPerWhole) 1 = 0 := by
      rw [Nat.zero_mul]
      decide
    rw [hn, hzero, nearest_of_lt (Nat.two_pow_pos 53), Nat.zero_mul]
    exact units_of_lt (Nat.two_pow_pos 52)
  have hlog : (n * unitsPerWhole / 1).log2 - 52 = n.log2 + 1074 - 52 := by
    rw [Nat.div_one, log2_units hn]
  obtain ⟨s, hlow, hhigh, hround, hvalue⟩ := exists_significand hn hlog
  -- the rank is below infinity, so it is not cut there
  have hfinite : ((n * unitsPerWhole / 1).log2 - 52) * ranksPerDoubling + s ≤ infinityRank := by
    have hdoublings : (n * unitsPerWhole / 1).log2 - 52 ≤ 2045 := by omega
    calc ((n * unitsPerWhole / 1).log2 - 52) * ranksPerDoubling + s
      _ ≤ 2045 * ranksPerDoubling + 2 * ranksPerDoubling :=
          Nat.add_le_add (Nat.mul_le_mul_right _ hdoublings) hhigh
      _ = infinityRank := (Nat.add_mul 2045 2 ranksPerDoubling).symm
  have hrank : rankOf (n * unitsPerWhole) 1 =
      ((n * unitsPerWhole / 1).log2 - 52) * ranksPerDoubling + s := by
    rw [rankOf, hround]
    exact Nat.min_eq_right hfinite
  rw [hrank, units_of_significand hlow hhigh, hvalue]

/-! ## Integers -/

/-- The nearest integer with a significand of 53 bits. -/
def nearestInt (n : Int) : Int := key (n < 0) (nearest n.natAbs)

/-- Places on the integer line are in the order of what the ranks are worth.  By cases on the
    signs; of two negative numbers the higher rank is the lower one. -/
theorem key_lt_iff {f : Nat → Nat} (hf : StrictMono f) (hzero : f 0 = 0) (s t : Bool) (a b : Nat) :
    key s (f a) < key t (f b) ↔ key s a < key t b := by
  have hless : f a < f b ↔ a < b := hf.lt_iff_lt
  have hgreater : f b < f a ↔ b < a := hf.lt_iff_lt
  have hleft : f a = 0 ↔ a = 0 := hf.injective.eq_iff' hzero
  have hright : f b = 0 ↔ b = 0 := hf.injective.eq_iff' hzero
  cases s <;> cases t <;> simp only [key, Bool.false_eq_true, if_true, if_false] <;> omega

/-- An integer is the number of its sign and of the rank of its magnitude. -/
theorem ofInt_eq (n : Int) :
    ofInt n = .signed (n < 0) ⟨rankOf (n.natAbs * unitsPerWhole) 1,
      Nat.lt_succ_of_le (Nat.min_le_left _ _)⟩ := by
  have hmin : min (rankOf (n.natAbs * unitsPerWhole) 1) infinityRank =
      rankOf (n.natAbs * unitsPerWhole) 1 := Nat.min_eq_left (Nat.min_le_left _ _)
  rw [ofInt, ofRatio, ofRank]
  exact congrArg _ (Fin.ext hmin)

section

variable {a b : Int} (ha : a.natAbs.log2 < 1024) (hb : b.natAbs.log2 < 1024)
include ha hb

/-- **The ranks of integers stand in the order of the nearest integers**, for what a rank is
    worth grows with it. -/
theorem key_rankOf_lt_iff :
    key (a < 0) (rankOf (a.natAbs * unitsPerWhole) 1) <
        key (b < 0) (rankOf (b.natAbs * unitsPerWhole) 1) ↔ nearestInt a < nearestInt b := by
  have hwhole : StrictMono fun n => n * unitsPerWhole :=
    fun _ _ h => Nat.mul_lt_mul_of_pos_right h unitsPerWhole_pos
  rw [← key_lt_iff units_strictMono (units_of_lt (two_pow_pos 52)), units_rankOf_whole ha,
    units_rankOf_whole hb]
  exact key_lt_iff hwhole (Nat.zero_mul _) _ _ _ _

/-- One integer is below another as a number when its nearest one is. -/
theorem below_ofInt : (ofInt a).below (ofInt b) = decide (nearestInt a < nearestInt b) := by
  rw [ofInt_eq, ofInt_eq, below]
  exact decide_eq_decide.mpr (key_rankOf_lt_iff ha hb)

/-- And they are equal as numbers when the nearest ones are the same. -/
theorem equals_ofInt : (ofInt a).equals (ofInt b) = (nearestInt a == nearestInt b) := by
  have hless := key_rankOf_lt_iff ha hb
  have hgreater := key_rankOf_lt_iff hb ha
  have hsame : key (a < 0) (rankOf (a.natAbs * unitsPerWhole) 1) =
      key (b < 0) (rankOf (b.natAbs * unitsPerWhole) 1) ↔ nearestInt a = nearestInt b := by omega
  rw [ofInt_eq, ofInt_eq, equals, Bool.eq_iff_iff, beq_iff_eq, beq_iff_eq]
  exact hsame

end

/-! ## Exactness -/

/-- The nearest integers are in the order of the integers, on both sides of zero. -/
theorem nearestInt_mono {a b : Int} (h : a ≤ b) : nearestInt a ≤ nearestInt b := by
  have hless : a.natAbs ≤ b.natAbs → nearest a.natAbs ≤ nearest b.natAbs := nearest_mono
  have hgreater : b.natAbs ≤ a.natAbs → nearest b.natAbs ≤ nearest a.natAbs := nearest_mono
  rw [nearestInt, nearestInt, key, key]
  split <;> split <;> simp only [decide_eq_true_eq] at * <;> omega

theorem nearestInt_of_lt {n : Int} (h : n.natAbs < Nat.pow 2 53) : nearestInt n = n := by
  rw [nearestInt, nearest_of_lt h, key]
  split <;> simp only [decide_eq_true_eq] at * <;> omega

/-- **Below 2⁵³ an integer goes to itself, and no other integer goes there.** One that is greater
    goes to 2⁵³ or beyond. -/
theorem nearestInt_ne {a b : Int} (ha : a.natAbs < Nat.pow 2 53) (hne : a ≠ b) :
    nearestInt a ≠ nearestInt b := by
  rw [nearestInt_of_lt ha]
  rcases Nat.lt_or_ge b.natAbs (Nat.pow 2 53) with hb | hb
  · rwa [nearestInt_of_lt hb]
  · have hfar : Nat.pow 2 53 ≤ nearest b.natAbs := le_nearest hb
    rw [nearestInt, key]
    split <;> omega

end CardSearch.Number
