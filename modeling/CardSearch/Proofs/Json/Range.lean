import CardSearch.Json.Read
import CardSearch.Proofs.Number.Finite

/-
  The numbers of a document that was read.

  1. **Quotients (`unitsPerWhole_le_units_powerRank`)** — a power of ten of the table is worth one
     whole or more, so dividing by it leads to no greater number.
  2. **Numerals (`inRange_of_numeral?`)** — so a numeral that has a value has one within range: a
     product beyond the finite numbers is refused.
  3. **The crux (`yields_readValue`)** — every value is made of numerals, and so are the items and the
     members in it.  The induction is that of the readers, on the text that is left.
-/

namespace CardSearch.Json

open Number

/-! ## Ranges -/

/-- A document whose whole numbers have 64 bits and whose other numbers are finite. -/
inductive InRange : Json → Prop where
  | null : InRange .null
  | bool (value : Bool) : InRange (.bool value)
  | whole {n : Int} (low : -(Nat.pow 2 63 : Int) ≤ n) (high : n < (coefficientBound : Int)) :
      InRange (.whole n)
  | real {x : Number} (finite : x.isFinite = true) : InRange (.real x)
  | text (value : String) : InRange (.text value)
  | list {items : List Json} (each : ∀ item ∈ items, InRange item) : InRange (.list items)
  | object {members : List (String × Json)} (each : ∀ member ∈ members, InRange member.2) :
      InRange (.object members)

/-! ## Numerals -/

/-- A coefficient fits 64 bits whatever is appended to it: a digit with which it would not fit is
    not taken.  The induction is that of the function. -/
theorem extend_lt {coefficient : Nat} (h : coefficient < coefficientBound) (text : List Char) :
    (extend coefficient text).1 < coefficientBound := by
  fun_induction extend coefficient text with
  | case1 => exact h
  | case2 coefficient c rest next hnext ih => exact ih hnext
  | case3 => exact h

/-- A coefficient of 64 bits is a finite number when it is rounded. -/
theorem rankOf_coefficient_lt {coefficient : Nat} (h : coefficient < coefficientBound) :
    rankOf (coefficient * unitsPerWhole) 1 < infinityRank := by
  have hbound : coefficientBound ≤ leastInfinite := by decide +kernel
  refine Nat.not_le.mp fun hinfinite => ?_
  rw [infinityRank_le_rankOf_iff (by decide), Nat.mul_one,
    Nat.mul_le_mul_right_iff unitsPerWhole_pos] at hinfinite
  omega

/-- **A power of ten of the table is worth one whole or more.** The powers are ascending, and the
    first of them is one. -/
theorem unitsPerWhole_le_units_powerRank {places : Nat} (h : places ≤ 308) :
    unitsPerWhole ≤ units (powerRank places) := by
  have hpos : 0 < Nat.pow 10 places := Nat.pow_pos (by decide)
  -- 308 is kept apart from its power, which would be computed
  obtain ⟨last, hlast, hfits⟩ : ∃ last, last = 308 ∧ (Nat.pow 10 last).log2 < 1024 :=
    ⟨308, rfl, by decide +kernel⟩
  have hlog : (Nat.pow 10 places).log2 < 1024 :=
    Nat.lt_of_le_of_lt
      (log2_mono (Nat.ne_of_gt hpos) (Nat.pow_le_pow_right (by decide) (hlast ▸ h))) hfits
  have hone : 1 ≤ nearest (Nat.pow 10 places) := by
    have hleast := nearest_mono (show 1 ≤ Nat.pow 10 places from hpos)
    rwa [nearest_of_lt (by decide)] at hleast
  rw [powerRank, units_rankOf_whole hlog]
  exact Nat.le_mul_of_pos_left _ hone

theorem divRank_lt {a b : Nat} (ha : a < infinityRank) (hb : unitsPerWhole ≤ units b) :
    divRank a b < infinityRank :=
  rankOf_lt_of_le (Nat.lt_of_lt_of_le unitsPerWhole_pos hb) ha (Nat.mul_le_mul_left _ hb)

/-- So scaling down keeps a number finite, also in the several divisions that a large power
    takes.  The induction is that of the function. -/
theorem scaleDown_lt {rank : Nat} (h : rank < infinityRank) (places : Nat) :
    scaleDown rank places < infinityRank := by
  fun_induction scaleDown rank places with
  | case1 rank places hplaces => exact divRank_lt h (unitsPerWhole_le_units_powerRank hplaces)
  | case2 => exact Nat.mul_pos (by decide) (two_pow_pos 52)
  | case3 rank places _ _ ih =>
    exact ih (divRank_lt h (unitsPerWhole_le_units_powerRank (Nat.le_refl _)))

/-- What is scaled is finite: scaling up is refused where it is not, and scaling down cannot lead
    there. -/
theorem lt_of_scaled? {coefficient rank : Nat} {exponent : Int}
    (hcoefficient : coefficient < coefficientBound) (h : scaled? coefficient exponent = some rank) :
    rank < infinityRank := by
  rw [scaled?] at h
  split at h
  · obtain rfl := Option.some.inj h
    exact scaleDown_lt (rankOf_coefficient_lt hcoefficient) _
  split at h
  · obtain rfl := Option.some.inj h
    exact Nat.mul_pos (by decide) (two_pow_pos 52)
  split at h
  · cases h
  dsimp only at h
  split at h
  · rename_i hfinite
    obtain rfl := Option.some.inj h
    exact hfinite
  · cases h

/-- **The value of a numeral is in range.** A numeral without fraction and exponent is a whole
    number if that has 64 bits; any other is a product or a quotient, which is finite. -/
theorem inRange_of_numeral? {negative : Bool} {whole : List Char} {fraction : Option (List Char)}
    {exponent : Option Int} {value : Json}
    (h : numeral? negative whole fraction exponent = some value) : value.InRange := by
  have hcoefficient := extend_lt (show 0 < coefficientBound from two_pow_pos 64) whole
  rw [numeral?] at h
  generalize extend 0 whole = extended at h hcoefficient
  obtain ⟨coefficient, dropped⟩ := extended
  have hbound : (coefficient : Int) < coefficientBound := Int.ofNat_lt.mpr hcoefficient
  dsimp only at h hcoefficient
  split at h
  · -- without fraction and exponent, and with all digits taken: a positive number, negative zero, a
    -- negative number that is too small for 64 bits, or one that is not
    split at h
    · obtain rfl := Option.some.inj h
      exact .whole (Int.le_trans (by decide) (Int.natCast_nonneg coefficient)) hbound
    split at h
    · obtain rfl := Option.some.inj h
      exact .real (isFinite_ofRank_iff.mpr (rankOf_coefficient_lt hcoefficient))
    · rename_i hsmall
      rw [Bool.not_eq_true, Bool.or_eq_false_iff, decide_eq_false_iff_not] at hsmall
      obtain rfl := Option.some.inj h
      refine .whole ?_ ?_
      · exact Int.neg_le_neg (Int.ofNat_le.mpr (Nat.not_lt.mp hsmall.2))
      · exact Int.lt_of_le_of_lt (Int.neg_nonpos_of_nonneg (Int.natCast_nonneg coefficient))
          (by decide)
  · obtain ⟨rank, hrank, rfl⟩ := Option.map_eq_some_iff.mp h
    exact .real (isFinite_ofRank_iff.mpr (lt_of_scaled? (extend_lt hcoefficient _) hrank))

/-! ## Readers -/

/-- A reader that takes only what has a property. -/
def Yields {α β : Type} (P : α → Prop) (result : Except Problem (α × β)) : Prop :=
  ∀ value rest, result = .ok (value, rest) → P value

/-- What is done with the rest does not matter. -/
theorem Yields.map {α β γ : Type} {P : α → Prop} {result : Except Problem (α × β)}
    (h : Yields P result) (f : β → γ) :
    Yields P (result.map fun (value, rest) => (value, f rest)) := by
  intro value rest heq
  cases result with
  | error e => cases heq
  | ok found =>
    obtain ⟨hvalue, -⟩ := Prod.mk.inj (Except.ok.inj heq)
    exact hvalue ▸ h found.1 found.2 rfl

/-- A numeral that is read has its value from its parts. -/
theorem yields_readNumeral (negative : Bool) (first : Char) (s : List Char) :
    Yields InRange (readNumeral negative first s) := by
  intro value rest h
  rw [readNumeral] at h
  split at h
  · cases h
  split at h
  · cases h
  split at h
  · cases h
  split at h
  · rename_i hvalue
    obtain ⟨rfl, -⟩ := Prod.mk.inj (Except.ok.inj h)
    exact inRange_of_numeral? hvalue
  · cases h

/-- And so has one behind a minus sign. -/
theorem yields_readNegative (s : List Char) : Yields InRange (readNegative s) := by
  cases s with
  | nil =>
    intro _ _ h
    cases h
  | cons c rest =>
    rw [readNegative]
    split
    · exact (yields_readNumeral true c rest).map _
    · intro _ _ h
      cases h

/-- A word yields its own value.  By induction on the word. -/
theorem yields_readWord {value : Json} (hvalue : value.InRange) :
    ∀ word s : List Char, Yields InRange (readWord value word s)
  | [], s => by
    intro found rest h
    rw [readWord] at h
    obtain ⟨rfl, -⟩ := Prod.mk.inj (Except.ok.inj h)
    exact hvalue
  | _ :: _, [] => fun _ _ h => nomatch h
  | w :: word, c :: rest => by
    intro found last h
    rw [readWord] at h
    split at h
    · split at h
      · cases h
      · rename_i hread
        obtain ⟨rfl, -⟩ := Prod.mk.inj (Except.ok.inj h)
        exact yields_readWord hvalue word rest _ _ hread
    · cases h

/-- A value that holds no other is a word, a text or a negative numeral. -/
theorem yields_readScalar (c : Char) (s : List Char) : Yields InRange (readScalar c s) := by
  unfold readScalar
  split
  · exact yields_readWord .null _ s
  · exact yields_readWord (.bool true) _ s
  · exact yields_readWord (.bool false) _ s
  · intro value rest h
    cases hstring : readString [] s with
    | error e =>
      rw [hstring] at h
      cases h
    | ok found =>
      rw [hstring] at h
      obtain ⟨rfl, -⟩ := Prod.mk.inj (Except.ok.inj h)
      exact .text _
  · exact yields_readNegative s
  · exact fun _ _ h => nomatch h

mutual

/-- **Every value is in range.** By induction on the text that is left, together with the items
    of lists and the members of objects: each reader calls the others on less text. -/
theorem yields_readValue (depth : Nat) (s : List Char) : Yields InRange (readValue depth s) := by
  intro value rest h
  rw [readValue.eq_def] at h
  split at h
  · cases h
  -- the first character that is no blank decides: a list, an object, a numeral, or another value
  rename_i c r hs
  have hr := length_lt_of_skipSpace hs
  dsimp only at h
  split at h
  · split at h
    · cases h
    split at h
    · cases h
    · rename_i hitems
      obtain ⟨rfl, -⟩ := Prod.mk.inj (Except.ok.inj h)
      exact .list (yields_readItems _ r _ _ hitems)
  split at h
  · split at h
    · cases h
    split at h
    · cases h
    · rename_i hmembers
      obtain ⟨rfl, -⟩ := Prod.mk.inj (Except.ok.inj h)
      exact .object (yields_readMembers _ r _ _ hmembers)
  split at h
  · split at h
    · cases h
    · rename_i hnumeral
      obtain ⟨rfl, -⟩ := Prod.mk.inj (Except.ok.inj h)
      exact yields_readNumeral false c r _ _ hnumeral
  · split at h
    · cases h
    · rename_i hscalar
      obtain ⟨rfl, -⟩ := Prod.mk.inj (Except.ok.inj h)
      exact yields_readScalar c r _ _ hscalar
  termination_by (s.length, 0)

/-- The items of a list are in range, if there are any. -/
theorem yields_readItems (depth : Nat) (s : List Char) :
    Yields (fun items => ∀ item ∈ items, InRange item) (readItems depth s) := by
  intro items rest h
  rw [readItems.eq_def] at h
  split at h
  · cases h
  dsimp only at h
  split at h
  · obtain ⟨rfl, -⟩ := Prod.mk.inj (Except.ok.inj h)
    exact fun item hitem => absurd hitem List.not_mem_nil
  · exact yields_readItemsFrom depth s items rest h
  termination_by (s.length, 2)

/-- Each item is a value, and what follows its comma are items again. -/
theorem yields_readItemsFrom (depth : Nat) (s : List Char) :
    Yields (fun items => ∀ item ∈ items, InRange item) (readItemsFrom depth s) := by
  intro items rest h
  rw [readItemsFrom.eq_def] at h
  split at h
  · cases h
  rename_i value after hafter hvalue
  have hfirst := yields_readValue depth s _ _ hvalue
  split at h
  · cases h
  rename_i c more hmore
  have hless := length_lt_of_skipSpace hmore
  dsimp only at h
  split at h
  · obtain ⟨rfl, -⟩ := Prod.mk.inj (Except.ok.inj h)
    exact List.forall_mem_singleton.mpr hfirst
  split at h
  · split at h
    · cases h
    · rename_i hlater
      obtain ⟨rfl, -⟩ := Prod.mk.inj (Except.ok.inj h)
      exact List.forall_mem_cons.mpr ⟨hfirst, yields_readItemsFrom depth more _ _ hlater⟩
  · cases h
  termination_by (s.length, 1)

/-- The members of an object are in range, if there are any. -/
theorem yields_readMembers (depth : Nat) (s : List Char) :
    Yields (fun members => ∀ member ∈ members, InRange member.2) (readMembers depth s) := by
  intro members rest h
  rw [readMembers.eq_def] at h
  split at h
  · cases h
  dsimp only at h
  split at h
  · obtain ⟨rfl, -⟩ := Prod.mk.inj (Except.ok.inj h)
    exact fun member hmember => absurd hmember List.not_mem_nil
  · exact yields_readMembersFrom depth s members rest h
  termination_by (s.length, 2)

/-- Each member has a value behind its key, and what follows its comma are members again. -/
theorem yields_readMembersFrom (depth : Nat) (s : List Char) :
    Yields (fun members => ∀ member ∈ members, InRange member.2) (readMembersFrom depth s) := by
  intro members rest h
  rw [readMembersFrom.eq_def] at h
  split at h
  · cases h
  rename_i key after hafter _
  split at h
  · cases h
  rename_i value next hnext hvalue
  have hfirst := yields_readValue depth after _ _ hvalue
  split at h
  · cases h
  rename_i c more hmore
  have hless := length_lt_of_skipSpace hmore
  dsimp only at h
  split at h
  · obtain ⟨rfl, -⟩ := Prod.mk.inj (Except.ok.inj h)
    exact List.forall_mem_singleton.mpr hfirst
  split at h
  · split at h
    · cases h
    · rename_i hlater
      obtain ⟨rfl, -⟩ := Prod.mk.inj (Except.ok.inj h)
      exact List.forall_mem_cons.mpr ⟨hfirst, yields_readMembersFrom depth more _ _ hlater⟩
  · cases h
  termination_by (s.length, 1)

end

/-- **A text that is one document has its numbers in range.** This holds of all that a catalog is
    read from, so its records need no check of their own. -/
theorem inRange_of_read {s : List Char} {value : Json} (h : read s = .ok value) :
    value.InRange := by
  rw [read] at h
  split at h
  · cases h
  rename_i found rest hread
  split at h
  · cases h
  · obtain rfl := Except.ok.inj h
    exact yields_readValue _ _ _ _ hread

end CardSearch.Json
