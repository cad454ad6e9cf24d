import Mathlib.Algebra.Order.Field.Power
import Mathlib.Algebra.Order.Ring.Rat
import Mathlib.Tactic.FieldSimp
import Mathlib.Tactic.GCongr
import Mathlib.Tactic.Linarith
import Mathlib.Tactic.NormNum
import Mathlib.Tactic.Positivity
import Mathlib.Tactic.Ring
import ManuscriptReach.Proofs.Json.Numeral

/-!
# Decimals that round to doubles

A decimal rounds to a double when it lies between the midpoints to the two neighbours.  Sizes are
rational numbers here, and a midpoint is a whole number of quarters of the last place, so the
midpoints of two doubles compare as natural numbers once the places are brought together.

No decimal rounds to two doubles: two intervals share at most a midpoint, and then one of the two
significands is odd, which excludes the midpoint (`Binary.Rounds.unique`).  Seventeen digits are
always enough: the grid of seventeen digit decimals is finer than the doubles, so that of the two
neighbours on it the nearer one rounds (`Binary.rounds_shortest`).
-/

namespace ManuscriptReach

/-- The number that a decimal stands for. -/
def ScaledDecimal.value (d : ScaledDecimal) : ℚ := d.digits * 10 ^ d.exponent

theorem two_zpow_pos (q : Int) : (0 : ℚ) < 2 ^ q := zpow_pos two_pos q

theorem ten_zpow_pos (e : Int) : (0 : ℚ) < 10 ^ e := zpow_pos (by norm_num) e

/-- A power with the negative part of its exponent brought to the other side. -/
theorem zpow_mul_pow_toNat {a : ℚ} (h : a ≠ 0) (e : Int) :
    a ^ e * a ^ (-e).toNat = a ^ e.toNat := by
  rw [← zpow_natCast, ← zpow_natCast, ← zpow_add₀ h]
  congr 1
  omega

/-! ## Exact comparison -/

section Comparison

variable (c : Nat) (e : Int) (m : Nat) (q : Int)

/-- Both sides of a comparison become whole numbers when multiplied by the same power of ten and
of two. -/
theorem cast_compared :
    ((c * tenTo e.toNat * twoTo (-q).toNat : Nat) : ℚ) =
        c * 10 ^ e * (10 ^ (-e).toNat * 2 ^ (-q).toNat) ∧
      ((m * twoTo q.toNat * tenTo (-e).toNat : Nat) : ℚ) =
        m * 2 ^ q * (10 ^ (-e).toNat * 2 ^ (-q).toNat) := by
  have ten : (10 : ℚ) ^ e * 10 ^ (-e).toNat = 10 ^ e.toNat := zpow_mul_pow_toNat (by norm_num) e
  have two : (2 : ℚ) ^ q * 2 ^ (-q).toNat = 2 ^ q.toNat := zpow_mul_pow_toNat two_ne_zero q
  simp only [tenTo, twoTo, Nat.pow_eq, Nat.cast_mul, Nat.cast_pow, Nat.cast_ofNat]
  rw [← ten, ← two]
  constructor <;> ring

theorem compareDecimalBinary_eq_compare :
    compareDecimalBinary c e m q = compare ((c : ℚ) * 10 ^ e) (m * 2 ^ q) := by
  obtain ⟨decimal, binary⟩ := cast_compared c e m q
  have pos : (0 : ℚ) < 10 ^ (-e).toNat * 2 ^ (-q).toNat := by positivity
  rw [compareDecimalBinary]
  rcases lt_trichotomy ((c : ℚ) * 10 ^ e) (m * 2 ^ q) with h | h | h
  · rw [compare_lt_iff_lt.2 h, compare_lt_iff_lt, ← Nat.cast_lt (α := ℚ), decimal, binary]
    exact mul_lt_mul_of_pos_right h pos
  · rw [compare_eq_iff_eq.2 h, compare_eq_iff_eq, ← Nat.cast_inj (R := ℚ), decimal, binary, h]
  · rw [compare_gt_iff_gt.2 h, compare_gt_iff_gt, ← Nat.cast_lt (α := ℚ), decimal,
      binary]
    exact mul_lt_mul_of_pos_right h pos

end Comparison

namespace Binary

/-- The size of a double. -/
def value (b : Binary) : ℚ := b.significand * 2 ^ b.exponent

/-- The parts are those of a double.  The significand takes all of its places unless the exponent
is the least. -/
structure IsDouble (b : Binary) : Prop where
  significand_lt : b.significand < 2 ^ 53
  exponent_ge : -1074 ≤ b.exponent
  places : b.exponent = -1074 ∨ 2 ^ 52 ≤ b.significand
  atPowerOfTwo : b.atPowerOfTwo = true ↔ b.significand = 2 ^ 52 ∧ -1074 < b.exponent

/-! ## The interval of a double -/

/-- The midpoint to the neighbour below, in quarters of the last place. -/
def lowQuarters (b : Binary) : Nat := 4 * b.significand - if b.atPowerOfTwo then 1 else 2

/-- The midpoint to the neighbour above, in quarters of the last place. -/
def highQuarters (b : Binary) : Nat := 4 * b.significand + 2

/-- A quarter of the last place. -/
def quarter (b : Binary) : ℚ := 2 ^ (b.exponent - 2)

theorem quarter_pos (b : Binary) : 0 < b.quarter := two_zpow_pos _

theorem value_eq_quarters (b : Binary) : b.value = 4 * b.significand * b.quarter := by
  rw [value, quarter, zpow_sub₀ two_ne_zero]
  norm_num
  ring

/-- A number rounds to a double: it lies between the midpoints, and is one of them only when the
significand is even. -/
structure Rounds (b : Binary) (x : ℚ) : Prop where
  low_le : b.lowQuarters * b.quarter ≤ x
  le_high : x ≤ b.highQuarters * b.quarter
  even_of_low : x = b.lowQuarters * b.quarter → b.significand % 2 = 0
  even_of_high : x = b.highQuarters * b.quarter → b.significand % 2 = 0

theorem isRoundedFrom_iff {b : Binary} {d : ScaledDecimal} :
    b.isRoundedFrom d = true ↔ b.Rounds d.value := by
  have low := compareDecimalBinary_eq_compare d.digits d.exponent b.lowQuarters (b.exponent - 2)
  have high := compareDecimalBinary_eq_compare d.digits d.exponent b.highQuarters (b.exponent - 2)
  have unfolded : b.isRoundedFrom d = true ↔
      (compare d.value (b.lowQuarters * b.quarter) = .gt ∨
        b.significand % 2 = 0 ∧ compare d.value (b.lowQuarters * b.quarter) = .eq) ∧
      (compare d.value (b.highQuarters * b.quarter) = .lt ∨
        b.significand % 2 = 0 ∧ compare d.value (b.highQuarters * b.quarter) = .eq) := by
    rw [← ScaledDecimal.value, ← quarter] at low high
    rw [← low, ← high]
    simp only [isRoundedFrom, lowQuarters, highQuarters, Bool.and_eq_true, Bool.or_eq_true,
      beq_iff_eq]
  rw [unfolded, compare_gt_iff_gt, compare_lt_iff_lt, compare_eq_iff_eq, compare_eq_iff_eq]
  constructor
  · rintro ⟨low, high⟩
    exact {
      low_le := low.elim le_of_lt fun h ↦ h.2.ge
      le_high := high.elim le_of_lt fun h ↦ h.2.le
      even_of_low := fun same ↦ low.elim (fun above ↦ absurd same above.ne') And.left
      even_of_high := fun same ↦ high.elim (fun below ↦ absurd same below.ne) And.left }
  · intro h
    refine ⟨?_, ?_⟩
    · rcases h.low_le.lt_or_eq with above | same
      · exact .inl above
      · exact .inr ⟨h.even_of_low same.symm, same.symm⟩
    · rcases h.le_high.lt_or_eq with below | same
      · exact .inl below
      · exact .inr ⟨h.even_of_high same, same⟩

/-! ## No number rounds to two doubles -/

section Unique

variable {b c : Binary}

/-- The upper midpoint of a double against the lower one of a later double, in quarters of the last
place of the first.  They meet only when the doubles are neighbours, and then one is odd. -/
theorem quarters_of_later (hb : b.IsDouble) (hc : c.IsDouble) {k : Nat}
    (exponent : c.exponent = b.exponent + k)
    (later : k = 0 → b.significand < c.significand) :
    b.highQuarters < c.lowQuarters * 2 ^ k ∨
      b.highQuarters = c.lowQuarters * 2 ^ k ∧
        (b.significand % 2 = 1 ∨ c.significand % 2 = 1) := by
  have lowest := hb.exponent_ge
  have most := hb.significand_lt
  have step : 4 * c.significand - 2 ≤ c.lowQuarters := by
    unfold lowQuarters
    split <;> omega
  cases k with
  | zero =>
    have less := later rfl
    rw [pow_zero, mul_one, highQuarters]
    omega
  | succ k =>
    -- the later double has all places, and at a power of two its lower midpoint is nearer
    have full := hc.places.resolve_left (by omega)
    have least : 2 ^ 54 - 1 ≤ c.lowQuarters := by
      unfold lowQuarters
      split
      next => omega
      next plain =>
        have above : c.significand ≠ 2 ^ 52 := fun e ↦
          plain (hc.atPowerOfTwo.2 ⟨e, by omega⟩)
        omega
    have doubled : c.lowQuarters * 2 ≤ c.lowQuarters * 2 ^ (k + 1) :=
      Nat.mul_le_mul_left _ (Nat.le_self_pow k.succ_ne_zero 2)
    rw [highQuarters]
    omega

theorem not_rounds_later (hb : b.IsDouble) (hc : c.IsDouble) {k : Nat}
    (exponent : c.exponent = b.exponent + k)
    (later : k = 0 → b.significand < c.significand) {x : ℚ} (first : b.Rounds x) :
    ¬ c.Rounds x := by
  intro second
  have quarter : c.quarter = 2 ^ k * b.quarter := by
    rw [Binary.quarter, Binary.quarter, exponent, ← zpow_natCast, ← zpow_add₀ two_ne_zero]
    congr 1
    ring
  have low : (c.lowQuarters : ℚ) * c.quarter = ((c.lowQuarters * 2 ^ k : Nat) : ℚ) * b.quarter := by
    rw [quarter]
    push_cast
    ring
  rcases quarters_of_later hb hc exponent later with apart | ⟨meet, odd⟩
  · have less : (b.highQuarters : ℚ) * b.quarter < c.lowQuarters * c.quarter := by
      rw [low]
      exact mul_lt_mul_of_pos_right (Nat.cast_lt.2 apart) b.quarter_pos
    exact absurd (first.le_high.trans_lt less) second.low_le.not_gt
  · have same : (b.highQuarters : ℚ) * b.quarter = c.lowQuarters * c.quarter := by rw [low, meet]
    have high : x = b.highQuarters * b.quarter :=
      le_antisymm first.le_high (same.trans_le second.low_le)
    have even := first.even_of_high high
    have even' := second.even_of_low (high.trans same)
    omega

/-- No number rounds to two doubles. -/
theorem Rounds.unique (hb : b.IsDouble) (hc : c.IsDouble) {x : ℚ} (first : b.Rounds x)
    (second : c.Rounds x) :
    b.significand = c.significand ∧ b.exponent = c.exponent := by
  rcases lt_trichotomy b.exponent c.exponent with less | same | greater
  · obtain ⟨k, hk⟩ := Int.le.dest less.le
    exact absurd second (not_rounds_later hb hc hk.symm (by omega) first)
  · rcases lt_trichotomy b.significand c.significand with less | equal | greater
    · exact absurd second
        (not_rounds_later hb hc (k := 0) (by simp [same]) (fun _ ↦ less) first)
    · exact ⟨equal, same⟩
    · exact absurd first
        (not_rounds_later hc hb (k := 0) (by simp [same]) (fun _ ↦ greater) second)
  · obtain ⟨k, hk⟩ := Int.le.dest greater.le
    exact absurd first (not_rounds_later hc hb hk.symm (by omega) second)

end Unique

/-! ## Seventeen digits are enough -/

section Shortest

variable {b : Binary}

/-- How far the midpoint to the neighbour below is, in quarters of the last place. -/
def lowGap (b : Binary) : Nat := if b.atPowerOfTwo then 1 else 2

/-- Whatever lies strictly between the midpoints rounds. -/
theorem rounds_of_between (h : b.significand ≠ 0) {x : ℚ}
    (low : b.value - b.lowGap * b.quarter < x) (high : x < b.value + 2 * b.quarter) :
    b.Rounds x := by
  have gap : b.lowGap ≤ 2 := by unfold lowGap; split <;> decide
  have lowest : (b.lowQuarters : ℚ) * b.quarter = b.value - b.lowGap * b.quarter := by
    rw [lowQuarters, ← lowGap, Nat.cast_sub (by omega), value_eq_quarters]
    push_cast
    ring
  have highest : (b.highQuarters : ℚ) * b.quarter = b.value + 2 * b.quarter := by
    rw [highQuarters, value_eq_quarters]
    push_cast
    ring
  rw [← lowest] at low
  rw [← highest] at high
  exact ⟨low.le, high.le, fun same ↦ absurd same low.ne', fun same ↦ absurd same high.ne⟩

theorem denominator_pos (b : Binary) : 0 < b.denominator := Nat.two_pow_pos _

theorem numerator_pos (h : b.significand ≠ 0) : 0 < b.numerator :=
  Nat.mul_pos (Nat.pos_of_ne_zero h) (Nat.two_pow_pos _)

theorem value_eq_div (b : Binary) : b.value = b.numerator / b.denominator := by
  rw [eq_div_iff (Nat.cast_ne_zero.2 b.denominator_pos.ne')]
  simp only [value, numerator, denominator, twoTo, Nat.pow_eq, Nat.cast_mul, Nat.cast_pow,
    Nat.cast_ofNat]
  rw [mul_assoc, zpow_mul_pow_toNat two_ne_zero]

theorem lt_ten_pow_digitCount (n : Nat) : n < 10 ^ digitCount n :=
  (Nat.length_toDigits_le_iff (by decide) Nat.length_toDigits_pos).1 le_rfl

theorem ten_pow_digitCount_le {n : Nat} (h : n ≠ 0) : 10 ^ (digitCount n - 1) ≤ n := by
  have positive : 0 < digitCount n := Nat.length_toDigits_pos
  rcases Nat.eq_zero_or_pos (digitCount n - 1) with none | some
  · rw [none]
    omega
  · by_contra less
    have := (Nat.length_toDigits_le_iff (by decide) some).2 (Nat.lt_of_not_le less)
    rw [← digitCount] at this
    omega

/-- The first digit of a positive size stands where the leading exponent says, or further left. -/
theorem ten_zpow_leadingExponent_le (h : b.significand ≠ 0) :
    (10 : ℚ) ^ b.leadingExponent ≤ b.value := by
  have numerator := numerator_pos h
  have denominator := b.denominator_pos
  have denominator' : (0 : ℚ) < b.denominator := Nat.cast_pos.2 denominator
  rw [leadingExponent, value_eq_div, le_div_iff₀ denominator']
  split
  next large =>
    have some : b.numerator / b.denominator ≠ 0 := (Nat.div_pos large denominator).ne'
    have positive : 0 < digitCount (b.numerator / b.denominator) := Nat.length_toDigits_pos
    have whole : 10 ^ (digitCount (b.numerator / b.denominator) - 1) * b.denominator ≤
        b.numerator :=
      (Nat.mul_le_mul_right _ (ten_pow_digitCount_le some)).trans (Nat.div_mul_le_self _ _)
    rw [← Nat.cast_one, ← Nat.cast_sub positive, zpow_natCast]
    exact_mod_cast whole
  next small =>
    have reciprocal : b.denominator < 10 ^ digitCount (b.denominator / b.numerator) * b.numerator :=
      (Nat.div_lt_iff_lt_mul numerator).1 (lt_ten_pow_digitCount _)
    rw [zpow_neg, zpow_natCast, inv_mul_le_iff₀ (by positivity)]
    exact_mod_cast reciprocal.le

/-- The grid of seventeen digit decimals is finer than the doubles: its step is less than twice the
way to the lower midpoint.  For `2 ^ 53 < 10 ^ 16`. -/
theorem grid_lt (hb : b.IsDouble) (h : b.significand ≠ 0) :
    (10 : ℚ) ^ (b.leadingExponent - 16) < 2 * (b.lowGap * b.quarter) := by
  have lead := ten_zpow_leadingExponent_le h
  have grid : (10 : ℚ) ^ b.leadingExponent = 10 ^ (b.leadingExponent - 16) * 10 ^ 16 := by
    rw [← zpow_natCast, ← zpow_add₀ (by norm_num)]
    congr 1
    norm_num
  have quarter := b.quarter_pos
  rw [grid, value_eq_quarters] at lead
  unfold lowGap
  split
  next power =>
    rw [(hb.atPowerOfTwo.1 power).1] at lead
    norm_num at lead ⊢
    linarith
  next =>
    have most : (b.significand : ℚ) < 2 ^ 53 := by exact_mod_cast hb.significand_lt
    have upper := mul_lt_mul_of_pos_right most quarter
    norm_num at lead upper ⊢
    linarith

/-- The digits of the neighbour below on the grid of decimals with a given exponent. -/
def digitsBelow (b : Binary) (e : Int) : Nat :=
  b.numerator * tenTo (-e).toNat / (b.denominator * tenTo e.toNat)

/-- A size lies between its neighbours on the grid. -/
theorem neighbours (b : Binary) (e : Int) :
    (ScaledDecimal.mk (b.digitsBelow e) e).value ≤ b.value ∧
      b.value < (ScaledDecimal.mk (b.digitsBelow e + 1) e).value := by
  have ten : (10 : ℚ) ^ e * 10 ^ (-e).toNat = 10 ^ e.toNat := zpow_mul_pow_toNat (by norm_num) e
  have quotient : b.value =
      (b.numerator * tenTo (-e).toNat : Nat) / (b.denominator * tenTo e.toNat : Nat) * 10 ^ e := by
    simp only [tenTo, Nat.pow_eq, Nat.cast_mul, Nat.cast_pow, Nat.cast_ofNat]
    rw [← ten, value_eq_div]
    have := ten_zpow_pos e
    have := b.denominator_pos
    field_simp
  have positive : 0 < b.denominator * tenTo e.toNat :=
    Nat.mul_pos b.denominator_pos (Nat.pow_pos (by decide))
  have positive' : (0 : ℚ) < (b.denominator * tenTo e.toNat : Nat) := Nat.cast_pos.2 positive
  rw [quotient, ScaledDecimal.value, ScaledDecimal.value]
  constructor
  · refine mul_le_mul_of_nonneg_right ?_ (ten_zpow_pos e).le
    rw [le_div_iff₀ positive']
    exact_mod_cast Nat.div_mul_le_self _ _
  · refine mul_lt_mul_of_pos_right ?_ (ten_zpow_pos e)
    rw [div_lt_iff₀ positive']
    exact_mod_cast Nat.lt_mul_of_div_lt (Nat.lt_succ_self _) positive

/-- On a grid as fine as that, one of the neighbours rounds, for one of them is not further away
than half a step. -/
theorem rounds_neighbour (h : b.significand ≠ 0) {e : Int}
    (fine : (10 : ℚ) ^ e < 2 * (b.lowGap * b.quarter)) :
    b.Rounds (ScaledDecimal.mk (b.digitsBelow e) e).value ∨
      b.Rounds (ScaledDecimal.mk (b.digitsBelow e + 1) e).value := by
  obtain ⟨below, above⟩ := b.neighbours e
  have quarter := b.quarter_pos
  have gap : (b.lowGap : ℚ) ≤ 2 := by
    unfold lowGap
    split <;> norm_num
  have gap_le := mul_le_mul_of_nonneg_right gap quarter.le
  have step : (ScaledDecimal.mk (b.digitsBelow e + 1) e).value =
      (ScaledDecimal.mk (b.digitsBelow e) e).value + 10 ^ e := by
    simp only [ScaledDecimal.value]
    push_cast
    ring
  rcases le_or_gt (2 * (b.value - (ScaledDecimal.mk (b.digitsBelow e) e).value)) (10 ^ e)
    with near | far
  · left
    apply rounds_of_between h <;> linarith
  · right
    apply rounds_of_between h <;> linarith

theorem isSome_firstRounded? {d e : ScaledDecimal} (h : b.Rounds d.value ∨ b.Rounds e.value) :
    (b.firstRounded? d e).isSome = true := by
  unfold firstRounded?
  rw [← isRoundedFrom_iff, ← isRoundedFrom_iff] at h
  split
  next => rfl
  next notFirst => rw [if_pos (h.resolve_left notFirst)]; rfl

theorem isSome_candidate? (hb : b.IsDouble) (h : b.significand ≠ 0) :
    (b.candidate? 17).isSome = true := by
  have exponent : b.leadingExponent - (17 : Nat) + 1 = b.leadingExponent - 16 := by
    push_cast
    ring
  have rounds := rounds_neighbour h (grid_lt hb h)
  unfold candidate?
  dsimp only
  rw [exponent, ← digitsBelow]
  split
  · exact isSome_firstRounded? rounds
  · exact isSome_firstRounded? rounds.symm

theorem value_carry (d : ScaledDecimal) : (carry d).value = d.value := by
  unfold carry
  split
  next ten =>
    rw [ScaledDecimal.value, ScaledDecimal.value, ten, zpow_add₀ (by norm_num)]
    norm_num
    ring
  next => rfl

/-- The shortest decimal rounds to the double. -/
theorem rounds_shortest (hb : b.IsDouble) (h : b.significand ≠ 0) :
    b.Rounds b.shortest.value := by
  have found : ((List.range' 1 17).findSome? b.candidate?).isSome = true := by
    rw [List.findSome?_isSome_iff]
    exact ⟨17, by decide, isSome_candidate? hb h⟩
  obtain ⟨d, hd⟩ := Option.isSome_iff_exists.1 found
  obtain ⟨n, -, hn⟩ := List.exists_of_findSome?_eq_some hd
  have shortest : b.shortest = carry d := by
    rw [shortest, if_neg h, hd]
    rfl
  rw [shortest, value_carry]
  exact isRoundedFrom_iff.1 (isRoundedFrom_of_candidate? hn)

theorem Rounds.pos {x : ℚ} (h : b.significand ≠ 0) (rounds : b.Rounds x) : 0 < x := by
  refine lt_of_lt_of_le (mul_pos (Nat.cast_pos.2 ?_) b.quarter_pos) rounds.low_le
  unfold lowQuarters
  split <;> omega

end Shortest

/-- **The shortest decimal determines the double.** -/
theorem eq_of_value_shortest_eq {b c : Binary} (hb : b.IsDouble) (hc : c.IsDouble)
    (same : b.shortest.value = c.shortest.value) :
    b.significand = c.significand ∧ b.exponent = c.exponent := by
  have zero {a : Binary} (ha : a.significand = 0) : a.shortest.value = 0 := by
    rw [shortest, if_pos ha, ScaledDecimal.value]
    norm_num
  by_cases hb0 : b.significand = 0
  · by_cases hc0 : c.significand = 0
    · refine ⟨hb0.trans hc0.symm, ?_⟩
      rw [hb.places.resolve_right (by omega), hc.places.resolve_right (by omega)]
    · rw [zero hb0] at same
      exact absurd same (Rounds.pos hc0 (rounds_shortest hc hc0)).ne
  · by_cases hc0 : c.significand = 0
    · rw [zero hc0] at same
      exact absurd same (Rounds.pos hb0 (rounds_shortest hb hb0)).ne'
    · have second := rounds_shortest hc hc0
      rw [← same] at second
      exact (rounds_shortest hb hb0).unique hb hc second

end Binary

end ManuscriptReach
