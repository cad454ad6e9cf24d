import Mathlib.Tactic.Ring
import ManuscriptReach.Batch.Summary

/-!
# Means are finite

A mean is the quotient of two doubles that come from natural numbers.  Nothing in its computation
can overflow or lose places to the least exponent, for the numbers are far from both ends of the
range: only their orders of magnitude matter.  A double of order `t` has all its places and lies
from `2 ^ (t - 1)` up to `2 ^ t`; the orders of a product and of a quotient are off by a few from
the sum and the difference of the orders, and so the range is never left (`isFinite_meanOf`).
-/

namespace ManuscriptReach

open Float.Model (Format totalExponent UnpackedFloat)
open Float.Model.UnpackedFloat

/-! ## Rounding to all places -/

/-- An unpacked positive number with all its places, from `2 ^ (t - 1)` up to `2 ^ t`. -/
def IsFull (t : Int) (u : UnpackedFloat) : Prop :=
  ∃ m h, m.log2 = 52 ∧ u = .finite .positive m (t - 53) h

/-- The number is of one of the orders from `low` to `high`. -/
def IsOfOrder (low high : Int) (u : UnpackedFloat) : Prop := ∃ t, low ≤ t ∧ t ≤ high ∧ IsFull t u

theorem IsOfOrder.mono {low high low' high' : Int} {u : UnpackedFloat} (h : IsOfOrder low high u)
    (below : low' ≤ low) (above : high ≤ high') : IsOfOrder low' high' u := by
  obtain ⟨t, least, most, full⟩ := h
  exact ⟨t, below.trans least, most.trans above, full⟩

theorem finite_congr {r s : Sign} {m n : Nat} {e f : Int} {hm : 0 < m} {hn : 0 < n} (sign : r = s)
    (mantissa : m = n) (exponent : e = f) :
    UnpackedFloat.finite r m e hm = .finite s n f hn := by
  subst sign mantissa exponent
  rfl

section Rounding

theorem mantissa_shiftRight (em : ExtendedMantissa) (k : Nat) :
    (em >>> k).mantissa = em.mantissa / 2 ^ k := by
  change (k.repeat ExtendedMantissa.shiftRightOne em).mantissa = _
  induction k with
  | zero => rw [pow_zero, Nat.div_one]; rfl
  | succ k ih =>
    change (k.repeat ExtendedMantissa.shiftRightOne em).mantissa / 2 = _
    rw [ih, Nat.div_div_eq_div_mul, pow_succ]

theorem mantissa_ofMantissaAndAccuracy (m : Nat) (a : Accuracy) :
    (ExtendedMantissa.ofMantissaAndAccuracy m a).mantissa = m := by
  rcases a with _ | o
  · rfl
  · cases o <;> rfl

/-- Rounding leaves a mantissa as it is or adds one. -/
theorem roundedMantissa_mem (em : ExtendedMantissa) :
    em.mantissa ≤ em.roundedMantissa ∧ em.roundedMantissa ≤ em.mantissa + 1 := by
  unfold ExtendedMantissa.roundedMantissa Accuracy.roundToNearestEven
  split <;> omega

theorem targetExponent_binary64 {t : Int} (h : -1021 ≤ t) :
    Format.binary64.targetExponent t = t - 53 := by
  have most : Format.binary64.minExponent = -1074 := rfl
  have places : Format.binary64.mantissaBits = 53 := rfl
  rw [Format.targetExponent, most, places]
  omega

theorem log2_eq_iff {m k : Nat} : m.log2 = k ∧ m ≠ 0 ↔ 2 ^ k ≤ m ∧ m < 2 ^ (k + 1) := by
  constructor
  · rintro ⟨rfl, ne⟩
    exact ⟨Nat.log2_self_le ne, Nat.lt_log2_self⟩
  · rintro ⟨low, high⟩
    have ne : m ≠ 0 := (Nat.two_pow_pos k |>.trans_le low).ne'
    exact ⟨(Nat.log2_eq_iff ne).2 ⟨low, high⟩, ne⟩

variable {m k : Nat} {e : Int}

theorem totalExponent_eq (hm : m.log2 = 52 + k) : totalExponent m e = 53 + k + e := by
  rw [totalExponent, hm]
  omega

/-- A number with more places than fit loses as many as are too many. -/
theorem shiftToTargetExponent_eq (hm : m.log2 = 52 + k) (least : -1021 ≤ 53 + k + e)
    (a : Accuracy) :
    shiftToTargetExponent .binary64 m e a =
      (ExtendedMantissa.ofMantissaAndAccuracy m a >>> k, e + k) := by
  have amount : (Format.binary64.targetExponent (totalExponent m e) - e).toNat = k := by
    rw [totalExponent_eq hm, targetExponent_binary64 least]
    omega
  rw [shiftToTargetExponent, shiftToExponent, amount]

/-- Away from the least exponent a number is rounded to all its places, and its order stays or goes
up by one. -/
theorem isOfOrder_roundWithAccuracy (hm : m.log2 = 52 + k) (least : -1021 ≤ 53 + k + e)
    (a : Accuracy) :
    IsOfOrder (53 + k + e) (54 + k + e) (roundWithAccuracy .binary64 .positive m e a) := by
  have ne : m ≠ 0 := by
    rintro rfl
    rw [Nat.log2_zero] at hm
    omega
  obtain ⟨low, high⟩ := log2_eq_iff.1 ⟨hm, ne⟩
  have first := shiftToTargetExponent_eq hm least a
  have mantissa : (ExtendedMantissa.ofMantissaAndAccuracy m a >>> k).mantissa = m / 2 ^ k := by
    rw [mantissa_shiftRight, mantissa_ofMantissaAndAccuracy]
  have shifted : 2 ^ 52 ≤ m / 2 ^ k ∧ m / 2 ^ k < 2 ^ 53 := by
    rw [Nat.le_div_iff_mul_le (Nat.two_pow_pos k), Nat.div_lt_iff_lt_mul (Nat.two_pow_pos k),
      ← pow_add, ← pow_add]
    exact ⟨low, high.trans_eq (congrArg (2 ^ ·) (by omega))⟩
  obtain ⟨kept, added⟩ := roundedMantissa_mem (ExtendedMantissa.ofMantissaAndAccuracy m a >>> k)
  rw [mantissa] at kept added
  unfold roundWithAccuracy
  rw [first]
  dsimp only
  generalize (ExtendedMantissa.ofMantissaAndAccuracy m a >>> k).roundedMantissa = r at kept added
  rcases Nat.lt_or_ge r (2 ^ 53) with fits | carried
  · have hr : r.log2 = 52 + 0 := (log2_eq_iff.2 ⟨shifted.1.trans kept, fits⟩).1
    have final : (ExtendedMantissa.ofMantissaAndAccuracy r .exact >>> 0).mantissa = r := rfl
    have positive : r ≠ 0 := by omega
    rw [shiftToTargetExponent_eq hr (by omega), dif_neg (final ▸ positive)]
    exact ⟨53 + k + e, le_rfl, by omega, r, Nat.pos_of_ne_zero positive, hr,
      finite_congr rfl final (by omega)⟩
  · -- the carry takes one place more, which is a zero
    obtain rfl : r = 2 ^ 53 := by omega
    have hr : (2 ^ 53 : Nat).log2 = 52 + 1 := Nat.log2_two_pow
    have final : (ExtendedMantissa.ofMantissaAndAccuracy (2 ^ 53) .exact >>> 1).mantissa =
        2 ^ 52 := by
      rw [mantissa_shiftRight, mantissa_ofMantissaAndAccuracy]
      rfl
    have positive : (2 ^ 52 : Nat) ≠ 0 := (Nat.two_pow_pos 52).ne'
    rw [shiftToTargetExponent_eq hr (by omega), dif_neg (final ▸ positive)]
    exact ⟨54 + k + e, by omega, le_rfl, 2 ^ 52, Nat.two_pow_pos 52, Nat.log2_two_pow,
      finite_congr rfl final (by omega)⟩

end Rounding

/-! ## Packing -/

theorem toNat_implicit_append (f : BitVec 52) : (1#1 ++ f).toNat = 2 ^ 52 + f.toNat := by
  rw [BitVec.toNat_append, ← Nat.shiftLeft_add_eq_or_of_lt f.isLt]
  rfl

/-- The first bit of what is packed is the sign. -/
theorem sign_packed (exponent : BitVec 11) (mantissa : BitVec 52) :
    Sign.ofBitVec (unpackSign (packComponents .binary64 .positive exponent mantissa)) =
      .positive := by
  have bit : unpackSign (packComponents .binary64 .positive exponent mantissa) = 0#1 := by
    change (0#1 ++ exponent ++ mantissa).extractLsb' 63 1 = 0#1
    rw [BitVec.extractLsb'_append_eq_of_le (by decide),
      BitVec.extractLsb'_append_eq_of_le (by decide)]
    rfl
  rw [bit]
  rfl

/-- Unless all bits of the exponent are ones or all are zeros, the mantissa has an implicit bit. -/
theorem unpack_packComponents {exponent : BitVec 11} (mantissa : BitVec 52)
    (ones : exponent ≠ -1#11) (zero : exponent ≠ 0#11) :
    unpack .binary64 (packComponents .binary64 .positive exponent mantissa) =
      .finite .positive (2 ^ 52 + mantissa.toNat) (exponent.toNat - 1075)
        (Nat.add_pos_left (Nat.two_pow_pos 52) _) := by
  have field : unpackExponent (packComponents .binary64 .positive exponent mantissa) = exponent :=
    unpackExponent_packComponents
  have places : unpackMantissa (packComponents .binary64 .positive exponent mantissa) = mantissa :=
    unpackMantissa_packComponents
  delta unpack
  dsimp only
  rw [if_neg (field.symm ▸ ones), if_neg (field.symm ▸ zero)]
  refine finite_congr (sign_packed exponent mantissa) ?_ ?_
  · rw [places]
    exact toNat_implicit_append mantissa
  · rw [field]
    rfl

/-- A number with all its places and a moderate order is packed as it is. -/
theorem unpack_pack {t : Int} {u : UnpackedFloat} (h : IsFull t u) (low : -1021 ≤ t)
    (high : t ≤ 1024) : unpack .binary64 (pack .binary64 u) = u := by
  obtain ⟨m, positive, hm, rfl⟩ := h
  obtain ⟨least, most⟩ := log2_eq_iff.1 ⟨hm, positive.ne'⟩
  obtain ⟨field, hfield⟩ : ∃ field : Nat, (field : Int) = t + 1022 := ⟨(t + 1022).toNat, by omega⟩
  have biased : (t - 53 + (Format.binary64.exponentBias : Int) +
      (Format.binary64.mantissaBitsWithoutImplicit : Int)).toNat = field := by
    change (t - 53 + 1023 + 52).toNat = field
    omega
  have packed : pack .binary64 (.finite .positive m (t - 53) positive) =
      packComponents .binary64 .positive (BitVec.ofNat 11 field) (BitVec.ofNat 52 m) := by
    have small : ¬ 2 ^ Format.binary64.exponentBits ≤ field + 1 := by
      change ¬ 2048 ≤ field + 1
      omega
    delta pack
    dsimp only
    rw [biased, if_neg small, if_pos (by rw [hm]; rfl)]
  have exponent : (BitVec.ofNat 11 field).toNat = field := by
    rw [BitVec.toNat_ofNat]
    omega
  have mantissa : (BitVec.ofNat 52 m).toNat = m - 2 ^ 52 := by
    rw [BitVec.toNat_ofNat]
    omega
  have ones : BitVec.ofNat 11 field ≠ -1#11 := by
    intro same
    have ones : field = 2047 := exponent.symm.trans (congrArg BitVec.toNat same)
    omega
  have zero : BitVec.ofNat 11 field ≠ 0#11 := by
    intro same
    have zero : field = 0 := exponent.symm.trans (congrArg BitVec.toNat same)
    omega
  rw [packed, unpack_packComponents _ ones zero]
  exact finite_congr rfl (by omega) (by omega)

/-- The order of a double. -/
def Ordered (low high : Int) (x : Float) : Prop := IsOfOrder low high x.toModel.unpack

theorem Ordered.isFinite {low high : Int} {x : Float} (h : Ordered low high x) :
    x.isFinite = true := by
  obtain ⟨t, -, -, m, positive, -, hx⟩ := h
  change x.toModel.unpack.isFinite = true
  rw [hx]
  rfl

theorem ordered_ofModel {low high : Int} {u : UnpackedFloat} (h : IsOfOrder low high u)
    (least : -1021 ≤ low) (most : high ≤ 1024) :
    Ordered low high (.ofModel (Float.Model.pack u)) := by
  obtain ⟨t, below, above, full⟩ := h
  have same : (Float.Model.pack u).unpack = u :=
    unpack_pack full (least.trans below) (above.trans most)
  rw [Ordered, same]
  exact ⟨t, below, above, full⟩

/-! ## Operations -/

theorem exists_log2 {n low high : Nat} (least : 2 ^ low ≤ n) (most : n < 2 ^ high) :
    ∃ k, low ≤ k ∧ k < high ∧ n.log2 = k := by
  have ne : n ≠ 0 := (Nat.two_pow_pos low |>.trans_le least).ne'
  exact ⟨n.log2, (Nat.le_log2 ne).2 least, (Nat.log2_lt ne).2 most, rfl⟩

section Operations

/-- The product of two positive numbers. -/
theorem mul_finite {m n : Nat} {e f : Int} (hm : 0 < m) (hn : 0 < n) :
    UnpackedFloat.mul .binary64 (.finite .positive m e hm) (.finite .positive n f hn) =
      roundWithAccuracy .binary64 .positive (m * n) (e + f) .exact := rfl

/-- The quotient of two positive numbers. -/
theorem div_finite {m n : Nat} {e f : Int} (hm : 0 < m) (hn : 0 < n) :
    UnpackedFloat.div .binary64 (.finite .positive m e hm) (.finite .positive n f hn) =
      roundWithAccuracy .binary64 .positive (divCore .binary64 m e n f).1
        (divCore .binary64 m e n f).2.1 (divCore .binary64 m e n f).2.2 := rfl

variable {x y : Float} {a b c d : Int}

/-- The order of a product is the sum of the orders, or off by one. -/
theorem Ordered.mul (hx : Ordered a b x) (hy : Ordered c d y) (least : -1020 ≤ a + c)
    (most : b + d ≤ 1023) : Ordered (a + c - 1) (b + d + 1) (x * y) := by
  obtain ⟨s, has, hsb, m, hm, hmlog, hxm⟩ := hx
  obtain ⟨t, hct, htd, n, hn, hnlog, hyn⟩ := hy
  obtain ⟨lowm, highm⟩ := log2_eq_iff.1 ⟨hmlog, hm.ne'⟩
  obtain ⟨lown, highn⟩ := log2_eq_iff.1 ⟨hnlog, hn.ne'⟩
  have low : 2 ^ 52 * 2 ^ 52 ≤ m * n := Nat.mul_le_mul lowm lown
  have high : m * n < 2 ^ 53 * 2 ^ 53 := Nat.mul_lt_mul'' highm highn
  rw [← pow_add] at low high
  obtain ⟨l, hl, hl', hlog⟩ := exists_log2 low high
  obtain ⟨k, rfl⟩ := Nat.exists_eq_add_of_le (show 52 ≤ l by omega)
  have product : x * y = .ofModel (Float.Model.pack
      (roundWithAccuracy .binary64 .positive (m * n) (s - 53 + (t - 53)) .exact)) := by
    change Float.ofModel (Float.Model.pack (UnpackedFloat.mul _ x.toModel.unpack _)) = _
    rw [hxm, hyn, mul_finite]
  rw [product]
  refine ordered_ofModel ?_ (by omega) (by omega)
  exact (isOfOrder_roundWithAccuracy hlog (by omega) .exact).mono (by omega) (by omega)

/-- The order of a quotient is the difference of the orders, or up to two more. -/
theorem Ordered.div (hx : Ordered a b x) (hy : Ordered c d y) (least : -1021 ≤ a - d)
    (most : b - c ≤ 1022) : Ordered (a - d) (b - c + 2) (x / y) := by
  obtain ⟨s, has, hsb, m, hm, hmlog, hxm⟩ := hx
  obtain ⟨t, hct, htd, n, hn, hnlog, hyn⟩ := hy
  obtain ⟨lowm, highm⟩ := log2_eq_iff.1 ⟨hmlog, hm.ne'⟩
  obtain ⟨lown, highn⟩ := log2_eq_iff.1 ⟨hnlog, hn.ne'⟩
  have low : 2 ^ 52 ≤ (m <<< 53) / n := by
    rw [Nat.le_div_iff_mul_le hn, Nat.shiftLeft_eq]
    omega
  have high : (m <<< 53) / n < 2 ^ 54 := by
    rw [Nat.div_lt_iff_lt_mul hn, Nat.shiftLeft_eq]
    omega
  obtain ⟨l, hl, hl', hlog⟩ := exists_log2 low high
  obtain ⟨k, rfl⟩ := Nat.exists_eq_add_of_le hl
  have core : divCore .binary64 m (s - 53) n (t - 53) =
      ((m <<< 53) / n, s - t - 53, accuracyOfFraction ((m <<< 53) % n) n) := by
    have difference : totalExponent m (s - 53) - totalExponent n (t - 53) = s - t := by
      rw [totalExponent, totalExponent, hmlog, hnlog]
      omega
    have target : min (s - 53 - (t - 53)) (s - t - 53) = s - t - 53 := by omega
    have amount : (s - 53 - (t - 53) - (s - t - 53)).toNat = 53 := by omega
    rw [divCore, difference, targetExponent_binary64 (by omega), target, amount]
  have quotient : x / y = .ofModel (Float.Model.pack
      (roundWithAccuracy .binary64 .positive ((m <<< 53) / n) (s - t - 53)
        (accuracyOfFraction ((m <<< 53) % n) n))) := by
    change Float.ofModel (Float.Model.pack (UnpackedFloat.div _ x.toModel.unpack _)) = _
    rw [hxm, hyn, div_finite, core]
  rw [quotient]
  refine ordered_ofModel ?_ (by omega) (by omega)
  exact (isOfOrder_roundWithAccuracy hlog (by omega) _).mono (by omega) (by omega)

end Operations

/-! ## Natural numbers -/

section Natural

variable {n : Nat}

theorem log2_shiftLeft (positive : n ≠ 0) (k : Nat) : (n <<< k).log2 = n.log2 + k := by
  obtain ⟨low, high⟩ := log2_eq_iff.1 ⟨rfl, positive⟩
  refine (log2_eq_iff.2 ?_).1
  rw [Nat.shiftLeft_eq, pow_add, show n.log2 + k + 1 = n.log2 + 1 + k by omega, pow_add]
  exact ⟨Nat.mul_le_mul_right _ low, Nat.mul_lt_mul_of_pos_right high (Nat.two_pow_pos k)⟩

/-- A positive number of at most 64 bits has an order from one on. -/
theorem ordered_toFloat (positive : n ≠ 0) (small : n < 2 ^ 64) :
    Ordered 1 65 n.toUInt64.toFloat := by
  have bits : n.log2 < 64 := (Nat.log2_lt positive).2 small
  have rounded : n.toUInt64.toFloat =
      .ofModel (Float.Model.pack (UnpackedFloat.round .binary64 .positive n 0)) := by
    have word : n.toUInt64.toNat = n := Nat.mod_eq_of_lt small
    have sign : compare (n : Int) 0 = .gt := compare_gt_iff_gt.2 (by omega)
    change Float.ofModel (Float.Model.pack
      (UnpackedFloat.normalize _ (n.toUInt64.toNat : Int) 0 .positive)) = _
    rw [word, UnpackedFloat.normalize, sign]
    rfl
  rw [rounded]
  refine ordered_ofModel ?_ (by decide) (by decide)
  obtain ⟨j, hj⟩ : ∃ j : Nat, j = 52 - n.log2 := ⟨_, rfl⟩
  obtain ⟨k, hk⟩ : ∃ k : Nat, n.log2 + j = 52 + k := ⟨n.log2 + j - 52, by omega⟩
  have total : totalExponent n 0 = n.log2 + 1 := Int.add_zero _
  have decreased : decreaseExponent n 0 (n.log2 + 1 - 53) = (n <<< j, -(j : Int)) := by
    have amount : (0 - ((n.log2 : Int) + 1 - 53)).toNat = j := by omega
    rw [decreaseExponent, amount, Int.zero_sub]
  have shifted : (n <<< j).log2 = 52 + k := by
    rw [log2_shiftLeft positive, hk]
  rw [UnpackedFloat.round, total, targetExponent_binary64 (by omega), decreased]
  exact (isOfOrder_roundWithAccuracy shifted (by omega) _).mono (by omega) (by omega)

theorem ordered_one : Ordered 1 1 Float.exactlyRepresentablePowersOfTen[0] :=
  ⟨1, le_rfl, le_rfl, 2 ^ 52, by decide, by decide, by rfl⟩

/-- A positive number of at most 128 bits has an order from one on. -/
theorem ordered_ofNat (positive : n ≠ 0) (small : n < 2 ^ 128) : Ordered 1 130 (Float.ofNat n) := by
  have bits : n.log2 < 128 := (Nat.log2_lt positive).2 small
  by_cases fits : n < 2 ^ 53
  · have product : Float.ofNat n =
        n.toUInt64.toFloat * Float.exactlyRepresentablePowersOfTen[0] := by
      change Float.ofScientific n false 0 = _
      rw [Float.ofScientific, dif_pos ⟨fits, Nat.zero_le _⟩]
      rfl
    rw [product]
    exact IsOfOrder.mono ((ordered_toFloat positive (by omega)).mul ordered_one (by decide)
      (by decide)) (by decide) (by decide)
  · have rounded : Float.ofNat n = .ofModel (Float.Model.pack
        (roundWithAccuracy .binary64 .positive (n <<< 53) (-53) .exact)) := by
      change Float.ofScientific n false 0 = _
      rw [Float.ofScientific, dif_neg fun h ↦ fits h.1]
      change Float.ofModel (Float.Model.pack (UnpackedFloat.ofScientific _ n 0)) = _
      have least : ¬ (0 : Int) < -((2 ^ Format.binary64.exponentBits : Int) + n.log2) := by
        change ¬ (0 : Int) < -(2048 + n.log2)
        omega
      rw [UnpackedFloat.ofScientific, dif_neg positive, if_neg (by decide), if_neg least,
        if_pos le_rfl]
      have mantissa : (n <<< Format.binary64.mantissaBits) * 10 ^ (0 : Int).toNat = n <<< 53 :=
        Nat.mul_one _
      have exponent : -(Format.binary64.mantissaBits : Int) + 0 = -53 := rfl
      rw [mul_finite, mantissa, exponent]
    have shifted : (n <<< 53).log2 = 52 + (n.log2 + 1) := by
      rw [log2_shiftLeft positive]
      omega
    rw [rounded]
    refine ordered_ofModel ?_ (by decide) (by decide)
    exact (isOfOrder_roundWithAccuracy shifted (by omega) _).mono (by omega) (by omega)

end Natural

/-- **A mean is finite**, also of no numbers, and of numbers that are all zero. -/
theorem isFinite_meanOf {total count : Nat} (ht : total < 2 ^ 128) (hc : count < 2 ^ 128) :
    (meanOf total count).isFinite = true := by
  unfold meanOf
  split
  next => decide +kernel
  next some =>
    have divisor := ordered_ofNat some hc
    rcases Nat.eq_zero_or_pos total with rfl | positive
    · obtain ⟨t, -, -, m, hm, -, hcount⟩ := divisor
      have zero : (Float.ofNat 0).toModel.unpack = .zero .positive := rfl
      change (Float.Model.pack (UnpackedFloat.div _ (Float.ofNat 0).toModel.unpack
        (Float.ofNat count).toModel.unpack)).unpack.isFinite = true
      have quotient : UnpackedFloat.div .binary64 (.zero .positive)
          (.finite .positive m (t - 53) hm) = .zero .positive := rfl
      rw [hcount, zero, quotient]
      decide +kernel
    · have dividend := ordered_ofNat positive.ne' ht
      exact (dividend.div divisor (by decide) (by decide)).isFinite

end ManuscriptReach
