import ManuscriptReach.Json.Tree
import ManuscriptReach.Proofs.Number.Rounding

/-!
# Doubles in writing

The text of a finite double determines it, zero with its sign included
(`Json.ofFloat_eq_iff`).  Nothing else is told apart: the infinities and what is not a number
are all written as null.

A numeral determines a sign and a size.  The layout keeps the size of the shortest decimal
(`Numeral.value_ofDecimal`), the shortest decimal determines the parts of the double
(`Binary.eq_of_value_shortest_eq`), and the parts its bits (`Binary.bits_of_ofBits?`).
-/

namespace ManuscriptReach

/-! ## Layouts keep the size -/

theorem digitsValue_append_zeros (ds : List Char) (k : Nat) :
    digitsValue (ds ++ List.replicate k '0') = 10 ^ k * digitsValue ds := by
  rw [digitsValue, Nat.ofDigitChars_append, Nat.ofDigitChars_replicate_zero, ← digitsValue]

theorem digitsValue_zeros_append (k : Nat) (ds : List Char) :
    digitsValue (List.replicate k '0' ++ ds) = digitsValue ds := by
  rw [digitsValue, Nat.ofDigitChars_append, Nat.ofDigitChars_replicate_zero, Nat.mul_zero,
    ← digitsValue]

namespace Numeral

/-- The power of ten by which the digits of a numeral are multiplied when there is no point. -/
def shift (n : Numeral) : Int := n.exponent.elim 0 Exponent.value - n.places.length

/-- The size of the number that a numeral denotes. -/
def value (n : Numeral) : ℚ := digitsValue (n.whole ++ n.places) * 10 ^ n.shift

theorem value_ofDecimal (negative : Bool) (d : ScaledDecimal) :
    (ofDecimal negative d).value = d.value := by
  have digits : digitsValue (Nat.toDigits 10 d.digits) = d.digits := digitsValue_toDigits _
  have positive : 0 < (Nat.toDigits 10 d.digits).length := Nat.length_toDigits_pos
  unfold ofDecimal
  dsimp only
  generalize Nat.toDigits 10 d.digits = ds at digits positive
  split_ifs with whole mixed small
  · -- zeros up to the point and one behind it
    have zeros : ds ++ List.replicate d.exponent.toNat '0' ++ ['0'] =
        ds ++ List.replicate (d.exponent.toNat + 1) '0' := by
      rw [List.append_assoc, List.replicate_succ']
    rw [value, shift, zeros, digitsValue_append_zeros, digits, ScaledDecimal.value]
    push_cast
    rw [← zpow_natCast (10 : ℚ), mul_comm _ (d.digits : ℚ), mul_assoc,
      ← zpow_add₀ (by norm_num)]
    congr 2
    simp only [Option.elim_none, List.length_singleton]
    omega
  · rw [value, shift, List.take_append_drop, digits, ScaledDecimal.value]
    congr 2
    simp only [Option.elim_none, List.length_drop]
    omega
  · have zeros : ['0'] ++ (List.replicate
        (-(((ds.length : Nat) : Int) + d.exponent)).toNat '0' ++ ds) =
        List.replicate ((-(((ds.length : Nat) : Int) + d.exponent)).toNat + 1) '0' ++ ds := by
      rw [← List.append_assoc, List.replicate_succ, List.singleton_append]
    rw [value, shift, zeros, digitsValue_zeros_append, digits, ScaledDecimal.value]
    congr 2
    simp only [Option.elim_none, List.length_append, List.length_replicate]
    omega
  · have power : digitsValue (Nat.toDigits 10 (((ds.length : Nat) : Int) + d.exponent - 1).natAbs) =
        (((ds.length : Nat) : Int) + d.exponent - 1).natAbs := digitsValue_toDigits _
    rw [value, shift, List.take_append_drop, digits, ScaledDecimal.value]
    congr 2
    simp only [Option.elim_some, Exponent.value, power, List.length_drop, decide_eq_true_eq]
    split <;> omega

end Numeral

/-! ## Bits and parts -/

namespace Binary

variable {x y : Float} {b : Binary}

/-- How the parts are read off the bits, as a number. -/
def ofBits? (n : Nat) : Option Binary :=
  if n / 2 ^ 52 % 2 ^ 11 = 2047 then none
  else if n / 2 ^ 52 % 2 ^ 11 = 0 then some ⟨decide (2 ^ 63 ≤ n), n % 2 ^ 52, -1074, false⟩
  else
    some ⟨decide (2 ^ 63 ≤ n), n % 2 ^ 52 + 2 ^ 52, ((n / 2 ^ 52 % 2 ^ 11 : Nat) : Int) - 1075,
      n % 2 ^ 52 == 0 && decide (1 < n / 2 ^ 52 % 2 ^ 11)⟩

theorem ofFloat?_eq (x : Float) : ofFloat? x = ofBits? x.toBits.toNat := rfl

/-- The bits of a double from its parts. -/
def bits (b : Binary) : Nat :=
  (if b.negative then 2 ^ 63 else 0) +
    if b.significand < 2 ^ 52 then b.significand
    else (b.exponent + 1075).toNat * 2 ^ 52 + (b.significand - 2 ^ 52)

section Bits

variable {n : Nat}

/-- The parts are those of a double. -/
theorem isDouble_of_ofBits? (h : ofBits? n = some b) : b.IsDouble := by
  unfold ofBits? at h
  split_ifs at h with infinite subnormal
  · cases h
    refine ⟨?_, le_rfl, .inl rfl, ?_⟩
    · dsimp only
      omega
    · refine iff_of_false Bool.false_ne_true ?_
      dsimp only
      omega
  · cases h
    refine ⟨?_, ?_, .inr ?_, ?_⟩
    · dsimp only
      omega
    · dsimp only
      omega
    · dsimp only
      omega
    · rw [Bool.and_eq_true, beq_iff_eq, decide_eq_true_eq]
      dsimp only
      omega

/-- The parts determine the bits. -/
theorem bits_of_ofBits? (bound : n < 2 ^ 64) (h : ofBits? n = some b) : b.bits = n := by
  have sign : (if decide (2 ^ 63 ≤ n) then 2 ^ 63 else 0) = n / 2 ^ 63 * 2 ^ 63 := by
    by_cases large : 2 ^ 63 ≤ n
    · rw [decide_eq_true large, if_pos rfl]
      omega
    · rw [decide_eq_false large, if_neg Bool.false_ne_true]
      omega
  unfold ofBits? at h
  split_ifs at h with infinite subnormal
  · cases h
    have small : n % 2 ^ 52 < 2 ^ 52 := Nat.mod_lt _ (Nat.two_pow_pos 52)
    rw [bits, if_pos small, sign]
    dsimp only
    omega
  · cases h
    have full : ¬ n % 2 ^ 52 + 2 ^ 52 < 2 ^ 52 := Nat.not_lt.2 (Nat.le_add_left _ _)
    rw [bits, if_neg full, sign]
    dsimp only
    omega

theorem ofBits?_eq_none_iff : ofBits? n = none ↔ n / 2 ^ 52 % 2 ^ 11 = 2047 := by
  unfold ofBits?
  split_ifs with infinite subnormal
  · exact iff_of_true rfl infinite
  · exact iff_of_false id infinite
  · exact iff_of_false id infinite

end Bits

theorem isDouble_of_ofFloat? (h : ofFloat? x = some b) : b.IsDouble := isDouble_of_ofBits? h

/-- The parts determine the double. -/
theorem eq_of_parts {c : Binary} (hx : ofFloat? x = some b) (hy : ofFloat? y = some c)
    (negative : b.negative = c.negative) (significand : b.significand = c.significand)
    (exponent : b.exponent = c.exponent) : x = y := by
  have bits : b.bits = c.bits := by rw [bits, bits, negative, significand, exponent]
  rw [bits_of_ofBits? x.toBits.toNat_lt hx, bits_of_ofBits? y.toBits.toNat_lt hy] at bits
  obtain ⟨⟨n, hn⟩⟩ := x
  obtain ⟨⟨m, hm⟩⟩ := y
  cases UInt64.toNat_inj.1 bits
  rfl

open Float.Model.UnpackedFloat in
/-- There are no parts when all bits of the exponent are ones, which is when a double is not
finite. -/
theorem ofFloat?_eq_none_iff : ofFloat? x = none ↔ x.isFinite = false := by
  rw [ofFloat?_eq, ofBits?_eq_none_iff]
  obtain ⟨⟨n, hn⟩⟩ := x
  change n.toNat / 2 ^ 52 % 2 ^ 11 = 2047 ↔ (unpack .binary64 n.toBitVec).isFinite = false
  have field : (@unpackExponent .binary64 n.toBitVec).toNat = n.toNat / 2 ^ 52 % 2 ^ 11 := by
    simp [unpackExponent, BitVec.extractLsb, Nat.shiftRight_eq_div_pow]
  have ones : @unpackExponent .binary64 n.toBitVec = -1#11 ↔
      n.toNat / 2 ^ 52 % 2 ^ 11 = 2047 := by
    rw [← BitVec.toNat_inj, field]
    rfl
  rw [← ones]
  unfold unpack
  dsimp only
  by_cases infinite : @unpackExponent .binary64 n.toBitVec = -1#11
  · rw [if_pos infinite]
    refine iff_of_true infinite ?_
    split
    · rfl
    · rfl
  · rw [if_neg infinite]
    refine iff_of_false infinite ?_
    by_cases subnormal : @unpackExponent .binary64 n.toBitVec = 0#11
    · rw [if_pos subnormal]
      by_cases zero : @unpackMantissa .binary64 n.toBitVec = 0#52
      · rw [dif_pos zero]
        exact Bool.noConfusion
      · rw [dif_neg zero]
        exact Bool.noConfusion
    · rw [if_neg subnormal]
      exact Bool.noConfusion

end Binary

/-! ## Numerals of doubles -/

section Injective

variable {x y : Float}

theorem Numeral.ofFloat?_eq_none_iff : Numeral.ofFloat? x = none ↔ x.isFinite = false :=
  Option.map_eq_none_iff.trans Binary.ofFloat?_eq_none_iff

/-- The numeral of a finite double determines it. -/
theorem Numeral.eq_of_ofFloat? {n : Numeral} (hx : Numeral.ofFloat? x = some n)
    (hy : Numeral.ofFloat? y = some n) : x = y := by
  obtain ⟨b, hb, hbn⟩ := Option.map_eq_some_iff.1 hx
  obtain ⟨c, hc, hcn⟩ := Option.map_eq_some_iff.1 hy
  have same : ofDecimal b.negative b.shortest = ofDecimal c.negative c.shortest :=
    hbn.trans hcn.symm
  have negative : b.negative = c.negative := by
    have sign (s : Bool) (d : ScaledDecimal) : (ofDecimal s d).negative = s := by
      unfold ofDecimal
      dsimp only
      split_ifs <;> rfl
    rw [← sign b.negative b.shortest, same, sign]
  have size : b.shortest.value = c.shortest.value := by
    rw [← value_ofDecimal b.negative, same, value_ofDecimal]
  obtain ⟨significand, exponent⟩ := Binary.eq_of_value_shortest_eq
    (Binary.isDouble_of_ofFloat? hb) (Binary.isDouble_of_ofFloat? hc) size
  exact Binary.eq_of_parts hb hc negative significand exponent

theorem Json.ofFloat_eq_null_iff : Json.ofFloat x = .null ↔ x.isFinite = false := by
  rw [← Numeral.ofFloat?_eq_none_iff, Json.ofFloat]
  cases Numeral.ofFloat? x with
  | none => exact iff_of_true rfl rfl
  | some n => exact iff_of_false Json.noConfusion (Option.some_ne_none n)

/-- **The text of a double determines it when it is finite**, and says nothing else of one that is
not. -/
theorem Json.ofFloat_eq_iff :
    Json.ofFloat x = Json.ofFloat y ↔ x = y ∨ x.isFinite = false ∧ y.isFinite = false := by
  constructor
  · intro same
    by_cases hx : x.isFinite = false
    · refine .inr ⟨hx, ?_⟩
      rw [← Json.ofFloat_eq_null_iff, ← same, Json.ofFloat_eq_null_iff]
      exact hx
    · have hy : y.isFinite ≠ false := by
        rw [Ne, ← Json.ofFloat_eq_null_iff, ← same, Json.ofFloat_eq_null_iff]
        exact hx
      obtain ⟨n, hn⟩ := Option.ne_none_iff_exists'.1 (mt Numeral.ofFloat?_eq_none_iff.1 hx)
      obtain ⟨m, hm⟩ := Option.ne_none_iff_exists'.1 (mt Numeral.ofFloat?_eq_none_iff.1 hy)
      rw [Json.ofFloat, Json.ofFloat, hn, hm] at same
      cases same
      exact .inl (Numeral.eq_of_ofFloat? hn hm)
  · rintro (rfl | ⟨hx, hy⟩)
    · rfl
    · rw [Json.ofFloat_eq_null_iff.2 hx, Json.ofFloat_eq_null_iff.2 hy]

end Injective

end ManuscriptReach
