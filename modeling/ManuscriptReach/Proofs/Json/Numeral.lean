import Mathlib.Data.List.Basic
import Mathlib.Tactic.SplitIfs
import ManuscriptReach.Json.Numeral

/-!
# Numerals in writing

`Numeral.IsGrammatical` says that a numeral has digits where digits belong.  Such a
numeral reads back from its text, whatever follows, as long as that does not continue
it (`Numeral.read?_text`).

The numerals that are written are grammatical: those of natural numbers, and those of
doubles.  For doubles this hangs on one fact about the shortest decimal.  It is zero
only as `0 * 10 ^ 0`, so no zeros are put behind a zero.
-/

namespace ManuscriptReach

namespace Numeral

/-- The numeral has digits where digits belong, and no needless zero in front. -/
structure IsGrammatical (n : Numeral) : Prop where
  whole : ∀ c ∈ n.whole, c.isDigit = true
  allowed : wholeAllowed n.whole = true
  places : ∀ c ∈ n.places, c.isDigit = true
  exponent : ∀ e ∈ n.exponent, e.digits ≠ [] ∧ ∀ c ∈ e.digits, c.isDigit = true

/-- A text does not begin with a digit. -/
def NoDigit (rest : List Char) : Prop := ∀ c ∈ rest.head?, c.isDigit = false

/-- A text does not continue a numeral in front of it. -/
def Ends (rest : List Char) : Prop :=
  ∀ c ∈ rest.head?, c.isDigit = false ∧ c ≠ '.' ∧ c ≠ 'e' ∧ c ≠ 'E'

theorem Ends.noDigit {rest : List Char} (h : Ends rest) : NoDigit rest := fun c hc ↦ (h c hc).1

theorem ends_nil : Ends [] := fun _ h ↦ by cases h

theorem ends_cons {c : Char} {rest : List Char}
    (h : c.isDigit = false ∧ c ≠ '.' ∧ c ≠ 'e' ∧ c ≠ 'E') : Ends (c :: rest) := by
  intro d hd
  cases hd
  exact h

/-! ## Reading back -/

section Digits

variable {ds rest : List Char}

/-- A run of digits is cut off where it ends. -/
theorem takeWhile_digits (hd : ∀ c ∈ ds, c.isDigit = true) (hr : NoDigit rest) :
    (ds ++ rest).takeWhile Char.isDigit = ds := by
  rw [List.takeWhile_append_of_pos hd]
  cases rest with
  | nil => simp
  | cons c cs => simp [hr c rfl]

theorem dropWhile_digits (hd : ∀ c ∈ ds, c.isDigit = true) (hr : NoDigit rest) :
    (ds ++ rest).dropWhile Char.isDigit = rest := by
  rw [List.dropWhile_append_of_pos hd]
  cases rest with
  | nil => rfl
  | cons c cs => simp [hr c rfl]

end Digits

variable {rest : List Char}

theorem readExponent?_text {e : Exponent} (ne : e.digits ≠ [])
    (digits : ∀ c ∈ e.digits, c.isDigit = true) (hr : NoDigit rest) :
    readExponent? ((if e.negative then '-' else '+') :: (e.digits ++ rest)) = some (e, rest) := by
  obtain ⟨negative, ds⟩ := e
  cases negative with
  | true =>
    change (if (ds ++ rest).takeWhile Char.isDigit = [] then none
      else some ((⟨true, (ds ++ rest).takeWhile Char.isDigit⟩ : Exponent),
        (ds ++ rest).dropWhile Char.isDigit)) = _
    rw [takeWhile_digits digits hr, dropWhile_digits digits hr, if_neg ne]
  | false =>
    change (if (ds ++ rest).takeWhile Char.isDigit = [] then none
      else some ((⟨false, (ds ++ rest).takeWhile Char.isDigit⟩ : Exponent),
        (ds ++ rest).dropWhile Char.isDigit)) = _
    rw [takeWhile_digits digits hr, dropWhile_digits digits hr, if_neg ne]

/-- The text of an exponent that may be missing. -/
def tailText (e : Option Exponent) : List Char := e.elim [] Exponent.text

theorem readTail?_tailText {e : Option Exponent}
    (he : ∀ x ∈ e, x.digits ≠ [] ∧ ∀ c ∈ x.digits, c.isDigit = true) (hr : Ends rest) :
    readTail? (tailText e ++ rest) = some (e, rest) := by
  cases e with
  | none =>
    change readTail? rest = _
    unfold readTail?
    split
    next r => exact absurd rfl (hr 'e' rfl).2.2.1
    next r => exact absurd rfl (hr 'E' rfl).2.2.2
    next => rfl
  | some x =>
    obtain ⟨ne, digits⟩ := he x rfl
    change (readExponent? (_ :: (x.digits ++ rest))).map _ = _
    rw [readExponent?_text ne digits hr.noDigit]
    rfl

/-- What follows the digits of a numeral is no digit and no point. -/
theorem head?_tailText {e : Option Exponent} (hr : Ends rest) :
    ∀ c ∈ (tailText e ++ rest).head?, c.isDigit = false ∧ c ≠ '.' := by
  intro c hc
  cases e with
  | none => exact ⟨(hr c hc).1, (hr c hc).2.1⟩
  | some x =>
    cases hc
    decide

/-- The text of the places, if there are any. -/
def placesText (places : List Char) : List Char := if places = [] then [] else '.' :: places

theorem readPlaces?_placesText {places : List Char} (digits : ∀ c ∈ places, c.isDigit = true)
    (hr : ∀ c ∈ rest.head?, c.isDigit = false ∧ c ≠ '.') :
    readPlaces? (placesText places ++ rest) = some (places, rest) := by
  unfold placesText
  split
  next h =>
    rw [h, List.nil_append]
    unfold readPlaces?
    split
    next r => exact absurd rfl (hr '.' rfl).2
    next => rfl
  next h =>
    have noDigit : NoDigit rest := fun c hc ↦ (hr c hc).1
    change (if (places ++ rest).takeWhile Char.isDigit = [] then none
      else some ((places ++ rest).takeWhile Char.isDigit,
        (places ++ rest).dropWhile Char.isDigit)) = _
    rw [takeWhile_digits digits noDigit, dropWhile_digits digits noDigit, if_neg h]

theorem noDigit_placesText {places : List Char}
    (hr : ∀ c ∈ rest.head?, c.isDigit = false ∧ c ≠ '.') : NoDigit (placesText places ++ rest) := by
  intro c hc
  unfold placesText at hc
  split at hc
  · exact (hr c hc).1
  · cases hc
    decide

/-- The text of a grammatical numeral begins with a digit after its sign. -/
theorem exists_digit_of_allowed {whole : List Char} (digits : ∀ c ∈ whole, c.isDigit = true)
    (allowed : wholeAllowed whole = true) : ∃ c cs, whole = c :: cs ∧ c.isDigit = true := by
  cases whole with
  | nil => cases allowed
  | cons c cs => exact ⟨c, cs, rfl, digits c (List.mem_cons_self ..)⟩

theorem readUnsigned?_text {n : Numeral} (h : n.IsGrammatical) (hr : Ends rest) :
    readUnsigned? n.negative (n.whole ++ (placesText n.places ++ (tailText n.exponent ++ rest))) =
      some (n, rest) := by
  have tail := head?_tailText (e := n.exponent) hr
  have noDigit : NoDigit (placesText n.places ++ (tailText n.exponent ++ rest)) :=
    noDigit_placesText tail
  simp only [readUnsigned?, takeWhile_digits h.whole noDigit, dropWhile_digits h.whole noDigit,
    h.allowed, if_true, readPlaces?_placesText h.places tail, Option.bind_eq_bind,
    Option.bind_some, readTail?_tailText h.exponent hr]
  rfl

/-- A grammatical numeral reads back from its text. -/
theorem read?_text {n : Numeral} (h : n.IsGrammatical) (hr : Ends rest) :
    read? (n.text ++ rest) = some (n, rest) := by
  have text : n.text ++ rest = (if n.negative then ['-'] else []) ++
      (n.whole ++ (placesText n.places ++ (tailText n.exponent ++ rest))) := by
    simp only [Numeral.text, placesText, tailText, List.append_assoc]
  have unsigned := readUnsigned?_text h hr
  rw [text]
  cases hn : n.negative with
  | true =>
    rw [hn] at unsigned
    exact unsigned
  | false =>
    rw [hn] at unsigned
    obtain ⟨c, cs, hw, digit⟩ := exists_digit_of_allowed h.whole h.allowed
    rw [hw] at unsigned ⊢
    have plain : c ≠ '-' := by
      rintro rfl
      cases digit
    simp only [Bool.false_eq_true, if_false, List.nil_append, List.cons_append] at unsigned ⊢
    rw [read?]
    · exact unsigned
    · intro r hcr
      exact plain (List.cons.inj hcr).1

/-- The text of a numeral begins with its sign or a digit. -/
theorem IsGrammatical.exists_head {n : Numeral} (h : n.IsGrammatical) :
    ∃ c cs, n.text = c :: cs ∧ (c = '-' ∨ c.isDigit = true) := by
  obtain ⟨negative, whole, places, exponent⟩ := n
  cases negative with
  | true => exact ⟨'-', _, rfl, .inl rfl⟩
  | false =>
    obtain ⟨c, cs, rfl, digit⟩ := exists_digit_of_allowed h.whole h.allowed
    exact ⟨c, _, rfl, .inr digit⟩

/-! ## Natural numbers -/

theorem isDigit_of_mem_toDigits {m : Nat} {c : Char} (h : c ∈ Nat.toDigits 10 m) :
    c.isDigit = true :=
  Nat.isDigit_of_mem_toDigits (by decide) (by decide) h

/-- A positive number begins with no zero. -/
theorem head?_toDigits_ne {m : Nat} (h : m ≠ 0) : (Nat.toDigits 10 m).head? ≠ some '0' := by
  induction m using Nat.strongRecOn with
  | ind m ih =>
    rcases Nat.lt_or_ge m 10 with small | large
    · rw [Nat.toDigits_of_lt_base small]
      simpa using mt Nat.digitChar_eq_zero.1 h
    · rw [Nat.toDigits_of_base_le (by decide) large,
        List.head?_append_of_ne_nil _ Nat.toDigits_ne_nil]
      exact ih (m / 10) (by omega) (by omega)

theorem wholeAllowed_of_head? {ds : List Char} (ne : ds ≠ []) (h : ds.head? ≠ some '0') :
    wholeAllowed ds = true := by
  cases ds with
  | nil => exact absurd rfl ne
  | cons c cs =>
    have hc : c ≠ '0' := fun e ↦ h (by rw [e]; rfl)
    simp [wholeAllowed, hc]

theorem wholeAllowed_toDigits (m : Nat) : wholeAllowed (Nat.toDigits 10 m) = true := by
  by_cases h : m = 0
  · rw [h]
    decide
  · exact wholeAllowed_of_head? Nat.toDigits_ne_nil (head?_toDigits_ne h)

theorem isGrammatical_ofNat (m : Nat) : (ofNat m).IsGrammatical where
  whole _ hc := isDigit_of_mem_toDigits hc
  allowed := wholeAllowed_toDigits m
  places _ hc := by cases hc
  exponent _ he := by cases he

theorem digitsValue_toDigits (m : Nat) : digitsValue (Nat.toDigits 10 m) = m :=
  Nat.ofDigitChars_toDigits (by decide) (by decide)

/-- A number of at most 64 bits reads back from its numeral. -/
theorem natural?_ofNat {m : Nat} (h : m < wordLimit) : (ofNat m).natural? = some m := by
  have value : digitsValue (ofNat m).whole = m := digitsValue_toDigits m
  rw [natural?, value, if_pos ⟨rfl, rfl, rfl, h⟩]

/-- A number of at most 64 bits reads back from its digits. -/
theorem readNatural?_toDigits {n : Nat} (h : n < wordLimit) :
    readNatural? (Nat.toDigits 10 n) = some n := by
  have digits : (Nat.toDigits 10 n).all Char.isDigit = true :=
    List.all_eq_true.2 fun _ hc ↦ isDigit_of_mem_toDigits hc
  rw [readNatural?, digits, wholeAllowed_toDigits]
  exact natural?_ofNat h

theorem ofNat_injective {m n : Nat} (h : ofNat m = ofNat n) : m = n := by
  rw [← digitsValue_toDigits m, ← digitsValue_toDigits n]
  exact congrArg (fun x ↦ digitsValue x.whole) h

/-! ## Doubles -/

/-- A decimal has a grammatical numeral unless zeros would follow a zero. -/
theorem isGrammatical_ofDecimal (negative : Bool) {d : ScaledDecimal}
    (h : d.digits ≠ 0 ∨ d.exponent = 0) : (ofDecimal negative d).IsGrammatical := by
  have digits {c : Char} (hc : c ∈ Nat.toDigits 10 d.digits) : c.isDigit = true :=
    isDigit_of_mem_toDigits hc
  have zeros {k : Nat} {c : Char} (hc : c ∈ List.replicate k '0') : c.isDigit = true := by
    rw [(List.mem_replicate.1 hc).2]
    rfl
  have zero : ∀ c ∈ ['0'], c.isDigit = true := List.forall_mem_singleton.2 rfl
  have ne := Nat.toDigits_ne_nil (n := d.digits) (b := 10)
  have noExponent : ∀ e ∈ (none : Option Exponent),
      e.digits ≠ [] ∧ ∀ c ∈ e.digits, c.isDigit = true := fun e he ↦ by cases he
  unfold ofDecimal
  dsimp only
  split_ifs with whole mixed small
  · refine ⟨fun c hc ↦ (List.mem_append.1 hc).elim digits zeros, ?_, zero, noExponent⟩
    rcases h with h | h
    · refine wholeAllowed_of_head? (by simp [ne]) ?_
      rw [List.head?_append_of_ne_nil _ ne]
      exact head?_toDigits_ne h
    · rw [h]
      simpa using wholeAllowed_toDigits d.digits
  · refine ⟨fun c hc ↦ digits (List.mem_of_mem_take hc), ?_,
      fun c hc ↦ digits (List.mem_of_mem_drop hc), noExponent⟩
    have positive : d.digits ≠ 0 := h.resolve_right fun e ↦ whole ⟨by omega, mixed.2⟩
    have some_taken : ((Nat.toDigits 10 d.digits).length + d.exponent).toNat ≠ 0 := by omega
    refine wholeAllowed_of_head? ?_ ?_
    · simp [List.take_eq_nil_iff, ne, some_taken]
    · rw [List.head?_take, if_neg some_taken]
      exact head?_toDigits_ne positive
  · exact ⟨zero, rfl, fun c hc ↦ (List.mem_append.1 hc).elim zeros digits, noExponent⟩
  · refine ⟨fun c hc ↦ digits (List.mem_of_mem_take hc), ?_,
      fun c hc ↦ digits (List.mem_of_mem_drop hc), ?_⟩
    · obtain ⟨c, cs, hds⟩ := List.exists_cons_of_ne_nil ne
      rw [hds]
      simp [wholeAllowed]
    · intro e he
      cases he
      exact ⟨Nat.toDigits_ne_nil, fun c hc ↦ isDigit_of_mem_toDigits hc⟩

end Numeral

namespace Binary

/-- No positive size rounds to zero. -/
theorem isRoundedFrom_zero {b : Binary} (h : b.significand ≠ 0) (e : Int) :
    b.isRoundedFrom ⟨0, e⟩ = false := by
  have low (k : Nat) (hk : k < 4) (q : Int) :
      compareDecimalBinary 0 e (4 * b.significand - k) q = .lt := by
    have significand : 0 < 4 * b.significand - k := by omega
    have two : 0 < twoTo q.toNat := Nat.two_pow_pos _
    have ten : 0 < tenTo (-e).toNat := Nat.pow_pos (by decide)
    rw [compareDecimalBinary, Nat.zero_mul, Nat.zero_mul, Nat.compare_eq_lt]
    exact Nat.mul_pos (Nat.mul_pos significand two) ten
  have least : (if b.atPowerOfTwo then 1 else 2) < 4 := by split <;> decide
  unfold isRoundedFrom
  simp [low _ least]

theorem isRoundedFrom_of_firstRounded? {b : Binary} {d e f : ScaledDecimal}
    (h : b.firstRounded? d e = some f) : b.isRoundedFrom f = true := by
  unfold firstRounded? at h
  split at h
  next hd => exact Option.some.inj h ▸ hd
  next =>
    split at h
    next he => exact Option.some.inj h ▸ he
    next => cases h

theorem isRoundedFrom_of_candidate? {b : Binary} {n : Nat} {d : ScaledDecimal}
    (h : b.candidate? n = some d) : b.isRoundedFrom d = true := by
  unfold candidate? at h
  dsimp only at h
  split at h
  · exact isRoundedFrom_of_firstRounded? h
  · exact isRoundedFrom_of_firstRounded? h

/-- The shortest decimal is zero only with the exponent zero. -/
theorem digits_shortest (b : Binary) : b.shortest.digits ≠ 0 ∨ b.shortest.exponent = 0 := by
  unfold shortest
  split
  next => exact .inr rfl
  next positive =>
    cases h : (List.range' 1 17).findSome? b.candidate? with
    | none => exact .inr rfl
    | some d =>
      obtain ⟨n, -, hn⟩ := List.exists_of_findSome?_eq_some h
      have rounded := isRoundedFrom_of_candidate? hn
      have digits : d.digits ≠ 0 := by
        obtain ⟨digits, exponent⟩ := d
        rintro rfl
        rw [isRoundedFrom_zero positive] at rounded
        cases rounded
      refine .inl ?_
      change (carry d).digits ≠ 0
      unfold carry
      split
      · exact Nat.one_ne_zero
      · exact digits

end Binary

/-- The numeral of a double is grammatical. -/
theorem Numeral.isGrammatical_of_ofFloat? {x : Float} {n : Numeral}
    (h : Numeral.ofFloat? x = some n) : n.IsGrammatical := by
  obtain ⟨b, -, rfl⟩ := Option.map_eq_some_iff.1 h
  exact isGrammatical_ofDecimal b.negative b.digits_shortest

end ManuscriptReach
