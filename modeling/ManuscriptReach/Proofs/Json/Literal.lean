import Mathlib.Logic.Function.Basic
import Mathlib.Tactic.SplitIfs
import ManuscriptReach.Json.Literal

/-!
# Every text can be written as a literal

What `Literal.encode` writes, `Literal.scan?` cuts off at the closing quote and
`Literal.decode?` reads back.  Both readers go through a body from left to right, so
both facts follow from what they do with the encoding of one character.

No body holds a control character, so a line end is never part of one.
-/

namespace ManuscriptReach.Literal

theorem hexValue?_hexDigit : ∀ n < 16, hexValue? (hexDigit n) = some n := by decide

/-- Two digits are enough for the number of a control character. -/
theorem hexWord?_control {n : Nat} (h : n < 32) :
    hexWord? '0' '0' (hexDigit (n / 16)) (hexDigit (n % 16)) = some n := by
  have zero : hexValue? '0' = some 0 := by decide
  rw [hexWord?, zero, hexValue?_hexDigit _ (by omega), hexValue?_hexDigit _ (by omega)]
  change some (((0 * 16 + 0) * 16 + n / 16) * 16 + n % 16) = some n
  congr 1
  omega

/-- A character is written in one of three ways: behind a backslash as itself or as a letter that
stands for it, by its number, or plainly. -/
theorem encodeChar_cases (c : Char) :
    (∃ e, encodeChar c = ['\\', e] ∧ escaped? e = some c ∧ e ≠ 'u' ∧ ' ' ≤ e) ∨
      (c.toNat < 32 ∧
        encodeChar c = ['\\', 'u', '0', '0', hexDigit (c.toNat / 16), hexDigit (c.toNat % 16)]) ∨
      (c ≠ '"' ∧ c ≠ '\\' ∧ ' ' ≤ c ∧ encodeChar c = [c]) := by
  unfold encodeChar
  split_ifs with h1 h2 h3 h4 h5 h6 h7 h8
  · exact .inl ⟨'"', rfl, congrArg some h1.symm, by decide, by decide⟩
  · exact .inl ⟨'\\', rfl, congrArg some h2.symm, by decide, by decide⟩
  · exact .inl ⟨'b', rfl, congrArg some h3.symm, by decide, by decide⟩
  · exact .inl ⟨'f', rfl, congrArg some h4.symm, by decide, by decide⟩
  · exact .inl ⟨'n', rfl, congrArg some h5.symm, by decide, by decide⟩
  · exact .inl ⟨'r', rfl, congrArg some h6.symm, by decide, by decide⟩
  · exact .inl ⟨'t', rfl, congrArg some h7.symm, by decide, by decide⟩
  · exact .inr (.inl ⟨h8, rfl⟩)
  · exact .inr (.inr ⟨h1, h2, Char.not_lt.1 h8, rfl⟩)

/-- The encoding of a character is scanned as part of the body. -/
theorem scanAfter?_encodeChar (acc : List Char) (c : Char) (rest : List Char) :
    scanAfter? acc (encodeChar c ++ rest) = scanAfter? ((encodeChar c).reverse ++ acc) rest := by
  obtain ⟨e, he, hc, hu, -⟩ | ⟨small, he⟩ | ⟨quote, backslash, space, he⟩ := encodeChar_cases c
  · rw [he]
    simp [scanAfter?, hc, hu]
  · rw [he]
    simp [scanAfter?, hexWord?_control small]
  · rw [he]
    simp [scanAfter?, backslash, Char.not_lt.2 space]

/-- The encoding of a character stands for the character. -/
theorem decodeAfter?_encodeChar (acc : List Char) (c : Char) (rest : List Char) :
    decodeAfter? acc (encodeChar c ++ rest) = decodeAfter? (c :: acc) rest := by
  obtain ⟨e, he, hc, hu, -⟩ | ⟨small, he⟩ | ⟨-, backslash, -, he⟩ := encodeChar_cases c
  · rw [he]
    simp [decodeAfter?, hc, hu]
  · -- a number below 32 is no half of a surrogate pair
    have trailing : isTrailing c.toNat = false := by simp [isTrailing]; omega
    have leading : isLeading c.toNat = false := by simp [isLeading]; omega
    rw [he]
    simp [decodeAfter?, hexWord?_control small, trailing, leading]
  · rw [he]
    simp [decodeAfter?, backslash]

/-- Scanning a body that was written stops at the quote that ends it. -/
theorem scan?_encode (s : String) (rest : List Char) :
    scan? (encode s ++ '"' :: rest) = some (encode s, rest) := by
  have chars (cs : List Char) (acc : List Char) :
      scanAfter? acc (cs.flatMap encodeChar ++ '"' :: rest) =
        some (acc.reverse ++ cs.flatMap encodeChar, rest) := by
    induction cs generalizing acc with
    | nil => simp [scanAfter?]
    | cons c cs ih =>
      rw [List.flatMap_cons, List.append_assoc, scanAfter?_encodeChar, ih]
      simp
  exact chars s.toList []

/-- A body that was written stands for the text. -/
@[simp] theorem decode?_encode (s : String) : decode? (encode s) = some s := by
  have chars (cs : List Char) (acc : List Char) :
      decodeAfter? acc (cs.flatMap encodeChar) = some (acc.reverse ++ cs) := by
    induction cs generalizing acc with
    | nil => simp [decodeAfter?]
    | cons c cs ih =>
      rw [List.flatMap_cons, decodeAfter?_encodeChar, ih]
      simp
  rw [decode?, encode, chars]
  simp

theorem encode_injective : Function.Injective encode := by
  intro s t h
  have := congrArg decode? h
  simpa using this

theorem space_le_hexDigit : ∀ n < 16, ' ' ≤ hexDigit n := by decide

/-- A body that was written holds no control character. -/
theorem space_le_of_mem_encode {s : String} {d : Char} (h : d ∈ encode s) : ' ' ≤ d := by
  obtain ⟨c, -, hd⟩ := List.mem_flatMap.1 h
  obtain ⟨e, he, -, -, space⟩ | ⟨small, he⟩ | ⟨-, -, space, he⟩ := encodeChar_cases c
  · rw [he] at hd
    simp only [List.mem_cons, List.not_mem_nil, or_false] at hd
    rcases hd with rfl | rfl
    · decide
    · exact space
  · have high := space_le_hexDigit (c.toNat / 16) (by omega)
    have low := space_le_hexDigit (c.toNat % 16) (by omega)
    rw [he] at hd
    simp only [List.mem_cons, List.not_mem_nil, or_false] at hd
    rcases hd with rfl | rfl | rfl | rfl | rfl | rfl
    · decide
    · decide
    · decide
    · decide
    · exact high
    · exact low
  · rw [he, List.mem_singleton] at hd
    rw [hd]
    exact space

end ManuscriptReach.Literal
