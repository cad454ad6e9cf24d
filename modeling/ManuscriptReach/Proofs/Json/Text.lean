import Mathlib.Data.List.DropRight
import ManuscriptReach.Json.Writer
import ManuscriptReach.Json.Reader
import ManuscriptReach.Proofs.Json.Literal
import ManuscriptReach.Proofs.Json.Numeral

/-!
# Trees in writing

A tree is plain (`Json.IsPlain`) when it is built from numerals that are grammatical and
from literals that stand for texts.  In any layout that puts only blanks between the signs,
a plain tree reads back from its text (`Json.read?_write`), so different plain trees have
different texts.

The reader spends fuel, at most two units on a sign.  The proof follows the tree: a value
reads back in front of whatever ends it when its parts do, and the parts of an array or an
object are read one after the other.
-/

namespace ManuscriptReach

/-- Only blanks stand between the signs, and one colon after a name. -/
structure Layout.IsBlank (l : Layout) : Prop where
  gap : ∀ depth, ∀ c ∈ l.gap depth, Json.isSpace c = true
  colon : ∃ blanks, l.colon = ':' :: blanks ∧ ∀ c ∈ blanks, Json.isSpace c = true

theorem Layout.isBlank_compact : compact.IsBlank where
  gap _ _ h := nomatch h
  colon := ⟨[], rfl, fun _ h ↦ nomatch h⟩

theorem Layout.isBlank_indented : indented.IsBlank where
  gap depth c h := by
    rcases List.mem_cons.1 h with rfl | h
    · rfl
    · rw [(List.mem_replicate.1 h).2]
      rfl
  colon := ⟨[' '], rfl, List.forall_mem_singleton.2 rfl⟩

namespace Json

/-- Every numeral is grammatical, and every literal stands for a text. -/
inductive IsPlain : Json → Prop where
  | null : IsPlain null
  | bool (b : Bool) : IsPlain (bool b)
  | numeral {n : Numeral} (h : n.IsGrammatical) : IsPlain (numeral n)
  | ofString (s : String) : IsPlain (ofString s)
  | array {xs : List Json} (h : ∀ x ∈ xs, IsPlain x) : IsPlain (array xs)
  | record {ms : List (String × Json)} (h : ∀ m ∈ ms, IsPlain m.2) : IsPlain (record ms)

/-! ## Blanks -/

section Blanks

variable {blanks rest : List Char} {c : Char}

theorem skipSpaces_append (h : ∀ c ∈ blanks, isSpace c = true) :
    skipSpaces (blanks ++ rest) = skipSpaces rest := List.dropWhile_append_of_pos h

theorem skipSpaces_cons (h : isSpace c = false) : skipSpaces (c :: rest) = c :: rest := by
  simp [skipSpaces, h]

theorem skipSpaces_blanks (h : ∀ c ∈ blanks, isSpace c = true) (hc : isSpace c = false) :
    skipSpaces (blanks ++ c :: rest) = c :: rest := by
  rw [skipSpaces_append h, skipSpaces_cons hc]

theorem not_isDigit_of_isSpace (h : isSpace c = true) :
    c.isDigit = false ∧ c ≠ '.' ∧ c ≠ 'e' ∧ c ≠ 'E' := by
  simp only [isSpace, Bool.or_eq_true, beq_iff_eq] at h
  rcases h with ((rfl | rfl) | rfl) | rfl <;> decide

theorem skipSpaces_skipSpaces (cs : List Char) : skipSpaces (skipSpaces cs) = skipSpaces cs :=
  List.dropWhile_idempotent _ _

/-- Blanks end a numeral as well as what comes after them. -/
theorem ends_append (h : ∀ c ∈ blanks, isSpace c = true) (hr : Numeral.Ends rest) :
    Numeral.Ends (blanks ++ rest) := by
  cases blanks with
  | nil => exact hr
  | cons c cs => exact Numeral.ends_cons (not_isDigit_of_isSpace (h c (List.mem_cons_self ..)))

end Blanks

/-! ## The first sign of a text -/

theorem not_isSpace_of_head {c : Char} (h : c = '-' ∨ c.isDigit = true) :
    isSpace c = false ∧ c ≠ ']' := by
  rcases h with rfl | h
  · decide
  · constructor
    · refine Bool.eq_false_iff.2 fun hs ↦ ?_
      rw [(not_isDigit_of_isSpace hs).1] at h
      cases h
    · rintro rfl
      cases h

/-- A value begins with a sign, and not with one that closes an array. -/
theorem exists_head (l : Layout) (depth : Nat) {j : Json} (h : IsPlain j) :
    ∃ c cs, write l depth j = c :: cs ∧ isSpace c = false ∧ c ≠ ']' := by
  cases h with
  | null => exact ⟨_, _, rfl, by decide⟩
  | bool b => cases b <;> exact ⟨_, _, rfl, by decide⟩
  | numeral h =>
    obtain ⟨c, cs, hn, hc⟩ := h.exists_head
    exact ⟨c, cs, hn, not_isSpace_of_head hc⟩
  | ofString s => exact ⟨_, _, rfl, by decide⟩
  | @array xs h => cases xs <;> exact ⟨_, _, rfl, by decide⟩
  | @record ms h => cases ms <;> exact ⟨_, _, rfl, by decide⟩

/-- Blanks in front of a value are passed over, and no part of the value. -/
theorem skipSpaces_write (l : Layout) (depth : Nat) {j : Json} (h : IsPlain j)
    {blanks : List Char} (hb : ∀ c ∈ blanks, isSpace c = true) (rest : List Char) :
    skipSpaces (blanks ++ (write l depth j ++ rest)) = write l depth j ++ rest := by
  obtain ⟨c, cs, hw, hc, -⟩ := exists_head l depth h
  rw [hw, List.cons_append, skipSpaces_blanks hb hc]

theorem head?_write_ne {l : Layout} {depth : Nat} {j : Json} (h : IsPlain j) (rest : List Char) :
    (write l depth j ++ rest).head? ≠ some ']' := by
  obtain ⟨c, cs, hw, -, hc⟩ := exists_head l depth h
  rw [hw]
  exact fun e ↦ hc (Option.some.inj e)

/-! ## Reading back -/

/-- The value reads back from its text, at any depth and whatever ends it, with two units of fuel
for each sign. -/
def ReadsBack (l : Layout) (j : Json) : Prop :=
  ∀ (depth fuel : Nat) (cs rest : List Char), skipSpaces cs = write l depth j ++ rest →
    Numeral.Ends rest → 2 * (write l depth j).length ≤ fuel → readValue? fuel cs = some (j, rest)

variable {l : Layout}

theorem readsBack_numeral {n : Numeral} (h : n.IsGrammatical) : ReadsBack l (numeral n) := by
  intro depth fuel cs rest hcs hr hf
  change skipSpaces cs = n.text ++ rest at hcs
  change 2 * n.text.length ≤ fuel at hf
  obtain ⟨c, ds, hn, hc⟩ := h.exists_head
  have other (d : Char) (sign : d ≠ '-') (digit : d.isDigit = false) : c ≠ d := by
    rintro rfl
    rcases hc with rfl | hc
    · exact sign rfl
    · rw [digit] at hc
      cases hc
  cases fuel with
  | zero => simp [hn] at hf
  | succ fuel =>
    have read := Numeral.read?_text h hr
    rw [readValue?, hcs]
    rw [hn, List.cons_append] at read ⊢
    -- every other kind of value begins with a sign that no numeral begins with
    split
    next e => exact absurd (List.cons.inj e).1 (other 'n' (by decide) (by decide))
    next e => exact absurd (List.cons.inj e).1 (other 't' (by decide) (by decide))
    next e => exact absurd (List.cons.inj e).1 (other 'f' (by decide) (by decide))
    next e => exact absurd (List.cons.inj e).1 (other '"' (by decide) (by decide))
    next e => exact absurd (List.cons.inj e).1 (other '[' (by decide) (by decide))
    next e => exact absurd (List.cons.inj e).1 (other '\x7b' (by decide) (by decide))
    next =>
      rw [read]
      rfl

theorem readsBack_ofString (s : String) : ReadsBack l (ofString s) := by
  intro depth fuel cs rest hcs _ hf
  have text : write l depth (ofString s) ++ rest = '"' :: (Literal.encode s ++ '"' :: rest) := by
    simp [ofString, write]
  cases fuel with
  | zero => simp [ofString, write] at hf
  | succ fuel =>
    rw [readValue?, hcs, text]
    simp only [Literal.scan?_encode]
    rfl

/-- Items that read back are read one after the other up to the closing sign. -/
theorem readItems?_write (hl : l.IsBlank) {x : Json} {xs : List Json}
    (plain : ∀ y ∈ x :: xs, IsPlain y) (hx : ∀ y ∈ x :: xs, ReadsBack l y) (depth : Nat)
    {blanks : List Char} (hb : ∀ c ∈ blanks, isSpace c = true) {fuel : Nat} {cs rest : List Char}
    (hcs : skipSpaces cs = write l depth x ++ (writeItems l depth xs ++ (blanks ++ ']' :: rest)))
    (hf : 2 * ((write l depth x).length + (writeItems l depth xs).length + 1) ≤ fuel) :
    readItems? fuel cs = some (x :: xs, rest) := by
  induction xs generalizing x fuel cs with
  | nil =>
    cases fuel with
    | zero => omega
    | succ fuel =>
      have ends : Numeral.Ends (blanks ++ ']' :: rest) :=
        ends_append hb (Numeral.ends_cons (by decide))
      rw [readItems?, hx x (List.mem_cons_self ..) depth fuel cs _ hcs ends (by omega)]
      simp only [writeItems, List.nil_append,
        skipSpaces_blanks hb (show isSpace ']' = false by decide)]
  | cons y ys ih =>
    cases fuel with
    | zero => omega
    | succ fuel =>
      -- the comma ends the first item, and the second begins after the blanks
      have next : skipSpaces (l.gap depth ++ (write l depth y ++
          (writeItems l depth ys ++ (blanks ++ ']' :: rest)))) = _ :=
        skipSpaces_write l depth (plain y (by simp)) (hl.gap depth) _
      simp only [writeItems, List.cons_append, List.append_assoc] at hcs
      simp only [writeItems, List.length_cons, List.length_append] at hf
      rw [readItems?, hx x (List.mem_cons_self ..) depth fuel cs _ hcs
        (Numeral.ends_cons (by decide)) (by omega)]
      simp only [skipSpaces_cons (show isSpace ',' = false by decide)]
      rw [ih (fun z hz ↦ plain z (List.mem_cons_of_mem _ hz))
        (fun z hz ↦ hx z (List.mem_cons_of_mem _ hz)) next (by omega)]
      rfl

/-- An array whose first sign is not the closing one has items. -/
theorem readValue?_items {fuel : Nat} {cs inner : List Char} (hcs : skipSpaces cs = '[' :: inner)
    (hi : (skipSpaces inner).head? ≠ some ']') :
    readValue? (fuel + 1) cs =
      (readItems? fuel (skipSpaces inner)).map fun p ↦ (array p.1, p.2) := by
  generalize hs : skipSpaces inner = ds at hi ⊢
  rw [readValue?, hcs]
  simp only [hs]
  split
  next => exact absurd rfl hi
  next => rfl

/-- An array reads back when its items do. -/
theorem readsBack_array (hl : l.IsBlank) {xs : List Json} (plain : ∀ x ∈ xs, IsPlain x)
    (hx : ∀ x ∈ xs, ReadsBack l x) : ReadsBack l (array xs) := by
  intro depth fuel cs rest hcs _ hf
  cases fuel with
  | zero => cases xs <;> simp [write] at hf
  | succ fuel =>
    cases xs with
    | nil =>
      rw [readValue?, hcs]
      simp only [write, List.cons_append, List.nil_append,
        skipSpaces_cons (show isSpace ']' = false by decide)]
    | cons x xs =>
      simp only [write, List.length_cons, List.length_append] at hf
      simp only [write, List.cons_append, List.append_assoc, List.nil_append] at hcs
      have first := plain x (List.mem_cons_self ..)
      have inner := skipSpaces_write l (depth + 1) first (hl.gap (depth + 1))
        (writeItems l (depth + 1) xs ++ (l.gap depth ++ ']' :: rest))
      rw [readValue?_items hcs (by rw [inner]; exact head?_write_ne first _),
        readItems?_write hl plain hx (depth + 1) (hl.gap depth)
          ((skipSpaces_skipSpaces _).trans inner) (by omega)]
      rfl

/-- An object whose first sign is not the closing one has members. -/
theorem readValue?_members {fuel : Nat} {cs inner : List Char}
    (hcs : skipSpaces cs = '\x7b' :: inner) (hi : (skipSpaces inner).head? ≠ some '\x7d') :
    readValue? (fuel + 1) cs =
      (readMembers? fuel (skipSpaces inner)).map fun p ↦ (object p.1, p.2) := by
  generalize hs : skipSpaces inner = ds at hi ⊢
  rw [readValue?, hcs]
  simp only [hs]
  split
  next => exact absurd rfl hi
  next => rfl

/-- The members of an object under names in writing. -/
def inWriting (ms : List (String × Json)) : List (List Char × Json) :=
  ms.map fun p ↦ (Literal.encode p.1, p.2)

@[simp] theorem inWriting_cons (m : String × Json) (ms : List (String × Json)) :
    inWriting (m :: ms) = (Literal.encode m.1, m.2) :: inWriting ms := rfl

/-- A member begins with a quote. -/
theorem writeMember_eq (depth : Nat) (m : List Char × Json) :
    writeMember l depth m = '"' :: (m.1 ++ '"' :: (l.colon ++ write l depth m.2)) := by
  rw [writeMember]

theorem skipSpaces_writeMember (l : Layout) (depth : Nat) (m : List Char × Json)
    {blanks : List Char} (hb : ∀ c ∈ blanks, isSpace c = true) (rest : List Char) :
    skipSpaces (blanks ++ (writeMember l depth m ++ rest)) = writeMember l depth m ++ rest := by
  rw [writeMember_eq, List.cons_append, skipSpaces_blanks hb (by decide)]

theorem head?_writeMember (depth : Nat) (m : List Char × Json) (rest : List Char) :
    (writeMember l depth m ++ rest).head? = some '"' := by
  rw [writeMember_eq, List.cons_append, List.head?_cons]

/-- A member whose value reads back is read; what follows closes the object or separates it from
the next member. -/
theorem readMembers?_writeMember (hl : l.IsBlank) {m : String × Json} (plain : IsPlain m.2)
    (hm : ReadsBack l m.2) {depth fuel : Nat} {cs rest : List Char}
    (hcs : skipSpaces cs = writeMember l depth (Literal.encode m.1, m.2) ++ rest)
    (hr : Numeral.Ends rest)
    (hf : 2 * (writeMember l depth (Literal.encode m.1, m.2)).length ≤ fuel + 1) :
    (∀ r, skipSpaces rest = '\x7d' :: r →
        readMembers? (fuel + 1) cs = some ([(Literal.encode m.1, m.2)], r)) ∧
      ∀ r, skipSpaces rest = ',' :: r → readMembers? (fuel + 1) cs =
        (readMembers? fuel r).map fun p ↦ ((Literal.encode m.1, m.2) :: p.1, p.2) := by
  obtain ⟨blanks, colon, hb⟩ := hl.colon
  simp only [writeMember, colon, List.cons_append, List.append_assoc] at hcs
  simp only [writeMember, List.length_cons, List.length_append] at hf
  have value := hm depth fuel _ _ (skipSpaces_write l depth plain hb rest) hr (by omega)
  have sign : isSpace ':' = false := by decide
  constructor
  · intro r close
    rw [readMembers?, hcs]
    simp only [Literal.scan?_encode, skipSpaces_cons sign, value, close]
  · intro r comma
    rw [readMembers?, hcs]
    simp only [Literal.scan?_encode, skipSpaces_cons sign, value, comma]

/-- Members whose values read back are read one after the other up to the closing sign. -/
theorem readMembers?_write (hl : l.IsBlank) {m : String × Json} {ms : List (String × Json)}
    (plain : ∀ p ∈ m :: ms, IsPlain p.2) (hm : ∀ p ∈ m :: ms, ReadsBack l p.2) (depth : Nat)
    {blanks : List Char} (hb : ∀ c ∈ blanks, isSpace c = true) {fuel : Nat} {cs rest : List Char}
    (hcs : skipSpaces cs = writeMember l depth (Literal.encode m.1, m.2) ++
      (writeMembers l depth (inWriting ms) ++ (blanks ++ '\x7d' :: rest)))
    (hf : 2 * ((writeMember l depth (Literal.encode m.1, m.2)).length +
      (writeMembers l depth (inWriting ms)).length + 1) ≤ fuel) :
    readMembers? fuel cs = some (inWriting (m :: ms), rest) := by
  induction ms generalizing m fuel cs with
  | nil =>
    cases fuel with
    | zero => omega
    | succ fuel =>
      have ends : Numeral.Ends (blanks ++ '\x7d' :: rest) :=
        ends_append hb (Numeral.ends_cons (by decide))
      exact (readMembers?_writeMember hl (plain m (by simp)) (hm m (by simp)) hcs ends
        (by omega)).1 rest (skipSpaces_blanks hb (by decide))
  | cons n ms ih =>
    cases fuel with
    | zero => omega
    | succ fuel =>
      simp only [inWriting_cons, writeMembers, List.length_cons, List.length_append] at hf
      simp only [inWriting_cons, writeMembers, List.cons_append, List.append_assoc] at hcs
      have next := skipSpaces_writeMember l depth (Literal.encode n.1, n.2) (hl.gap depth)
        (writeMembers l depth (inWriting ms) ++ (blanks ++ '\x7d' :: rest))
      rw [(readMembers?_writeMember hl (plain m (by simp)) (hm m (by simp)) hcs
          (Numeral.ends_cons (by decide)) (by omega)).2 _ (skipSpaces_cons (by decide)),
        ih (fun p hp ↦ plain p (List.mem_cons_of_mem _ hp))
          (fun p hp ↦ hm p (List.mem_cons_of_mem _ hp)) next (by omega)]
      rfl

/-- An object reads back when the values of its members do. -/
theorem readsBack_record (hl : l.IsBlank) {ms : List (String × Json)}
    (plain : ∀ m ∈ ms, IsPlain m.2) (hm : ∀ m ∈ ms, ReadsBack l m.2) : ReadsBack l (record ms) := by
  change ReadsBack l (object (inWriting ms))
  intro depth fuel cs rest hcs _ hf
  cases fuel with
  | zero => cases ms <;> simp [inWriting, write] at hf
  | succ fuel =>
    cases ms with
    | nil =>
      rw [readValue?, hcs]
      simp only [inWriting, List.map_nil, write, List.cons_append, List.nil_append,
        skipSpaces_cons (show isSpace '\x7d' = false by decide)]
    | cons m ms =>
      simp only [inWriting_cons, write, List.length_cons, List.length_append] at hf
      simp only [inWriting_cons, write, List.cons_append, List.append_assoc,
        List.nil_append] at hcs
      have inner := skipSpaces_writeMember l (depth + 1) (Literal.encode m.1, m.2)
        (hl.gap (depth + 1))
        (writeMembers l (depth + 1) (inWriting ms) ++ (l.gap depth ++ '\x7d' :: rest))
      rw [readValue?_members hcs (by rw [inner, head?_writeMember]; decide),
        readMembers?_write hl plain hm (depth + 1) (hl.gap depth)
          ((skipSpaces_skipSpaces _).trans inner) (by omega)]
      rfl

/-- A plain value reads back from its text, whatever ends it. -/
theorem IsPlain.readsBack (hl : l.IsBlank) {j : Json} (h : IsPlain j) : ReadsBack l j := by
  have word {j : Json} {w : List Char} (hw : ∀ depth, write l depth j = w)
      (read : ∀ fuel cs rest, skipSpaces cs = w ++ rest →
        readValue? (fuel + 1) cs = some (j, rest)) (ne : w ≠ []) : ReadsBack l j := by
    intro depth fuel cs rest hcs _ hf
    rw [hw] at hcs hf
    cases fuel with
    | zero => exact absurd (List.length_eq_zero_iff.1 (by omega)) ne
    | succ fuel => exact read fuel cs rest hcs
  induction h with
  | null => exact word (fun _ ↦ rfl) (fun _ _ _ h ↦ by rw [readValue?, h]; rfl) (by decide)
  | bool b =>
    cases b with
    | true => exact word (fun _ ↦ rfl) (fun _ _ _ h ↦ by rw [readValue?, h]; rfl) (by decide)
    | false => exact word (fun _ ↦ rfl) (fun _ _ _ h ↦ by rw [readValue?, h]; rfl) (by decide)
  | numeral h => exact readsBack_numeral h
  | ofString s => exact readsBack_ofString s
  | array h ih => exact readsBack_array hl h ih
  | record h ih => exact readsBack_record hl h ih

/-- A plain tree reads back from its text. -/
theorem read?_write (hl : l.IsBlank) {j : Json} (h : IsPlain j) :
    read? (String.ofList (write l 0 j)) = some j := by
  have start : skipSpaces ([] ++ (write l 0 j ++ [])) = write l 0 j ++ [] :=
    skipSpaces_write l 0 h (by simp) []
  have value := h.readsBack hl 0 (2 * (write l 0 j).length + 2) _ [] start Numeral.ends_nil
    (by omega)
  rw [List.nil_append, List.append_nil] at value
  rw [read?, String.toList_ofList]
  simp only [value]
  rfl

theorem read?_compact {j : Json} (h : IsPlain j) : read? j.compact = some j :=
  read?_write Layout.isBlank_compact h

theorem read?_indented {j : Json} (h : IsPlain j) : read? j.indented = some j :=
  read?_write Layout.isBlank_indented h

/-- Different plain trees have different texts. -/
theorem eq_of_compact_eq {i j : Json} (hi : IsPlain i) (hj : IsPlain j)
    (h : i.compact = j.compact) : i = j := by
  have read := read?_compact hi
  rw [h, read?_compact hj] at read
  exact (Option.some.inj read).symm

/-! ## Text on one line -/

theorem space_le_of_all {cs : List Char} (h : cs.all (fun c ↦ decide (' ' ≤ c)) = true) :
    ∀ c ∈ cs, ' ' ≤ c := fun c hc ↦ of_decide_eq_true (List.all_eq_true.1 h c hc)

theorem space_le_of_isDigit {c : Char} (h : c.isDigit = true) : ' ' ≤ c := by
  simp only [Char.isDigit, Bool.and_eq_true, decide_eq_true_eq] at h
  exact UInt32.le_trans (by decide) h.1

/-- The text of a grammatical numeral holds no control character. -/
theorem space_le_of_mem_text {n : Numeral} (h : n.IsGrammatical) : ∀ c ∈ n.text, ' ' ≤ c := by
  have digits {ds : List Char} (hd : ∀ c ∈ ds, c.isDigit = true) : ∀ c ∈ ds, ' ' ≤ c :=
    fun c hc ↦ space_le_of_isDigit (hd c hc)
  have tail : ∀ c ∈ n.exponent.elim [] Exponent.text, ' ' ≤ c := by
    cases he : n.exponent with
    | none => simp
    | some e =>
      have sign : ' ' ≤ if e.negative then '-' else '+' := by split <;> decide
      simp only [Option.elim_some, Exponent.text, List.forall_mem_cons]
      exact ⟨by decide, sign, digits (h.exponent e he).2⟩
  simp only [Numeral.text, List.forall_mem_append]
  refine ⟨⟨⟨?_, digits h.whole⟩, ?_⟩, tail⟩
  · split <;> exact space_le_of_all rfl
  · split
    · simp
    · exact List.forall_mem_cons.2 ⟨by decide, digits h.places⟩

theorem space_le_writeItems {depth : Nat} {xs : List Json}
    (h : ∀ x ∈ xs, ∀ c ∈ write .compact depth x, ' ' ≤ c) :
    ∀ c ∈ writeItems .compact depth xs, ' ' ≤ c := by
  induction xs with
  | nil => simp [writeItems]
  | cons x xs ih =>
    obtain ⟨hx, hxs⟩ := List.forall_mem_cons.1 h
    simp only [writeItems, Layout.compact, List.nil_append, List.forall_mem_cons,
      List.forall_mem_append]
    exact ⟨by decide, hx, ih hxs⟩

theorem space_le_writeMember {depth : Nat} {m : String × Json}
    (h : ∀ c ∈ write .compact depth m.2, ' ' ≤ c) :
    ∀ c ∈ writeMember .compact depth (Literal.encode m.1, m.2), ' ' ≤ c := by
  have name : ∀ c ∈ Literal.encode m.1, ' ' ≤ c := fun c ↦ Literal.space_le_of_mem_encode
  simp only [writeMember, Layout.compact, List.forall_mem_cons, List.forall_mem_append,
    List.nil_append, List.cons_append]
  exact ⟨by decide, name, by decide, by decide, h⟩

theorem space_le_writeMembers {depth : Nat} {ms : List (String × Json)}
    (h : ∀ m ∈ ms, ∀ c ∈ write .compact depth m.2, ' ' ≤ c) :
    ∀ c ∈ writeMembers .compact depth (inWriting ms), ' ' ≤ c := by
  induction ms with
  | nil => simp [inWriting, writeMembers]
  | cons m ms ih =>
    obtain ⟨hm, hms⟩ := List.forall_mem_cons.1 h
    simp only [inWriting_cons, writeMembers, Layout.compact, List.nil_append,
      List.forall_mem_cons, List.forall_mem_append]
    exact ⟨by decide, space_le_writeMember hm, ih hms⟩

/-- The compact text of a plain tree holds no control character, so it is one line. -/
theorem IsPlain.space_le {j : Json} (h : IsPlain j) (depth : Nat) :
    ∀ c ∈ write .compact depth j, ' ' ≤ c := by
  induction h generalizing depth with
  | null => exact space_le_of_all rfl
  | bool b => cases b <;> exact space_le_of_all rfl
  | numeral h => exact space_le_of_mem_text h
  | ofString s =>
    simp only [Json.ofString, write, List.forall_mem_cons, List.forall_mem_append]
    exact ⟨by decide, fun c ↦ Literal.space_le_of_mem_encode, by decide, List.forall_mem_nil _⟩
  | @array xs h ih =>
    cases xs with
    | nil => exact space_le_of_all rfl
    | cons x xs =>
      obtain ⟨hx, hxs⟩ := List.forall_mem_cons.1 ih
      simp only [write, Layout.compact, List.nil_append, List.append_nil, List.forall_mem_cons,
        List.forall_mem_append]
      exact ⟨by decide, ⟨hx _, space_le_writeItems fun y hy ↦ hxs y hy _⟩, by decide,
        List.forall_mem_nil _⟩
  | @record ms h ih =>
    change ∀ c ∈ write .compact depth (object (inWriting ms)), ' ' ≤ c
    cases ms with
    | nil => exact space_le_of_all rfl
    | cons m ms =>
      obtain ⟨hm, hms⟩ := List.forall_mem_cons.1 ih
      simp only [inWriting_cons, write, Layout.compact, List.nil_append, List.append_nil,
        List.forall_mem_cons, List.forall_mem_append]
      exact ⟨by decide, ⟨space_le_writeMember (hm _), space_le_writeMembers fun n hn ↦ hms n hn _⟩,
        by decide, List.forall_mem_nil _⟩

theorem IsPlain.lineFeed_not_mem_compact {j : Json} (h : IsPlain j) : '\n' ∉ j.compact.toList := by
  rw [compact, String.toList_ofList]
  exact fun mem ↦ absurd (h.space_le 0 _ mem) (by decide)

end Json

end ManuscriptReach
