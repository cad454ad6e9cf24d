import Mathlib.Data.List.TakeWhile
import ManuscriptReach.Text.Blank
import ManuscriptReach.Text.Line

/-!
# Pieces of a text

Trimming, cutting into runs and cutting into lines are computed by scans.  Here each
of them is described by how its pieces make up the whole again.

* `Trimmed` is what is left between the elements at both ends that pass a test.
* `Runs` are the maximal runs of elements that fail a test.
* `Lines` are the pieces in front of the line feeds, and what follows the last.

Each description fits exactly one result, the computed one.
-/

namespace ManuscriptReach

variable {α : Type}

/-! ## Trimming -/

/-- A list is some elements that pass a test, then `core`, then some more elements that pass it.
Neither the first nor the last element of `core` does. -/
structure Trimmed (p : α → Bool) (xs core : List α) : Prop where
  parts : ∃ front back, xs = front ++ core ++ back ∧
    (∀ x ∈ front, p x = true) ∧ ∀ x ∈ back, p x = true
  head : ∀ x ∈ core.head?, p x = false
  last : ∀ x ∈ core.getLast?, p x = false

section

variable {p : α → Bool} {xs core : List α}

theorem dropWhile_eq_self_of_head? (h : ∀ x ∈ xs.head?, p x = false) : xs.dropWhile p = xs := by
  cases xs with
  | nil => rfl
  | cons x xs => exact List.dropWhile_cons_of_neg (by simpa using h x rfl)

theorem head?_dropWhile (p : α → Bool) (xs : List α) :
    ∀ x ∈ (xs.dropWhile p).head?, p x = false := by
  intro x hx
  have stops := List.head?_dropWhile_not p xs
  rw [Option.mem_def.1 hx] at stops
  exact stops

/-- What passes the test at the end is dropped along with what passes it in front. -/
theorem dropWhile_reverse_append {back : List α} (h : ∀ x ∈ back, p x = true) :
    (core ++ back).reverse.dropWhile p = core.reverse.dropWhile p := by
  rw [List.reverse_append]
  exact List.dropWhile_append_of_pos fun x hx ↦ h x (List.mem_reverse.1 hx)

theorem trimWhere_trimmed (p : α → Bool) (xs : List α) : Trimmed p xs (trimWhere p xs) := by
  have front := List.takeWhile_append_dropWhile (p := p) (l := xs)
  have back := List.takeWhile_append_dropWhile (p := p) (l := (xs.dropWhile p).reverse)
  have rest : xs.dropWhile p =
      trimWhere p xs ++ ((xs.dropWhile p).reverse.takeWhile p).reverse := by
    rw [trimWhere, ← List.reverse_append, back, List.reverse_reverse]
  refine ⟨⟨xs.takeWhile p, ((xs.dropWhile p).reverse.takeWhile p).reverse, ?_, ?_, ?_⟩, ?_, ?_⟩
  · rw [List.append_assoc, ← rest, front]
  · exact fun x hx ↦ List.mem_takeWhile_imp hx
  · exact fun x hx ↦ List.mem_takeWhile_imp (List.mem_reverse.1 hx)
  · intro x hx
    apply head?_dropWhile p xs
    rw [rest, List.head?_append, Option.mem_def.1 hx]
    rfl
  · rw [trimWhere, List.getLast?_reverse]
    exact head?_dropWhile p _

theorem Trimmed.trimWhere_eq (h : Trimmed p xs core) : trimWhere p xs = core := by
  obtain ⟨front, back, rfl, passFront, passBack⟩ := h.parts
  have last : core.reverse.dropWhile p = core.reverse := by
    apply dropWhile_eq_self_of_head?
    rw [List.head?_reverse]
    exact h.last
  rw [trimWhere, List.append_assoc, List.dropWhile_append_of_pos passFront]
  cases core with
  | nil =>
    rw [List.nil_append, List.dropWhile_eq_nil_iff.2 passBack]
    rfl
  | cons c core =>
    have first : p c = false := h.head c rfl
    rw [List.cons_append, List.dropWhile_cons_of_neg (by simp [first]), ← List.cons_append,
      dropWhile_reverse_append passBack, last, List.reverse_reverse]

/-- A list without what passes the test in front begins as the trimmed list does. -/
theorem Trimmed.head?_dropWhile_eq (h : Trimmed p xs core) :
    (xs.dropWhile p).head? = core.head? := by
  obtain ⟨front, back, rfl, passFront, passBack⟩ := h.parts
  rw [List.append_assoc, List.dropWhile_append_of_pos passFront]
  cases core with
  | nil =>
    rw [List.nil_append, List.dropWhile_eq_nil_iff.2 passBack]
  | cons c core =>
    have first : p c = false := h.head c rfl
    rw [List.cons_append, List.dropWhile_cons_of_neg (by simp [first])]
    rfl

/-- A trimmed list is what is left between elements that pass the test. -/
theorem trimWhere_eq_iff : trimWhere p xs = core ↔ Trimmed p xs core :=
  ⟨fun h ↦ h ▸ trimWhere_trimmed p xs, Trimmed.trimWhere_eq⟩

/-- What passes the test at the end is trimmed off. -/
theorem Trimmed.append {gap : List α} (h : Trimmed p xs core) (pass : ∀ x ∈ gap, p x = true) :
    Trimmed p (xs ++ gap) core := by
  obtain ⟨front, back, rfl, passFront, passBack⟩ := h.parts
  refine ⟨⟨front, back ++ gap, List.append_assoc .., passFront, ?_⟩, h.head, h.last⟩
  exact List.forall_mem_append.2 ⟨passBack, pass⟩

theorem trimWhere_append {gap : List α} (pass : ∀ x ∈ gap, p x = true) (xs : List α) :
    trimWhere p (xs ++ gap) = trimWhere p xs :=
  ((trimWhere_trimmed p xs).append pass).trimWhere_eq

end

/-! ## Runs -/

/-- A list is made up of gaps, whose elements pass a test, and of runs, whose elements do not.  No
run is empty, and a run ends at the next gap or at the end of the list. -/
inductive Runs (p : α → Bool) : List α → List (List α) → Prop
  /-- All the rest is a gap. -/
  | nil {gap : List α} : (∀ x ∈ gap, p x = true) → Runs p gap []
  /-- A gap comes first, which may be empty, and then a run. -/
  | cons {gap run rest : List α} {runs : List (List α)} :
    (∀ x ∈ gap, p x = true) → run ≠ [] → (∀ x ∈ run, p x = false) →
    (∀ x ∈ rest.head?, p x = true) → Runs p rest runs → Runs p (gap ++ (run ++ rest)) (run :: runs)

section

variable {p : α → Bool} {xs : List α} {runs : List (List α)}

theorem runsOutside_nil (p : α → Bool) : runsOutside p [] = [] := rfl

theorem runsOutside_cons_of_pos {x : α} (h : p x = true) (xs : List α) :
    runsOutside p (x :: xs) = runsOutside p xs := by
  rw [runsOutside, List.splitOnP_cons_eq_if_modifyHead, if_pos h]
  rfl

/-- Gaps are passed over. -/
theorem runsOutside_append_of_pos {gap : List α} (h : ∀ x ∈ gap, p x = true) (xs : List α) :
    runsOutside p (gap ++ xs) = runsOutside p xs := by
  induction gap with
  | nil => rfl
  | cons x gap ih =>
    rw [List.forall_mem_cons] at h
    rw [List.cons_append, runsOutside_cons_of_pos h.1, ih h.2]

/-- A run is cut off in front of a gap or of the end. -/
theorem runsOutside_append_of_neg {run rest : List α} (ne : run ≠ []) (h : ∀ x ∈ run, p x = false)
    (gap : ∀ x ∈ rest.head?, p x = true) :
    runsOutside p (run ++ rest) = run :: runsOutside p rest := by
  cases rest with
  | nil =>
    rw [List.append_nil, runsOutside, List.splitOnP_eq_singleton h, runsOutside_nil]
    simp [ne]
  | cons x rest =>
    have separates : p x = true := gap x rfl
    rw [runsOutside_cons_of_pos separates, runsOutside,
      List.splitOnP_append_cons_of_forall_mem h x separates,
      List.filter_cons_of_pos (by simpa using ne)]
    rfl

theorem Runs.runsOutside_eq (h : Runs p xs runs) : runsOutside p xs = runs := by
  induction h with
  | @nil gap pass =>
    rw [← List.append_nil gap, runsOutside_append_of_pos pass, runsOutside_nil]
  | cons gap ne run next _ ih =>
    rw [runsOutside_append_of_pos gap, runsOutside_append_of_neg ne run next, ih]

theorem runsOutside_runs (p : α → Bool) (xs : List α) : Runs p xs (runsOutside p xs) := by
  induction hn : xs.length using Nat.strongRecOn generalizing xs with
  | _ n ih =>
    have gap : ∀ x ∈ xs.takeWhile p, p x = true := fun x hx ↦ List.mem_takeWhile_imp hx
    have whole := List.takeWhile_append_dropWhile (p := p) (l := xs)
    rw [← whole, runsOutside_append_of_pos gap]
    cases hs : xs.dropWhile p with
    | nil =>
      rw [List.append_nil]
      exact .nil gap
    | cons y ys =>
      -- the run that begins here, and what follows it
      obtain ⟨run, rest, hrun, hrest⟩ : ∃ run rest, run = (y :: ys).takeWhile (fun x ↦ !p x) ∧
        rest = (y :: ys).dropWhile fun x ↦ !p x := ⟨_, _, rfl, rfl⟩
      have parts : y :: ys = run ++ rest := by
        rw [hrun, hrest, List.takeWhile_append_dropWhile]
      have first : p y = false := head?_dropWhile p xs y (by rw [hs]; rfl)
      have ne : run ≠ [] := by simp [hrun, first]
      have outside : ∀ x ∈ run, p x = false := by
        intro x hx
        rw [hrun] at hx
        simpa using List.mem_takeWhile_imp hx
      have next : ∀ x ∈ rest.head?, p x = true := by
        intro x hx
        rw [hrest] at hx
        simpa using head?_dropWhile _ _ x hx
      have shorter : rest.length < n := by
        have total : xs.length = (xs.takeWhile p).length + (run.length + rest.length) := by
          rw [← List.length_append, ← parts, ← hs, ← List.length_append, whole]
        have pos := List.length_pos_iff.2 ne
        omega
      rw [parts, runsOutside_append_of_neg ne outside next]
      exact .cons gap ne outside next (ih _ shorter rest rfl)

/-- The runs outside a test are the maximal runs. -/
theorem runsOutside_eq_iff : runsOutside p xs = runs ↔ Runs p xs runs :=
  ⟨fun h ↦ h ▸ runsOutside_runs p xs, Runs.runsOutside_eq⟩

/-- A gap at the end is no part of a run. -/
theorem Runs.append {gap : List α} (h : Runs p xs runs) (pass : ∀ x ∈ gap, p x = true) :
    Runs p (xs ++ gap) runs := by
  induction h with
  | nil front => exact .nil (List.forall_mem_append.2 ⟨front, pass⟩)
  | @cons front run rest runs before ne inside next _ ih =>
    rw [List.append_assoc, List.append_assoc]
    refine .cons before ne inside ?_ ih
    cases rest with
    | nil => exact fun x hx ↦ pass x (List.mem_of_mem_head? hx)
    | cons => exact next

theorem runsOutside_append {gap : List α} (pass : ∀ x ∈ gap, p x = true) (xs : List α) :
    runsOutside p (xs ++ gap) = runsOutside p xs :=
  ((runsOutside_runs p xs).append pass).runsOutside_eq

end

/-! ## Lines -/

variable [DecidableEq α]

/-- A line without one carriage return at its end. -/
def dropReturn (cr : α) (line : List α) : List α :=
  if line.getLast? = some cr then line.dropLast else line

/-- A list is made up of lines, each with its line end.  What follows the last line feed is a line
when it is not empty, and keeps a carriage return at its end. -/
inductive Lines (lf cr : α) : List α → List (List α) → Prop
  /-- Nothing follows the last line feed. -/
  | nil : Lines lf cr [] []
  /-- A last line has no line feed. -/
  | last {line : List α} : line ≠ [] → lf ∉ line → Lines lf cr line [line]
  /-- A line ends at the first line feed. -/
  | cons {line rest : List α} {lines : List (List α)} :
    lf ∉ line → Lines lf cr rest lines →
      Lines lf cr (line ++ lf :: rest) (dropReturn cr line :: lines)

section

variable {lf cr : α} {xs : List α} {lines : List (List α)}

theorem closeLine_eq (cr : α) (acc : List α) : closeLine cr acc = dropReturn cr acc.reverse := by
  cases acc with
  | nil => rfl
  | cons x acc =>
    simp only [closeLine, dropReturn, List.getLast?_reverse, List.head?_cons, Option.some.injEq]
    split
    · rw [List.reverse_cons, List.dropLast_concat]
    · rfl

theorem linesAfter_append {line : List α} (h : lf ∉ line) (acc rest : List α) :
    linesAfter lf cr acc (line ++ rest) = linesAfter lf cr (line.reverse ++ acc) rest := by
  induction line generalizing acc with
  | nil => rfl
  | cons x line ih =>
    obtain ⟨hx, hline⟩ := not_or.1 (mt List.mem_cons.2 h)
    rw [List.cons_append, linesAfter, if_neg (Ne.symm hx), ih hline, List.reverse_cons,
      List.append_assoc]
    rfl

/-- The first line is cut off at the first line feed. -/
theorem linesOf_append_cons {line : List α} (h : lf ∉ line) (rest : List α) :
    linesOf lf cr (line ++ lf :: rest) = dropReturn cr line :: linesOf lf cr rest := by
  rw [linesOf, linesAfter_append h, linesAfter, if_pos rfl, closeLine_eq, List.append_nil,
    List.reverse_reverse]
  rfl

/-- What holds no line feed is one line or none. -/
theorem linesOf_of_not_mem {line : List α} (h : lf ∉ line) :
    linesOf lf cr line = if line = [] then [] else [line] := by
  have scanned : linesAfter lf cr [] (line ++ []) = linesAfter lf cr (line.reverse ++ []) [] :=
    linesAfter_append h [] []
  rw [List.append_nil, List.append_nil] at scanned
  rw [linesOf, scanned, linesAfter, List.reverse_reverse]
  simp only [List.isEmpty_reverse, List.isEmpty_iff]

theorem Lines.linesOf_eq (h : Lines lf cr xs lines) : linesOf lf cr xs = lines := by
  induction h with
  | nil => rfl
  | last ne free => rw [linesOf_of_not_mem free, if_neg ne]
  | cons free _ ih => rw [linesOf_append_cons free, ih]

theorem linesOf_lines (lf cr : α) (xs : List α) : Lines lf cr xs (linesOf lf cr xs) := by
  induction hn : xs.length using Nat.strongRecOn generalizing xs with
  | _ n ih =>
    by_cases free : lf ∈ xs
    · obtain ⟨line, rest, rfl, before⟩ := List.eq_append_cons_of_mem free
      rw [linesOf_append_cons before]
      refine .cons before (ih rest.length ?_ rest rfl)
      rw [← hn, List.length_append, List.length_cons]
      omega
    · rw [linesOf_of_not_mem free]
      split
      next none => exact none ▸ .nil
      next some => exact .last some free

/-- The lines of a list are those that make it up. -/
theorem linesOf_eq_iff : linesOf lf cr xs = lines ↔ Lines lf cr xs lines :=
  ⟨fun h ↦ h ▸ linesOf_lines lf cr xs, Lines.linesOf_eq⟩

/-- What follows a line feed has no influence on the lines before it. -/
theorem linesOf_append (front rest : List α) :
    linesOf lf cr (front ++ lf :: rest) = linesOf lf cr (front ++ [lf]) ++ linesOf lf cr rest := by
  suffices h : ∀ acc, linesAfter lf cr acc (front ++ lf :: rest) =
      linesAfter lf cr acc (front ++ [lf]) ++ linesOf lf cr rest from h []
  induction front with
  | nil =>
    intro acc
    rw [List.nil_append, List.nil_append, linesAfter, linesAfter, if_pos rfl, if_pos rfl]
    rfl
  | cons x front ih =>
    intro acc
    rw [List.cons_append, List.cons_append, linesAfter, linesAfter]
    split
    · rw [ih, List.cons_append]
    · rw [ih]

end

/-- A piece between separators holds none. -/
theorem not_mem_of_mem_splitOn {sep : α} {xs piece : List α} (h : piece ∈ xs.splitOn sep) :
    sep ∉ piece := by
  induction xs generalizing piece with
  | nil =>
    rw [List.splitOn_nil, List.mem_singleton] at h
    exact h ▸ List.not_mem_nil
  | cons x xs ih =>
    rw [List.splitOn_cons_eq_if_modifyHead] at h
    split at h
    next =>
      rcases List.mem_cons.1 h with rfl | h
      · exact List.not_mem_nil
      · exact ih h
    next other =>
      cases pieces : xs.splitOn sep with
      | nil => exact absurd pieces (List.splitOn_ne_nil sep xs)
      | cons first rest =>
        rw [pieces, List.modifyHead_cons, List.mem_cons] at h
        rcases h with rfl | h
        · have same : sep ≠ x := fun same ↦ other (beq_iff_eq.2 same.symm)
          exact mt List.mem_cons.1 (not_or.2 ⟨same, ih (pieces ▸ List.mem_cons_self ..)⟩)
        · exact ih (pieces ▸ List.mem_cons_of_mem _ h)

/-! ## Bytes -/

/-- The pieces between the line feeds of a sequence of bytes. -/
def cutAtLineFeeds (bytes : ByteArray) : List ByteArray :=
  (bytes.data.toList.splitOn 10).map fun piece ↦ ⟨piece.toArray⟩

/-- The bytes of a text are read as this text. -/
theorem fromUTF8?_toUTF8 (s : String) : String.fromUTF8? s.toUTF8 = some s := dif_pos s.isValidUTF8

theorem toUTF8_eq_of_fromUTF8? {bytes : ByteArray} {s : String}
    (h : String.fromUTF8? bytes = some s) : s.toUTF8 = bytes := by
  rw [String.fromUTF8?] at h
  split at h
  · exact Option.some.inj h ▸ rfl
  · cases h

theorem toList_toUTF8 (s : String) :
    s.toUTF8.data.toList = s.toList.flatMap String.utf8EncodeChar := by
  rw [String.toUTF8_eq_toByteArray, ← String.utf8Encode_toList, List.utf8Encode,
    List.toList_data_toByteArray]

theorem toList_toUTF8_append (s t : String) :
    (s ++ t).toUTF8.data.toList = s.toUTF8.data.toList ++ t.toUTF8.data.toList := by
  simp only [toList_toUTF8, String.toList_append, List.flatMap_append]

/-- A byte below 128 is part of no character but its own. -/
theorem toNat_eq_of_mem_utf8EncodeChar {c : Char} {b : UInt8} (ascii : b.toNat < 128)
    (h : b ∈ String.utf8EncodeChar c) : c.toNat = b.toNat := by
  have value {n : Nat} (hn : b = UInt8.ofNat n) : b.toNat = n % 256 := by
    rw [hn, UInt8.toNat_ofNat']
  unfold String.utf8EncodeChar at h
  dsimp only at h
  split at h
  next small =>
    have := value (List.mem_singleton.1 h)
    change c.val.toNat = _
    omega
  next =>
    -- every byte of a longer encoding is at least 128
    exfalso
    split at h
    · simp only [List.mem_cons, List.not_mem_nil, or_false] at h
      rcases h with h | h <;> have := value h <;> omega
    split at h
    · simp only [List.mem_cons, List.not_mem_nil, or_false] at h
      rcases h with h | h | h <;> have := value h <;> omega
    · simp only [List.mem_cons, List.not_mem_nil, or_false] at h
      rcases h with h | h | h | h <;> have := value h <;> omega

/-- A character below 128 is in a text when its byte is in the bytes of the text. -/
theorem mem_of_mem_toUTF8 {s : String} {c : Char} (ascii : c.toNat < 128)
    (h : UInt8.ofNat c.toNat ∈ s.toUTF8.data.toList) : c ∈ s.toList := by
  rw [toList_toUTF8] at h
  obtain ⟨d, hd, byte⟩ := List.mem_flatMap.1 h
  have value : (UInt8.ofNat c.toNat).toNat = c.toNat := by
    rw [UInt8.toNat_ofNat']
    omega
  have same := toNat_eq_of_mem_utf8EncodeChar (by omega) byte
  rw [value] at same
  exact Char.toNat_inj.1 same ▸ hd

theorem toList_loop_eq (bytes : ByteArray) (i : Nat) (acc : List UInt8) :
    ByteArray.toList.loop bytes i acc = acc.reverse ++ bytes.data.toList.drop i := by
  induction i, acc using ByteArray.toList.loop.induct bytes with
  | case1 i acc before ih =>
    have bound : i < bytes.data.toList.length := before
    have byte : bytes.get! i = bytes.data.toList[i] := getElem!_pos bytes.data i before
    rw [ByteArray.toList.loop, if_pos before, ih, List.reverse_cons, List.append_assoc, byte,
      List.singleton_append, List.getElem_cons_drop]
  | case2 i acc after =>
    rw [ByteArray.toList.loop, if_neg after, List.drop_of_length_le (Nat.le_of_not_lt after),
      List.append_nil]

/-- The list of some bytes is that of the array that holds them. -/
theorem toList_bytes (bytes : ByteArray) : bytes.toList = bytes.data.toList :=
  toList_loop_eq bytes 0 []

/-- The lines of some bytes make them up. -/
theorem byteLines_lines (bytes : ByteArray) :
    Lines 10 13 bytes.data.toList ((byteLines bytes).map fun line ↦ line.data.toList) := by
  rw [← linesOf_eq_iff, byteLines, toList_bytes, List.map_map]
  exact (List.map_id _).symm

/-- What follows a line feed has no influence on the lines of bytes before it. -/
theorem byteLines_append (front rest : ByteArray) :
    byteLines (front.push 10 ++ rest) = byteLines (front.push 10) ++ byteLines rest := by
  have whole :
      (front.push 10 ++ rest).data.toList = front.data.toList ++ 10 :: rest.data.toList := by
    simp
  have part : (front.push 10).data.toList = front.data.toList ++ [10] := by simp
  simp only [byteLines, toList_bytes, whole, part]
  rw [linesOf_append, List.map_append]

end ManuscriptReach
