import Mathlib.Algebra.BigOperators.Group.Finset.Basic
import ManuscriptReach.Proofs.RegistryText

/-!
# The layout of a registry

What a registry says does not depend on how its lines are laid out: on carriage returns in front of
line feeds, on a line end after the last line, or on lines that are passed over.

The scan for line ends treats what follows the last line feed unlike the other lines, so layouts are
compared on the pieces between line feeds.  Read as lines, the pieces say what the lines say
(`Registry.read_eq`): a carriage return at the end of a piece has no influence on it, and an empty
last piece is passed over.  A change of layout is then a change of single pieces (`Returns`), an
empty piece at the end, or more pieces (`withGaps`).
-/

namespace ManuscriptReach

/-! ## Laying out lines -/

section

variable {α : Type}

/-- Lists put into a list, the one numbered `i` in front of the element at `i`. -/
def withGaps (gaps : ℕ → List α) : List α → List α
  | [] => gaps 0
  | x :: xs => gaps 0 ++ x :: withGaps (fun i ↦ gaps (i + 1)) xs

theorem mem_withGaps_iff {gaps : ℕ → List α} {xs : List α} {x : α} :
    x ∈ withGaps gaps xs ↔ x ∈ xs ∨ ∃ i ≤ xs.length, x ∈ gaps i := by
  induction xs generalizing gaps with
  | nil => simp [withGaps]
  | cons y ys ih =>
    have gap : (∃ i ≤ (y :: ys).length, x ∈ gaps i) ↔
        x ∈ gaps 0 ∨ ∃ i ≤ ys.length, x ∈ gaps (i + 1) := by
      constructor
      · rintro ⟨_ | i, bound, hx⟩
        · exact .inl hx
        · exact .inr ⟨i, Nat.le_of_succ_le_succ bound, hx⟩
      · rintro (hx | ⟨i, bound, hx⟩)
        · exact ⟨0, Nat.zero_le _, hx⟩
        · exact ⟨i + 1, Nat.succ_le_succ bound, hx⟩
    rw [withGaps, List.mem_append, List.mem_cons, ih, List.mem_cons, gap]
    exact (or_congr_right or_assoc.symm).trans or_left_comm

theorem withGaps_ne_nil {gaps : ℕ → List α} {xs : List α} (h : xs ≠ []) :
    withGaps gaps xs ≠ [] := by
  cases xs with
  | nil => exact absurd rfl h
  | cons x xs => simp [withGaps]

end

/-- Lines with line feeds between them. -/
def joinLines (lines : List ByteArray) : ByteArray :=
  ⟨([10].intercalate (lines.map fun line ↦ line.data.toList)).toArray⟩

/-- Some bytes with further lines, those numbered `i` in front of the line at `i`. -/
def insertLines (gaps : ℕ → List String) (bytes : ByteArray) : ByteArray :=
  joinLines (withGaps (fun i ↦ (gaps i).map String.toUTF8) (cutAtLineFeeds bytes))

/-- Some bytes with a carriage return in front of every line feed. -/
def returnLineFeeds (bytes : ByteArray) : ByteArray :=
  ⟨(bytes.data.toList.flatMap fun b ↦ if b = 10 then [13, 10] else [b]).toArray⟩

theorem cutAtLineFeeds_joinLines {lines : List ByteArray} (ne : lines ≠ [])
    (free : ∀ line ∈ lines, 10 ∉ line.data.toList) : cutAtLineFeeds (joinLines lines) = lines := by
  have pieces : (joinLines lines).data.toList.splitOn 10 =
      lines.map fun line ↦ line.data.toList :=
    List.splitOn_intercalate 10 (List.forall_mem_map.2 free) (mt List.map_eq_nil_iff.1 ne)
  rw [cutAtLineFeeds, pieces, List.map_map]
  exact List.map_id _

theorem lineFeed_not_mem_of_mem_cutAtLineFeeds {bytes piece : ByteArray}
    (h : piece ∈ cutAtLineFeeds bytes) : 10 ∉ piece.data.toList := by
  obtain ⟨_, mem, rfl⟩ := List.mem_map.1 h
  exact not_mem_of_mem_splitOn mem

theorem cutAtLineFeeds_ne_nil (bytes : ByteArray) : cutAtLineFeeds bytes ≠ [] :=
  mt List.map_eq_nil_iff.1 (List.splitOn_ne_nil 10 _)

theorem cutAtLineFeeds_insertLines {gaps : ℕ → List String}
    (free : ∀ i, ∀ line ∈ gaps i, '\n' ∉ line.toList) (bytes : ByteArray) :
    cutAtLineFeeds (insertLines gaps bytes) =
      withGaps (fun i ↦ (gaps i).map String.toUTF8) (cutAtLineFeeds bytes) := by
  refine cutAtLineFeeds_joinLines (withGaps_ne_nil (cutAtLineFeeds_ne_nil bytes)) fun line h ↦ ?_
  rcases mem_withGaps_iff.1 h with h | ⟨i, -, h⟩
  · exact lineFeed_not_mem_of_mem_cutAtLineFeeds h
  · obtain ⟨text, mem, rfl⟩ := List.mem_map.1 h
    exact mt (mem_of_mem_toUTF8 (c := '\n') (by decide)) (free i text mem)

/-- An empty piece follows a line feed at the end. -/
theorem cutAtLineFeeds_push (bytes : ByteArray) :
    cutAtLineFeeds (bytes.push 10) = cutAtLineFeeds bytes ++ [.empty] := by
  have whole : (bytes.push 10).data.toList = bytes.data.toList ++ 10 :: [] := by simp
  rw [cutAtLineFeeds, whole, List.splitOn_append_cons_self, List.splitOn_nil, List.map_append]
  rfl

/-- Some bytes with carriage returns put in front of line feeds or at the end. -/
inductive Returns : List UInt8 → List UInt8 → Prop
  | nil : Returns [] []
  | last : Returns [] [13]
  | cons {bytes bytes' : List UInt8} (b : UInt8) :
    Returns bytes bytes' → Returns (b :: bytes) (b :: bytes')
  | lineFeed {bytes bytes' : List UInt8} :
    Returns bytes bytes' → Returns (10 :: bytes) (13 :: 10 :: bytes')

theorem returns_flatMap (bytes : List UInt8) :
    Returns bytes (bytes.flatMap fun b ↦ if b = 10 then [13, 10] else [b]) := by
  induction bytes with
  | nil => exact .nil
  | cons b bytes ih =>
    rw [List.flatMap_cons]
    split
    next h =>
      subst h
      exact .lineFeed ih
    next => exact .cons b ih

theorem returns_concat (bytes : List UInt8) : Returns bytes (bytes ++ [13]) := by
  induction bytes with
  | nil => exact .last
  | cons b _ ih => exact .cons b ih

/-- Each piece is left as it is, or has a carriage return put at its end. -/
theorem Returns.splitOn {bytes bytes' : List UInt8} (h : Returns bytes bytes') :
    List.Forall₂ (fun piece piece' ↦ piece' = piece ∨ piece' = piece ++ [13])
      (bytes.splitOn 10) (bytes'.splitOn 10) := by
  induction h with
  | nil => exact .cons (.inl rfl) .nil
  | last => exact .cons (.inr rfl) .nil
  | @cons bytes bytes' b _ ih =>
    rw [List.splitOn_cons_eq_if_modifyHead, List.splitOn_cons_eq_if_modifyHead]
    generalize bytes.splitOn 10 = pieces, bytes'.splitOn 10 = pieces' at ih
    split
    · exact .cons (.inl rfl) ih
    · cases ih with
      | nil => exact .nil
      | cons first rest =>
        refine .cons ?_ rest
        rcases first with rfl | rfl
        · exact .inl rfl
        · exact .inr rfl
  | @lineFeed bytes bytes' _ ih =>
    rw [List.splitOn_cons_eq_if_modifyHead, List.splitOn_cons_eq_if_modifyHead,
      List.splitOn_cons_eq_if_modifyHead]
    exact .cons (.inr rfl) ih

namespace Registry

variable {format : RegistryFormat}

/-! ## Pieces instead of lines -/

theorem toUTF8_return (text : String) : (text ++ "\r").toUTF8 = text.toUTF8.push 13 := by
  refine ByteArray.ext (Array.toList_inj.1 ?_)
  rw [toList_toUTF8_append, ByteArray.data_push, Array.toList_push]
  rfl

/-- A carriage return at the end of some bytes does not make them a text. -/
theorem exists_of_toUTF8_eq_push {text : String} {line : ByteArray}
    (h : text.toUTF8 = line.push 13) : ∃ front : String, front.toUTF8 = line := by
  have whole : text.toUTF8.data.toList = line.data.toList ++ [13] := by
    rw [h, ByteArray.data_push, Array.toList_push]
  obtain ⟨front, rfl⟩ := exists_of_getLast?_toUTF8 (whole ▸ List.getLast?_concat)
  have same : front.toUTF8.data.toList ++ [13] = line.data.toList ++ [13] :=
    (toList_toUTF8_append front "\r").symm.trans whole
  exact ⟨front, ByteArray.ext (Array.toList_inj.1 (List.append_cancel_right same))⟩

/-- A carriage return at the end of some bytes has no influence on what they say as a line, be they
the bytes of a text or not. -/
theorem readLine_push (format : RegistryFormat) (line : ByteArray) :
    readLine format (line.push 13) = readLine format line := by
  cases decoded : String.fromUTF8? line with
  | some text =>
    obtain rfl := toUTF8_eq_of_fromUTF8? decoded
    rw [← toUTF8_return, readLine_return]
  | none =>
    have decoded' : String.fromUTF8? (line.push 13) = none := by
      rw [Option.eq_none_iff_forall_ne_some]
      intro text some
      obtain ⟨front, rfl⟩ := exists_of_toUTF8_eq_push (toUTF8_eq_of_fromUTF8? some)
      rw [fromUTF8?_toUTF8] at decoded
      cases decoded
    rw [readLine, decoded', readLine, decoded]

theorem readLine_dropReturn (format : RegistryFormat) (line : List UInt8) :
    readLine format ⟨(dropReturn 13 line).toArray⟩ = readLine format ⟨line.toArray⟩ := by
  rw [dropReturn]
  split
  next last =>
    obtain ⟨front, rfl⟩ := List.getLast?_eq_some_iff.1 last
    rw [List.dropLast_concat, ← readLine_push, ← List.push_toArray]
    rfl
  next => rfl

/-- An empty line is passed over. -/
theorem readLines_empty (seen : List String) (number : Nat) :
    readLines format seen number [.empty] = .ok [] := by
  have skipped : Skipped "" := isSkipped_iff.1 rfl
  have empty : readLineAfter format seen .empty = .ok none := readLineAfter_of_skipped skipped
  rw [readLines_cons, empty, readLines]

theorem readLines_concat_empty (lines : List ByteArray) (seen : List String) (number : Nat) :
    readLines format seen number (lines ++ [.empty]) = readLines format seen number lines := by
  induction lines generalizing seen number with
  | nil => exact readLines_empty seen number
  | cons line lines ih => simp only [List.cons_append, readLines, ih]

/-- The pieces between line feeds say what the lines say. -/
theorem readLines_splitOn {bytes : List UInt8} {lines : List (List UInt8)}
    (h : Lines 10 13 bytes lines) (seen : List String) (number : Nat) :
    readLines format seen number (lines.map fun line ↦ ⟨line.toArray⟩) =
      readLines format seen number ((bytes.splitOn 10).map fun piece ↦ ⟨piece.toArray⟩) := by
  induction h generalizing seen number with
  | nil => exact (readLines_empty seen number).symm
  | last _ free => rw [List.splitOn_eq_singleton free]
  | cons free _ ih =>
    rw [List.splitOn_append_cons_self_of_not_mem free]
    simp only [List.map_cons, readLines, readLine_dropReturn, ih]

theorem read_eq (format : RegistryFormat) (bytes : ByteArray) :
    read format bytes = readLines format [] 1 (cutAtLineFeeds bytes) := by
  rw [read, byteLines, toList_bytes, cutAtLineFeeds]
  exact readLines_splitOn (linesOf_lines 10 13 bytes.data.toList) [] 1

/-! ## Line ends -/

/-- Carriage returns in front of line feeds and at the end have no influence. -/
theorem read_of_returns {bytes bytes' : ByteArray}
    (h : Returns bytes.data.toList bytes'.data.toList) :
    read format bytes' = read format bytes := by
  rw [read_eq, read_eq, cutAtLineFeeds, cutAtLineFeeds]
  refine (readLines_congr ?_ [] 1).symm
  rw [List.forall₂_map_left_iff, List.forall₂_map_right_iff]
  refine h.splitOn.imp fun piece piece' same ↦ ?_
  rcases same with rfl | rfl
  · rfl
  · rw [← readLine_push, ← List.push_toArray]
    rfl

theorem read_returnLineFeeds (format : RegistryFormat) (bytes : ByteArray) :
    read format (returnLineFeeds bytes) = read format bytes :=
  read_of_returns (returns_flatMap bytes.data.toList)

theorem read_push_lineFeed (format : RegistryFormat) (bytes : ByteArray) :
    read format (bytes.push 10) = read format bytes := by
  rw [read_eq, cutAtLineFeeds_push, readLines_concat_empty, ← read_eq]

theorem read_push_return (format : RegistryFormat) (bytes : ByteArray) :
    read format (bytes.push 13) = read format bytes := by
  refine read_of_returns ?_
  rw [ByteArray.data_push, Array.toList_push]
  exact returns_concat bytes.data.toList

end Registry

/-! ## Lines that are passed over -/

namespace RegistryFault

/-- The same fault, found in another line. -/
def moved (place : ℕ → ℕ) (f : RegistryFault) : RegistryFault := ⟨place f.line, f.fault⟩

end RegistryFault

/-- How many elements the first `n` lists hold. -/
def gapSize {α : Type} (gaps : ℕ → List α) (n : ℕ) : ℕ := ∑ i ∈ Finset.range n, (gaps i).length

theorem gapSize_succ {α : Type} (gaps : ℕ → List α) (n : ℕ) :
    gapSize gaps (n + 1) = gapSize (fun i ↦ gaps (i + 1)) n + (gaps 0).length :=
  Finset.sum_range_succ' (fun i ↦ (gaps i).length) n

namespace Registry

variable {format : RegistryFormat} {gaps : ℕ → List String}

/-- Where counting starts shows in the line of a fault only. -/
theorem readLines_add (k : Nat) (seen : List String) (number : Nat) (lines : List ByteArray) :
    readLines format seen (number + k) lines =
      (readLines format seen number lines).mapError (.moved (· + k)) := by
  induction lines generalizing seen number with
  | nil => rfl
  | cons line lines ih =>
    have next : number + k + 1 = number + 1 + k := Nat.add_right_comm number k 1
    rw [readLines_cons, readLines_cons, next]
    rcases readLineAfter format seen line with fault | _ | e
    · rfl
    · exact ih seen (number + 1)
    · dsimp only
      rw [ih, map_mapError]

/-- Lines that are passed over are only counted. -/
theorem readLines_append_of_skipped {gap : List String} (h : ∀ line ∈ gap, Skipped line)
    (seen : List String) (number : Nat) (lines : List ByteArray) :
    readLines format seen number (gap.map String.toUTF8 ++ lines) =
      readLines format seen (number + gap.length) lines := by
  induction gap generalizing number with
  | nil => rfl
  | cons line gap ih =>
    rw [List.forall_mem_cons] at h
    have place : number + (line :: gap).length = number + 1 + gap.length := by
      rw [List.length_cons]
      omega
    rw [List.map_cons, List.cons_append, readLines_cons, readLineAfter_of_skipped h.1, place]
    exact ih h.2 (number + 1)

/-- Lines between which others are passed over say the same.  Here lines are counted from zero, so
that a line is numbered as the gap in front of it. -/
theorem readLines_withGaps (skipped : ∀ i, ∀ line ∈ gaps i, Skipped line) (seen : List String)
    (lines : List ByteArray) :
    readLines format seen 0 (withGaps (fun i ↦ (gaps i).map String.toUTF8) lines) =
      (readLines format seen 0 lines).mapError (.moved fun n ↦ n + gapSize gaps (n + 1)) := by
  induction lines generalizing gaps seen with
  | nil =>
    rw [withGaps, ← List.append_nil ((gaps 0).map String.toUTF8),
      readLines_append_of_skipped (skipped 0)]
    rfl
  | cons line lines ih =>
    -- what is read after this line, in both layouts
    have rest (seen : List String) :
        readLines format seen ((gaps 0).length + 1)
            (withGaps (fun i ↦ (gaps (i + 1)).map String.toUTF8) lines) =
          (readLines format seen 1 lines).mapError
            (.moved fun n ↦ n + gapSize gaps (n + 1)) := by
      have place (n : ℕ) : n + 1 + gapSize gaps (n + 1 + 1) =
          n + gapSize (fun i ↦ gaps (i + 1)) (n + 1) + ((gaps 0).length + 1) := by
        rw [gapSize_succ]
        omega
      rw [← Nat.zero_add ((gaps 0).length + 1), readLines_add, ih (fun i ↦ skipped (i + 1)),
        ← Nat.zero_add 1, readLines_add 1, mapError_mapError, mapError_mapError]
      simp only [RegistryFault.moved, place, Nat.zero_add]
    rw [withGaps, readLines_append_of_skipped (skipped 0), Nat.zero_add, readLines_cons,
      readLines_cons]
    rcases readLineAfter format seen line with fault | _ | e
    · have front : gapSize gaps 1 = (gaps 0).length := by simp [gapSize]
      simp only [Except.mapError, RegistryFault.moved, front, Nat.zero_add]
    · exact rest seen
    · dsimp only
      rw [rest, map_mapError]

theorem read_insertLines (skipped : ∀ i, ∀ line ∈ gaps i, Skipped line)
    (free : ∀ i, ∀ line ∈ gaps i, '\n' ∉ line.toList) (format : RegistryFormat)
    (bytes : ByteArray) :
    read format (insertLines gaps bytes) =
      (read format bytes).mapError (.moved fun n ↦ n + gapSize gaps n) := by
  rw [read_eq, read_eq, cutAtLineFeeds_insertLines free, ← Nat.zero_add 1, readLines_add,
    readLines_add, readLines_withGaps skipped, mapError_mapError, mapError_mapError]
  simp only [RegistryFault.moved, Nat.add_right_comm]

/-- **The layout of a registry has no influence on what is read.**  The entries are the same, or the
fault is of the same kind and names the same id, with a carriage return in front of every line
feed, with a line end after the last line, or with lines put anywhere that are passed over.  Only
the last changes the number of the faulty line: it grows by the lines put in front of that line. -/
theorem read_layout {gaps : ℕ → List String}
    (passed : ∀ i, ∀ line ∈ gaps i, Skipped line ∧ '\n' ∉ line.toList) (format : RegistryFormat)
    (bytes : ByteArray) :
    read format (returnLineFeeds bytes) = read format bytes ∧
      read format (bytes.push 10) = read format bytes ∧
      read format ((bytes.push 13).push 10) = read format bytes ∧
      read format (insertLines gaps bytes) = (read format bytes).mapError fun f ↦
        ⟨f.line + ∑ i ∈ Finset.range f.line, (gaps i).length, f.fault⟩ := by
  refine ⟨read_returnLineFeeds format bytes, read_push_lineFeed format bytes, ?_, ?_⟩
  · rw [read_push_lineFeed, read_push_return]
  · exact read_insertLines (fun i line h ↦ (passed i line h).1)
      (fun i line h ↦ (passed i line h).2) format bytes

/-- Two lines in front of the first, one in front of the third. -/
def sampleGaps : ℕ → List String
  | 0 => ["# head", " \r"]
  | 2 => ["\t#\u00a0#"]
  | _ => []

/-- Three lines with different line ends, of which the third repeats an id. -/
def sampleText : String := "a\tx\r\nb\ty\r\r\na\tz"

theorem read_layout_sample :
    (∀ i, ∀ line ∈ sampleGaps i, Skipped line ∧ '\n' ∉ line.toList) ∧
      read .tabbed sampleText.toUTF8 = .error ⟨3, .duplicateId "a"⟩ ∧
      read .tabbed (returnLineFeeds sampleText.toUTF8) = .error ⟨3, .duplicateId "a"⟩ ∧
      read .tabbed ((sampleText.toUTF8.push 13).push 10) = .error ⟨3, .duplicateId "a"⟩ ∧
      insertLines sampleGaps sampleText.toUTF8 =
        "# head\n \r\na\tx\r\nb\ty\r\r\n\t#\u00a0#\na\tz".toUTF8 ∧
      read .tabbed (insertLines sampleGaps sampleText.toUTF8) = .error ⟨6, .duplicateId "a"⟩ := by
  have passed : ∀ i, ∀ line ∈ sampleGaps i, Skipped line ∧ '\n' ∉ line.toList := by
    intro i
    have check : ∀ line ∈ sampleGaps i, isSkipped line = true ∧ '\n' ∉ line.toList := by
      match i with
      | 0 => decide
      | 1 => decide
      | 2 => decide
      | _ + 3 => exact fun _ h ↦ absurd h List.not_mem_nil
    exact fun line h ↦ ⟨isSkipped_iff.1 (check line h).1, (check line h).2⟩
  have plain : read .tabbed sampleText.toUTF8 = .error ⟨3, .duplicateId "a"⟩ := by
    decide +kernel
  have whole : insertLines sampleGaps sampleText.toUTF8 =
      "# head\n \r\na\tx\r\nb\ty\r\r\n\t#\u00a0#\na\tz".toUTF8 := by
    decide +kernel
  obtain ⟨returned, -, ended, inserted⟩ := read_layout passed .tabbed sampleText.toUTF8
  exact ⟨passed, plain, returned.trans plain, ended.trans plain, whole,
    inserted.trans (plain ▸ rfl)⟩

end Registry

end ManuscriptReach
