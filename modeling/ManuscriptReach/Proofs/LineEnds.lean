import Mathlib.Data.List.Forall2
import ManuscriptReach.Proofs.Pieces

/-!
# Texts with line ends

`Breaks` states how lines make up a text.  Each has a line end behind it, with or without a
carriage return, and the last may have none.  Cutting the text gives the lines back
(`Breaks.byteLines_eq`), but for one thing that the text cannot tell: a carriage return at the end
of a line, in front of a bare line feed, belongs to the line end.
-/

namespace ManuscriptReach

/-- A text is made up of lines with their line ends. -/
inductive Breaks : List String → String → Prop
  | nil : Breaks [] ""
  /-- The last line may lack its end, unless it is empty. -/
  | last {line : String} : line ≠ "" → Breaks [line] line
  | lineFeed {line text : String} {lines : List String} : Breaks lines text →
    Breaks (line :: lines) (line ++ "\n" ++ text)
  | returnLineFeed {line text : String} {lines : List String} : Breaks lines text →
    Breaks (line :: lines) (line ++ "\r\n" ++ text)

/-- A line is cut off as itself, or without a carriage return at its end. -/
def CutAs (line cut : String) : Prop := line = cut ∨ line = cut ++ "\r"

variable {line text : String} {lines : List String}

/-- The byte of a carriage return ends a text only where the character does. -/
theorem exists_of_getLast?_toUTF8 (h : line.toUTF8.data.toList.getLast? = some 13) :
    ∃ front, line = front ++ "\r" := by
  rcases List.eq_nil_or_concat line.toList with none | ⟨front, c, parts⟩
  · rw [toList_toUTF8, none] at h
    cases h
  · rw [List.concat_eq_append] at parts
    -- the last byte is one of the last character
    have ne : String.utf8EncodeChar c ≠ [] :=
      List.ne_nil_of_length_pos (String.length_utf8EncodeChar c ▸ c.utf8Size_pos)
    have last : 13 ∈ String.utf8EncodeChar c := by
      rw [toList_toUTF8, parts, List.flatMap_append, List.flatMap_singleton,
        List.getLast?_append_of_ne_nil _ ne] at h
      exact List.mem_of_getLast? h
    obtain rfl : c = '\r' := Char.toNat_inj.1 (toNat_eq_of_mem_utf8EncodeChar (by decide) last)
    exact ⟨String.ofList front, String.toList_injective (by simp [parts])⟩

/-- A carriage return at the end of some bytes is dropped. -/
theorem dropReturn_append_return (line : String) :
    dropReturn 13 (line ++ "\r").toUTF8.data.toList = line.toUTF8.data.toList := by
  have bytes : (line ++ "\r").toUTF8.data.toList = line.toUTF8.data.toList ++ [13] :=
    toList_toUTF8_append line "\r"
  rw [bytes, dropReturn, if_pos List.getLast?_concat, List.dropLast_concat]

/-- What is dropped of the bytes of a line is no part of another character. -/
theorem exists_dropReturn (line : String) :
    ∃ cut, CutAs line cut ∧ dropReturn 13 line.toUTF8.data.toList = cut.toUTF8.data.toList := by
  by_cases h : line.toUTF8.data.toList.getLast? = some 13
  · obtain ⟨front, rfl⟩ := exists_of_getLast?_toUTF8 h
    exact ⟨front, .inr rfl, dropReturn_append_return front⟩
  · exact ⟨line, .inl rfl, if_neg h⟩

/-- The first line of a text is cut off at its line feed. -/
theorem byteLines_cons {cut : String} (free : '\n' ∉ line.toList)
    (h : dropReturn 13 line.toUTF8.data.toList = cut.toUTF8.data.toList) (text : String) :
    byteLines (line ++ "\n" ++ text).toUTF8 = cut.toUTF8 :: byteLines text.toUTF8 := by
  have none : 10 ∉ line.toUTF8.data.toList := mt (mem_of_mem_toUTF8 (c := '\n') (by decide)) free
  have whole : (line ++ "\n" ++ text).toUTF8.data.toList =
      line.toUTF8.data.toList ++ 10 :: text.toUTF8.data.toList := by
    rw [toList_toUTF8_append, toList_toUTF8_append, List.append_assoc]
    rfl
  rw [byteLines, toList_bytes, whole, linesOf_append_cons none, h, byteLines, toList_bytes]
  rfl

theorem byteLines_empty : byteLines "".toUTF8 = [] := by
  rw [byteLines, toList_bytes]
  rfl

/-- What holds no line feed is the last line. -/
theorem byteLines_last (ne : line ≠ "") (free : '\n' ∉ line.toList) :
    byteLines line.toUTF8 = [line.toUTF8] := by
  have none : 10 ∉ line.toUTF8.data.toList := mt (mem_of_mem_toUTF8 (c := '\n') (by decide)) free
  have some : line.toUTF8.data.toList ≠ [] := by
    intro empty
    refine ne (String.toByteArray_inj.1 (ByteArray.ext (Array.toList_inj.1 ?_)))
    exact empty
  rw [byteLines, toList_bytes, linesOf_of_not_mem none, if_neg some]
  rfl

/-- A text that is made up of lines is cut into these. -/
theorem Breaks.byteLines_eq (h : Breaks lines text) (free : ∀ line ∈ lines, '\n' ∉ line.toList) :
    ∃ cuts, byteLines text.toUTF8 = cuts.map String.toUTF8 ∧ List.Forall₂ CutAs lines cuts := by
  induction h with
  | nil => exact ⟨[], byteLines_empty, .nil⟩
  | @last line ne =>
    refine ⟨[line], byteLines_last ne (free line (List.mem_cons_self ..)), ?_⟩
    exact .cons (.inl rfl) .nil
  | @lineFeed line text lines _ ih =>
    rw [List.forall_mem_cons] at free
    obtain ⟨cuts, rest, cutAs⟩ := ih free.2
    obtain ⟨cut, first, bytes⟩ := exists_dropReturn line
    refine ⟨cut :: cuts, ?_, .cons first cutAs⟩
    rw [byteLines_cons free.1 bytes, rest, List.map_cons]
  | @returnLineFeed line text lines _ ih =>
    rw [List.forall_mem_cons] at free
    obtain ⟨cuts, rest, cutAs⟩ := ih free.2
    refine ⟨line :: cuts, ?_, .cons (.inl rfl) cutAs⟩
    have parts : line ++ "\r\n" ++ text = line ++ "\r" ++ "\n" ++ text :=
      String.toList_injective (by simp)
    have free' : '\n' ∉ (line ++ "\r").toList := by simpa using free.1
    rw [parts, byteLines_cons free' (dropReturn_append_return line), rest, List.map_cons]

end ManuscriptReach
