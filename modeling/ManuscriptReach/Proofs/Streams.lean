import ManuscriptReach.Report.Stream
import ManuscriptReach.Proofs.FirstFault
import ManuscriptReach.Proofs.Pieces
import ManuscriptReach.Proofs.ReportText

/-!
# Streams of reports are faithful

A stream of reports that was written without a refusal determines the reports
(`ReportStream.writeAll_faithful`).  Its bytes, cut at every line feed, are the lines of the
reports, one each, and every line reads back.  A cut falls nowhere else: no line holds a
line feed, and in UTF-8 the byte of a line feed is part of no other character.  The hash is given
every line on its own; that it was given what is in the sink is kept by each write
(`ReportStream.HashesSink.write`), and so by a run of them that a refusal may end.
-/

namespace ManuscriptReach

/-! ## Bytes and line feeds -/

/-- Text in front of a line feed that holds none itself is cut off as a piece. -/
theorem cutAtLineFeeds_append {s : String} (h : '\n' ∉ s.toList) (t : String) :
    cutAtLineFeeds (s ++ "\n" ++ t).toUTF8 = s.toUTF8 :: cutAtLineFeeds t.toUTF8 := by
  have none : 10 ∉ s.toUTF8.data.toList := mt (mem_of_mem_toUTF8 (c := '\n') (by decide)) h
  have bytes : (s ++ "\n" ++ t).toUTF8.data.toList =
      s.toUTF8.data.toList ++ 10 :: t.toUTF8.data.toList := by
    rw [toList_toUTF8_append, toList_toUTF8_append, List.append_assoc]
    rfl
  rw [cutAtLineFeeds, bytes, List.splitOn_append_cons_self_of_not_mem none]
  rfl

theorem cutAtLineFeeds_empty : cutAtLineFeeds "".toUTF8 = [.empty] := by
  rw [cutAtLineFeeds, toList_toUTF8]
  rfl

/-! ## Lines -/

namespace Report

/-- Reads a report from the bytes of a line. -/
def ofBytes? (line : ByteArray) : Option Report := (String.fromUTF8? line).bind ofLine?

theorem ofBytes?_line {r : Report} (h : r.Fits) : ofBytes? r.line.toUTF8 = some r := by
  rw [ofBytes?, fromUTF8?_toUTF8, Option.bind_some, ofLine?_line h]

theorem map_ofBytes?_lines {rs : List Report} (h : ∀ r ∈ rs, r.Fits) :
    (rs.map fun r ↦ r.line.toUTF8).map ofBytes? = rs.map some := by
  rw [List.map_map]
  refine List.map_congr_left fun r hr ↦ ?_
  rw [Function.comp_apply, ofBytes?_line (h r hr)]

/-- The lines of some reports, each with its line end. -/
def textOf (rs : List Report) : String := String.join (rs.map fun r ↦ r.line ++ "\n")

/-- The pieces of the text of some reports are their lines, and nothing after the last. -/
theorem cutAtLineFeeds_textOf (rs : List Report) :
    cutAtLineFeeds (textOf rs).toUTF8 = rs.map (fun r ↦ r.line.toUTF8) ++ [.empty] := by
  induction rs with
  | nil => exact cutAtLineFeeds_empty
  | cons r rs ih =>
    rw [textOf, List.map_cons, String.join_cons, cutAtLineFeeds_append r.lineFeed_not_mem_line,
      ← textOf, ih]
    rfl

end Report

/-! ## Writing -/

namespace ReportStream

/-- The bytes in the sink. -/
def bytes (s : ReportStream) : ByteArray := s.text.toUTF8

/-- The hash was given the bytes that are in the sink. -/
def HashesSink (s : ReportStream) : Prop := s.hashed = s.bytes

/-- A report that is not refused puts its line behind what is there, in the sink and for the
hash. -/
theorem eq_of_write {s u : ReportStream} {r : Report} (h : s.write r = .ok u) :
    u = ⟨s.room, s.text ++ (r.line ++ "\n"), s.hashed ++ (r.line ++ "\n").toUTF8,
      s.reports + 1⟩ := by
  obtain ⟨v, sent, rest⟩ := bind_eq_ok_iff.1 h
  cases rest
  unfold send at sent
  split at sent
  · cases sent
    rfl
  · cases sent

/-- Reports of which none is refused put their lines behind what is there. -/
theorem text_of_writeAll {s u : ReportStream} {rs : List Report} (h : s.writeAll rs = (u, none)) :
    u.text = s.text ++ Report.textOf rs ∧ u.reports = s.reports + rs.length ∧ u.room = s.room := by
  induction rs generalizing s with
  | nil =>
    cases h
    exact ⟨by simp [Report.textOf], rfl, rfl⟩
  | cons r rs ih =>
    rw [writeAll] at h
    split at h
    next v hv =>
      obtain ⟨text, reports, room⟩ := ih h
      rw [text, reports, room, eq_of_write hv]
      refine ⟨?_, ?_, rfl⟩
      · simp [Report.textOf, String.append_assoc]
      · rw [List.length_cons, Nat.add_assoc, Nat.add_comm 1]
    next => cases h

/-- A sink without limit refuses nothing. -/
theorem writeAll_unlimited {s : ReportStream} (h : s.room = none) (rs : List Report) :
    (s.writeAll rs).2 = none := by
  induction rs generalizing s with
  | nil => rfl
  | cons r rs ih =>
    have accepts : s.accepts (r.line ++ "\n") = true := by simp [ReportStream.accepts, h]
    have sent : s.send (r.line ++ "\n") = .ok { s with text := s.text ++ (r.line ++ "\n") } := by
      rw [send, if_pos accepts]
    have written : s.write r =
        .ok ⟨s.room, s.text ++ (r.line ++ "\n"), s.hashed ++ (r.line ++ "\n").toUTF8,
          s.reports + 1⟩ := by
      rw [write, sent]
      rfl
    rw [writeAll, written]
    exact ih h

theorem hashesSink_start (room : Option Nat) : (start room).HashesSink := rfl

/-- A line goes to the hash as it went to the sink. -/
theorem HashesSink.write {s u : ReportStream} {r : Report} (h : s.HashesSink)
    (written : s.write r = .ok u) : u.HashesSink := by
  rw [eq_of_write written]
  change s.hashed ++ (r.line ++ "\n").toUTF8 = (s.text ++ (r.line ++ "\n")).toUTF8
  rw [h, bytes]
  exact (String.toByteArray_append).symm

/-- However much of some reports was written, the hash was given what is in the sink. -/
theorem HashesSink.writeAll {s : ReportStream} (h : s.HashesSink) (rs : List Report) :
    (s.writeAll rs).1.HashesSink := by
  induction rs generalizing s with
  | nil => exact h
  | cons r rs ih =>
    rw [ReportStream.writeAll]
    split
    next written => exact ih (h.write written)
    next => exact h

theorem HashesSink.hash_digest {s : ReportStream} (h : s.HashesSink) :
    s.digest.hash = Sha256.hexDigits s.bytes := congrArg Sha256.hexDigits h

section Written

variable {room room' : Option Nat} {rs us : List Report} {s u : ReportStream}

/-- The pieces of what was written are the lines of the reports. -/
theorem cutAtLineFeeds_bytes (hs : (start room).writeAll rs = (s, none)) :
    cutAtLineFeeds s.bytes = rs.map (fun r ↦ r.line.toUTF8) ++ [.empty] := by
  have text : s.text = Report.textOf rs := by
    rw [(text_of_writeAll hs).1]
    exact String.empty_append
  rw [bytes, text, Report.cutAtLineFeeds_textOf]

/-- The bytes that were written determine the reports. -/
theorem eq_of_bytes_eq (fits : ∀ r ∈ rs, r.Fits) (fits' : ∀ r ∈ us, r.Fits)
    (hs : (start room).writeAll rs = (s, none)) (hu : (start room').writeAll us = (u, none))
    (same : u.bytes = s.bytes) : us = rs := by
  have pieces := cutAtLineFeeds_bytes hu
  rw [same, cutAtLineFeeds_bytes hs] at pieces
  have read := congrArg (List.map Report.ofBytes?) (List.append_cancel_right pieces)
  rw [Report.map_ofBytes?_lines fits, Report.map_ofBytes?_lines fits'] at read
  exact (List.map_inj_right fun _ _ ↦ Option.some.inj).1 read.symm

end Written

/-- What a sink took without a refusal is a faithful code of the reports: there is one line for
each report, the lines read back as the reports, and other reports give other bytes.  The digest
counts the reports.  With a refusal or without, it hashes the bytes in the sink.  A sink without
limit refuses nothing. -/
theorem writeAll_faithful {rs : List Report} (h : ∀ r ∈ rs, r.Fits) :
    (start none).writeAll rs = (ofReports rs, none) ∧
      (∀ {room : Option Nat} {s : ReportStream} {refusal : Option StreamFault},
        (start room).writeAll rs = (s, refusal) → s.digest.hash = Sha256.hexDigits s.bytes) ∧
      ∀ {room : Option Nat} {s : ReportStream}, (start room).writeAll rs = (s, none) →
        (∃ lines, cutAtLineFeeds s.bytes = lines ++ [.empty] ∧ lines.length = rs.length ∧
          lines.map Report.ofBytes? = rs.map some) ∧
        s.digest.reports = rs.length ∧
        ∀ {us : List Report} {room : Option Nat} {u : ReportStream}, (∀ r ∈ us, r.Fits) →
          (start room).writeAll us = (u, none) → u.bytes = s.bytes → us = rs := by
  refine ⟨Prod.ext rfl (writeAll_unlimited rfl rs), fun {room s _} hs ↦ ?hash,
    fun {room s} hs ↦ ⟨?lines, ?count, ?inj⟩⟩
  case hash =>
    have hashes : s.HashesSink := by
      have written := (hashesSink_start room).writeAll rs
      rw [hs] at written
      exact written
    exact hashes.hash_digest
  case lines =>
    exact ⟨_, cutAtLineFeeds_bytes hs, List.length_map _, Report.map_ofBytes?_lines h⟩
  case count =>
    change s.reports = rs.length
    rw [(text_of_writeAll hs).2.1]
    exact Nat.zero_add _
  case inj => exact fun fits hu same ↦ eq_of_bytes_eq h fits hs hu same

/-- Two reports whose texts hold quotes, line ends, control characters and more. -/
def sampleReports : List Report :=
  [⟨"f1r\n\"1\"\t\x01", [⟨"ü\\", .conditional⟩, ⟨"", .reachable⟩], none⟩,
    ⟨"f1r", [], some {
      bundle := ⟨.ofList ["\r\n", "a"], ∅⟩
      partition := ⟨.ofList ["a"], ∅, .ofList ["\r\n"]⟩
      invalidTokens := ["\x7b\x7d,"]
      infrastructureTokens := 1
      compatible := ["x"]
      effectiveSize := 2
      zones := [⟨"C", 2, 49⟩] }⟩]

theorem fits_sampleReports : ∀ r ∈ sampleReports, r.Fits := by
  rw [sampleReports, List.forall_mem_cons, List.forall_mem_singleton]
  constructor
  · intro d hd
    cases hd
  · intro d hd
    cases hd
    refine ⟨by decide, by decide, ?_⟩
    rw [List.forall_mem_singleton]
    exact ⟨by decide, by decide⟩

theorem writeAll_faithful_sample :
    (∀ r ∈ sampleReports, r.Fits) ∧
      (start none).writeAll sampleReports = (ofReports sampleReports, none) ∧
      (ofReports sampleReports).digest.hash = Sha256.hexDigits (ofReports sampleReports).bytes ∧
      (ofReports sampleReports).digest.reports = 2 ∧
      ∃ lines, cutAtLineFeeds (ofReports sampleReports).bytes = lines ++ [.empty] ∧
        lines.length = 2 ∧ lines.map Report.ofBytes? = sampleReports.map some := by
  obtain ⟨written, hashed, faithful⟩ := writeAll_faithful fits_sampleReports
  obtain ⟨lines, count, -⟩ := faithful written
  exact ⟨fits_sampleReports, written, hashed written, count, lines⟩

end ReportStream

end ManuscriptReach
