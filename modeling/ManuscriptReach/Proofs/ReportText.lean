import ManuscriptReach.Report.Codec
import ManuscriptReach.Proofs.Json.Record

/-!
# Reports read back

Every part of a report reads back from the object that is written for it, so a report reads
back from its line (`Report.ofLine?_line`).  The texts in it may be any.  Its figures are
words of 64 bits (`Report.Fits`); a reader takes no larger ones.
-/

namespace ManuscriptReach

open Json (IsPlain)

/-- The figures of the zone are words of 64 bits. -/
structure ZoneFigures.Fits (z : ZoneFigures) : Prop where
  legalSize : z.legalSize < wordLimit
  reachableCount : z.reachableCount < wordLimit

/-- All figures are words of 64 bits. -/
structure Diagnostics.Fits (d : Diagnostics) : Prop where
  infrastructureTokens : d.infrastructureTokens < wordLimit
  effectiveSize : d.effectiveSize < wordLimit
  zones : ∀ z ∈ d.zones, z.Fits

/-- All figures, if there are any, are words of 64 bits. -/
def Report.Fits (r : Report) : Prop := ∀ d ∈ r.diagnostics, d.Fits

/-! ## Parts read back -/

@[simp] theorem ReachStatus.read?_toJson (s : ReachStatus) : read? s.toJson = some s := by
  rw [ReachStatus.read?, readWord?, ReachStatus.toJson, Json.word?_ofString]
  cases s <;> rfl

@[simp] theorem Bundle.read?_toJson (b : Bundle) : read? b.toJson = some b := by
  rw [Bundle.read?, Bundle.toJson, Json.fields?_record (by simp)]
  simp [Node.required, SortedMap.lookup_cons_ite]

@[simp] theorem Partition.read?_toJson (p : Partition) : read? p.toJson = some p := by
  rw [Partition.read?, Partition.toJson, Json.fields?_record (by simp)]
  simp [Node.required, SortedMap.lookup_cons_ite]

@[simp] theorem Verdict.read?_toJson (v : Verdict) : read? v.toJson = some v := by
  rw [Verdict.read?, Verdict.toJson, Json.fields?_record (by simp)]
  simp [Node.required, SortedMap.lookup_cons_ite]

theorem ZoneFigures.read?_toJson {z : ZoneFigures} (h : z.Fits) : read? z.toJson = some z := by
  rw [ZoneFigures.read?, ZoneFigures.toJson, Json.fields?_record (by simp)]
  simp [Node.required, SortedMap.lookup_cons_ite, Json.natural?_ofNat h.legalSize,
    Json.natural?_ofNat h.reachableCount]

theorem Diagnostics.read?_toJson {d : Diagnostics} (h : d.Fits) : read? d.toJson = some d := by
  have infrastructure := Json.natural?_ofNat h.infrastructureTokens
  have effective := Json.natural?_ofNat h.effectiveSize
  have zones := Json.list?_array fun z hz ↦ ZoneFigures.read?_toJson (h.zones z hz)
  obtain ⟨bundle, partition, invalid, _, _, _, _⟩ := d
  rw [Diagnostics.read?, Diagnostics.toJson, Json.fields?_record (by split <;> simp)]
  cases invalid with
  | nil => simp_all [Node.required, Node.withDefault, SortedMap.lookup_cons_ite]
  | cons token tokens => simp_all [Node.required, Node.withDefault, SortedMap.lookup_cons_ite]

theorem Diagnostics.isAbsent_toJson (d : Diagnostics) : Node.isAbsent d.toJson = false := rfl

theorem Report.read?_toJson {r : Report} (h : r.Fits) : read? r.toJson = some r := by
  obtain ⟨entryId, verdicts, diagnostics⟩ := r
  have verdicts := Json.list?_array fun v (_ : v ∈ verdicts) ↦ Verdict.read?_toJson v
  cases diagnostics with
  | none =>
    rw [Report.read?, Report.toJson, Json.fields?_record (by simp [Json.optional])]
    simp [Node.required, Node.optional, SortedMap.lookup_cons_ite, Json.optional, verdicts]
  | some d =>
    have diagnostics := Diagnostics.read?_toJson (h d rfl)
    rw [Report.read?, Report.toJson, Json.fields?_record (by simp [Json.optional])]
    simp [Node.required, Node.optional, SortedMap.lookup_cons_ite, Json.optional, verdicts, diagnostics,
      Diagnostics.isAbsent_toJson]

/-! ## Parts are plain -/

theorem Bundle.isPlain_toJson (b : Bundle) : IsPlain b.toJson :=
  .record (by simp [Json.isPlain_ofStringSet])

theorem Partition.isPlain_toJson (p : Partition) : IsPlain p.toJson :=
  .record (by simp [Json.isPlain_ofStringSet])

theorem Verdict.isPlain_toJson (v : Verdict) : IsPlain v.toJson :=
  .record (by simp [IsPlain.ofString, ReachStatus.toJson])

theorem ZoneFigures.isPlain_toJson (z : ZoneFigures) : IsPlain z.toJson :=
  .record (by simp [IsPlain.ofString, Json.isPlain_ofNat])

theorem Diagnostics.isPlain_toJson (d : Diagnostics) : IsPlain d.toJson := by
  refine .record ?_
  have invalid : ∀ m ∈ if d.invalidTokens = [] then [] else
      [("invalid_tokens", Json.ofStrings d.invalidTokens)], IsPlain m.2 := by
    split <;> simp [Json.isPlain_ofStrings]
  simp only [List.forall_mem_append]
  refine ⟨⟨?_, invalid⟩, ?_⟩
  · simp [d.bundle.isPlain_toJson, d.partition.isPlain_toJson]
  · simp [Json.isPlain_ofNat, Json.isPlain_ofStrings,
      Json.isPlain_array_map ZoneFigures.isPlain_toJson]

theorem Report.isPlain_toJson (r : Report) : IsPlain r.toJson := by
  have diagnostics : ∀ m ∈ Json.optional "diagnostics" Diagnostics.toJson r.diagnostics,
      IsPlain m.2 := by
    cases r.diagnostics <;> simp [Json.optional, Diagnostics.isPlain_toJson]
  refine .record (List.forall_mem_append.2 ⟨?_, diagnostics⟩)
  simp [IsPlain.ofString, Json.isPlain_array_map Verdict.isPlain_toJson]

/-! ## The line of a report -/

namespace Report

/-- A report reads back from its line. -/
theorem ofLine?_line {r : Report} (h : r.Fits) : ofLine? r.line = some r := by
  rw [ofLine?, Json.readAs?, line, Json.read?_compact r.isPlain_toJson, Option.bind_some,
    read?_toJson h]

/-- The line of a report holds no line end. -/
theorem lineFeed_not_mem_line (r : Report) : '\n' ∉ r.line.toList :=
  r.isPlain_toJson.lineFeed_not_mem_compact

end Report

end ManuscriptReach
