import ManuscriptReach.Batch.Codec
import ManuscriptReach.Proofs.ExpectedBands

/-!
# Summaries read back

A number that is not finite is written as null, and a summary with one is unreadable.  A summary
without one reads back from its text (`Summary.readAs?_indented`) where two more things hold.  Its
counts are words of 64 bits (`Summary.Fits`).  And its numbers are ones that a reader gives back
(`ReadsBack`): the reader rounds twice, the digits and then their quotient by a power of ten, and
misses some doubles by a place, the mean 1/11 among them.
-/

namespace ManuscriptReach

open Json (IsPlain bind_ite_some)

/-! ## Doubles -/

/-- A double reads back from its numeral. -/
def ReadsBack (x : Float) : Prop := Node.float? (Json.ofFloat x) = some x

instance (x : Float) : Decidable (ReadsBack x) := inferInstanceAs (Decidable (_ = _))

/-- A double reads back, if it does when it is finite, exactly when it is finite. -/
theorem float?_ofFloat {x : Float} (back : x.isFinite = true → ReadsBack x) :
    Node.float? (Json.ofFloat x) = if x.isFinite then some x else none := by
  split
  next finite => exact back finite
  next infinite =>
    rw [Json.ofFloat_eq_null_iff.2 (Bool.eq_false_of_not_eq_true infinite)]
    rfl

/-! ## Histograms -/

/-- All numbers of a histogram are words of 64 bits. -/
def HistogramFits (h : SortedMap Nat Nat) : Prop :=
  ∀ p ∈ h.toList, p.1 < wordLimit ∧ p.2 < wordLimit

instance (h : SortedMap Nat Nat) : Decidable (HistogramFits h) :=
  inferInstanceAs (Decidable (∀ p ∈ _, _))

/-- A histogram reads back, its numbers being the names of its members. -/
theorem readHistogram?_histogramToJson {h : SortedMap Nat Nat} (fits : HistogramFits h) :
    readHistogram? (histogramToJson h) = some h := by
  have numbered : Node.numbered? (histogramToJson h) =
      some (h.toList.map fun p ↦ (p.1, Json.ofNat p.2)) :=
    Json.numbered?_record fun p hp ↦ (fits p hp).1
  have counts : (h.toList.map fun p ↦ (p.1, Json.ofNat p.2)).mapM
      (fun m ↦ (Node.natural? m.2).bind fun count ↦ some (m.1, count)) = some h.toList := by
    have each : ∀ p ∈ h.toList,
        ((Node.natural? (Json.ofNat p.2)).bind fun count ↦ some (p.1, count)) = some p := by
      intro p hp
      rw [Json.natural?_ofNat (fits p hp).2]
      rfl
    exact (Json.mapM_map_eq_some each).trans (congrArg some (List.map_id _))
  rw [readHistogram?, numbered]
  exact (congrArg (Option.bind · fun ps ↦ some (SortedMap.ofList ps)) counts).trans
    (congrArg some (SortedMap.ofList_toList h))

/-! ## Parts of a summary -/

/-- The counts are words of 64 bits. -/
structure Tally.Fits (t : Tally) : Prop where
  reachable : t.reachable < wordLimit
  conditional : t.conditional < wordLimit
  unreachable : t.unreachable < wordLimit

instance (t : Tally) : Decidable t.Fits :=
  decidable_of_iff (t.reachable < wordLimit ∧ t.conditional < wordLimit ∧ t.unreachable < wordLimit)
    ⟨fun h ↦ ⟨h.1, h.2.1, h.2.2⟩, fun h ↦ ⟨h.1, h.2, h.3⟩⟩

theorem Tally.read?_toJson {t : Tally} (h : t.Fits) : read? t.toJson = some t := by
  rw [Tally.read?, Tally.toJson, Json.fields?_record (by simp)]
  simp [Node.required, SortedMap.lookup_cons_ite, Json.natural?_ofNat h.reachable,
    Json.natural?_ofNat h.conditional, Json.natural?_ofNat h.unreachable]

theorem TargetSummary.read?_toJson {t : TargetSummary} (h : t.labels.Fits) :
    read? t.toJson = some t := by
  rw [TargetSummary.read?, TargetSummary.toJson, Json.fields?_record (by simp)]
  simp [Node.required, SortedMap.lookup_cons_ite, Tally.read?_toJson h]

/-- The sizes are words of 64 bits. -/
structure SizeStatistics.Fits (s : SizeStatistics) : Prop where
  least : s.least < wordLimit
  greatest : s.greatest < wordLimit

theorem SizeStatistics.read?_toJson {s : SizeStatistics} (h : s.Fits)
    (back : s.mean.isFinite = true → ReadsBack s.mean) :
    read? s.toJson = if s.mean.isFinite then some s else none := by
  rw [SizeStatistics.read?, SizeStatistics.toJson, Json.fields?_record (by simp)]
  simp [Node.required, SortedMap.lookup_cons_ite, Json.natural?_ofNat h.least,
    Json.natural?_ofNat h.greatest, float?_ofFloat back, bind_ite_some]

theorem ZoneSummary.read?_toJson {z : ZoneSummary}
    (back : z.meanReachable.isFinite = true → ReadsBack z.meanReachable) :
    read? z.toJson = if z.meanReachable.isFinite then some z else none := by
  rw [ZoneSummary.read?, ZoneSummary.toJson, Json.fields?_record (by simp)]
  simp [Node.required, SortedMap.lookup_cons_ite, float?_ofFloat back, bind_ite_some]

section Band

variable {b : Band} (low : b.low.isFinite = true → ReadsBack b.low)
  (high : b.high.isFinite = true → ReadsBack b.high)

include low high in
theorem Band.read?_toJson : read? b.toJson = if b.IsFinite then some b else none := by
  have items : Node.items? b.toJson = some [Json.ofFloat b.low, Json.ofFloat b.high] := rfl
  rw [Band.read?, items]
  simp only [Option.bind_eq_bind, Option.bind_some, float?_ofFloat low, float?_ofFloat high,
    bind_ite_some, ← ite_and]
  rfl

end Band

/-- The numbers that a check states. -/
def ExpectationCheck.numbers (c : ExpectationCheck) : List Float :=
  [c.expected.low, c.expected.high, c.observed]

/-- All numbers that a check states are finite. -/
def ExpectationCheck.IsFinite (c : ExpectationCheck) : Prop :=
  ∀ x ∈ c.numbers, x.isFinite = true

instance (c : ExpectationCheck) : Decidable c.IsFinite := inferInstanceAs (Decidable (∀ x ∈ _, _))

theorem ExpectationCheck.isFinite_iff {c : ExpectationCheck} :
    c.IsFinite ↔ c.expected.IsFinite ∧ c.observed.isFinite = true := by
  rw [IsFinite, numbers, List.forall_mem_cons, List.forall_mem_cons, List.forall_mem_singleton,
    Band.IsFinite, and_assoc]

theorem ExpectationCheck.read?_toJson {c : ExpectationCheck}
    (back : ∀ x ∈ c.numbers, x.isFinite = true → ReadsBack x) :
    read? c.toJson = if c.IsFinite then some c else none := by
  have expected := Band.read?_toJson (back c.expected.low (by simp [numbers]))
    (back c.expected.high (by simp [numbers]))
  have observed := float?_ofFloat (back c.observed (by simp [numbers]))
  have passed : Node.bool? (Json.bool c.passed) = some c.passed := rfl
  rw [ExpectationCheck.read?, ExpectationCheck.toJson, Json.fields?_record (by simp)]
  simp [Node.required, SortedMap.lookup_cons_ite, expected, observed, passed, bind_ite_some,
    ← ite_and, isFinite_iff]

/-! ## Summaries -/

namespace Summary

variable {s : Summary}

/-- The counts of a summary are words of 64 bits. -/
structure Fits (s : Summary) : Prop where
  entries : s.entries < wordLimit
  labels : s.labels.Fits
  targets : ∀ g ∈ s.targets, g.labels.Fits
  compatibleHistogram : HistogramFits s.compatibleHistogram
  effectiveVocabulary : s.effectiveVocabulary.Fits
  closedEntries : s.closedEntries < wordLimit
  unrestrictedEntries : s.unrestrictedEntries < wordLimit
  invalidTokens : s.invalidTokens < wordLimit
  widenedEntries : s.widenedEntries < wordLimit

/-- The doubles that a summary states. -/
def numbers (s : Summary) : List Float :=
  s.compatibleMean :: s.effectiveVocabulary.mean ::
    (s.zones.map ZoneSummary.meanReachable ++ s.expectations.flatMap ExpectationCheck.numbers)

/-- All numbers that a summary states are finite. -/
structure IsFinite (s : Summary) : Prop where
  compatibleMean : s.compatibleMean.isFinite = true
  effectiveMean : s.effectiveVocabulary.mean.isFinite = true
  zones : ∀ z ∈ s.zones, z.meanReachable.isFinite = true
  expectations : ∀ c ∈ s.expectations, c.IsFinite

theorem isFinite_iff : s.IsFinite ↔ s.compatibleMean.isFinite = true ∧
    s.effectiveVocabulary.mean.isFinite = true ∧
    (∀ z ∈ s.zones, z.meanReachable.isFinite = true) ∧ ∀ c ∈ s.expectations, c.IsFinite :=
  ⟨fun h ↦ ⟨h.1, h.2, h.3, h.4⟩, fun h ↦ ⟨h.1, h.2.1, h.2.2.1, h.2.2.2⟩⟩

instance (s : Summary) : Decidable s.IsFinite := decidable_of_iff _ isFinite_iff.symm

/-- The fields of a written summary. -/
theorem fields?_toJson (s : Summary) :
    Node.fields? ["entries", "labels", "targets", "compatible_folio_histogram",
      "compatible_folios_mean", "effective_vocabulary", "closed_entries", "unrestricted_entries",
      "invalid_tokens", "zones", "monotonicity_violations", "expectations"] s.toJson =
    some [some (.ofNat s.entries), some s.labels.toJson,
      some (.array (s.targets.map TargetSummary.toJson)),
      some (histogramToJson s.compatibleHistogram), some (.ofFloat s.compatibleMean),
      some s.effectiveVocabulary.toJson, some (.ofNat s.closedEntries),
      some (.ofNat s.unrestrictedEntries), some (.ofNat s.invalidTokens),
      some (.array (s.zones.map ZoneSummary.toJson)), some (.ofNat s.widenedEntries),
      some (.array (s.expectations.map ExpectationCheck.toJson))] := by
  rw [toJson, Json.fields?_record (by simp)]
  rfl

/-- A summary of which each finite number reads back from its numeral (`back`) reads back exactly
when all its numbers are finite. -/
theorem read?_toJson (fits : s.Fits)
    (back : ∀ x ∈ s.numbers, x.isFinite = true → ReadsBack x) :
    read? s.toJson = if s.IsFinite then some s else none := by
  have compatible := float?_ofFloat (back s.compatibleMean (by simp [numbers]))
  have effective := SizeStatistics.read?_toJson fits.effectiveVocabulary
    (back s.effectiveVocabulary.mean (by simp [numbers]))
  have targets := Json.list?_array fun g hg ↦ TargetSummary.read?_toJson (fits.targets g hg)
  have zones := Json.list?_array_ite s.zones fun z hz ↦
    ZoneSummary.read?_toJson (back z.meanReachable
      (by simp only [numbers, List.mem_cons, List.mem_append, List.mem_map]; grind))
  have checks := Json.list?_array_ite s.expectations fun c hc ↦
    ExpectationCheck.read?_toJson fun x hx ↦ back x (by
      simp only [numbers, List.mem_cons, List.mem_append, List.mem_flatMap]; grind)
  have fields : read? s.toJson = (do
      let mean ← Node.float? (Json.ofFloat s.compatibleMean)
      let effective ← SizeStatistics.read? s.effectiveVocabulary.toJson
      let zones ← Node.list? ZoneSummary.read? (Json.array (s.zones.map ZoneSummary.toJson))
      let checks ←
        Node.list? ExpectationCheck.read? (Json.array (s.expectations.map ExpectationCheck.toJson))
      return { s with
        compatibleMean := mean, effectiveVocabulary := effective, zones := zones,
        expectations := checks }) := by
    rw [Summary.read?, fields?_toJson]
    dsimp only [Node.required, Option.bind_eq_bind, Option.bind_some]
    rw [Json.natural?_ofNat fits.entries, Tally.read?_toJson fits.labels, targets,
      readHistogram?_histogramToJson fits.compatibleHistogram,
      Json.natural?_ofNat fits.closedEntries, Json.natural?_ofNat fits.unrestrictedEntries,
      Json.natural?_ofNat fits.invalidTokens, Json.natural?_ofNat fits.widenedEntries]
    rfl
  rw [fields, compatible, effective, zones, checks]
  simp only [Option.bind_eq_bind, bind_ite_some, ← ite_and]
  exact if_congr isFinite_iff.symm rfl rfl

end Summary

/-! ## Parts are plain -/

theorem Tally.isPlain_toJson (t : Tally) : IsPlain t.toJson :=
  .record (by simp [Json.isPlain_ofNat])

theorem TargetSummary.isPlain_toJson (t : TargetSummary) : IsPlain t.toJson :=
  .record (by simp [IsPlain.ofString, Tally.isPlain_toJson])

theorem SizeStatistics.isPlain_toJson (s : SizeStatistics) : IsPlain s.toJson :=
  .record (by simp [Json.isPlain_ofNat, Json.isPlain_ofFloat])

theorem ZoneSummary.isPlain_toJson (z : ZoneSummary) : IsPlain z.toJson :=
  .record (by simp [IsPlain.ofString, Json.isPlain_ofFloat])

theorem ExpectationCheck.isPlain_toJson (c : ExpectationCheck) : IsPlain c.toJson :=
  .record (by simp [IsPlain.ofString, Band.isPlain_toJson, Json.isPlain_ofFloat, IsPlain.bool])

theorem isPlain_histogramToJson (h : SortedMap Nat Nat) : IsPlain (histogramToJson h) := by
  refine .record fun p hp ↦ ?_
  obtain ⟨q, -, rfl⟩ := List.mem_map.1 hp
  exact Json.isPlain_ofNat q.2

namespace Summary

theorem isPlain_toJson (s : Summary) : IsPlain s.toJson :=
  .record (by
    simp [Json.isPlain_ofNat, Json.isPlain_ofFloat, Tally.isPlain_toJson,
      Json.isPlain_array_map TargetSummary.isPlain_toJson, isPlain_histogramToJson,
      SizeStatistics.isPlain_toJson, Json.isPlain_array_map ZoneSummary.isPlain_toJson,
      Json.isPlain_array_map ExpectationCheck.isPlain_toJson])

/-- A summary of which each finite number reads back from its numeral (`back`) reads back from its
text exactly when all its numbers are finite. -/
theorem readAs?_indented {s : Summary} (fits : s.Fits)
    (back : ∀ x ∈ s.numbers, x.isFinite = true → ReadsBack x) :
    Json.readAs? read? s.toJson.indented = if s.IsFinite then some s else none := by
  rw [Json.readAs?, Json.read?_indented s.isPlain_toJson]
  exact read?_toJson fits back

end Summary

end ManuscriptReach
