import ManuscriptReach.Command.Plan
import ManuscriptReach.Proofs.Accounting
import ManuscriptReach.Proofs.CompleteReports
import ManuscriptReach.Proofs.Number.Mean
import ManuscriptReach.Proofs.SummaryText

/-!
# The summary that a run writes

The means of a batch are finite, whatever the batch (`Tables.isFinite_means`).  What is left are the
ends of the expected bands, which a summary takes over from the settings.  Where every finite number
of the summary reads back from its own numeral, which not all do, the summary of a run reads back
exactly when the bands are finite (`Tables.planRun_summary_reads_back`).
-/

namespace ManuscriptReach

/-! ## The means of a batch -/

/-- The mean of at most `2 ^ 64` words is finite. -/
theorem isFinite_meanOf_totalOf {ns : List Nat} (words : ∀ n ∈ ns, n < wordLimit)
    (length : ns.length < wordLimit) : (meanOf (totalOf ns) ns.length).isFinite = true := by
  have limit : wordLimit = 2 ^ 64 := rfl
  have sum : ns.sum ≤ ns.length * 2 ^ 64 := by
    refine List.sum_le_card_nsmul ns (2 ^ 64) fun n hn ↦ ?_
    exact limit ▸ (words n hn).le
  rw [totalOf_eq_sum]
  exact isFinite_meanOf (by omega) (by omega)

theorem isFinite_meanOf_totalOf_map {α : Type} {f : α → Nat} {xs : List α}
    (words : ∀ x ∈ xs, f x < wordLimit) (length : xs.length < wordLimit) :
    (meanOf (totalOf (xs.map f)) xs.length).isFinite = true := by
  have mean := isFinite_meanOf_totalOf (List.forall_mem_map.2 words)
    (by rw [List.length_map]; exact length)
  rw [List.length_map] at mean
  exact mean

namespace Tables

section Means

variable {t : Tables} {outcomes : List Outcome}

/-- The means that a summary states are finite, however many entries there are and whatever they
are. -/
theorem isFinite_means (fits : (t.summary outcomes).Fits) :
    (t.summary outcomes).compatibleMean.isFinite = true ∧
      (t.summary outcomes).effectiveVocabulary.mean.isFinite = true ∧
      ∀ z ∈ (t.summary outcomes).zones, z.meanReachable.isFinite = true := by
  have entries : outcomes.length < wordLimit := fits.entries
  refine ⟨?_, ?_, ?_⟩
  · refine isFinite_meanOf_totalOf_map (fun o ho ↦ ?_) entries
    have counted : o.propagation.compatible.length ∈
        outcomes.map fun o ↦ o.propagation.compatible.length := List.mem_map_of_mem ho
    obtain ⟨p, hp, key⟩ := List.mem_map.1 (mem_keys_histogram.2 counted)
    rw [← key]
    exact (fits.compatibleHistogram p hp).1
  · have words : ∀ n ∈ outcomes.map fun o ↦ o.propagation.effective.size, n < wordLimit := by
      intro n hn
      exact ((SizeStatistics.describes_ofList _).le_greatest n hn).trans_lt
        fits.effectiveVocabulary.greatest
    exact isFinite_meanOf_totalOf words (by rw [List.length_map]; exact entries)
  · intro z hz
    obtain ⟨i, hi, rfl⟩ := List.mem_mapIdx.1 hz
    refine isFinite_meanOf_totalOf_map (fun o _ ↦ ?_) entries
    cases o.propagation.reachability.zones[i]? with
    | none => exact Nat.two_pow_pos 64
    | some z => exact z.reachable.size_le.trans_lt (by decide)

/-- A summary has finite numbers when the expected bands are finite. -/
theorem isFinite_summary_iff (fits : (t.summary outcomes).Fits) :
    (t.summary outcomes).IsFinite ↔ t.settings.expectations.IsFinite := by
  obtain ⟨compatible, effective, zones⟩ := isFinite_means fits
  have one {name : String} {a : Option Band} {x : Float} (hx : x.isFinite = true) :
      (∀ c ∈ (a.map fun b ↦ ExpectationCheck.of name b x).toList, c.IsFinite) ↔
        ∀ b ∈ a, b.IsFinite := by
    cases a with
    | none => exact iff_of_true nofun nofun
    | some b => simp [ExpectationCheck.isFinite_iff, ExpectationCheck.of, hx]
  have checks : (∀ c ∈ (t.summary outcomes).expectations, c.IsFinite) ↔
      t.settings.expectations.IsFinite := by
    change (∀ c ∈ t.settings.expectations.checks (t.summary outcomes).compatibleMean
      (t.summary outcomes).effectiveVocabulary.mean, c.IsFinite) ↔ _
    rw [Expectations.checks, List.forall_mem_append, one compatible, one effective]
    exact ⟨fun h ↦ ⟨h.1, h.2⟩, fun h ↦ ⟨h.1, h.2⟩⟩
  rw [Summary.isFinite_iff, checks]
  exact ⟨fun h ↦ h.2.2.2, fun h ↦ ⟨compatible, effective, zones, h⟩⟩

/-- The summary of a batch, of which each finite number reads back from its numeral (`back`), reads
back from its text exactly when the expected bands are finite. -/
theorem readAs?_summary (fits : (t.summary outcomes).Fits)
    (back : ∀ x ∈ (t.summary outcomes).numbers, x.isFinite = true → ReadsBack x) :
    (t.settings.expectations.IsFinite →
        Json.readAs? Summary.read? (t.summary outcomes).toJson.indented =
          some (t.summary outcomes)) ∧
      (¬ t.settings.expectations.IsFinite →
        Json.readAs? Summary.read? (t.summary outcomes).toJson.indented = none) := by
  rw [Summary.readAs?_indented fits back]
  refine ⟨fun finite ↦ if_pos ?_, fun infinite ↦ if_neg ?_⟩
  · exact (isFinite_summary_iff fits).2 finite
  · exact mt (isFinite_summary_iff fits).1 infinite

end Means

/-- A run that is asked for a summary writes it. -/
theorem summary_mem_files (t : Tables) (stamp : Option RunStamp) (o : Options) {r : RunRequest}
    (entries : List Entry) {path : String} (asked : r.summary = some path) :
    (path, (t.summary (t.run r.shared entries).outcomes).toJson.indented) ∈
      (t.planRun stamp o r entries).files := by
  have written : (path, (t.summary (t.run r.shared entries).outcomes).toJson.indented) ∈
      (r.summary.map fun path ↦
        (path, (t.summary (t.run r.shared entries).outcomes).toJson.indented)).toList := by
    rw [asked]
    exact List.mem_singleton_self _
  exact List.mem_append_left _ (List.mem_append_right _ written)

/-- **The summary of a run reads back where the expected bands are finite, and only there, as far as
its numbers do.**  A run that is asked for a summary writes a text to the given path.  Where the
bands are finite the text reads back as the summary, with all its counts, means and checks, and
otherwise as nothing at all.  This is said of summaries whose counts are words of 64 bits (`fits`)
and whose finite numbers each read back from their own numeral (`back`); a mean of 1/11, for one,
does not. -/
theorem planRun_summary_reads_back (t : Tables) (stamp : Option RunStamp) (o : Options)
    (r : RunRequest) (entries : List Entry) {path : String} (asked : r.summary = some path)
    (fits : (t.summary (t.run r.shared entries).outcomes).Fits)
    (back : ∀ x ∈ (t.summary (t.run r.shared entries).outcomes).numbers,
      x.isFinite = true → ReadsBack x) :
    ∃ text, (path, text) ∈ (t.planRun stamp o r entries).files ∧
      (t.settings.expectations.IsFinite →
        Json.readAs? Summary.read? text =
          some (t.summary (t.run r.shared entries).outcomes)) ∧
      (¬ t.settings.expectations.IsFinite → Json.readAs? Summary.read? text = none) :=
  ⟨_, t.summary_mem_files stamp o entries asked, readAs?_summary fits back⟩

end Tables

/-- What is expected of a batch does not change the counts in its summary. -/
theorem Tables.fits_expecting {t : Tables} {outcomes : List Outcome}
    (fits : (t.summary outcomes).Fits) (e : Expectations) :
    ((t.expecting e).summary outcomes).Fits :=
  ⟨fits.entries, fits.labels, fits.targets, fits.compatibleHistogram, fits.effectiveVocabulary,
    fits.closedEntries, fits.unrestrictedEntries, fits.invalidTokens, fits.widenedEntries⟩

/-- The outcome of the sample entry. -/
def sampleOutcomes : List Outcome := (sampleTables.run false [⟨"e1", ["qoa"]⟩]).outcomes

theorem outcomes_run_expecting_sample (e : Expectations) :
    ((sampleTables.expecting e).run false [⟨"e1", ["qoa"]⟩]).outcomes = sampleOutcomes := by
  rw [Tables.run_expecting]
  rfl

theorem fits_sampleOutcomes : (sampleTables.summary sampleOutcomes).Fits where
  entries := by decide +kernel
  labels := by decide +kernel
  targets := by decide +kernel
  compatibleHistogram := by decide +kernel
  effectiveVocabulary := ⟨by decide +kernel, by decide +kernel⟩
  closedEntries := by decide +kernel
  unrestrictedEntries := by decide +kernel
  invalidTokens := by decide +kernel
  widenedEntries := by decide +kernel

/-- The sample entry has one compatible folio, which is in the band from one to nine, and the
summary that says so reads back. -/
theorem Tables.planRun_summary_reads_back_sample :
    (expectingFromOne 9).IsFinite ∧
      ∃ text, ("summary.json", text) ∈ ((sampleTables.expecting (expectingFromOne 9)).planRun none
          ⟨none, .json, false⟩ ⟨"entries.txt", none, some "summary.json", none, false, false⟩
          [⟨"e1", ["qoa"]⟩]).files ∧
        Json.readAs? Summary.read? text =
          some ((sampleTables.expecting (expectingFromOne 9)).summary sampleOutcomes) := by
  have finite : (expectingFromOne 9).IsFinite := isFinite_expectingFromOne.2 (by decide +kernel)
  have outcomes := outcomes_run_expecting_sample (expectingFromOne 9)
  have back : ∀ x ∈ ((sampleTables.expecting (expectingFromOne 9)).summary sampleOutcomes).numbers,
      x.isFinite = true → ReadsBack x := by decide +kernel
  obtain ⟨text, written, read, -⟩ := Tables.planRun_summary_reads_back
    (sampleTables.expecting (expectingFromOne 9)) none ⟨none, .json, false⟩
    ⟨"entries.txt", none, some "summary.json", none, false, false⟩ [⟨"e1", ["qoa"]⟩]
    rfl (by rw [outcomes]; exact Tables.fits_expecting fits_sampleOutcomes _)
    (by rw [outcomes]; exact back)
  rw [outcomes] at read
  exact ⟨finite, text, written, read finite⟩

/-- Under the settings `[1.0, .inf]`, which are accepted, the summary of the sample entry is
unreadable. -/
theorem Tables.open_band_unreadable :
    ∃ d : SettingsDocument,
      Yaml.readAs? SettingsDocument.read?
          "restricted_max_spread: 1\nexpectations:\n  compatible_folios_mean: [1.0, .inf]\n" =
        some d ∧
      ∃ t : Tables, { sampleDocuments with settings := d }.build = .ok t ∧
        ∃ text, ("summary.json", text) ∈ (t.planRun none ⟨none, .json, false⟩
            ⟨"entries.txt", none, some "summary.json", none, false, false⟩
            [⟨"e1", ["qoa"]⟩]).files ∧
          Json.readAs? Summary.read? text = none := by
  have built : sampleDocuments.build = .ok sampleTables := eq_ok_get sampleDocuments_accepted
  have infinite : ¬ (expectingFromOne (1 / 0)).IsFinite :=
    mt isFinite_expectingFromOne.1 (by decide +kernel)
  have back : ∀ x ∈
      ((sampleTables.expecting (expectingFromOne (1 / 0))).summary sampleOutcomes).numbers,
      x.isFinite = true → ReadsBack x := by decide +kernel
  have unreadable := (Tables.readAs?_summary (Tables.fits_expecting fits_sampleOutcomes _) back).2
    infinite
  rw [← outcomes_run_expecting_sample] at unreadable
  exact ⟨⟨1, expectingFromOne (1 / 0)⟩, by decide +kernel,
    sampleTables.expecting (expectingFromOne (1 / 0)), TableDocuments.build_expecting built _, _,
    Tables.summary_mem_files _ none ⟨none, .json, false⟩ _ rfl, unreadable⟩

end ManuscriptReach
