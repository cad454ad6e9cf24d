import ManuscriptReach.Batch.Summary
import ManuscriptReach.Yaml.Node
import ManuscriptReach.Proofs.Acceptance
import ManuscriptReach.Proofs.Canonical
import ManuscriptReach.Proofs.Json.Double

/-!
# Expected bands in the canonical text

The canonical text determines what a batch is expected to be where the ends of the expected bands
are finite (`Tables.summary_eq_of_canonical_eq`): then it determines the whole summary, the checks
and what came of them included.  All of it but the checks is determined in any case.

An end that is not finite is written as null, whichever it is.  So a band open above and the band
that no number lies in, with the lower end infinite on the wrong side, have one text, and the same
batch passes the one and fails the other (`Tables.open_bands_written_alike`).
-/

namespace ManuscriptReach

/-- Both ends of a band are finite. -/
def Band.IsFinite (b : Band) : Prop := b.low.isFinite = true ∧ b.high.isFinite = true

instance (b : Band) : Decidable b.IsFinite := inferInstanceAs (Decidable (_ ∧ _))

namespace Expectations

/-- All bands that are expected are finite. -/
structure IsFinite (e : Expectations) : Prop where
  compatibleFolios : ∀ b ∈ e.compatibleFolios, b.IsFinite
  effectiveVocabulary : ∀ b ∈ e.effectiveVocabulary, b.IsFinite

end Expectations

/-! ## What the text of a band says -/

section Written

variable {b c : Band}

/-- A finite end that is written like another end is that end. -/
theorem eq_of_ofFloat_eq {x y : Float} (finite : x.isFinite = true)
    (same : Json.ofFloat x = Json.ofFloat y) : x = y := by
  rcases Json.ofFloat_eq_iff.1 same with equal | ⟨infinite, -⟩
  · exact equal
  · cases finite.symm.trans infinite

theorem Band.eq_of_toJson_eq (finite : b.IsFinite) (same : b.toJson = c.toJson) : b = c := by
  obtain ⟨low, high⟩ := b
  obtain ⟨low', high'⟩ := c
  rw [toJson, toJson, Json.array.injEq, List.cons.injEq, List.cons.injEq] at same
  obtain ⟨lows, highs, -⟩ := same
  rw [mk.injEq]
  exact ⟨eq_of_ofFloat_eq finite.1 lows, eq_of_ofFloat_eq finite.2 highs⟩

/-- Bands are expected at the same places, and written alike. -/
theorem Expectations.toJson_eq_iff {e f : Expectations} :
    e.toJson = f.toJson ↔
      e.compatibleFolios.map Band.toJson = f.compatibleFolios.map Band.toJson ∧
        e.effectiveVocabulary.map Band.toJson = f.effectiveVocabulary.map Band.toJson := by
  have nullable (a c : Option Band) : Json.nullable Band.toJson a = Json.nullable Band.toJson c ↔
      a.map Band.toJson = c.map Band.toJson := by
    cases a with
    | none =>
      cases c with
      | none => exact iff_of_true rfl rfl
      | some c => exact iff_of_false Json.noConfusion (Option.some_ne_none _).symm
    | some a =>
      cases c with
      | none => exact iff_of_false Json.noConfusion (Option.some_ne_none _)
      | some c => exact (Option.some_inj (a := a.toJson) (b := c.toJson)).symm
  simp only [toJson, Json.record_inj, List.cons.injEq, Prod.mk.injEq, true_and, and_true, nullable]

theorem Expectations.eq_of_toJson_eq {e f : Expectations} (finite : e.IsFinite)
    (same : e.toJson = f.toJson) : e = f := by
  have eq {a c : Option Band} (finite : ∀ b ∈ a, b.IsFinite)
      (same : a.map Band.toJson = c.map Band.toJson) : a = c := by
    cases a with
    | none => exact (Option.map_eq_none_iff.1 same.symm).symm
    | some a =>
      obtain ⟨c, rfl, hc⟩ := Option.map_eq_some_iff.1 same.symm
      rw [Band.eq_of_toJson_eq (finite a rfl) hc.symm]
  obtain ⟨folios, vocabulary⟩ := toJson_eq_iff.1 same
  obtain ⟨_, _⟩ := e
  obtain ⟨_, _⟩ := f
  rw [mk.injEq]
  exact ⟨eq finite.compatibleFolios folios, eq finite.effectiveVocabulary vocabulary⟩

end Written

/-! ## Checks -/

/-- Two checks are of one statistic with one value.  They are the same check, with the same outcome,
unless the band is open; then the bands are still written alike. -/
structure ExpectationCheck.Matches (c d : ExpectationCheck) : Prop where
  name : c.name = d.name
  observed : c.observed = d.observed
  expected : c.expected.toJson = d.expected.toJson
  eq : c.expected.IsFinite → c = d

/-- The checks of bands that are written alike match one by one. -/
theorem Expectations.forall₂_checks {e f : Expectations} (same : e.toJson = f.toJson)
    (compatible effective : Float) :
    List.Forall₂ ExpectationCheck.Matches (e.checks compatible effective)
      (f.checks compatible effective) := by
  have one (name : String) (observed : Float) {a c : Option Band}
      (same : a.map Band.toJson = c.map Band.toJson) :
      List.Forall₂ ExpectationCheck.Matches
        (a.map fun b ↦ ExpectationCheck.of name b observed).toList
        (c.map fun b ↦ ExpectationCheck.of name b observed).toList := by
    cases a with
    | none =>
      rw [Option.map_eq_none_iff.1 same.symm]
      exact .nil
    | some a =>
      obtain ⟨c, rfl, hc⟩ := Option.map_eq_some_iff.1 same.symm
      refine .cons ⟨rfl, rfl, hc.symm, fun finite ↦ ?_⟩ .nil
      exact congrArg (ExpectationCheck.of name · observed) (Band.eq_of_toJson_eq finite hc.symm)
  obtain ⟨folios, vocabulary⟩ := toJson_eq_iff.1 same
  exact List.rel_append (one compatibleMeanName compatible folios)
    (one effectiveMeanName effective vocabulary)

namespace Tables

variable {t u : Tables}

theorem Agrees.summary (h : t.Agrees u)
    (expectations : t.settings.expectations = u.settings.expectations) : t.summary = u.summary := by
  funext outcomes
  rw [Tables.summary, Tables.summary, h.targets, h.zones, expectations]

/-- What a summary says apart from the checks. -/
def statistics (t : Tables) (outcomes : List Outcome) : Summary :=
  { t.summary outcomes with expectations := [] }

theorem Agrees.statistics (h : t.Agrees u) : t.statistics = u.statistics := by
  funext outcomes
  rw [Tables.statistics, Tables.statistics, Tables.summary, Tables.summary, h.targets, h.zones]

/-! ## Expecting something else -/

/-- The same tables with other expectations. -/
def expecting (t : Tables) (e : Expectations) : Tables :=
  { t with settings := { t.settings with expectations := e } }

theorem Agrees.expecting (h : t.Agrees u) (e f : Expectations) :
    (t.expecting e).Agrees (u.expecting f) :=
  ⟨h.markers, h.folios, h.spreads, h.zones, h.legality, h.classes, h.targets, h.restrictedSpread⟩

theorem Agrees.refl (t : Tables) : t.Agrees t := ⟨rfl, rfl, rfl, rfl, rfl, rfl, rfl, rfl⟩

/-- What is expected of a batch does not change it. -/
theorem run_expecting (t : Tables) (e : Expectations) : (t.expecting e).run = t.run :=
  ((Agrees.refl t).expecting e t.settings.expectations).run

/-- Expectations that are written alike do not show in the canonical text. -/
theorem Agrees.canonical_expecting (h : t.Agrees u) {e f : Expectations}
    (same : e.toJson = f.toJson) : (t.expecting e).canonical = (u.expecting f).canonical :=
  canonical_eq_iff.2 ⟨h.expecting e f, same⟩

end Tables

/-- Documents that expect something else describe the same tables with other expectations. -/
theorem TableDocuments.build_expecting {d : TableDocuments} {t : Tables} (h : d.build = .ok t)
    (e : Expectations) :
    { d with settings := { d.settings with expectations := e } }.build = .ok (t.expecting e) := by
  obtain ⟨markers, hmarkers, afterMarkers⟩ := bind_eq_ok_iff.1 h
  obtain ⟨folios, hfolios, afterFolios⟩ := bind_eq_ok_iff.1 afterMarkers
  obtain ⟨zones, hzones, afterZones⟩ := bind_eq_ok_iff.1 afterFolios
  refine bind_eq_ok_iff.2 ⟨markers, hmarkers, bind_eq_ok_iff.2 ⟨folios, hfolios,
    bind_eq_ok_iff.2 ⟨zones, hzones, ?_⟩⟩⟩
  dsimp only at afterZones ⊢
  split at afterZones
  · cases afterZones
  obtain ⟨classes, hclasses, afterClasses⟩ := bind_eq_ok_iff.1 afterZones
  obtain ⟨targets, htargets, afterTargets⟩ := bind_eq_ok_iff.1 afterClasses
  obtain ⟨settings, hsettings, last⟩ := bind_eq_ok_iff.1 afterTargets
  cases last
  refine bind_eq_ok_iff.2 ⟨classes, hclasses, bind_eq_ok_iff.2 ⟨targets, htargets,
    bind_eq_ok_iff.2 ⟨{ settings with expectations := e }, ?_, rfl⟩⟩⟩
  unfold Settings.ofParts at hsettings ⊢
  split at hsettings
  next positive =>
    cases hsettings
    exact dif_pos positive
  next => cases hsettings

/-! ## The canonical text and the summary -/

/-- **The canonical text determines the summary where the expected bands are finite.**  Tables
whose canonical texts have the same bytes summarize every list of entries alike, but for the checks;
those are of the same statistics and the same check each where the band is finite.  When all bands
are, the summaries are equal. -/
theorem Tables.summary_eq_of_canonical_eq (t u : Tables)
    (same : t.canonical.toUTF8 = u.canonical.toUTF8) (shared : Bool) (entries : List Entry) :
    t.statistics (t.run shared entries).outcomes = u.statistics (u.run shared entries).outcomes ∧
      List.Forall₂ ExpectationCheck.Matches
        (t.summary (t.run shared entries).outcomes).expectations
        (u.summary (u.run shared entries).outcomes).expectations ∧
      (t.settings.expectations.IsFinite →
        t.summary (t.run shared entries).outcomes = u.summary (u.run shared entries).outcomes) := by
  obtain ⟨agrees, written⟩ := Tables.canonical_eq_iff.1 (String.toByteArray_inj.1 same)
  rw [agrees.run]
  refine ⟨congrFun agrees.statistics _, ?_, fun finite ↦ ?_⟩
  · exact Expectations.forall₂_checks written _ _
  · exact congrFun (agrees.summary (Expectations.eq_of_toJson_eq finite written)) _

/-- A mean of at least one compatible folio and at most `high` of them is expected. -/
def expectingFromOne (high : Float) : Expectations := ⟨some ⟨1, high⟩, none⟩

theorem isFinite_expectingFromOne {high : Float} :
    (expectingFromOne high).IsFinite ↔ high.isFinite = true := by
  constructor
  · intro finite
    exact (finite.compatibleFolios _ rfl).2
  · intro finite
    have low : Float.isFinite 1 = true := by decide +kernel
    refine ⟨fun b hb ↦ ?_, nofun⟩
    cases hb
    exact ⟨low, finite⟩

/-- The sample tables and the relisted ones with a band from one to nine for the compatible folios.
They have one text. -/
def bandedTables : Tables × Tables :=
  (sampleTables.expecting (expectingFromOne 9), relistedTables.expecting (expectingFromOne 9))

/-- The banded tables summarize the sample entry alike. -/
theorem Tables.summary_eq_of_canonical_eq_sample :
    bandedTables.1.canonical.toUTF8 = bandedTables.2.canonical.toUTF8 ∧
      bandedTables.1.settings.expectations.IsFinite ∧
      bandedTables.1.summary (bandedTables.1.run true [⟨"e1", ["qoa"]⟩]).outcomes =
        bandedTables.2.summary (bandedTables.2.run true [⟨"e1", ["qoa"]⟩]).outcomes := by
  have same : bandedTables.1.canonical.toUTF8 = bandedTables.2.canonical.toUTF8 :=
    congrArg String.toUTF8 (agrees_relistedTables.canonical_expecting rfl)
  have finite : bandedTables.1.settings.expectations.IsFinite :=
    isFinite_expectingFromOne.2 (by decide +kernel)
  exact ⟨same, finite, (Tables.summary_eq_of_canonical_eq _ _ same true _).2.2 finite⟩

/-- The settings `[1.0, .inf]` and `[1.0, -.inf]` give tables with one canonical text.  The sample
entry, with one compatible folio, passes the former expectation and fails the latter. -/
theorem Tables.open_bands_written_alike :
    ∃ above aside : SettingsDocument,
      Yaml.readAs? SettingsDocument.read?
          "restricted_max_spread: 1\nexpectations:\n  compatible_folios_mean: [1.0, .inf]\n" =
        some above ∧
      Yaml.readAs? SettingsDocument.read?
          "restricted_max_spread: 1\nexpectations:\n  compatible_folios_mean: [1.0, -.inf]\n" =
        some aside ∧
      ∃ t u : Tables, { sampleDocuments with settings := above }.build = .ok t ∧
        { sampleDocuments with settings := aside }.build = .ok u ∧
        t.canonical.toUTF8 = u.canonical.toUTF8 ∧
        (t.summary (t.run false [⟨"e1", ["qoa"]⟩]).outcomes).expectationsPassed = true ∧
        (u.summary (u.run false [⟨"e1", ["qoa"]⟩]).outcomes).expectationsPassed = false := by
  have built : sampleDocuments.build = .ok sampleTables := eq_ok_get sampleDocuments_accepted
  have written : (expectingFromOne (1 / 0)).toJson = (expectingFromOne (-1 / 0)).toJson := by
    have ends : Json.ofFloat (1 / 0) = Json.ofFloat (-1 / 0) :=
      Json.ofFloat_eq_iff.2 (.inr ⟨by decide +kernel, by decide +kernel⟩)
    rw [Expectations.toJson_eq_iff]
    refine ⟨congrArg some ?_, rfl⟩
    rw [Band.toJson, Band.toJson, ends]
  exact ⟨⟨1, expectingFromOne (1 / 0)⟩, ⟨1, expectingFromOne (-1 / 0)⟩, by decide +kernel,
    by decide +kernel, sampleTables.expecting (expectingFromOne (1 / 0)),
    sampleTables.expecting (expectingFromOne (-1 / 0)),
    TableDocuments.build_expecting built _, TableDocuments.build_expecting built _,
    congrArg String.toUTF8 ((Tables.Agrees.refl sampleTables).canonical_expecting written),
    by decide +kernel, by decide +kernel⟩

end ManuscriptReach
