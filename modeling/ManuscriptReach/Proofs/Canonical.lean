import ManuscriptReach.Batch
import ManuscriptReach.Tables.Codec
import ManuscriptReach.Proofs.Json.Record
import ManuscriptReach.Proofs.Narrowing

/-!
# The canonical text determines a run

Tables with one canonical text agree in everything that a run reads
(`Tables.reports_eq_of_canonical_eq`).  The text is injective on plain trees, the tree on the
tables' parts, and what it leaves out, the candidate lists of the marker table, is computed
from parts that it holds.  Only the expected bands may differ: a band that is not finite is
written as null.
-/

namespace ManuscriptReach

open Json (IsPlain)

/-! ## Tables are plain -/

theorem Markers.isPlain_toJson (t : Markers) : IsPlain t.toJson :=
  .record (by simp [Json.isPlain_ofStringSet, Json.isPlain_ofStringMap IsPlain.ofString])

theorem Folio.isPlain_toJson (f : Folio) : IsPlain f.toJson :=
  .record (by simp [IsPlain.ofString, Json.isPlain_ofStringSet])

theorem Zone.isPlain_toJson (z : Zone) : IsPlain z.toJson :=
  .record (by simp [IsPlain.ofString])

theorem ClassId.isPlain_toJson (c : ClassId) : IsPlain c.toJson := Json.isPlain_ofNat c.number

theorem InstructionClass.isPlain_toJson (c : InstructionClass) : IsPlain c.toJson :=
  .record (by simp [IsPlain.ofString, Json.isPlain_ofStringSet, ClassId.isPlain_toJson])

theorem Target.isPlain_toJson (t : Target) : IsPlain t.toJson :=
  .record (by
    simp [IsPlain.ofString, ClassSet.toJson, Json.isPlain_array_map ClassId.isPlain_toJson])

theorem Band.isPlain_toJson (b : Band) : IsPlain b.toJson :=
  .array (by simp [Json.isPlain_ofFloat])

theorem Settings.isPlain_toJson (s : Settings) : IsPlain s.toJson := by
  have expectations : IsPlain s.expectations.toJson :=
    .record (by simp [Json.isPlain_nullable Band.isPlain_toJson])
  exact .record (by simp [Json.isPlain_ofNat, expectations])

theorem Tables.isPlain_toJson (t : Tables) : IsPlain t.toJson :=
  .record (by
    simp [t.markers.isPlain_toJson, Json.isPlain_array_map Folio.isPlain_toJson,
      Json.isPlain_array_map Zone.isPlain_toJson, SpreadTable.toJson, Legality.toJson,
      Json.isPlain_ofStringMap Json.isPlain_ofNat,
      Json.isPlain_ofStringMap Json.isPlain_ofStringSet,
      Json.isPlain_array_map InstructionClass.isPlain_toJson,
      Json.isPlain_array_map Target.isPlain_toJson, t.settings.isPlain_toJson])

/-! ## The tree determines the parts -/

/-- The candidate lists are computed from the other parts of a marker table. -/
theorem Markers.eq_of_parts {t u : Markers} (families : t.families = u.families)
    (extended : t.extended = u.extended) (suffixes : t.suffixes = u.suffixes)
    (infrastructure : t.infrastructure = u.infrastructure) : t = u := by
  obtain ⟨_, _, _, _, _, _, _, _, _, _, _, rfl, rfl⟩ := t
  obtain ⟨_, _, _, _, _, _, _, _, _, _, _, rfl, rfl⟩ := u
  cases families
  cases extended
  cases suffixes
  cases infrastructure
  rfl

theorem Markers.toJson_injective : Function.Injective Markers.toJson := by
  intro t u h
  simp only [Markers.toJson, Json.record_inj, List.cons.injEq, Prod.mk.injEq, true_and, and_true,
    Json.ofStringSet_inj] at h
  obtain ⟨families, extended, suffixes, infrastructure⟩ := h
  exact eq_of_parts families (Json.ofStringMap_injective Json.ofString_injective extended) suffixes
    infrastructure

theorem Folio.toJson_injective : Function.Injective Folio.toJson := by
  rintro ⟨id, vocabulary⟩ ⟨id', vocabulary'⟩ h
  simpa [Folio.toJson] using h

theorem Zone.toJson_injective : Function.Injective Zone.toJson := by
  rintro ⟨label, canonical⟩ ⟨label', canonical'⟩ h
  simpa [Zone.toJson] using h

theorem ClassKind.word_injective : Function.Injective ClassKind.word := by
  intro k l h
  cases k <;> cases l <;> first | rfl | exact absurd h (by decide)

/-- Kind and middles say all about a requirement. -/
theorem Requirement.eq_of_kind_of_middles {r s : Requirement} (kind : r.kind = s.kind)
    (middles : r.middles = s.middles) : r = s := by
  cases r with
  | floor k =>
    cases s with
    | floor l => cases k <;> cases l <;> first | rfl | cases kind
    | anyOf => cases k <;> cases kind
  | anyOf ms ne =>
    cases s with
    | floor l => cases l <;> cases kind
    | anyOf ns ne' =>
      cases middles
      rfl

theorem ClassId.toJson_injective : Function.Injective ClassId.toJson := fun _ _ h ↦
  ClassId.number_inj.1 (Json.ofNat_injective h)

theorem InstructionClass.toJson_injective : Function.Injective InstructionClass.toJson := by
  rintro ⟨id, requirement⟩ ⟨id', requirement'⟩ h
  simp only [InstructionClass.toJson, Json.record_inj, List.cons.injEq, Prod.mk.injEq, true_and,
    and_true, Json.ofString_inj, Json.ofStringSet_inj] at h
  obtain ⟨id, kind, middles⟩ := h
  rw [ClassId.toJson_injective id,
    Requirement.eq_of_kind_of_middles (ClassKind.word_injective kind) middles]

theorem ClassSet.toJson_injective : Function.Injective ClassSet.toJson := by
  intro s t h
  rw [← ClassSet.ofList_toList s, ← ClassSet.ofList_toList t,
    Json.array_map_injective ClassId.toJson_injective h]

theorem Target.toJson_injective : Function.Injective Target.toJson := by
  rintro ⟨id, footprint⟩ ⟨id', footprint'⟩ h
  simp only [Target.toJson, Json.record_inj, List.cons.injEq, Prod.mk.injEq, true_and, and_true,
    Json.ofString_inj] at h
  rw [h.1, ClassSet.toJson_injective h.2]

namespace Tables

/-- Two sets of tables agree in everything but the expected bands, which no report reads. -/
structure Agrees (t u : Tables) : Prop where
  markers : t.markers = u.markers
  folios : t.folios = u.folios
  spreads : t.spreads = u.spreads
  zones : t.zones = u.zones
  legality : t.legality = u.legality
  classes : t.classes = u.classes
  targets : t.targets = u.targets
  restrictedSpread : t.settings.restrictedSpread = u.settings.restrictedSpread

/-- Tables have one tree when they agree and the same is written for the expected bands. -/
theorem toJson_eq_iff {t u : Tables} :
    t.toJson = u.toJson ↔
      t.Agrees u ∧ t.settings.expectations.toJson = u.settings.expectations.toJson := by
  constructor
  · intro h
    simp only [Tables.toJson, Settings.toJson, Json.record_inj, List.cons.injEq, Prod.mk.injEq,
      true_and, and_true, Json.ofNat_inj] at h
    obtain ⟨markers, folios, spreads, zones, legality, classes, targets, spread, bands⟩ := h
    have sets : Function.Injective Json.ofStringSet := fun _ _ ↦ Json.ofStringSet_inj.1
    refine ⟨?_, bands⟩
    exact {
      markers := Markers.toJson_injective markers
      folios := FolioCatalog.ext (Json.array_map_injective Folio.toJson_injective folios)
      spreads := SpreadTable.ext (Json.ofStringMap_injective Json.ofNat_injective spreads)
      zones := ZoneOrder.ext (Json.array_map_injective Zone.toJson_injective zones)
      legality := Legality.ext (Json.ofStringMap_injective sets legality)
      classes := ClassCatalog.ext
        (Json.array_map_injective InstructionClass.toJson_injective classes)
      targets := TargetCatalog.ext (Json.array_map_injective Target.toJson_injective targets)
      restrictedSpread := spread }
  · rintro ⟨agrees, bands⟩
    rw [Tables.toJson, Tables.toJson, Settings.toJson, Settings.toJson, agrees.markers,
      agrees.folios, agrees.spreads, agrees.zones, agrees.legality, agrees.classes,
      agrees.targets, agrees.restrictedSpread, bands]

/-- Plain trees with one text are equal, so the same holds of the canonical text. -/
theorem canonical_eq_iff {t u : Tables} :
    t.canonical = u.canonical ↔
      t.Agrees u ∧ t.settings.expectations.toJson = u.settings.expectations.toJson := by
  rw [← toJson_eq_iff]
  exact ⟨Json.eq_of_compact_eq t.isPlain_toJson u.isPlain_toJson, congrArg Json.compact⟩

/-! ## A run reads nothing else -/

section Congruence

variable {t u : Tables}

/-- Sorting reads the markers, the spreads and the bound on them. -/
theorem sorting_congr (markers : t.markers = u.markers) (spreads : t.spreads = u.spreads)
    (bound : t.settings.restrictedSpread = u.settings.restrictedSpread) :
    t.sorting = u.sorting := by
  have middleClass : t.middleClass = u.middleClass := by
    funext m
    rw [middleClass, middleClass, spreads, bound]
  funext e
  rw [sorting, sorting, markers, middleClass]

/-- The records of the zones read the zones, their legality and the classes. -/
theorem zoneReaches_congr (zones : t.zones = u.zones) (legality : t.legality = u.legality)
    (classes : t.classes = u.classes) : t.zoneReaches = u.zoneReaches := by
  funext effective
  rw [zoneReaches, zoneReaches, legality, zones, classes]

/-- What follows from restricted middles reads neither markers nor spreads nor settings. -/
theorem propagate_congr (folios : t.folios = u.folios) (zones : t.zones = u.zones)
    (legality : t.legality = u.legality) (classes : t.classes = u.classes)
    (targets : t.targets = u.targets) : t.propagate = u.propagate := by
  have verdicts : t.verdicts = u.verdicts := by
    funext r
    rw [Tables.verdicts, Tables.verdicts, targets]
  funext restricted
  rw [propagate, propagate, folios, legality, zones, verdicts,
    zoneReaches_congr zones legality classes]

/-- The check of the legality reads the zones and the legality. -/
theorem violations_congr (zones : t.zones = u.zones) (legality : t.legality = u.legality) :
    t.violations = u.violations := by
  rw [violations, violations, legality, zones]

end Congruence

namespace Agrees

variable {t u : Tables}

theorem sorting (h : t.Agrees u) : t.sorting = u.sorting :=
  sorting_congr h.markers h.spreads h.restrictedSpread

theorem propagate (h : t.Agrees u) : t.propagate = u.propagate :=
  propagate_congr h.folios h.zones h.legality h.classes h.targets

theorem outcome (h : t.Agrees u) : t.outcome = u.outcome := by
  funext e
  rw [Tables.outcome, Tables.outcome, h.sorting, h.propagate]

theorem run (h : t.Agrees u) : t.run = u.run := by
  funext shared entries
  have plain : t.runPlain entries = u.runPlain entries := by rw [runPlain, runPlain, h.outcome]
  have together : t.runShared entries = u.runShared entries := by
    simp only [runShared, h.sorting, h.propagate]
  rw [Tables.run, Tables.run, plain, together]

theorem report (h : t.Agrees u) : t.report = u.report := by
  funext withDiagnostics o
  have figures : t.zoneFigures = u.zoneFigures := by
    funext r
    cases r with
    | closed => rw [zoneFigures, zoneFigures, h.zones]
    | opened zs => rfl
  rw [Tables.report, Tables.report, diagnostics, diagnostics, figures]

theorem violations (h : t.Agrees u) : t.violations = u.violations :=
  violations_congr h.zones h.legality

end Agrees

/-- **The canonical text determines every report.**  Tables whose canonical texts have the same
bytes give the same reports on every list of entries, shared or not and with diagnostics or
without; they compute as many propagations, and their legality widens at the same places. -/
theorem reports_eq_of_canonical_eq (t u : Tables) (h : t.canonical.toUTF8 = u.canonical.toUTF8)
    (entries : List Entry) (shared withDiagnostics : Bool) :
    t.reports withDiagnostics (t.run shared entries) =
        u.reports withDiagnostics (u.run shared entries) ∧
      (t.run shared entries).computed = (u.run shared entries).computed ∧
      t.violations = u.violations := by
  have agrees := (canonical_eq_iff.1 (String.toByteArray_inj.1 h)).1
  refine ⟨?_, ?_, agrees.violations⟩
  · rw [Tables.reports, Tables.reports, agrees.report, agrees.run]
  · rw [agrees.run]

end Tables

/-- The sample documents with lists in another order and with repetitions, with the class rows
upside down, and with the derived spreads spelled out. -/
def relistedDocuments : TableDocuments where
  markers := ⟨["qo", "qo"], ∅, [], []⟩
  folios := [⟨"f1", ["c", "a", "c"]⟩, ⟨"f2", ["c", "b"]⟩]
  spreads := some (.ofList [("c", 2), ("b", 1), ("a", 1)])
  zones := ⟨[⟨"A", some "A"⟩, ⟨"B", none⟩], .ofList [("a", .ofList ["A", "A"])]⟩
  classes := sampleDocuments.classes.reverse
  targets := [⟨"T1", [2, 1, 2]⟩, ⟨"T2", [2]⟩]
  settings := ⟨1, .none⟩

theorem relistedDocuments_accepted : relistedDocuments.build.toOption.isSome = true := by
  decide +kernel

/-- The tables that the relisted documents describe. -/
def relistedTables : Tables := relistedDocuments.build.toOption.get relistedDocuments_accepted

theorem Expectations.eq_none {e : Expectations} (folios : e.compatibleFolios.isNone = true)
    (vocabulary : e.effectiveVocabulary.isNone = true) : e = .none := by
  obtain ⟨_, _⟩ := e
  rw [Expectations.none, Expectations.mk.injEq]
  exact ⟨Option.isNone_iff_eq_none.1 folios, Option.isNone_iff_eq_none.1 vocabulary⟩

theorem agrees_relistedTables : sampleTables.Agrees relistedTables where
  markers := Markers.eq_of_parts (by decide +kernel) (by decide +kernel) (by decide +kernel)
    (by decide +kernel)
  folios := FolioCatalog.ext (by decide +kernel)
  spreads := by decide +kernel
  zones := ZoneOrder.ext (by decide +kernel)
  legality := by decide +kernel
  classes := ClassCatalog.ext (by decide +kernel)
  targets := TargetCatalog.ext (by decide +kernel)
  restrictedSpread := by decide +kernel

theorem expectations_sampleTables : sampleTables.settings.expectations = .none :=
  Expectations.eq_none (by decide +kernel) (by decide +kernel)

theorem expectations_relistedTables : relistedTables.settings.expectations = .none :=
  Expectations.eq_none (by decide +kernel) (by decide +kernel)

theorem canonical_relistedTables : sampleTables.canonical = relistedTables.canonical := by
  refine Tables.canonical_eq_iff.2 ⟨agrees_relistedTables, ?_⟩
  rw [expectations_sampleTables, expectations_relistedTables]

theorem reports_eq_of_canonical_eq_sample :
    sampleTables.canonical.toUTF8 = relistedTables.canonical.toUTF8 ∧
      sampleTables.reports true (sampleTables.run true [⟨"e1", ["qoa", "x"]⟩, ⟨"e2", ["qoa"]⟩]) =
        relistedTables.reports true
          (relistedTables.run true [⟨"e1", ["qoa", "x"]⟩, ⟨"e2", ["qoa"]⟩]) := by
  have same := congrArg String.toUTF8 canonical_relistedTables
  exact ⟨same, (Tables.reports_eq_of_canonical_eq sampleTables relistedTables same _ true true).1⟩

end ManuscriptReach
