import ManuscriptReach.Proofs.ClassMembers
import ManuscriptReach.Proofs.Filing

/-!
# Complete reports

A report looks the same whether or not a folio is compatible with its entry: there is one verdict
for each target, and one record of figures for each zone.  The code takes these from different
places.  A closed entry has no records of zones, so the figures come from the zone order, and the
verdicts from a count over no zone at all.

`Report.Answers` says what can be read off the verdicts of any report, `Diagnostics.Matches` what the
figures beside them say.  The bounds on the figures hold since each stage only takes away: what is
legal is part of the effective vocabulary, and no vocabulary prunes a class of the floor.
-/

namespace ManuscriptReach

/-! ## Sizes -/

theorem SortedSet.size_filter_le (p : String → Bool) (s : StringSet) : (s.filter p).size ≤ s.size :=
  List.length_filter_le p s.toList

theorem ClassSet.size_le_of_subset {s t : ClassSet} (h : s ⊆ t) : s.size ≤ t.size := by
  rw [size_eq_card, size_eq_card]
  exact Finset.card_le_card (subset_iff_numbers.1 h)

theorem ClassSet.size_le (s : ClassSet) : s.size ≤ classCount := by
  have card := Finset.card_le_card s.numbers_subset
  rwa [← size_eq_card, Nat.card_Icc, Nat.add_sub_cancel] at card

/-! ## Verdicts -/

/-- A report answers for every target. -/
structure Report.Answers (r : Report) (t : Tables) (e : Entry) : Prop where
  id : r.entryId = e.id
  /-- There is one verdict for each target, in catalog order, and looking up a target finds the
  status of its own verdict. -/
  verdicts : List.Forall₂ (fun v g ↦ v.target = g.id ∧ r.statusOf? g.id = some v.status)
    r.verdicts t.targets.targets
  /-- Nothing is found under another name. -/
  other : ∀ name, name ∉ t.targets.targets.map Target.id → r.statusOf? name = none
  /-- Every verdict counts for one status. -/
  total : (ReachStatus.all.map r.count).sum = t.targets.targets.length
  /-- Without a compatible folio every target is unreachable. -/
  closed : (∀ f ∈ t.folios.folios, ¬ f.Covers (t.restricted e)) →
    ∀ v ∈ r.verdicts, v.status = .unreachable
  /-- With one a target is reachable that needs nothing but classes of the floor. -/
  opened : (∃ f ∈ t.folios.folios, f.Covers (t.restricted e)) →
    ∀ g ∈ t.targets.targets, g.footprint ⊆ t.classes.floor → r.statusOf? g.id = some .reachable

/-- Intermediate figures match an entry. -/
structure Diagnostics.Matches (d : Diagnostics) (t : Tables) (e : Entry) : Prop where
  /-- There is one record for each zone, in order. -/
  zones : d.zones.map ZoneFigures.zone = t.zones.labels
  /-- Without a compatible folio all figures are zero. -/
  closed : (∀ f ∈ t.folios.folios, ¬ f.Covers (t.restricted e)) →
    d.effectiveSize = 0 ∧ ∀ z ∈ d.zones, z.legalSize = 0 ∧ z.reachableCount = 0
  /-- With one no zone has more than the effective vocabulary, or less than the floor. -/
  opened : (∃ f ∈ t.folios.folios, f.Covers (t.restricted e)) →
    ∀ z ∈ d.zones, z.legalSize ≤ d.effectiveSize ∧
      t.classes.floor.size ≤ z.reachableCount ∧ z.reachableCount ≤ classCount
  /-- The middles of the bundle are filed once each. -/
  disjoint : d.partition.isDisjoint = true
  all : d.partition.all = d.bundle.middles

theorem ReachStatus.mem_all (s : ReachStatus) : s ∈ all := by cases s <;> decide

theorem ReachStatus.nodup_all : all.Nodup := by decide

theorem Report.sum_count (r : Report) :
    (ReachStatus.all.map r.count).sum = r.verdicts.length :=
  sum_countP_key ReachStatus.nodup_all fun v _ ↦ v.status.mem_all

theorem Report.statusOf?_eq_none {r : Report} {name : String}
    (h : name ∉ r.verdicts.map Verdict.target) : r.statusOf? name = none := by
  have absent : r.verdicts.find? (fun v ↦ v.target == name) = none := by
    rw [List.find?_eq_none]
    intro v hv same
    exact h (beq_iff_eq.1 same ▸ List.mem_map_of_mem hv)
  rw [statusOf?, absent]
  rfl

namespace Tables

variable {t : Tables} {e : Entry} {g : Target}

/-- The classes of the floor are reachable in every zone of an open entry. -/
theorem statusFor_of_floor (h : t.folios.compatible (t.restricted e) ≠ [])
    (floor : g.footprint ⊆ t.classes.floor) : t.statusFor e g = .reachable := by
  rw [statusFor, status_propagate h, ReachStatus.ofZones_eq_reachable_iff
    (mt List.map_eq_nil_iff.1 t.zones.zones_ne), List.forall_mem_map]
  intro z _
  exact ClassSet.Subset.trans floor (t.classes.splits.floor_subset _)

theorem statusFor_of_closed (h : t.folios.compatible (t.restricted e) = []) (g : Target) :
    t.statusFor e g = .unreachable := by
  rw [statusFor, propagate_closed h]
  rfl

theorem answers_report (t : Tables) (e : Entry) (withDiagnostics : Bool) :
    (t.report withDiagnostics (t.outcome e)).Answers t e where
  id := rfl
  verdicts := by
    change List.Forall₂ _ (t.outcome e).propagation.verdicts _
    rw [verdicts_outcome, List.forall₂_map_left_iff, List.forall₂_same]
    exact fun g hg ↦ ⟨rfl, statusOf?_report withDiagnostics hg⟩
  other name absent := by
    apply Report.statusOf?_eq_none
    rwa [← map_target_propagate t (t.restricted e)] at absent
  total := by
    rw [Report.sum_count]
    change (t.outcome e).propagation.verdicts.length = _
    rw [verdicts_outcome, List.length_map]
  closed none := by
    change ∀ v ∈ (t.outcome e).propagation.verdicts, _
    rw [verdicts_outcome, List.forall_mem_map]
    exact fun g _ ↦ statusFor_of_closed (FolioCatalog.compatible_eq_nil_iff.2 none) g
  opened some g hg floor := by
    rw [statusOf?_report withDiagnostics hg, statusFor_of_floor (exists_covers_iff.1 some) floor]

/-! ## Figures -/

theorem zones_diagnostics_of_closed (h : t.folios.compatible (t.restricted e) = []) :
    (t.diagnostics (t.outcome e)).zones = t.zones.zones.map fun z ↦ ⟨z.label, 0, 0⟩ := by
  rw [diagnostics, propagation_outcome, propagate_closed h, zoneFigures, ZoneOrder.labels,
    List.map_map]
  rfl

theorem zones_diagnostics_of_opened (h : t.folios.compatible (t.restricted e) ≠ []) :
    (t.diagnostics (t.outcome e)).zones = t.zones.zones.map fun z ↦
      let reach := t.zoneReach (t.outcome e).propagation.effective z
      ⟨z.label, reach.legal.size, reach.reachable.size⟩ := by
  rw [diagnostics, propagation_outcome, propagate_opened h, zoneFigures, zoneReaches_eq_map,
    List.map_map]
  rfl

theorem matches_diagnostics (t : Tables) (e : Entry) :
    (t.diagnostics (t.outcome e)).Matches t e where
  zones := by
    by_cases h : t.folios.compatible (t.restricted e) = []
    · rw [zones_diagnostics_of_closed h, List.map_map]
      rfl
    · rw [zones_diagnostics_of_opened h, List.map_map]
      rfl
  closed none := by
    have h := FolioCatalog.compatible_eq_nil_iff.2 none
    refine ⟨?_, ?_⟩
    · rw [diagnostics, propagation_outcome, propagate_of_none h]
      rfl
    · rw [zones_diagnostics_of_closed h, List.forall_mem_map]
      exact fun _ _ ↦ ⟨rfl, rfl⟩
  opened some := by
    rw [zones_diagnostics_of_opened (exists_covers_iff.1 some), List.forall_mem_map]
    intro z _
    refine ⟨SortedSet.size_filter_le _ _, ?_, ClassSet.size_le _⟩
    exact ClassSet.size_le_of_subset (t.classes.splits.floor_subset _)
  disjoint := (t.files_sorting e).isDisjoint
  all := (t.files_sorting e).all_eq

/-- **Every report is complete.**  With and without diagnostics a report on an entry bears the
entry's id and answers for every target and for no other name, in the same way.  The diagnostics
list all zones, also when no folio is compatible, and then all figures are zero; otherwise they are
bounded by the effective vocabulary, the floor and the number of classes. -/
theorem report_complete (t : Tables) (e : Entry) :
    (∀ withDiagnostics, (t.report withDiagnostics (t.outcome e)).Answers t e) ∧
      (t.report true (t.outcome e)).entryId = (t.report false (t.outcome e)).entryId ∧
      (t.report true (t.outcome e)).verdicts = (t.report false (t.outcome e)).verdicts ∧
      (t.report false (t.outcome e)).diagnostics = none ∧
      ∃ d, (t.report true (t.outcome e)).diagnostics = some d ∧ d.Matches t e :=
  ⟨t.answers_report e, rfl, rfl, rfl, _, rfl, t.matches_diagnostics e⟩

end Tables

/-- An entry that no sample folio is compatible with, and one with a compatible folio, under which
the second target is reachable as its footprint lies in the floor. -/
theorem report_complete_sample :
    (∀ f ∈ sampleTables.folios.folios, ¬ f.Covers (sampleTables.restricted ⟨"e2", ["qoa", "qob"]⟩)) ∧
      (sampleTables.report true (sampleTables.outcome ⟨"e2", ["qoa", "qob"]⟩)).diagnostics.map
          Diagnostics.zones = some [⟨"A", 0, 0⟩, ⟨"B", 0, 0⟩] ∧
      (∀ v ∈ (sampleTables.report true (sampleTables.outcome ⟨"e2", ["qoa", "qob"]⟩)).verdicts,
        v.status = .unreachable) ∧
      (∃ f ∈ sampleTables.folios.folios, f.Covers (sampleTables.restricted ⟨"e1", ["qoa"]⟩)) ∧
      (sampleTables.report true (sampleTables.outcome ⟨"e1", ["qoa"]⟩)).diagnostics.map
          Diagnostics.zones = some [⟨"A", 2, 49⟩, ⟨"B", 1, 48⟩] ∧
      (sampleTables.report true (sampleTables.outcome ⟨"e1", ["qoa"]⟩)).statusOf? "T2" =
        some .reachable := by
  have closed : ∀ f ∈ sampleTables.folios.folios,
      ¬ f.Covers (sampleTables.restricted ⟨"e2", ["qoa", "qob"]⟩) := by decide +kernel
  have opened : ∃ f ∈ sampleTables.folios.folios,
      f.Covers (sampleTables.restricted ⟨"e1", ["qoa"]⟩) := by decide +kernel
  have floor : ∃ g ∈ sampleTables.targets.targets,
      g.id = "T2" ∧ g.footprint ⊆ sampleTables.classes.floor := by decide +kernel
  obtain ⟨g, hg, named, floor⟩ := floor
  have unreachable := ((sampleTables.report_complete ⟨"e2", ["qoa", "qob"]⟩).1 true).closed closed
  have reachable :=
    ((sampleTables.report_complete ⟨"e1", ["qoa"]⟩).1 true).opened opened g hg floor
  exact ⟨closed, by decide +kernel, unreachable, opened, by decide +kernel, named ▸ reachable⟩

end ManuscriptReach
