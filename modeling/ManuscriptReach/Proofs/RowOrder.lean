import ManuscriptReach.Proofs.Accounting
import ManuscriptReach.Proofs.Restating

/-!
# The order of folios and of targets

A propagation lists folios and targets in the order of their catalogs.  Nothing else in it
depends on that order (`Propagation.Permutes`): folios are counted, filtered and united, and
each target is judged on its own.  So results are compared by name and not by place.
-/

namespace ManuscriptReach

/-- The propagations differ at most in the order in which they list folios and targets. -/
structure Propagation.Permutes (p q : Propagation) : Prop where
  compatible : p.compatible.Perm q.compatible
  effective : p.effective = q.effective
  /-- In every zone the same is legal and reachable. -/
  reachability : p.reachability = q.reachability
  widenings : p.widenings = q.widenings
  verdicts : p.verdicts.Perm q.verdicts

namespace Tables

namespace Permutes

variable {t u : Tables}

theorem sorting (h : t.Permutes u) : t.sorting = u.sorting :=
  sorting_congr h.markers h.spreads (congrArg Settings.restrictedSpread h.settings)

theorem restricted (h : t.Permutes u) : t.restricted = u.restricted := by
  funext e
  rw [Tables.restricted, Tables.restricted, h.sorting]

theorem compatible (h : t.Permutes u) (r : StringSet) :
    (t.folios.compatible r).Perm (u.folios.compatible r) := h.folios.filter _

/-- Both are closed or neither. -/
theorem compatible_eq_nil_iff (h : t.Permutes u) {r : StringSet} :
    t.folios.compatible r = [] ↔ u.folios.compatible r = [] := by
  rw [← List.length_eq_zero_iff, (h.compatible r).length_eq, List.length_eq_zero_iff]

theorem effective (h : t.Permutes u) (r : StringSet) :
    (t.propagate r).effective = (u.propagate r).effective := by
  apply SortedSet.ext_mem
  intro m
  simp only [mem_effective, h.folios.mem_iff]

theorem reachability (h : t.Permutes u) (r : StringSet) :
    (t.propagate r).reachability = (u.propagate r).reachability := by
  by_cases hr : t.folios.compatible r = []
  · rw [propagate_closed hr, propagate_closed (h.compatible_eq_nil_iff.1 hr)]
  · rw [propagate_opened hr, propagate_opened (mt h.compatible_eq_nil_iff.2 hr), h.effective,
      zoneReaches_congr h.zones h.legality h.classes]

theorem widenings (h : t.Permutes u) (r : StringSet) :
    (t.propagate r).widenings = (u.propagate r).widenings := by
  by_cases hr : t.folios.compatible r = []
  · rw [propagate_widenings_closed hr, propagate_widenings_closed (h.compatible_eq_nil_iff.1 hr)]
  · rw [propagate_widenings hr, propagate_widenings (mt h.compatible_eq_nil_iff.2 hr), h.effective,
      h.legality, h.zones]

/-- One set of restricted middles has one propagation, up to the order of folios and targets. -/
theorem propagate (h : t.Permutes u) (r : StringSet) :
    (t.propagate r).Permutes (u.propagate r) where
  compatible := by
    rw [propagate_compatible, propagate_compatible]
    exact (h.compatible r).map Folio.id
  effective := h.effective r
  reachability := h.reachability r
  widenings := h.widenings r
  verdicts := by
    rw [propagate_verdicts, propagate_verdicts, h.reachability]
    exact h.targets.map _

theorem outcome (h : t.Permutes u) (e : Entry) :
    (t.outcome e).propagation.Permutes (u.outcome e).propagation := by
  rw [propagation_outcome, propagation_outcome, h.restricted]
  exact h.propagate _

theorem statusFor (h : t.Permutes u) : t.statusFor = u.statusFor := by
  funext e g
  rw [Tables.statusFor, Tables.statusFor, h.restricted, h.reachability]

/-- A target has one status, wherever its row stands. -/
theorem statusOf?_report (h : t.Permutes u) (withDiagnostics : Bool) (e : Entry) {g : Target}
    (hg : g ∈ t.targets.targets) :
    ∃ s, (t.report withDiagnostics (t.outcome e)).statusOf? g.id = some s ∧
      (u.report withDiagnostics (u.outcome e)).statusOf? g.id = some s := by
  refine ⟨t.statusFor e g, Tables.statusOf?_report withDiagnostics hg, ?_⟩
  rw [Tables.statusOf?_report withDiagnostics (h.targets.subset hg), h.statusFor]

end Permutes

/-- The compatible folios stand in the order of the catalog. -/
theorem compatible_outcome_sublist (t : Tables) (e : Entry) :
    (t.outcome e).propagation.compatible.Sublist (t.folios.folios.map Folio.id) := by
  rw [propagation_outcome, propagate_compatible]
  exact List.filter_sublist.map Folio.id

end Tables

/-! ## Documents -/

/-- The documents say the same, with the rows of folios and of targets in another order. -/
structure TableDocuments.Reorders (d d' : TableDocuments) : Prop where
  markers : d.markers = d'.markers
  folios : d.folios.Perm d'.folios
  spreads : d.spreads = d'.spreads
  zones : d.zones = d'.zones
  classes : d.classes = d'.classes
  targets : d.targets.Perm d'.targets
  settings : d.settings = d'.settings

/-- Two sets of tables give an entry the same, apart from the order in which the rows of the
documents list folios and targets. -/
structure TableDocuments.Matches (d d' : TableDocuments) (t u : Tables) (e : Entry) : Prop where
  /-- The bundle and the partition of its middles are the same, -/
  sorting : t.sorting e = u.sorting e
  /-- and so is what follows from them. -/
  propagation : (t.outcome e).propagation.Permutes (u.outcome e).propagation
  /-- Either lists the compatible folios as its documents do. -/
  left_order : (t.outcome e).propagation.compatible.Sublist (d.folios.map FolioDocument.id)
  right_order : (u.outcome e).propagation.compatible.Sublist (d'.folios.map FolioDocument.id)
  /-- Every target has one status. -/
  status : ∀ g ∈ d.targets, ∀ withDiagnostics, ∃ s,
    (t.report withDiagnostics (t.outcome e)).statusOf? g.id = some s ∧
      (u.report withDiagnostics (u.outcome e)).statusOf? g.id = some s

namespace TableDocuments

variable {d d' : TableDocuments} {t u : Tables}

theorem Reorders.restates (h : d.Reorders d') : d.Restates d' where
  markers := h.markers ▸ .refl _
  folios := rel_of_perm FolioDocument.Restates.refl h.folios
  spreads := h.spreads
  zones := h.zones
  classes := h.classes ▸ rel_of_perm ClassDocument.Restates.refl (.refl _)
  targets := rel_of_perm TargetDocument.Restates.refl h.targets
  settings := h.settings

theorem Describes.compatible_sublist (h : d.Describes t) (e : Entry) :
    (t.outcome e).propagation.compatible.Sublist (d.folios.map FolioDocument.id) := by
  have order := t.compatible_outcome_sublist e
  rw [h.folios_eq, List.map_map] at order
  exact order

/-- **The order of folios and of targets does not matter.**  Documents that differ in nothing else
are both accepted or both rejected.  Their tables have the same legality violations and give every
entry the same. -/
theorem build_reorders (d d' : TableDocuments) (same : d.Reorders d') :
    ((∃ t, d.build = .ok t) ↔ ∃ u, d'.build = .ok u) ∧
      ∀ t u, d.build = .ok t → d'.build = .ok u →
        t.violations = u.violations ∧ ∀ e, d.Matches d' t u e := by
  refine ⟨same.restates.exists_build_iff, fun t u h h' ↦ ?_⟩
  have permutes := permutes_of_build same.restates h h'
  have described := describes_of_build h
  refine ⟨Tables.violations_congr permutes.zones permutes.legality, fun e ↦ ?_⟩
  exact {
    sorting := congrFun permutes.sorting e
    propagation := permutes.outcome e
    left_order := described.compatible_sublist e
    right_order := (describes_of_build h').compatible_sublist e
    status := fun g hg withDiagnostics ↦ by
      have listed : g.target ∈ t.targets.targets := by
        rw [described.targets_eq]
        exact List.mem_map_of_mem hg
      exact permutes.statusOf?_report withDiagnostics e listed }

end TableDocuments

/-- The sample documents with folios and targets upside down. -/
def reorderedDocuments : TableDocuments :=
  { sampleDocuments with
    folios := sampleDocuments.folios.reverse
    targets := sampleDocuments.targets.reverse }

theorem reorderedDocuments_accepted : reorderedDocuments.build.toOption.isSome = true := by
  decide +kernel

/-- The tables that the reordered documents describe. -/
def reorderedTables : Tables := reorderedDocuments.build.toOption.get reorderedDocuments_accepted

theorem reorderedDocuments_reorders : sampleDocuments.Reorders reorderedDocuments where
  markers := rfl
  folios := (List.reverse_perm _).symm
  spreads := rfl
  zones := rfl
  classes := rfl
  targets := (List.reverse_perm _).symm
  settings := rfl

/-- The entry without a restricted middle stands on both folios, listed in either order. -/
theorem build_reorders_sample :
    sampleDocuments.Reorders reorderedDocuments ∧ sampleDocuments.build = .ok sampleTables ∧
      reorderedDocuments.build = .ok reorderedTables ∧
      sampleDocuments.Matches reorderedDocuments sampleTables reorderedTables ⟨"e", ["qoc"]⟩ ∧
      (sampleTables.outcome ⟨"e", ["qoc"]⟩).propagation.compatible = ["f1", "f2"] ∧
      (reorderedTables.outcome ⟨"e", ["qoc"]⟩).propagation.compatible = ["f2", "f1"] := by
  have built : sampleDocuments.build = .ok sampleTables := eq_ok_get sampleDocuments_accepted
  have rebuilt : reorderedDocuments.build = .ok reorderedTables :=
    eq_ok_get reorderedDocuments_accepted
  obtain ⟨-, same⟩ := TableDocuments.build_reorders sampleDocuments reorderedDocuments
    reorderedDocuments_reorders
  exact ⟨reorderedDocuments_reorders, built, rebuilt, (same _ _ built rebuilt).2 _,
    by decide +kernel, by decide +kernel⟩

end ManuscriptReach
