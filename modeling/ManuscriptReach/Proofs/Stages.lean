import Mathlib.Data.List.Forall2
import ManuscriptReach.Propagation

/-!
# The fields of a propagation

`Tables.propagate` chooses between a closed and an open result.  Here each of its
fields gets one equation or membership law, so that no later proof opens the
definition or repeats the choice.  The choice itself is made in two lemmas,
`propagate_of_none` and `propagate_of_some`.

The effective vocabulary, the compatible folios and the verdicts read the same in
both cases.  Only the records of the zones are missing when the result is closed.
-/

namespace ManuscriptReach

namespace Tables

variable {t : Tables} {r : StringSet}

/-- What is legal and reachable in one zone, given the effective vocabulary. -/
def zoneReach (t : Tables) (effective : StringSet) (z : Zone) : ZoneReach :=
  ⟨z.label, t.legality.legalIn effective z, t.classes.reachable (t.legality.legalIn effective z)⟩

theorem zoneReaches_eq_map (t : Tables) (effective : StringSet) :
    t.zoneReaches effective = t.zones.zones.map (t.zoneReach effective) := by
  rw [zoneReaches, Legality.vocabularies, List.map_map]
  rfl

theorem zoneReaches_ne_nil (t : Tables) (effective : StringSet) : t.zoneReaches effective ≠ [] := by
  rw [zoneReaches_eq_map]
  intro h
  exact t.zones.zones_ne (List.map_eq_nil_iff.1 h)

theorem map_zone_zoneReaches (t : Tables) (effective : StringSet) :
    (t.zoneReaches effective).map ZoneReach.zone = t.zones.labels := by
  rw [zoneReaches_eq_map, List.map_map]
  rfl

/-- Without a compatible folio nothing is reachable. -/
theorem propagate_of_none (h : t.folios.compatible r = []) :
    t.propagate r = ⟨[], ∅, .closed, [], t.verdicts .closed⟩ := by
  rw [propagate, h]
  rfl

/-- With a compatible folio every zone has a record. -/
theorem propagate_of_some (h : t.folios.compatible r ≠ []) :
    t.propagate r =
      let effective := SortedSet.unions ((t.folios.compatible r).map Folio.vocabulary)
      ⟨(t.folios.compatible r).map Folio.id, effective, .opened (t.zoneReaches effective),
        ManuscriptReach.widenings (t.legality.vocabularies t.zones effective),
        t.verdicts (.opened (t.zoneReaches effective))⟩ := by
  rw [propagate]
  cases hc : t.folios.compatible r with
  | nil => exact absurd hc h
  | cons f fs => rfl

theorem propagate_compatible (t : Tables) (r : StringSet) :
    (t.propagate r).compatible = (t.folios.compatible r).map Folio.id := by
  by_cases h : t.folios.compatible r = []
  · rw [propagate_of_none h, h]
    rfl
  · rw [propagate_of_some h]

theorem propagate_effective (t : Tables) (r : StringSet) :
    (t.propagate r).effective = .unions ((t.folios.compatible r).map Folio.vocabulary) := by
  by_cases h : t.folios.compatible r = []
  · rw [propagate_of_none h, h]
    rfl
  · rw [propagate_of_some h]

theorem propagate_verdicts (t : Tables) (r : StringSet) :
    (t.propagate r).verdicts = t.verdicts (t.propagate r).reachability := by
  by_cases h : t.folios.compatible r = []
  · rw [propagate_of_none h]
  · rw [propagate_of_some h]

theorem propagate_closed (h : t.folios.compatible r = []) :
    (t.propagate r).reachability = .closed := by
  rw [propagate_of_none h]

theorem propagate_opened (h : t.folios.compatible r ≠ []) :
    (t.propagate r).reachability = .opened (t.zoneReaches (t.propagate r).effective) := by
  rw [propagate_effective, propagate_of_some h]

/-- Widening is reported where the vocabularies of an open propagation widen. -/
theorem propagate_widenings (h : t.folios.compatible r ≠ []) :
    (t.propagate r).widenings =
      widenings (t.legality.vocabularies t.zones (t.propagate r).effective) := by
  rw [propagate_effective, propagate_of_some h]

theorem propagate_widenings_closed (h : t.folios.compatible r = []) :
    (t.propagate r).widenings = [] := by
  rw [propagate_of_none h]

theorem eq_zoneReaches_of_opened {zs : List ZoneReach}
    (h : (t.propagate r).reachability = .opened zs) :
    zs = t.zoneReaches (t.propagate r).effective := by
  by_cases hc : t.folios.compatible r = []
  · rw [propagate_closed hc] at h
    cases h
  · rw [propagate_opened hc] at h
    exact (Reachability.opened.inj h).symm

/-- The zones of a propagation are all zones, or none when it is closed. -/
theorem zones_propagate_sublist (t : Tables) (r : StringSet) :
    (t.propagate r).reachability.zones.Sublist (t.zoneReaches (t.propagate r).effective) := by
  by_cases h : t.folios.compatible r = []
  · rw [propagate_closed h]
    exact List.nil_sublist _
  · rw [propagate_opened h]
    exact List.Sublist.refl _

/-- The effective vocabulary is what the compatible folios have together. -/
theorem mem_effective {m : String} :
    m ∈ (t.propagate r).effective ↔ ∃ f ∈ t.folios.folios, r ⊆ f.vocabulary ∧ m ∈ f.vocabulary := by
  rw [propagate_effective, SortedSet.mem_unions]
  constructor
  · rintro ⟨v, hv, hm⟩
    obtain ⟨f, hf, rfl⟩ := List.mem_map.1 hv
    obtain ⟨hfolio, hr⟩ := FolioCatalog.mem_compatible.1 hf
    exact ⟨f, hfolio, hr, hm⟩
  · rintro ⟨f, hfolio, hr, hm⟩
    exact ⟨f.vocabulary, List.mem_map_of_mem (FolioCatalog.mem_compatible.2 ⟨hfolio, hr⟩), hm⟩

/-- There is a verdict on each target, in the order of the targets. -/
theorem map_target_propagate (t : Tables) (r : StringSet) :
    (t.propagate r).verdicts.map Verdict.target = t.targets.targets.map Target.id := by
  rw [propagate_verdicts, verdicts, List.map_map]
  rfl

/-- The verdicts pair the targets, in their order, with their statuses. -/
theorem verdicts_propagate_forall₂ {R : Verdict → Target → Prop}
    (h : ∀ g ∈ t.targets.targets, R ⟨g.id, (t.propagate r).reachability.status g.footprint⟩ g) :
    List.Forall₂ R (t.propagate r).verdicts t.targets.targets := by
  rw [propagate_verdicts, verdicts, List.forall₂_map_left_iff, List.forall₂_same]
  exact h

end Tables

end ManuscriptReach
