import ManuscriptReach.Proofs.Stages

/-!
# What a verdict means

A verdict comes out of seven stages that hand sets to each other.  This file says
what it means without any of those sets: in terms of single folios, zones, classes
and middles of the tables.

* `Folio.Covers` is compatibility, one middle at a time.
* `Tables.Fits` is what it takes for a footprint to be reachable in a zone.
* `Tables.Reading` ties the three statuses to them.

`propagate_reading` states that every propagation agrees with this reading, for all
tables and all sets of restricted middles.
-/

namespace ManuscriptReach

/-- Every one of the given middles occurs on the page. -/
def Folio.Covers (f : Folio) (r : StringSet) : Prop := ∀ m ∈ r, m ∈ f.vocabulary

theorem Folio.covers_iff {f : Folio} {r : StringSet} : f.Covers r ↔ r ⊆ f.vocabulary := Iff.rfl

instance (f : Folio) (r : StringSet) : Decidable (f.Covers r) :=
  inferInstanceAs (Decidable (r ⊆ f.vocabulary))

theorem Requirement.isPrunable_iff {r : Requirement} :
    r.isPrunable = true ↔ r.kind = .decomposable := by
  cases r with
  | floor kind => cases kind <;> simp [isPrunable, kind]
  | anyOf ms ne => simp [isPrunable, kind]

namespace Tables

/-- Some folio that covers the given middles has the middle `m`. -/
def Offers (t : Tables) (r : StringSet) (m : String) : Prop :=
  ∃ f ∈ t.folios.folios, f.Covers r ∧ m ∈ f.vocabulary

/-- Every decomposable class of the footprint has a required middle that is offered, and that is
legal in the zone if it has a legality entry. -/
def Fits (t : Tables) (r : StringSet) (footprint : ClassSet) (z : Zone) : Prop :=
  ∀ k ∈ t.classes.classes, k.id ∈ footprint → k.requirement.kind = .decomposable →
    ∃ m ∈ k.requirement.middles, t.Offers r m ∧
      ∀ zones, t.legality.entries.get? m = some zones → z.canonical ∈ zones

/-- What a status says about a footprint. -/
structure Reading (t : Tables) (r : StringSet) (footprint : ClassSet) (s : ReachStatus) : Prop where
  /-- Nothing is reachable when no folio covers the restricted middles. -/
  closed : (∀ f ∈ t.folios.folios, ¬ f.Covers r) → s = .unreachable
  /-- Otherwise `reachable` means that the footprint fits every zone, -/
  reachable : (∃ f ∈ t.folios.folios, f.Covers r) →
    (s = .reachable ↔ ∀ z ∈ t.zones.zones, t.Fits r footprint z)
  /-- `unreachable` that it fits none, -/
  unreachable : (∃ f ∈ t.folios.folios, f.Covers r) →
    (s = .unreachable ↔ ∀ z ∈ t.zones.zones, ¬ t.Fits r footprint z)
  /-- and `conditional` that it fits some but not all. -/
  conditional : (∃ f ∈ t.folios.folios, f.Covers r) →
    (s = .conditional ↔ (∃ z ∈ t.zones.zones, t.Fits r footprint z) ∧
      ∃ z ∈ t.zones.zones, ¬ t.Fits r footprint z)

variable {t : Tables} {r : StringSet} {footprint : ClassSet}

/-- The effective vocabulary holds what is offered. -/
theorem mem_effective_iff_offers {m : String} : m ∈ (t.propagate r).effective ↔ t.Offers r m :=
  mem_effective

/-- The classes reachable in a zone contain a footprint exactly when it fits the zone. -/
theorem subset_reachable_iff_fits {z : Zone} :
    footprint ⊆ (t.zoneReach (t.propagate r).effective z).reachable ↔ t.Fits r footprint z := by
  rw [zoneReach, ClassSet.subset_iff]
  constructor
  · intro h k hk hfoot hkind
    have met := ClassCatalog.mem_reachable.1 (h k.id hfoot) k hk rfl
    obtain ⟨m, hm, hlegal⟩ := Requirement.isMet_iff.1 met (Requirement.isPrunable_iff.2 hkind)
    obtain ⟨heff, hzone⟩ := Legality.mem_legalIn.1 hlegal
    exact ⟨m, hm, mem_effective_iff_offers.1 heff, Legality.isLegal_iff.1 hzone⟩
  · intro h i hi
    rw [ClassCatalog.mem_reachable]
    rintro k hk rfl
    rw [Requirement.isMet_iff]
    intro hprune
    obtain ⟨m, hm, hoffer, hzone⟩ := h k hk hi (Requirement.isPrunable_iff.1 hprune)
    exact ⟨m, hm, Legality.mem_legalIn.2
      ⟨mem_effective_iff_offers.2 hoffer, Legality.isLegal_iff.2 hzone⟩⟩

/-- The status of an open propagation compares the footprint with the classes of every zone. -/
theorem status_propagate (h : t.folios.compatible r ≠ []) :
    (t.propagate r).reachability.status footprint =
      .ofZones footprint (t.zones.zones.map fun z ↦
        (t.zoneReach (t.propagate r).effective z).reachable) := by
  rw [propagate_opened h, Reachability.status, Reachability.zones, zoneReaches_eq_map, List.map_map]
  rfl

/-- Some folio covers the restricted middles exactly when the propagation is open. -/
theorem exists_covers_iff :
    (∃ f ∈ t.folios.folios, f.Covers r) ↔ t.folios.compatible r ≠ [] := by
  rw [ne_eq, FolioCatalog.compatible_eq_nil_iff]
  simp [Folio.covers_iff]

/-- The computed status agrees with its reading. -/
theorem reading_status (t : Tables) (r : StringSet) (footprint : ClassSet) :
    t.Reading r footprint ((t.propagate r).reachability.status footprint) := by
  have zones_ne : (t.zones.zones.map fun z ↦
      (t.zoneReach (t.propagate r).effective z).reachable) ≠ [] :=
    fun e ↦ t.zones.zones_ne (List.map_eq_nil_iff.1 e)
  refine ⟨fun none ↦ ?_, fun some ↦ ?_, fun some ↦ ?_, fun some ↦ ?_⟩
  · rw [propagate_closed (FolioCatalog.compatible_eq_nil_iff.2 none)]
    rfl
  · rw [status_propagate (exists_covers_iff.1 some), ReachStatus.ofZones_eq_reachable_iff zones_ne]
    simp only [List.forall_mem_map, subset_reachable_iff_fits]
  · rw [status_propagate (exists_covers_iff.1 some), ReachStatus.ofZones_eq_unreachable_iff]
    simp only [List.forall_mem_map, subset_reachable_iff_fits]
  · rw [status_propagate (exists_covers_iff.1 some),
      ReachStatus.ofZones_eq_conditional_iff zones_ne]
    simp only [List.mem_map, exists_exists_and_eq_and, subset_reachable_iff_fits]

/-- **A propagation means what its reading says.**  The compatible folios are those that cover the
restricted middles, in catalog order; the effective vocabulary holds what they offer; and there is
one verdict for each target, in catalog order, whose status is to be read as in `Reading`. -/
theorem propagate_reading (t : Tables) (r : StringSet) :
    (t.propagate r).compatible =
        (t.folios.folios.filter fun f ↦ decide (f.Covers r)).map Folio.id ∧
      (∀ m, m ∈ (t.propagate r).effective ↔ t.Offers r m) ∧
      List.Forall₂ (fun v g ↦ v.target = g.id ∧ t.Reading r g.footprint v.status)
        (t.propagate r).verdicts t.targets.targets := by
  refine ⟨propagate_compatible t r, fun m ↦ mem_effective_iff_offers, ?_⟩
  exact verdicts_propagate_forall₂ fun g _ ↦ ⟨rfl, reading_status t r g.footprint⟩

end Tables

end ManuscriptReach
