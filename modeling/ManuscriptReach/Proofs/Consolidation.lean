import ManuscriptReach.Proofs.Acceptance
import ManuscriptReach.Proofs.Meaning
import ManuscriptReach.Proofs.Narrowing

/-!
# Zones that share canonical labels

Legality is looked up under the canonical label of a zone, so two zones with one
canonical label are alike.  A status counts zones, but compares the count with zero and
with the number of all zones only; how often a canonical label occurs, and where, does
not matter.

`Tables.Rezones` compares tables that differ in their zones but not in the set of
canonical labels.  Documents that do so are accepted or refused together, and describe
such tables (`TableDocuments.rezones_of_build`).
-/

namespace ManuscriptReach

/-! ## Zones under canonical labels -/

namespace ZoneOrder

variable {o o' : ZoneOrder} {P Q : Zone → Prop}

theorem mem_canonicalLabels {c : String} :
    c ∈ o.canonicalLabels ↔ ∃ z ∈ o.zones, z.canonical = c := by
  rw [canonicalLabels, SortedSet.mem_ofList, List.mem_map]

/-- What a canonical label settles holds of all zones of one order if it does of the other. -/
theorem forall_zones_of_canonical (same : o.canonicalLabels = o'.canonicalLabels)
    (settled : ∀ z w, z.canonical = w.canonical → P z → Q w) (h : ∀ z ∈ o.zones, P z) :
    ∀ w ∈ o'.zones, Q w := by
  intro w hw
  have label : w.canonical ∈ o.canonicalLabels := same ▸ mem_canonicalLabels.2 ⟨w, hw, rfl⟩
  obtain ⟨z, hz, hzw⟩ := mem_canonicalLabels.1 label
  exact settled z w hzw (h z hz)

theorem forall_zones_iff (same : o.canonicalLabels = o'.canonicalLabels)
    (settled : ∀ z w, z.canonical = w.canonical → (P z ↔ Q w)) :
    (∀ z ∈ o.zones, P z) ↔ ∀ w ∈ o'.zones, Q w :=
  ⟨forall_zones_of_canonical same fun z w h ↦ (settled z w h).1,
    forall_zones_of_canonical same.symm fun w z h ↦ (settled z w h.symm).2⟩

theorem exists_zones_iff (same : o.canonicalLabels = o'.canonicalLabels)
    (settled : ∀ z w, z.canonical = w.canonical → (P z ↔ Q w)) :
    (∃ z ∈ o.zones, P z) ↔ ∃ w ∈ o'.zones, Q w := by
  rw [← not_iff_not]
  push Not
  exact forall_zones_iff same fun z w h ↦ not_congr (settled z w h)

end ZoneOrder

theorem Legality.names_iff (t : Legality) {o o' : ZoneOrder}
    (same : o.canonicalLabels = o'.canonicalLabels) : t.Names o ↔ t.Names o' := by
  rw [Names, Names, same]

/-! ## Tables with other zones -/

namespace Tables

/-- Two tables agree but for markers, spreads, settings and zones, and their zones have the same
canonical labels. -/
structure Rezones (t u : Tables) : Prop where
  folios : t.folios = u.folios
  legality : t.legality = u.legality
  classes : t.classes = u.classes
  targets : t.targets = u.targets
  canonicalLabels : t.zones.canonicalLabels = u.zones.canonicalLabels

variable {t u : Tables} {r : StringSet} {footprint : ClassSet} {s s' : ReachStatus}

/-- A footprint fits a zone when it fits a zone with the same canonical label. -/
theorem Rezones.fits_iff (h : t.Rezones u) {z w : Zone} (label : z.canonical = w.canonical) :
    t.Fits r footprint z ↔ u.Fits r footprint w := by
  unfold Fits Offers
  rw [h.folios, h.legality, h.classes, label]

/-- A reading speaks of canonical labels only. -/
theorem Rezones.reading (h : t.Rezones u) (reading : t.Reading r footprint s) :
    u.Reading r footprint s := by
  have fits : ∀ z w : Zone, z.canonical = w.canonical →
      (t.Fits r footprint z ↔ u.Fits r footprint w) := fun _ _ ↦ h.fits_iff
  have fails : ∀ z w : Zone, z.canonical = w.canonical →
      (¬ t.Fits r footprint z ↔ ¬ u.Fits r footprint w) := fun z w e ↦ not_congr (fits z w e)
  obtain ⟨closed, reachable, unreachable, conditional⟩ := reading
  rw [h.folios] at closed reachable unreachable conditional
  rw [ZoneOrder.forall_zones_iff h.canonicalLabels fits] at reachable
  rw [ZoneOrder.forall_zones_iff h.canonicalLabels fails] at unreachable
  rw [ZoneOrder.exists_zones_iff h.canonicalLabels fits,
    ZoneOrder.exists_zones_iff h.canonicalLabels fails] at conditional
  exact ⟨closed, reachable, unreachable, conditional⟩

/-- There is one status only with a given reading. -/
theorem Reading.unique (h : t.Reading r footprint s) (h' : t.Reading r footprint s') : s = s' := by
  by_cases covered : ∃ f ∈ t.folios.folios, f.Covers r
  · cases s with
    | reachable => exact ((h'.reachable covered).2 ((h.reachable covered).1 rfl)).symm
    | conditional => exact ((h'.conditional covered).2 ((h.conditional covered).1 rfl)).symm
    | unreachable => exact ((h'.unreachable covered).2 ((h.unreachable covered).1 rfl)).symm
  · have none : ∀ f ∈ t.folios.folios, ¬ f.Covers r := by simpa using covered
    rw [h.closed none, h'.closed none]

theorem Rezones.status (h : t.Rezones u) (r : StringSet) (footprint : ClassSet) :
    (t.propagate r).reachability.status footprint =
      (u.propagate r).reachability.status footprint :=
  (h.reading (reading_status t r footprint)).unique (reading_status u r footprint)

theorem Rezones.compatible (h : t.Rezones u) (r : StringSet) :
    (t.propagate r).compatible = (u.propagate r).compatible := by
  rw [propagate_compatible, propagate_compatible, h.folios]

theorem Rezones.effective (h : t.Rezones u) (r : StringSet) :
    (t.propagate r).effective = (u.propagate r).effective := by
  rw [propagate_effective, propagate_effective, h.folios]

theorem Rezones.verdicts (h : t.Rezones u) (r : StringSet) :
    (t.propagate r).verdicts = (u.propagate r).verdicts := by
  rw [propagate_verdicts, propagate_verdicts, Tables.verdicts, Tables.verdicts, h.targets]
  refine List.map_congr_left fun g _ ↦ ?_
  rw [h.status r g.footprint]

/-- Under one canonical label a footprint fits all zones or none. -/
theorem status_ne_conditional {c : String} (single : ∀ z ∈ t.zones.zones, z.canonical = c)
    (r : StringSet) (footprint : ClassSet) :
    (t.propagate r).reachability.status footprint ≠ .conditional := by
  intro conditional
  have reading := reading_status t r footprint
  rw [conditional] at reading
  by_cases covered : ∃ f ∈ t.folios.folios, f.Covers r
  · obtain ⟨⟨z, hz, fits⟩, w, hw, fails⟩ := (reading.conditional covered).1 rfl
    have label : z.canonical = w.canonical := (single z hz).trans (single w hw).symm
    have self : t.Rezones t := ⟨rfl, rfl, rfl, rfl, rfl⟩
    exact fails ((self.fits_iff label).1 fits)
  · have none : ∀ f ∈ t.folios.folios, ¬ f.Covers r := by simpa using covered
    cases reading.closed none

theorem verdict_ne_conditional {c : String} (single : ∀ z ∈ t.zones.zones, z.canonical = c)
    (r : StringSet) : ∀ v ∈ (t.propagate r).verdicts, v.status ≠ .conditional := by
  rw [propagate_verdicts, Tables.verdicts, List.forall_mem_map]
  exact fun g _ ↦ status_ne_conditional single r g.footprint

end Tables

/-! ## Documents with other zones -/

namespace TableDocuments

/-- The same documents, but for the list of zones. -/
def withZones (d : TableDocuments) (zones : List ZoneDocument) : TableDocuments :=
  { d with zones := { d.zones with zones := zones } }

variable {d : TableDocuments} {zones : List ZoneDocument} {o o' : ZoneOrder}

theorem orderFaults_of_order {z : ZonesDocument} (h : z.order = .ok o) : z.orderFaults = [] :=
  z.order_checks.exists_eq_ok_iff.1 ⟨o, h⟩

/-- Two valid orders under the same canonical labels leave the documents with the same faults. -/
theorem faults_withZones (ho : d.zones.order = .ok o)
    (ho' : (d.withZones zones).zones.order = .ok o')
    (same : o.canonicalLabels = o'.canonicalLabels) : d.faults = (d.withZones zones).faults := by
  have labels (z : String) :
      z ∈ d.zones.canonicalLabels ↔ z ∈ (d.withZones zones).zones.canonicalLabels := by
    rw [← ZonesDocument.mem_canonicalLabels ho, ← ZonesDocument.mem_canonicalLabels ho', same]
  have legality : d.zones.legalityFaults = (d.withZones zones).zones.legalityFaults := by
    unfold ZonesDocument.legalityFaults faultUnless
    simp only [labels]
    rfl
  unfold faults
  rw [orderFaults_of_order ho, orderFaults_of_order ho', legality]
  rfl

/-- What documents describe under two such orders differs in the zones only. -/
theorem rezones_of_build (ho : d.zones.order = .ok o)
    (ho' : (d.withZones zones).zones.order = .ok o')
    (same : o.canonicalLabels = o'.canonicalLabels) {t u : Tables} (ht : d.build = .ok t)
    (hu : (d.withZones zones).build = .ok u) : t.Rezones u := by
  have dt := describes_of_build ht
  have du := describes_of_build hu
  have zt : o = t.zones := Except.ok.inj (ho.symm.trans dt.zones)
  have zu : o' = u.zones := Except.ok.inj (ho'.symm.trans du.zones)
  exact {
    folios := Except.ok.inj (dt.folios.symm.trans du.folios)
    legality := dt.legality.trans du.legality.symm
    classes := Except.ok.inj (dt.classes.symm.trans du.classes)
    targets := Except.ok.inj (dt.targets.symm.trans du.targets)
    canonicalLabels := zt ▸ zu ▸ same }

/-- **Only the set of canonical labels counts.**  When documents list other zones, however many and
in whatever order, and the canonical labels remain the same, the documents are accepted or refused
as before, and every set of restricted middles has the same compatible folios, the same effective
vocabulary and the same verdict on every target.  Under a single canonical label no verdict is
`conditional`. -/
theorem propagate_withZones (ho : d.zones.order = .ok o)
    (ho' : (d.withZones zones).zones.order = .ok o')
    (same : o.canonicalLabels = o'.canonicalLabels) :
    (d.zones.table.firstUnknown? o = none ↔ d.zones.table.firstUnknown? o' = none) ∧
      (∀ f, d.build = .error f ↔ (d.withZones zones).build = .error f) ∧
      ∀ t u, d.build = .ok t → (d.withZones zones).build = .ok u → ∀ r,
        (t.propagate r).compatible = (u.propagate r).compatible ∧
          (t.propagate r).effective = (u.propagate r).effective ∧
          (t.propagate r).verdicts = (u.propagate r).verdicts ∧
          ∀ c, (∀ z ∈ t.zones.zones, z.canonical = c) →
            ∀ v ∈ (t.propagate r).verdicts, v.status ≠ .conditional := by
  refine ⟨?_, fun f ↦ ?_, fun t u ht hu r ↦ ?_⟩
  · rw [Legality.firstUnknown?_eq_none_iff, Legality.firstUnknown?_eq_none_iff]
    exact d.zones.table.names_iff same
  · rw [d.build_checks.eq_error_iff, (d.withZones zones).build_checks.eq_error_iff,
      faults_withZones ho ho' same]
  · have h := rezones_of_build ho ho' same ht hu
    exact ⟨h.compatible r, h.effective r, h.verdicts r,
      fun c single ↦ Tables.verdict_ne_conditional single r⟩

theorem order_of_accepted (h : d.build.toOption.isSome = true) :
    d.zones.order = .ok (d.build.toOption.get h).zones :=
  (describes_of_build (eq_ok_get h)).zones

end TableDocuments

/-- The sample documents with their zones in the other order, and each split in two. -/
def splitDocuments : TableDocuments :=
  sampleDocuments.withZones [⟨"B1", some "B"⟩, ⟨"A1", some "A"⟩, ⟨"A2", some "A"⟩, ⟨"B", none⟩]

theorem splitDocuments_accepted : splitDocuments.build.toOption.isSome = true := by
  decide +kernel

/-- The tables that they describe. -/
def splitTables : Tables := splitDocuments.build.toOption.get splitDocuments_accepted

/-- The sample documents with only one canonical label, which two zones share. -/
def singleDocuments : TableDocuments :=
  sampleDocuments.withZones [⟨"A1", some "A"⟩, ⟨"A2", some "A"⟩]

theorem singleDocuments_accepted : singleDocuments.build.toOption.isSome = true := by
  decide +kernel

/-- The tables that they describe. -/
def singleTables : Tables := singleDocuments.build.toOption.get singleDocuments_accepted

/-- A target that fits one zone of two stays conditional when both are split.  When the two share
their canonical label it is not. -/
theorem propagate_withZones_sample :
    sampleTables.zones.canonicalLabels = splitTables.zones.canonicalLabels ∧
      (sampleTables.propagate (.ofList ["a"])).verdicts =
        (splitTables.propagate (.ofList ["a"])).verdicts ∧
      (splitTables.propagate (.ofList ["a"])).verdicts =
        [⟨"T1", .conditional⟩, ⟨"T2", .reachable⟩] ∧
      (∀ z ∈ singleTables.zones.zones, z.canonical = "A") ∧
      ∀ v ∈ (singleTables.propagate (.ofList ["a"])).verdicts, v.status ≠ .conditional := by
  have same : sampleTables.zones.canonicalLabels = splitTables.zones.canonicalLabels := by
    decide +kernel
  have single : ∀ z ∈ singleTables.zones.zones, z.canonical = "A" := by decide +kernel
  have split := (TableDocuments.propagate_withZones
    (TableDocuments.order_of_accepted sampleDocuments_accepted)
    (TableDocuments.order_of_accepted splitDocuments_accepted) same).2.2
    _ _ (eq_ok_get sampleDocuments_accepted) (eq_ok_get splitDocuments_accepted) (.ofList ["a"])
  have alone := (TableDocuments.propagate_withZones
    (TableDocuments.order_of_accepted singleDocuments_accepted)
    (TableDocuments.order_of_accepted singleDocuments_accepted) rfl).2.2
    _ _ (eq_ok_get singleDocuments_accepted) (eq_ok_get singleDocuments_accepted) (.ofList ["a"])
  exact ⟨same, split.2.2.1, by decide +kernel, single, alone.2.2.2 "A" single⟩

end ManuscriptReach
