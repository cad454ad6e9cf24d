import ManuscriptReach.Proofs.Canonical
import ManuscriptReach.Proofs.CountedSpreads

/-!
# Raising the bound on restricted spreads

The bound is read in one place: it tells the restricted middles from the universal ones.
When it is raised, middles of an entry move from these to those, and no other moves.  An
unknown middle has the spread zero and is unknown under every bound.

So an entry has more restricted middles under a larger bound, and these narrow what follows
(`Tables.propagate_within`).  The tables after the partition are the same, so a restricted
set has the same propagation under both bounds (`Tables.propagate_congr`).
-/

namespace ManuscriptReach

/-- The second tables are the first but for the bound, which is as large or larger. -/
structure Tables.RaisesTo (t u : Tables) : Prop where
  markers : t.markers = u.markers
  folios : t.folios = u.folios
  spreads : t.spreads = u.spreads
  zones : t.zones = u.zones
  legality : t.legality = u.legality
  classes : t.classes = u.classes
  targets : t.targets = u.targets
  expectations : t.settings.expectations = u.settings.expectations
  bound : t.settings.restrictedSpread ≤ u.settings.restrictedSpread

/-! ## The class of a middle -/

theorem MiddleClass.ofSpread_eq_universal_iff {bound spread : Nat} :
    ofSpread bound spread = universal ↔ bound < spread := by
  unfold ofSpread
  split
  next zero => simp [zero]
  next =>
    split
    next small => simp [small]
    next large => simp [Nat.lt_of_not_le large]

/-- A table in which no entry exceeds a number gives no middle a spread that does. -/
theorem SpreadTable.spread_le {t : SpreadTable} {n : Nat} (h : ∀ p ∈ t.counts.toList, p.2 ≤ n)
    (m : String) : t.spread m ≤ n := by
  rw [spread]
  cases value : t.counts.get? m with
  | none => exact Nat.zero_le n
  | some s => exact h (m, s) (SortedMap.get?_eq_some_iff.1 value)

namespace Tables

theorem mem_universal {t : Tables} {e : Entry} {m : String} :
    m ∈ (t.sorting e).partition.universal ↔
      m ∈ (t.sorting e).aggregate.bundle.middles ∧ t.middleClass m = .universal :=
  mem_part_sorting (c := .universal)

/-- Under a bound that no spread exceeds no middle is universal. -/
theorem middleClass_ne_universal {t : Tables}
    (h : ∀ p ∈ t.spreads.counts.toList, p.2 ≤ t.settings.restrictedSpread) (m : String) :
    t.middleClass m ≠ .universal := by
  intro universal
  have large := MiddleClass.ofSpread_eq_universal_iff.1 universal
  exact Nat.not_lt_of_le (SpreadTable.spread_le h m) large

theorem universal_eq_empty {t : Tables} (h : ∀ m, t.middleClass m ≠ .universal) (e : Entry) :
    (t.sorting e).partition.universal = ∅ := by
  apply SortedSet.ext_mem
  intro m
  rw [mem_universal]
  exact iff_of_false (fun hm ↦ h m hm.2) (SortedSet.not_mem_empty m)

namespace RaisesTo

variable {t u : Tables} {m : String}

/-- What is unknown is unknown under every bound. -/
theorem unknown_iff (h : t.RaisesTo u) :
    t.middleClass m = .unknown ↔ u.middleClass m = .unknown := by
  unfold middleClass SpreadTable.classOf
  rw [MiddleClass.ofSpread_eq_unknown_iff, MiddleClass.ofSpread_eq_unknown_iff, h.spreads]

/-- What is restricted stays restricted. -/
theorem restricted (h : t.RaisesTo u) (hm : t.middleClass m = .restricted) :
    u.middleClass m = .restricted := by
  unfold middleClass SpreadTable.classOf at *
  rw [MiddleClass.ofSpread_eq_restricted_iff] at *
  rw [← h.spreads]
  exact ⟨hm.1, Nat.le_trans hm.2 h.bound⟩

/-- What is universal has been universal before. -/
theorem universal (h : t.RaisesTo u) (hm : u.middleClass m = .universal) :
    t.middleClass m = .universal := by
  unfold middleClass SpreadTable.classOf at *
  rw [MiddleClass.ofSpread_eq_universal_iff] at *
  rw [h.spreads]
  exact Nat.lt_of_le_of_lt h.bound hm

/-! ## Entries -/

/-- The markers alone say what the tokens of an entry contribute. -/
theorem aggregate (h : t.RaisesTo u) (e : Entry) :
    (t.sorting e).aggregate = (u.sorting e).aggregate := by
  change t.markers.aggregate e.tokens = u.markers.aggregate e.tokens
  rw [h.markers]

theorem partition_unknown (h : t.RaisesTo u) (e : Entry) :
    (t.sorting e).partition.unknown = (u.sorting e).partition.unknown := by
  apply SortedSet.ext_mem
  intro m
  rw [mem_unknown, mem_unknown, h.aggregate, h.unknown_iff]

theorem partition_restricted (h : t.RaisesTo u) (e : Entry) :
    (t.sorting e).partition.restricted ⊆ (u.sorting e).partition.restricted := by
  intro m hm
  obtain ⟨middle, small⟩ := mem_restricted.1 hm
  exact mem_restricted.2 ⟨h.markers ▸ middle, h.restricted small⟩

theorem partition_universal (h : t.RaisesTo u) (e : Entry) :
    (u.sorting e).partition.universal ⊆ (t.sorting e).partition.universal := by
  intro m hm
  obtain ⟨middle, large⟩ := mem_universal.1 hm
  exact mem_universal.2 ⟨h.aggregate e ▸ middle, h.universal large⟩

theorem propagate (h : t.RaisesTo u) : t.propagate = u.propagate :=
  propagate_congr h.folios h.zones h.legality h.classes h.targets

/-- Both propagations of an entry are of the first tables; the second is of more middles. -/
theorem propagation_eq (h : t.RaisesTo u) (e : Entry) :
    (u.outcome e).propagation = t.propagate (u.restricted e) := by
  rw [propagation_outcome, h.propagate]

end RaisesTo

/-- **Raising the bound only restricts.**  An entry has the same bundle and the same unknown middles
under both bounds.  Under the larger one it has no fewer restricted and no more universal middles,
no further compatible folio, and is granted no more, down to its verdict on every target.  Under a
bound that no spread in the table exceeds there are no universal middles. -/
theorem outcome_raisesTo (t u : Tables) (h : t.RaisesTo u) (e : Entry) :
    (t.sorting e).aggregate = (u.sorting e).aggregate ∧
      (t.sorting e).partition.unknown = (u.sorting e).partition.unknown ∧
      (t.sorting e).partition.restricted ⊆ (u.sorting e).partition.restricted ∧
      (u.sorting e).partition.universal ⊆ (t.sorting e).partition.universal ∧
      (u.outcome e).propagation.compatible.Sublist (t.outcome e).propagation.compatible ∧
      (u.outcome e).propagation.Within (t.outcome e).propagation ∧
      (t.outcome e).propagation.verdicts.map Verdict.target = t.targets.targets.map Target.id ∧
      ((∀ p ∈ u.spreads.counts.toList, p.2 ≤ u.settings.restrictedSpread) →
        (∀ m, u.middleClass m ≠ .universal) ∧ (u.sorting e).partition.universal = ∅) := by
  have more : t.restricted e ⊆ u.restricted e := h.partition_restricted e
  refine ⟨h.aggregate e, h.partition_unknown e, more, h.partition_universal e, ?folios, ?within,
    ?targets, fun bounded ↦ ?none⟩
  case folios =>
    rw [h.propagation_eq, propagation_outcome, propagate_compatible, propagate_compatible]
    exact (t.folios.compatible_sublist more).map Folio.id
  case within =>
    rw [h.propagation_eq, propagation_outcome]
    exact t.propagate_within more
  case targets =>
    rw [propagation_outcome]
    exact t.map_target_propagate _
  case none =>
    have none := middleClass_ne_universal bounded
    exact ⟨none, universal_eq_empty none e⟩

end Tables

/-! ## Documents -/

namespace TableDocuments

/-- The same documents, but for the bound on restricted spreads. -/
def withBound (d : TableDocuments) (bound : Nat) : TableDocuments :=
  { d with settings := { d.settings with restrictedSpread := bound } }

variable {d : TableDocuments} {t u : Tables} {bound : Nat}

/-- Documents that state a larger bound describe tables that differ in nothing else. -/
theorem raisesTo_of_build (ht : d.build = .ok t) (hu : (d.withBound bound).build = .ok u)
    (le : d.settings.restrictedSpread ≤ bound) : t.RaisesTo u := by
  have dt := describes_of_build ht
  have du := describes_of_build hu
  have folios : t.folios = u.folios := Except.ok.inj (dt.folios.symm.trans du.folios)
  exact {
    markers := Except.ok.inj (dt.markers.symm.trans du.markers)
    folios := folios
    spreads := by
      rw [dt.spreads, du.spreads, folios]
      rfl
    zones := Except.ok.inj (dt.zones.symm.trans du.zones)
    legality := dt.legality.trans du.legality.symm
    classes := Except.ok.inj (dt.classes.symm.trans du.classes)
    targets := Except.ok.inj (dt.targets.symm.trans du.targets)
    expectations := dt.expectations.trans du.expectations.symm
    bound := by
      rw [dt.restrictedSpread, du.restrictedSpread]
      exact le }

end TableDocuments

/-- The sample documents with the spreads stated: of `a`, and a larger one of `b`. -/
def statedDocuments : TableDocuments :=
  { sampleDocuments with spreads := some (.ofList [("a", 1), ("b", 2)]) }

theorem statedDocuments_accepted : statedDocuments.build.toOption.isSome = true := by
  decide +kernel

/-- The tables that they describe. -/
def statedTables : Tables := statedDocuments.build.toOption.get statedDocuments_accepted

theorem raisedDocuments_accepted : (statedDocuments.withBound 2).build.toOption.isSome = true := by
  decide +kernel

/-- The tables that they describe under a larger bound. -/
def raisedTables : Tables := Option.get _ raisedDocuments_accepted

theorem statedTables_raisesTo : statedTables.RaisesTo raisedTables :=
  TableDocuments.raisesTo_of_build (eq_ok_get statedDocuments_accepted)
    (eq_ok_get raisedDocuments_accepted) (by decide)

/-- The larger bound makes `b` restricted, which no folio has besides `a`, so the entry is closed;
and nothing is universal any more. -/
theorem outcome_raisesTo_sample :
    statedTables.RaisesTo raisedTables ∧
      (raisedTables.outcome ⟨"e", ["qoa", "qob"]⟩).propagation.Within
        (statedTables.outcome ⟨"e", ["qoa", "qob"]⟩).propagation ∧
      (statedTables.outcome ⟨"e", ["qoa", "qob"]⟩).propagation.verdicts =
        [⟨"T1", .conditional⟩, ⟨"T2", .reachable⟩] ∧
      (raisedTables.outcome ⟨"e", ["qoa", "qob"]⟩).propagation.verdicts =
        [⟨"T1", .unreachable⟩, ⟨"T2", .unreachable⟩] ∧
      (statedTables.sorting ⟨"e", ["qoa", "qob"]⟩).partition.universal = .ofList ["b"] ∧
      (∀ p ∈ raisedTables.spreads.counts.toList, p.2 ≤ raisedTables.settings.restrictedSpread) ∧
      (raisedTables.sorting ⟨"e", ["qoa", "qob"]⟩).partition.universal = ∅ := by
  have bounded : ∀ p ∈ raisedTables.spreads.counts.toList,
      p.2 ≤ raisedTables.settings.restrictedSpread := by decide +kernel
  obtain ⟨-, -, -, -, -, within, -, none⟩ := Tables.outcome_raisesTo statedTables raisedTables
    statedTables_raisesTo ⟨"e", ["qoa", "qob"]⟩
  exact ⟨statedTables_raisesTo, within, by decide +kernel, by decide +kernel, by decide +kernel,
    bounded, (none bounded).2⟩

end ManuscriptReach
