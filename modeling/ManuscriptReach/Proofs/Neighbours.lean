import ManuscriptReach.Proofs.AlongZones
import ManuscriptReach.Proofs.Widening

/-!
# Neighbouring zones suffice

Both checks on widening compare each zone with the next one only.  A middle that is barred in
some zone and admitted in a later one is gained on the way, at a step from a zone to its
neighbour (`exists_gainedAt`).  It may be lost and gained again in between, so there can be
several such steps, and the step found need not be the first.

Hence neither check misses anything, and what it reports is gained at the step that it names
(`Legality.neighbours_suffice`).  The vocabularies of a list need not come from a table, nor need
their zones have different labels.
-/

namespace ManuscriptReach

/-! ## Gains along a list -/

section Lists

variable {α : Type} {p : α → Prop} {xs : List α}

/-- At a place of a list a property is gained: the element there does not have it, and the element
right after does. -/
structure GainedAt (p : α → Prop) (xs : List α) (k : Nat) (x y : α) : Prop where
  before : xs[k]? = some x
  after : xs[k + 1]? = some y
  fails : ¬ p x
  holds : p y

theorem mem_adjacentPairs {q : α × α} :
    q ∈ adjacentPairs xs ↔ ∃ k, xs[k]? = some q.1 ∧ xs[k + 1]? = some q.2 := by
  rw [List.mem_iff_getElem?]
  simp only [adjacentPairs, List.getElem?_zip_eq_some, List.getElem?_tail]

/-- What an element does not have and a later one has is gained in between. -/
theorem exists_gainedAt {i j : Nat} {x z : α} (less : i < j) (hi : xs[i]? = some x)
    (hj : xs[j]? = some z) (fails : ¬ p x) (holds : p z) :
    ∃ k, i ≤ k ∧ k < j ∧ ∃ y y', GainedAt p xs k y y' := by
  -- the later place moves on, one element at a time
  induction j, Nat.succ_le_of_lt less using Nat.le_induction generalizing z with
  | base => exact ⟨i, Nat.le_refl i, Nat.lt_succ_self i, x, z, hi, hj, fails, holds⟩
  | succ j le ih =>
    have bound : j < xs.length := by
      obtain ⟨within, -⟩ := List.getElem?_eq_some_iff.1 hj
      omega
    have stands : xs[j]? = some xs[j] := List.getElem?_eq_getElem bound
    by_cases h : p xs[j]
    · obtain ⟨k, low, high, gained⟩ := ih le stands h
      exact ⟨k, low, Nat.lt_succ_of_lt high, gained⟩
    · exact ⟨j, Nat.le_of_succ_le le, Nat.lt_succ_self j, xs[j], z, stands, hj, h, holds⟩

end Lists

/-! ## The check of the tables -/

namespace Legality

variable {t : Legality} {o : ZoneOrder} {m : String}

/-- The table is reported to widen exactly where a middle is gained. -/
theorem mem_violations_iff_gainedAt {v : LegalityViolation} :
    v ∈ t.violations o ↔ ∃ k y z,
      GainedAt (fun z ↦ t.isLegal v.middle z = true) o.zones k y z ∧
        v.earlier = y.label ∧ v.later = z.label := by
  rw [mem_violations]
  constructor
  · rintro ⟨⟨y, z⟩, hp, earlier, later, legal, barred⟩
    obtain ⟨k, before, after⟩ := mem_adjacentPairs.1 hp
    exact ⟨k, y, z, ⟨before, after, Bool.not_eq_true _ ▸ barred, legal⟩, earlier, later⟩
  · rintro ⟨k, y, z, ⟨before, after, barred, legal⟩, earlier, later⟩
    have hp : (y, z) ∈ adjacentPairs o.zones := mem_adjacentPairs.2 ⟨k, before, after⟩
    exact ⟨(y, z), hp, earlier, later, legal, Bool.not_eq_true _ ▸ barred⟩

/-- A middle that is barred in a zone and legal in a later one is reported in between. -/
theorem exists_violation {i j : Nat} {y z : Zone} (less : i < j) (hi : o.zones[i]? = some y)
    (hj : o.zones[j]? = some z) (barred : t.isLegal m y = false) (legal : t.isLegal m z = true) :
    ∃ k y' z', i ≤ k ∧ k < j ∧ GainedAt (fun z ↦ t.isLegal m z = true) o.zones k y' z' ∧
      ⟨m, y'.label, z'.label⟩ ∈ t.violations o := by
  have fails : ¬ t.isLegal m y = true := by
    rw [barred]
    exact Bool.false_ne_true
  obtain ⟨k, low, high, y', z', gained⟩ :=
    exists_gainedAt (p := fun z ↦ t.isLegal m z = true) less hi hj fails legal
  exact ⟨k, y', z', low, high, gained,
    mem_violations_iff_gainedAt.2 ⟨k, y', z', gained, rfl, rfl⟩⟩

/-- The places at which the table admits one middle again. -/
def gains (t : Legality) (o : ZoneOrder) (m : String) : List LegalityViolation :=
  (adjacentPairs o.zones).filterMap fun p ↦
    if !t.isLegal m p.1 && t.isLegal m p.2 then some ⟨m, p.1.label, p.2.label⟩ else none

theorem eq_of_mem_gains {v : LegalityViolation} (h : v ∈ t.gains o m) : v.middle = m := by
  obtain ⟨p, -, hv⟩ := List.mem_filterMap.1 h
  obtain ⟨-, report⟩ := Option.ite_none_right_eq_some.1 hv
  cases report
  rfl

/-- The zones have different labels, so that no two of their neighbouring pairs have the same. -/
theorem nodup_gains (t : Legality) (o : ZoneOrder) (m : String) : (t.gains o m).Nodup := by
  have pairs : (adjacentPairs (o.zones.map Zone.label)).Nodup := nodup_adjacentPairs o.labels_nodup
  rw [adjacentPairs_map] at pairs
  refine List.Nodup.of_map (fun v ↦ (v.earlier, v.later)) (pairs.sublist ?_)
  apply map_filterMap_sublist
  intro p v hv
  obtain ⟨-, report⟩ := Option.ite_none_right_eq_some.1 hv
  cases report
  rfl

/-- Each place of the table is reported once. -/
theorem nodup_violations (t : Legality) (o : ZoneOrder) : (t.violations o).Nodup := by
  change (t.entries.keys.flatMap (t.gains o)).Nodup
  rw [List.nodup_flatMap]
  refine ⟨fun m _ ↦ t.nodup_gains o m, ?_⟩
  apply t.entries.sorted.imp
  intro m m' less v hv hv'
  exact Std.ne_of_lt less ((eq_of_mem_gains hv).symm.trans (eq_of_mem_gains hv'))

end Legality

/-! ## The check of a run -/

section Runs

variable {zs : List ZoneVocabulary} {w : Widening} {m : String}

/-- What the later of two neighbouring vocabularies has and the earlier has not. -/
def ZoneVocabulary.widening (y z : ZoneVocabulary) : Widening :=
  ⟨y.zone, z.zone, z.legal \ y.legal⟩

/-- A widening with a middle is reported exactly where the middle is gained. -/
theorem mem_widenings_iff_gainedAt :
    w ∈ widenings zs ∧ m ∈ w.widened ↔
      ∃ k y z, GainedAt (fun v ↦ m ∈ v.legal) zs k y z ∧ w = y.widening z := by
  rw [mem_widenings]
  constructor
  · rintro ⟨⟨⟨y, z⟩, hp, -, rfl⟩, hm⟩
    obtain ⟨legal, absent⟩ := SortedSet.mem_sdiff.1 hm
    obtain ⟨k, before, after⟩ := mem_adjacentPairs.1 hp
    exact ⟨k, y, z, ⟨before, after, absent, legal⟩, rfl⟩
  · rintro ⟨k, y, z, ⟨before, after, absent, legal⟩, rfl⟩
    have hm : m ∈ z.legal \ y.legal := SortedSet.mem_sdiff.2 ⟨legal, absent⟩
    have hp : (y, z) ∈ adjacentPairs zs := mem_adjacentPairs.2 ⟨k, before, after⟩
    exact ⟨⟨(y, z), hp, fun none ↦ SortedSet.not_mem_empty m (none ▸ hm), rfl⟩, hm⟩

/-- A middle that a vocabulary lacks and a later one has is reported in between. -/
theorem exists_widening {i j : Nat} {y z : ZoneVocabulary} (less : i < j) (hi : zs[i]? = some y)
    (hj : zs[j]? = some z) (absent : m ∉ y.legal) (legal : m ∈ z.legal) :
    ∃ k y' z', i ≤ k ∧ k < j ∧ GainedAt (fun v ↦ m ∈ v.legal) zs k y' z' ∧
      y'.widening z' ∈ widenings zs ∧ m ∈ (y'.widening z').widened := by
  obtain ⟨k, low, high, y', z', gained⟩ :=
    exists_gainedAt (p := fun v ↦ m ∈ v.legal) less hi hj absent legal
  exact ⟨k, y', z', low, high, gained, mem_widenings_iff_gainedAt.2 ⟨k, y', z', gained, rfl⟩⟩

/-- What the check of neighbouring vocabularies says of them, it says of any two. -/
theorem widenings_eq_nil_iff_pairwise :
    widenings zs = [] ↔ zs.Pairwise fun y z ↦ z.legal ⊆ y.legal := by
  let narrows (y z : ZoneVocabulary) : Prop := z.legal ⊆ y.legal
  have trans : Trans narrows narrows narrows := ⟨fun h h' ↦ SortedSet.Subset.trans h' h⟩
  exact widenings_eq_nil_iff.trans List.isChain_iff_pairwise

end Runs

/-! ## Both checks -/

namespace Legality

/-- **Neighbouring zones suffice.**  A middle that is barred in a zone and legal in a later one is
reported at a step between the two; whatever the table's check reports is gained at the step that it
names, and is reported once.  The same holds of a list of vocabularies, whatever their zones are
called.  So either report is empty exactly when no zone admits what an earlier one does not. -/
theorem neighbours_suffice (t : Legality) (o : ZoneOrder) (zs : List ZoneVocabulary) :
    (∀ m i j y z, i < j → o.zones[i]? = some y → o.zones[j]? = some z →
        t.isLegal m y = false → t.isLegal m z = true →
        ∃ k y' z', i ≤ k ∧ k < j ∧ GainedAt (fun z ↦ t.isLegal m z = true) o.zones k y' z' ∧
          ⟨m, y'.label, z'.label⟩ ∈ t.violations o) ∧
      (∀ v, v ∈ t.violations o ↔ ∃ k y z,
        GainedAt (fun z ↦ t.isLegal v.middle z = true) o.zones k y z ∧
          v.earlier = y.label ∧ v.later = z.label) ∧
      (t.violations o).Nodup ∧
      (t.violations o = [] ↔ o.zones.Pairwise t.Narrows) ∧
      (∀ m i j y z, i < j → zs[i]? = some y → zs[j]? = some z → m ∉ y.legal → m ∈ z.legal →
        ∃ k y' z', i ≤ k ∧ k < j ∧ GainedAt (fun v ↦ m ∈ v.legal) zs k y' z' ∧
          y'.widening z' ∈ widenings zs ∧ m ∈ (y'.widening z').widened) ∧
      (∀ w m, w ∈ widenings zs ∧ m ∈ w.widened ↔
        ∃ k y z, GainedAt (fun v ↦ m ∈ v.legal) zs k y z ∧ w = y.widening z) ∧
      (widenings zs = [] ↔ zs.Pairwise fun y z ↦ z.legal ⊆ y.legal) := by
  refine ⟨?_, fun v ↦ mem_violations_iff_gainedAt, t.nodup_violations o,
    violations_eq_nil_iff_pairwise, ?_, fun w m ↦ mem_widenings_iff_gainedAt,
    widenings_eq_nil_iff_pairwise⟩
  · intro m i j y z less hi hj barred legal
    exact exists_violation less hi hj barred legal
  · intro m i j y z less hi hj absent legal
    exact exists_widening less hi hj absent legal

/-- Zones of which three share a canonical label. -/
def consolidatedOrder : ZoneOrder where
  zones := [⟨"C", "C"⟩, ⟨"P", "P"⟩, ⟨"R1", "R"⟩, ⟨"R2", "R"⟩, ⟨"R3", "R"⟩, ⟨"S", "S"⟩]
  zones_ne := by decide
  labels_nodup := by decide

/-- A table that loses `b` after the first zone and gains it again in the last. -/
def regainingLegality : Legality where
  entries := .ofList [("a", .ofList ["C", "P", "R"]), ("b", .ofList ["C", "S"])]

/-- Vocabularies of zones with one label, the last of which gains `b`. -/
def gainingVocabularies : List ZoneVocabulary :=
  [⟨"A", .ofList ["a"]⟩, ⟨"A", ∅⟩, ⟨"A", .ofList ["b"]⟩]

/-- What the second zone lacks and the last has is reported for the last two zones; and what the
first vocabulary lacks and the last has is in the one widening that is reported. -/
theorem neighbours_suffice_sample :
    regainingLegality.violations consolidatedOrder = [⟨"b", "R3", "S"⟩] ∧
      (∃ k y z, 1 ≤ k ∧ k < 5 ∧ GainedAt (fun z ↦ regainingLegality.isLegal "b" z = true)
          consolidatedOrder.zones k y z ∧
        ⟨"b", y.label, z.label⟩ ∈ regainingLegality.violations consolidatedOrder) ∧
      widenings gainingVocabularies = [⟨"A", "A", .ofList ["b"]⟩] ∧
      ∃ k y z, 0 ≤ k ∧ k < 2 ∧ GainedAt (fun v ↦ "b" ∈ v.legal) gainingVocabularies k y z ∧
        y.widening z ∈ widenings gainingVocabularies ∧ "b" ∈ (y.widening z).widened := by
  obtain ⟨zones, -, -, -, vocabularies, -, -⟩ :=
    neighbours_suffice regainingLegality consolidatedOrder gainingVocabularies
  have barred : regainingLegality.isLegal "b" ⟨"P", "P"⟩ = false := by decide +kernel
  have legal : regainingLegality.isLegal "b" ⟨"S", "S"⟩ = true := by decide +kernel
  have absent : "b" ∉ SortedSet.ofList ["a"] := by simp
  have present : "b" ∈ SortedSet.ofList ["b"] := by simp
  exact ⟨by decide +kernel, zones "b" 1 5 _ _ (by omega) rfl rfl barred legal, by decide +kernel,
    vocabularies "b" 0 2 _ _ (by omega) rfl rfl absent present⟩

end Legality

end ManuscriptReach
