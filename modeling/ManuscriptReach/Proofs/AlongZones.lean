import Mathlib.Data.List.Chain
import ManuscriptReach.Proofs.Narrowing
import ManuscriptReach.Proofs.Sharing
import ManuscriptReach.Batch.Summary

/-!
# Narrowing along the zones

The legality table is checked for neighbouring zones only, and only for the middles
that have an entry.  That is enough: `Legality.Narrows` is transitive, and a middle
without an entry is legal everywhere.  So if the check reports nothing, every zone
admits at most what any earlier zone admits.

What a zone admits bounds what is legal and what is reachable in it.  Hence the zones
that a footprint fits come first, and the first and the last zone decide its status.
-/

namespace ManuscriptReach

/-! ## Neighbouring pairs -/

section Lists

variable {α : Type} {xs : List α}

/-- A relation holds along a list when it holds of each element and its successor. -/
theorem isChain_iff_adjacentPairs {R : α → α → Prop} :
    xs.IsChain R ↔ ∀ p ∈ adjacentPairs xs, R p.1 p.2 := by
  induction xs with
  | nil => simp [adjacentPairs]
  | cons x xs ih =>
    cases xs with
    | nil => simp [adjacentPairs]
    | cons y ys =>
      change _ ↔ ∀ p ∈ (x, y) :: adjacentPairs (y :: ys), R p.1 p.2
      rw [List.isChain_cons_cons, ih, List.forall_mem_cons]

variable {p : α → Prop}

/-- Elements with a property that is never gained along a list come first in it. -/
theorem filter_isPrefix_of_pairwise [DecidablePred p] (h : xs.Pairwise fun a b ↦ p b → p a) :
    (xs.filter fun x ↦ decide (p x)) <+: xs := by
  induction xs with
  | nil => exact List.prefix_refl _
  | cons x xs ih =>
    obtain ⟨hx, hxs⟩ := List.pairwise_cons.1 h
    by_cases hp : p x
    · rw [List.filter_cons_of_pos (by simpa using hp), List.prefix_cons_inj]
      exact ih hxs
    · have none : (xs.filter fun x ↦ decide (p x)) = [] := by
        refine List.filter_eq_nil_iff.2 fun y hy ↦ ?_
        simpa using fun hpy ↦ hp (hx y hy hpy)
      rw [List.filter_cons_of_neg (by simpa using hp), none]
      exact List.nil_prefix

/-- A property that is never gained holds everywhere when it holds of the last element. -/
theorem forall_iff_getLast (h : xs.Pairwise fun a b ↦ p b → p a) (ne : xs ≠ []) :
    (∀ x ∈ xs, p x) ↔ p (xs.getLast ne) := by
  constructor
  · exact fun all ↦ all _ (List.getLast_mem ne)
  · intro last x hx
    rw [← List.dropLast_append_getLast ne, List.pairwise_append] at h
    rw [← List.dropLast_append_getLast ne, List.mem_append, List.mem_singleton] at hx
    rcases hx with hx | rfl
    · exact h.2.2 x hx _ (List.mem_singleton_self _) last
    · exact last

/-- A property that is never gained holds nowhere when it fails of the first element. -/
theorem forall_not_iff_head (h : xs.Pairwise fun a b ↦ p b → p a) (ne : xs ≠ []) :
    (∀ x ∈ xs, ¬ p x) ↔ ¬ p (xs.head ne) := by
  cases xs with
  | nil => exact absurd rfl ne
  | cons x xs =>
    rw [List.head_cons, List.forall_mem_cons]
    constructor
    · exact And.left
    · exact fun first ↦ ⟨first, fun y hy hpy ↦ first ((List.pairwise_cons.1 h).1 y hy hpy)⟩

end Lists

/-! ## The legality table -/

namespace Legality

/-- The later zone `z` admits at most what the earlier zone `y` admits. -/
def Narrows (t : Legality) (y z : Zone) : Prop :=
  ∀ m, t.isLegal m z = true → t.isLegal m y = true

instance (t : Legality) : Trans t.Narrows t.Narrows t.Narrows where
  trans h h' m hm := h m (h' m hm)

/-- The check of the table finds nothing exactly when no zone admits more than the zone before. -/
theorem violations_eq_nil_iff {t : Legality} {o : ZoneOrder} :
    t.violations o = [] ↔ o.zones.IsChain t.Narrows := by
  rw [isChain_iff_adjacentPairs, violations, List.flatMap_eq_nil_iff]
  simp only [List.filterMap_eq_nil_iff]
  constructor
  · intro h p hp m hlater
    by_cases hm : m ∈ t.entries.keys
    · simpa [hlater] using h m hm p hp
    · exact isLegal_of_not_mem_keys hm p.1
  · intro h m _ p hp
    have narrows := h p hp m
    cases hlater : t.isLegal m p.2 with
    | false => simp
    | true => simp [narrows hlater]

/-- What the check of neighbouring zones says of them, it says of any two zones. -/
theorem violations_eq_nil_iff_pairwise {t : Legality} {o : ZoneOrder} :
    t.violations o = [] ↔ o.zones.Pairwise t.Narrows :=
  violations_eq_nil_iff.trans List.isChain_iff_pairwise

end Legality

/-! ## The ends decide -/

/-- The first and the last of some sets decide the status of a footprint. -/
structure ReachStatus.DecidedBy (first last footprint : ClassSet) (s : ReachStatus) : Prop where
  reachable : s = .reachable ↔ footprint ⊆ last
  unreachable : s = .unreachable ↔ ¬ footprint ⊆ first
  conditional : s = .conditional ↔ footprint ⊆ first ∧ ¬ footprint ⊆ last

theorem ReachStatus.eq_conditional_iff {s : ReachStatus} :
    s = .conditional ↔ s ≠ .unreachable ∧ s ≠ .reachable := by
  cases s <;> simp

/-- The ends of a list of sets decide a status when no set is fitted after one that is not. -/
theorem ReachStatus.decidedBy_ofZones {footprint : ClassSet} {zones : List ClassSet}
    (h : zones.Pairwise fun a b ↦ footprint ⊆ b → footprint ⊆ a) (ne : zones ≠ []) :
    DecidedBy (zones.head ne) (zones.getLast ne) footprint (ofZones footprint zones) := by
  have reachable := (ofZones_eq_reachable_iff ne).trans (forall_iff_getLast h ne)
  have unreachable := ofZones_eq_unreachable_iff.trans (forall_not_iff_head h ne)
  refine ⟨reachable, unreachable, ?_⟩
  rw [eq_conditional_iff, ne_eq, ne_eq, reachable, unreachable, not_not]

/-! ## The vocabularies of a run -/

/-- No widening is found exactly when no vocabulary has more than the one before. -/
theorem widenings_eq_nil_iff {zs : List ZoneVocabulary} :
    widenings zs = [] ↔ zs.IsChain fun a b ↦ b.legal ⊆ a.legal := by
  rw [isChain_iff_adjacentPairs, widenings, List.filterMap_eq_nil_iff]
  refine forall₂_congr fun p _ ↦ ?_
  rw [← SortedSet.sdiff_eq_empty_iff, ← SortedSet.isEmpty_iff]
  simp

namespace Tables

variable {t : Tables} {r : StringSet}

/-- When the table never widens, no run widens. -/
theorem widenings_eq_nil (h : t.violations = []) (r : StringSet) :
    (t.propagate r).widenings = [] := by
  by_cases hc : t.folios.compatible r = []
  · exact propagate_widenings_closed hc
  · rw [propagate_widenings hc, widenings_eq_nil_iff, Legality.vocabularies, List.isChain_map]
    apply (Legality.violations_eq_nil_iff.1 h).imp
    intro y z narrows
    exact Legality.legalIn_subset (SortedSet.Subset.refl _) fun m _ ↦ narrows m

/-- No entry of a batch is counted as widened. -/
theorem widenedEntries_eq_zero (h : t.violations = []) (shared : Bool) (entries : List Entry) :
    (t.summary (t.run shared entries).outcomes).widenedEntries = 0 := by
  change (t.run shared entries).outcomes.countP (fun o ↦ !o.propagation.widenings.isEmpty) = 0
  rw [outcomes_run, List.countP_eq_zero]
  simp only [List.forall_mem_map]
  intro e _
  change ¬ (!(t.propagate (t.restricted e)).widenings.isEmpty) = true
  rw [t.widenings_eq_nil h]
  simp

/-- When the table never widens, less is legal and reachable in any later zone. -/
theorem zones_pairwise (h : t.violations = []) (r : StringSet) :
    (t.propagate r).reachability.zones.Pairwise fun a b ↦
      b.legal ⊆ a.legal ∧ b.reachable ⊆ a.reachable := by
  refine List.Pairwise.sublist (t.zones_propagate_sublist r) ?_
  rw [zoneReaches_eq_map, List.pairwise_map]
  apply (Legality.violations_eq_nil_iff_pairwise.1 h).imp
  intro y z narrows
  have legal : t.legality.legalIn (t.propagate r).effective z ⊆
      t.legality.legalIn (t.propagate r).effective y :=
    Legality.legalIn_subset (SortedSet.Subset.refl _) fun m _ ↦ narrows m
  exact ⟨legal, t.classes.reachable_mono legal⟩

/-- When the table never widens, a footprint that fits a zone fits every earlier zone. -/
theorem fits_pairwise (h : t.violations = []) (r : StringSet) (footprint : ClassSet) :
    (t.propagate r).reachability.zones.Pairwise fun a b ↦
      footprint ⊆ b.reachable → footprint ⊆ a.reachable := by
  apply (t.zones_pairwise h r).imp
  intro a b hab fits
  exact ClassSet.Subset.trans fits hab.2

/-- When the table never widens, the end zones decide every status of an open propagation. -/
theorem decidedBy_status (h : t.violations = []) {zs : List ZoneReach}
    (hr : (t.propagate r).reachability = .opened zs) (ne : zs ≠ []) (footprint : ClassSet) :
    ReachStatus.DecidedBy (zs.head ne).reachable (zs.getLast ne).reachable footprint
      ((t.propagate r).reachability.status footprint) := by
  have fits := t.fits_pairwise h r footprint
  rw [hr, Reachability.zones, ← List.pairwise_map (f := ZoneReach.reachable)
    (R := fun a b ↦ footprint ⊆ b → footprint ⊆ a)] at fits
  have ne' : zs.map ZoneReach.reachable ≠ [] := fun e ↦ ne (List.map_eq_nil_iff.1 e)
  rw [hr, ← List.head_map ne', ← List.getLast_map ne']
  exact ReachStatus.decidedBy_ofZones fits ne'

/-- **Legality that never widens narrows every run along the zones.**  No widening is reported or
counted; each zone's vocabulary and classes lie within those of every earlier zone; the zones that a
footprint fits come first; and the first and the last zone decide all verdicts of an open
propagation. -/
theorem propagate_narrows (t : Tables) (h : t.violations = []) (r : StringSet) :
    (t.propagate r).widenings = [] ∧
      (∀ shared entries, (t.summary (t.run shared entries).outcomes).widenedEntries = 0) ∧
      ((t.propagate r).reachability.zones.Pairwise fun a b ↦
        b.legal ⊆ a.legal ∧ b.reachable ⊆ a.reachable) ∧
      (∀ footprint : ClassSet, ((t.propagate r).reachability.zones.filter fun z ↦
        decide (footprint ⊆ z.reachable)) <+: (t.propagate r).reachability.zones) ∧
      ∀ zs, (t.propagate r).reachability = .opened zs →
        zs.map ZoneReach.zone = t.zones.labels ∧
          ∃ first last, zs.head? = some first ∧ zs.getLast? = some last ∧
            List.Forall₂ (fun v g ↦ v.target = g.id ∧
                ReachStatus.DecidedBy first.reachable last.reachable g.footprint v.status)
              (t.propagate r).verdicts t.targets.targets := by
  refine ⟨t.widenings_eq_nil h r, t.widenedEntries_eq_zero h, t.zones_pairwise h r,
    fun footprint ↦ filter_isPrefix_of_pairwise (t.fits_pairwise h r footprint), fun zs hr ↦ ?_⟩
  have hz := eq_zoneReaches_of_opened hr
  have ne : zs ≠ [] := hz ▸ t.zoneReaches_ne_nil _
  refine ⟨?_, zs.head ne, zs.getLast ne, List.head?_eq_some_head ne,
    List.getLast?_eq_some_getLast ne, ?_⟩
  · rw [hz, map_zone_zoneReaches]
  · exact verdicts_propagate_forall₂ fun g _ ↦ ⟨rfl, t.decidedBy_status h hr ne g.footprint⟩

/-- The sample table narrows from its first zone to its second, and `T1` fits only the first. -/
theorem propagate_narrows_sample :
    sampleTables.violations = [] ∧
      (∃ first last,
        (sampleTables.propagate (.ofList ["a"])).reachability.zones.head? = some first ∧
          (sampleTables.propagate (.ofList ["a"])).reachability.zones.getLast? = some last ∧
          List.Forall₂ (fun v g ↦ v.target = g.id ∧
              ReachStatus.DecidedBy first.reachable last.reachable g.footprint v.status)
            (sampleTables.propagate (.ofList ["a"])).verdicts sampleTables.targets.targets) ∧
      (sampleTables.propagate (.ofList ["a"])).verdicts =
        [⟨"T1", .conditional⟩, ⟨"T2", .reachable⟩] :=
  have quiet : sampleTables.violations = [] := by decide +kernel
  have opened : (sampleTables.propagate (.ofList ["a"])).reachability =
      .opened (sampleTables.propagate (.ofList ["a"])).reachability.zones := by decide +kernel
  ⟨quiet, ((sampleTables.propagate_narrows quiet (.ofList ["a"])).2.2.2.2 _ opened).2,
    by decide +kernel⟩

end Tables

end ManuscriptReach
