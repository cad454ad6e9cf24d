import ManuscriptReach.Proofs.Stages
import ManuscriptReach.Entry
import ManuscriptReach.Tables.Document

/-!
# Narrower propagations

`Propagation.Within` compares two propagations: the first grants at most what the
second grants, in its vocabulary, in every zone, and on every target.

Each stage is monotone, but not in the same direction.  More restricted middles leave
fewer folios, these have fewer middles together, fewer middles are legal, fewer
classes are reachable, and a footprint fits fewer zones.  A closed propagation has no
zones to compare; it lies within every other.
-/

namespace ManuscriptReach

/-- One zone's record grants at most what another record of the zone grants. -/
structure ZoneReach.Within (a b : ZoneReach) : Prop where
  zone : a.zone = b.zone
  legal : a.legal ⊆ b.legal
  reachable : a.reachable ⊆ b.reachable

/-- One result grants at most what another grants, zone by zone.  If the first is open, so is the
second. -/
inductive Reachability.Within : Reachability → Reachability → Prop
  /-- Nothing is reachable. -/
  | closed (s : Reachability) : Within .closed s
  /-- Every zone's record lies within the other's. -/
  | opened {zs ws : List ZoneReach} :
    List.Forall₂ ZoneReach.Within zs ws → Within (.opened zs) (.opened ws)

/-- A verdict on the same target, as far from `reachable` or farther. -/
structure Verdict.Within (v w : Verdict) : Prop where
  target : v.target = w.target
  status : w.status.rank ≤ v.status.rank

/-- One propagation grants at most what another grants. -/
structure Propagation.Within (p q : Propagation) : Prop where
  effective : p.effective ⊆ q.effective
  reachability : p.reachability.Within q.reachability
  verdicts : List.Forall₂ Verdict.Within p.verdicts q.verdicts

/-! ## Statuses -/

namespace ReachStatus

variable {f g : ClassSet} {xs ys : List ClassSet}

/-- A smaller footprint fits at least as many larger sets. -/
theorem countP_fits_le (hg : g ⊆ f) (h : List.Forall₂ (· ⊆ ·) xs ys) :
    xs.countP (fun z ↦ decide (f ⊆ z)) ≤ ys.countP fun z ↦ decide (g ⊆ z) := by
  induction h with
  | nil => exact Nat.le_refl _
  | @cons x y xs ys hxy _ ih =>
    have fits : f ⊆ x → g ⊆ y := fun hf ↦
      ClassSet.Subset.trans hg (ClassSet.Subset.trans hf hxy)
    rw [List.countP_cons, List.countP_cons]
    by_cases hf : f ⊆ x
    · simp only [hf, fits hf, decide_true, if_true]
      omega
    · simp only [hf, decide_false, Bool.false_eq_true, if_false]
      omega

theorem rank_ofZones (f : ClassSet) (zs : List ClassSet) :
    (ofZones f zs).rank =
      if zs.countP (fun z ↦ decide (f ⊆ z)) = 0 then 2
      else if zs.countP (fun z ↦ decide (f ⊆ z)) = zs.length then 0 else 1 := by
  simp only [ofZones, apply_ite rank]
  rfl

/-- A smaller footprint among larger sets is at most as far from `reachable`. -/
theorem rank_ofZones_le (hg : g ⊆ f) (h : List.Forall₂ (· ⊆ ·) xs ys) :
    (ofZones g ys).rank ≤ (ofZones f xs).rank := by
  have fits := countP_fits_le hg h
  have bound := List.countP_le_length (p := fun z ↦ decide (g ⊆ z)) (l := ys)
  have length := h.length_eq
  rw [rank_ofZones, rank_ofZones]
  split_ifs <;> omega

theorem rank_le_two (s : ReachStatus) : s.rank ≤ 2 := by cases s <;> decide

end ReachStatus

/-- A smaller footprint in a wider result is at most as far from `reachable`. -/
theorem Reachability.Within.rank_status_le {p q : Reachability} (h : p.Within q) {f g : ClassSet}
    (hg : g ⊆ f) : (q.status g).rank ≤ (p.status f).rank := by
  cases h with
  | closed => exact ReachStatus.rank_le_two _
  | opened hz =>
    refine ReachStatus.rank_ofZones_le hg ?_
    rw [Reachability.zones, Reachability.zones, List.forall₂_map_left_iff,
      List.forall₂_map_right_iff]
    exact hz.imp fun _ _ ↦ ZoneReach.Within.reachable

/-! ## Stages -/

/-- More is legal in a zone of a larger vocabulary, when the zone admits at least as much of it. -/
theorem Legality.legalIn_subset {t u : Legality} {v w : StringSet} {y z : Zone} (hv : v ⊆ w)
    (h : ∀ m ∈ v, t.isLegal m y = true → u.isLegal m z = true) :
    t.legalIn v y ⊆ u.legalIn w z := by
  intro m hm
  obtain ⟨hmv, hlegal⟩ := Legality.mem_legalIn.1 hm
  exact Legality.mem_legalIn.2 ⟨hv m hmv, h m hmv hlegal⟩

theorem Requirement.isMet_mono {v w : StringSet} (h : v ⊆ w) {k : Requirement}
    (met : k.isMet v = true) : k.isMet w = true := by
  rw [Requirement.isMet_iff] at met ⊢
  intro hk
  obtain ⟨m, hm, hv⟩ := met hk
  exact ⟨m, hm, h m hv⟩

theorem ClassCatalog.reachable_mono (c : ClassCatalog) {v w : StringSet} (h : v ⊆ w) :
    c.reachable v ⊆ c.reachable w := by
  rw [ClassSet.subset_iff]
  intro i hi
  rw [ClassCatalog.mem_reachable] at hi ⊢
  intro k hk hid
  exact Requirement.isMet_mono h (hi k hk hid)

/-- More restricted middles leave fewer folios, in the same order. -/
theorem FolioCatalog.compatible_sublist (c : FolioCatalog) {r s : StringSet} (h : r ⊆ s) :
    (c.compatible s).Sublist (c.compatible r) := by
  apply List.monotone_filter_right
  intro f hf
  rw [decide_eq_true_eq] at hf ⊢
  exact SortedSet.Subset.trans h hf

namespace Tables

theorem zoneReach_within (t : Tables) {v w : StringSet} (h : v ⊆ w) (z : Zone) :
    (t.zoneReach v z).Within (t.zoneReach w z) where
  zone := rfl
  legal := Legality.legalIn_subset h fun _ _ hm ↦ hm
  reachable := t.classes.reachable_mono (Legality.legalIn_subset h fun _ _ hm ↦ hm)

theorem effective_subset (t : Tables) {r s : StringSet} (h : r ⊆ s) :
    (t.propagate s).effective ⊆ (t.propagate r).effective := by
  intro m hm
  obtain ⟨f, hf, hs, hmf⟩ := mem_effective.1 hm
  exact mem_effective.2 ⟨f, hf, SortedSet.Subset.trans h hs, hmf⟩

theorem reachability_within (t : Tables) {r s : StringSet} (h : r ⊆ s) :
    (t.propagate s).reachability.Within (t.propagate r).reachability := by
  by_cases hs : t.folios.compatible s = []
  · rw [propagate_closed hs]
    exact .closed _
  · have hr : t.folios.compatible r ≠ [] := fun e ↦
      hs (List.sublist_nil.1 (e ▸ t.folios.compatible_sublist h))
    rw [propagate_opened hs, propagate_opened hr, zoneReaches_eq_map, zoneReaches_eq_map]
    refine .opened ?_
    rw [List.forall₂_map_left_iff, List.forall₂_map_right_iff, List.forall₂_same]
    intro z _
    exact t.zoneReach_within (t.effective_subset h) z

/-- More restricted middles give a narrower propagation. -/
theorem propagate_within (t : Tables) {r s : StringSet} (h : r ⊆ s) :
    (t.propagate s).Within (t.propagate r) where
  effective := t.effective_subset h
  reachability := t.reachability_within h
  verdicts := by
    rw [propagate_verdicts, propagate_verdicts, verdicts, verdicts, List.forall₂_map_left_iff,
      List.forall₂_map_right_iff, List.forall₂_same]
    intro g _
    exact ⟨rfl, (t.reachability_within h).rank_status_le (ClassSet.Subset.refl _)⟩

/-- More tokens make no middle less restricted. -/
theorem restricted_subset (t : Tables) {e e' : Entry} (h : ∀ w ∈ e.tokens, w ∈ e'.tokens) :
    t.restricted e ⊆ t.restricted e' := by
  intro m hm
  obtain ⟨hmid, hclass⟩ := mem_restricted.1 hm
  obtain ⟨w, hw, p, hp⟩ := Markers.mem_middles_bundle.1 hmid
  exact mem_restricted.2 ⟨Markers.mem_middles_bundle.2 ⟨w, h w hw, p, hp⟩, hclass⟩

/-- **More tokens never help.**  When an entry has every token of another, in any order and any
number, its restricted middles are more, its compatible folios fewer, and it is granted at most what
the other is granted, down to its verdict on every target. -/
theorem outcome_within (t : Tables) (e e' : Entry) (h : ∀ w ∈ e.tokens, w ∈ e'.tokens) :
    t.restricted e ⊆ t.restricted e' ∧
      (t.outcome e').propagation.compatible.Sublist (t.outcome e).propagation.compatible ∧
      (t.outcome e').propagation.Within (t.outcome e).propagation ∧
      (t.outcome e).propagation.verdicts.map Verdict.target = t.targets.targets.map Target.id := by
  have hr := t.restricted_subset h
  refine ⟨hr, ?_, t.propagate_within hr, ?_⟩
  · change (t.propagate (t.restricted e')).compatible.Sublist
      (t.propagate (t.restricted e)).compatible
    rw [propagate_compatible, propagate_compatible]
    exact (t.folios.compatible_sublist hr).map Folio.id
  · change (t.propagate (t.restricted e)).verdicts.map Verdict.target = _
    rw [propagate_verdicts, verdicts, List.map_map]
    rfl

end Tables

/-- Two folios that share one middle, and two zones, the later of which bars the middle `a`. -/
def sampleDocuments : TableDocuments where
  markers := ⟨["qo"], ∅, [], []⟩
  folios := [⟨"f1", ["a", "c"]⟩, ⟨"f2", ["b", "c"]⟩]
  spreads := none
  zones := ⟨[⟨"A", none⟩, ⟨"B", none⟩], .ofList [("a", .ofList ["A"])]⟩
  classes := ⟨1, .decomposable, ["a"]⟩ :: (List.range 48).map fun i ↦ ⟨i + 2, .kernel, []⟩
  targets := [⟨"T1", [1, 2]⟩, ⟨"T2", [2]⟩]
  settings := ⟨1, .none⟩

theorem sampleDocuments_accepted : sampleDocuments.build.toOption.isSome = true := by
  decide +kernel

/-- The tables that the sample documents describe. -/
def sampleTables : Tables := sampleDocuments.build.toOption.get sampleDocuments_accepted

/-- With the middle `b` besides `a` no folio is left, and both targets become unreachable. -/
theorem outcome_within_sample :
    (∀ w ∈ ["qoa"], w ∈ ["qob", "x", "qoa"]) ∧
      (sampleTables.outcome ⟨"e2", ["qob", "x", "qoa"]⟩).propagation.Within
        (sampleTables.outcome ⟨"e1", ["qoa"]⟩).propagation ∧
      (sampleTables.outcome ⟨"e1", ["qoa"]⟩).propagation.verdicts =
        [⟨"T1", .conditional⟩, ⟨"T2", .reachable⟩] ∧
      (sampleTables.outcome ⟨"e2", ["qob", "x", "qoa"]⟩).propagation.verdicts =
        [⟨"T1", .unreachable⟩, ⟨"T2", .unreachable⟩] :=
  ⟨by decide, (sampleTables.outcome_within ⟨"e1", ["qoa"]⟩ ⟨"e2", ["qob", "x", "qoa"]⟩
    (by decide)).2.2.1, by decide +kernel, by decide +kernel⟩

end ManuscriptReach
