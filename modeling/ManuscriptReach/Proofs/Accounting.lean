import Mathlib.Algebra.BigOperators.Group.List.Basic
import Mathlib.Algebra.Ring.Nat
import ManuscriptReach.Batch.Summary
import ManuscriptReach.Proofs.Sharing
import ManuscriptReach.Proofs.Stages

/-!
# What a summary counts

A summary reads its figures off places: the verdict at the place of a target, the record
at the place of a zone.  `Tables.Accounts` says what the figures are without places, in
terms of the entries of the batch and of their reports, in which a status is looked up by
the name of the target.

Verdicts stand in catalog order under different names, so a place and a name come to the
same (`statusOf?_report`).  The records of the zones are complete or, for a closed entry,
missing, and a missing record counts zero (`zones_summary`).
-/

namespace ManuscriptReach

/-! ## Sums -/

/-- A list holds as many different elements as are left without repetitions. -/
theorem length_eraseDups {α : Type} [DecidableEq α] (xs : List α) :
    xs.eraseDups.length = xs.toFinset.card := by
  rw [← List.toFinset_card_of_nodup (nodup_eraseDups xs)]
  congr 1
  ext x
  simp only [List.mem_toFinset, List.mem_eraseDups]

theorem countP_eq_sum {α : Type} (p : α → Bool) (xs : List α) :
    xs.countP p = (xs.map fun x ↦ if p x = true then 1 else 0).sum := by
  induction xs with
  | nil => rfl
  | cons x xs ih => rw [List.countP_cons, List.map_cons, List.sum_cons, ih, Nat.add_comm]

/-- Pairs are counted row by row or column by column. -/
theorem sum_countP_comm {α β : Type} (p : α → β → Bool) (xs : List α) (ys : List β) :
    (xs.map fun x ↦ ys.countP (p x)).sum = (ys.map fun y ↦ xs.countP fun x ↦ p x y).sum := by
  induction ys with
  | nil => simp
  | cons y ys ih =>
    simp only [List.countP_cons, List.sum_map_add, ih, List.map_cons, List.sum_cons,
      countP_eq_sum (fun x ↦ p x y) xs]
    exact Nat.add_comm _ _

/-- Elements are counted once each when they are counted by a key. -/
theorem sum_countP_key {α κ : Type} [DecidableEq κ] {key : α → κ} {keys : List κ} {xs : List α}
    (nodup : keys.Nodup) (listed : ∀ x ∈ xs, key x ∈ keys) :
    (keys.map fun k ↦ xs.countP fun x ↦ key x == k).sum = xs.length := by
  have once : ∀ x ∈ xs, (keys.countP fun k ↦ key x == k) = 1 := by
    intro x hx
    rw [← List.count_eq_one_of_mem nodup (listed x hx), List.count]
    exact List.countP_congr fun k _ ↦ by rw [BEq.comm]
  rw [sum_countP_comm, List.map_congr_left once, List.map_const', List.sum_replicate_nat,
    Nat.mul_one]

theorem totalOf_eq_sum (ns : List Nat) : totalOf ns = ns.sum := rfl

/-! ## Means and sizes -/

/-- A number is the mean of some numbers: their sum divided by how many they are, and zero when
there is none. -/
def IsMean (x : Float) (ns : List Nat) : Prop :=
  x = if ns = [] then 0 else Float.ofNat ns.sum / Float.ofNat ns.length

theorem isMean_meanOf (ns : List Nat) : IsMean (meanOf (totalOf ns) ns.length) ns := by
  rw [IsMean, meanOf, totalOf_eq_sum]
  simp only [List.length_eq_zero_iff]

/-- The mean of what a function gives for the elements of a list. -/
theorem isMean_map {α : Type} (f : α → Nat) (xs : List α) :
    IsMean (meanOf (totalOf (xs.map f)) xs.length) (xs.map f) := by
  have mean := isMean_meanOf (xs.map f)
  rwa [List.length_map] at mean

/-- The statistics describe some sizes. -/
structure SizeStatistics.Describes (s : SizeStatistics) (sizes : List Nat) : Prop where
  /-- All sizes lie between the least and the greatest, -/
  least_le : ∀ n ∈ sizes, s.least ≤ n
  le_greatest : ∀ n ∈ sizes, n ≤ s.greatest
  /-- which are sizes themselves, unless there is none. -/
  attained : sizes ≠ [] → s.least ∈ sizes ∧ s.greatest ∈ sizes
  none : sizes = [] → s.least = 0 ∧ s.greatest = 0
  mean : IsMean s.mean sizes

theorem SizeStatistics.describes_ofList (sizes : List Nat) : (ofList sizes).Describes sizes := by
  cases sizes with
  | nil =>
    exact ⟨nofun, nofun, fun h ↦ absurd rfl h, fun _ ↦ ⟨rfl, rfl⟩, isMean_meanOf []⟩
  | cons n ns =>
    obtain ⟨least, hleast⟩ : ∃ m, (n :: ns).min? = some m := ⟨_, List.min?_cons'⟩
    obtain ⟨greatest, hgreatest⟩ : ∃ m, (n :: ns).max? = some m := ⟨_, List.max?_cons'⟩
    obtain ⟨least_mem, least_le⟩ := List.min?_eq_some_iff.1 hleast
    obtain ⟨greatest_mem, le_greatest⟩ := List.max?_eq_some_iff.1 hgreatest
    have stats : ofList (n :: ns) =
        ⟨least, meanOf (totalOf (n :: ns)) (n :: ns).length, greatest⟩ := by
      rw [ofList, hleast, hgreatest]
      rfl
    rw [stats]
    exact ⟨least_le, le_greatest, fun _ ↦ ⟨least_mem, greatest_mem⟩, nofun,
      isMean_meanOf (n :: ns)⟩

/-! ## Histograms -/

/-- Counts one more occurrence of a value. -/
def countOne (m : SortedMap Nat Nat) (x : Nat) : SortedMap Nat Nat :=
  m.alter (fun n ↦ n.getD 0 + 1) x

theorem histogram_eq_foldl (xs : List Nat) : histogram xs = xs.foldl countOne ∅ := rfl

theorem getD_get?_foldl_countOne (m : SortedMap Nat Nat) (xs : List Nat) (c : Nat) :
    ((xs.foldl countOne m).get? c).getD 0 = (m.get? c).getD 0 + xs.count c := by
  induction xs generalizing m with
  | nil => rfl
  | cons x xs ih =>
    rw [List.foldl_cons, ih, countOne, SortedMap.get?_alter, List.count_cons]
    by_cases same : c = x
    · subst same
      simp only [if_true, Option.getD_some, beq_self_eq_true]
      omega
    · simp [same, Ne.symm same]

theorem mem_keys_foldl_countOne {m : SortedMap Nat Nat} {xs : List Nat} {c : Nat} :
    c ∈ (xs.foldl countOne m).keys ↔ c ∈ xs ∨ c ∈ m.keys := by
  induction xs generalizing m with
  | nil => simp
  | cons x xs ih =>
    rw [List.foldl_cons, ih, countOne, SortedMap.mem_keys_alter, List.mem_cons]
    tauto

theorem sum_placeWith (x : Nat) (ps : List (Nat × Nat)) :
    ((SortedMap.placeWith (fun n ↦ n.getD 0 + 1) x ps).map Prod.snd).sum =
      (ps.map Prod.snd).sum + 1 := by
  induction ps with
  | nil => rfl
  | cons p ps ih =>
    obtain ⟨y, n⟩ := p
    rw [SortedMap.placeWith]
    split
    · simp only [List.map_cons, List.sum_cons, Option.getD_none]
      omega
    split
    · simp only [List.map_cons, List.sum_cons, ih]
      omega
    · simp only [List.map_cons, List.sum_cons, Option.getD_some]
      omega

theorem sum_foldl_countOne (m : SortedMap Nat Nat) (xs : List Nat) :
    ((xs.foldl countOne m).toList.map Prod.snd).sum = (m.toList.map Prod.snd).sum + xs.length := by
  induction xs generalizing m with
  | nil => rfl
  | cons x xs ih =>
    rw [List.foldl_cons, ih, countOne, SortedMap.alter, sum_placeWith, List.length_cons]
    omega

/-- A histogram gives each value its number of occurrences. -/
theorem getD_get?_histogram (xs : List Nat) (c : Nat) :
    ((histogram xs).get? c).getD 0 = xs.count c := by
  rw [histogram_eq_foldl, getD_get?_foldl_countOne]
  exact Nat.zero_add _

/-- A histogram lists the values that occur. -/
theorem mem_keys_histogram {xs : List Nat} {c : Nat} : c ∈ (histogram xs).keys ↔ c ∈ xs := by
  rw [histogram_eq_foldl, mem_keys_foldl_countOne]
  exact or_iff_left List.not_mem_nil

/-- A histogram counts every element. -/
theorem sum_histogram (xs : List Nat) : ((histogram xs).toList.map Prod.snd).sum = xs.length := by
  rw [histogram_eq_foldl, sum_foldl_countOne]
  exact Nat.zero_add _

/-- The search for the name of a target finds the target. -/
theorem TargetCatalog.find?_id {c : TargetCatalog} {g : Target} (hg : g ∈ c.targets) :
    c.targets.find? (fun h ↦ h.id == g.id) = some g := by
  cases hf : c.targets.find? fun h ↦ h.id == g.id with
  | none => exact absurd (List.find?_eq_none.1 hf g hg) (by simp)
  | some g' =>
    have same : g'.id = g.id := by simpa using List.find?_some hf
    rw [List.inj_on_of_nodup_map c.ids_nodup (List.mem_of_find?_eq_some hf) hg same]

/-! ## Figures of an entry -/

namespace Tables

/-- The number of folios compatible with an entry. -/
def compatibleCount (t : Tables) (e : Entry) : Nat := (t.folios.compatible (t.restricted e)).length

/-- The number of middles that they have together. -/
def vocabularySize (t : Tables) (e : Entry) : Nat := (t.propagate (t.restricted e)).effective.size

/-- The number of classes reachable in a zone, zero when no folio is compatible. -/
def zoneCount (t : Tables) (z : Zone) (e : Entry) : Nat :=
  if t.compatibleCount e = 0 then 0
  else (t.zoneReach (t.propagate (t.restricted e)).effective z).reachable.size

/-- The number of different invalid tokens of an entry. -/
def invalidCount (t : Tables) (e : Entry) : Nat :=
  (e.tokens.filter fun w ↦ (t.markers.decompose w).isInvalid).toFinset.card

/-- The status of a target for an entry. -/
def statusFor (t : Tables) (e : Entry) (g : Target) : ReachStatus :=
  (t.propagate (t.restricted e)).reachability.status g.footprint

/-- A summary accounts for the entries of a batch and the reports on them. -/
structure Accounts (t : Tables) (entries : List Entry) (reports : List Report) (s : Summary) :
    Prop where
  size : s.entries = entries.length
  /-- One row for each target, in catalog order.  It counts the reports that give a status under
  the target's name, and all entries in total. -/
  targets : List.Forall₂ (fun g row ↦ row.target = g.id ∧
    (∀ status, row.labels.get status =
      reports.countP fun r ↦ decide (r.statusOf? g.id = some status)) ∧
    row.labels.total = entries.length) t.targets.targets s.targets
  /-- All verdicts are those of the targets together. -/
  labels : ∀ status, s.labels.get status = (s.targets.map fun row ↦ row.labels.get status).sum
  labels_total : s.labels.total = entries.length * t.targets.targets.length
  /-- The histogram lists the numbers of compatible folios that occur, and how often. -/
  histogram : ∀ c, (s.compatibleHistogram.get? c).getD 0 =
    entries.countP fun e ↦ decide (t.compatibleCount e = c)
  histogram_keys : ∀ c, c ∈ s.compatibleHistogram.keys ↔ ∃ e ∈ entries, t.compatibleCount e = c
  histogram_total : (s.compatibleHistogram.toList.map Prod.snd).sum = entries.length
  closed : s.closedEntries = (s.compatibleHistogram.get? 0).getD 0
  unrestricted : s.unrestrictedEntries = entries.countP fun e ↦ decide (t.restricted e = ∅)
  invalid : s.invalidTokens = (entries.map t.invalidCount).sum
  compatible : IsMean s.compatibleMean (entries.map t.compatibleCount)
  vocabulary : s.effectiveVocabulary.Describes (entries.map t.vocabularySize)
  /-- One row for each zone, in order. -/
  zones : List.Forall₂ (fun z row ↦ row.zone = z.label ∧
    IsMean row.meanReachable (entries.map (t.zoneCount z))) t.zones.zones s.zones

variable {t : Tables} {e : Entry}

theorem verdicts_outcome (t : Tables) (e : Entry) :
    (t.outcome e).propagation.verdicts = t.targets.targets.map fun g ↦ ⟨g.id, t.statusFor e g⟩ :=
  propagate_verdicts t (t.restricted e)

theorem length_compatible_outcome (t : Tables) (e : Entry) :
    (t.outcome e).propagation.compatible.length = t.compatibleCount e := by
  rw [propagation_outcome, propagate_compatible, List.length_map, compatibleCount]

theorem compatibleCount_eq_zero_iff :
    t.compatibleCount e = 0 ↔ t.folios.compatible (t.restricted e) = [] := List.length_eq_zero_iff

/-- An entry is closed when it has no compatible folio. -/
theorem isClosed_outcome (t : Tables) (e : Entry) :
    (t.outcome e).propagation.reachability.isClosed = decide (t.compatibleCount e = 0) := by
  rw [propagation_outcome]
  by_cases h : t.folios.compatible (t.restricted e) = []
  · rw [propagate_closed h, decide_eq_true (compatibleCount_eq_zero_iff.2 h)]
    rfl
  · rw [propagate_opened h, decide_eq_false (mt compatibleCount_eq_zero_iff.1 h)]
    rfl

theorem length_invalidTokens_outcome (t : Tables) (e : Entry) :
    (t.outcome e).sorting.aggregate.invalidTokens.length = t.invalidCount e :=
  length_eraseDups _

/-- At the place of a zone stands its record, or none when the entry is closed. -/
theorem getD_zones_outcome (t : Tables) (e : Entry) {i : Nat} (hi : i < t.zones.zones.length) :
    ((t.outcome e).propagation.reachability.zones[i]?.map fun z ↦ z.reachable.size).getD 0 =
      t.zoneCount t.zones.zones[i] e := by
  rw [propagation_outcome, zoneCount]
  by_cases h : t.folios.compatible (t.restricted e) = []
  · rw [propagate_closed h, if_pos (compatibleCount_eq_zero_iff.2 h)]
    rfl
  · rw [propagate_opened h, if_neg (mt compatibleCount_eq_zero_iff.1 h), Reachability.zones,
      zoneReaches_eq_map, List.getElem?_map, List.getElem?_eq_getElem hi]
    rfl

/-! ## Looking up by name -/

/-- The status that a report gives under the name of a target is that of the target. -/
theorem statusOf?_report (withDiagnostics : Bool) {g : Target} (hg : g ∈ t.targets.targets) :
    (t.report withDiagnostics (t.outcome e)).statusOf? g.id = some (t.statusFor e g) := by
  change ((t.outcome e).propagation.verdicts.find? _).map Verdict.status = _
  rw [verdicts_outcome, List.find?_map]
  change ((t.targets.targets.find? fun h ↦ h.id == g.id).map _).map _ = _
  rw [TargetCatalog.find?_id hg]
  rfl

theorem countP_statusOf? (withDiagnostics shared : Bool) (entries : List Entry) {g : Target}
    (hg : g ∈ t.targets.targets) (status : ReachStatus) :
    (t.reports withDiagnostics (t.run shared entries)).countP
        (fun r ↦ decide (r.statusOf? g.id = some status)) =
      (entries.map fun e ↦ t.statusFor e g).count status := by
  rw [reports, outcomes_run, List.map_map, List.count, List.countP_map, List.countP_map]
  refine List.countP_congr fun e _ ↦ ?_
  simp [statusOf?_report withDiagnostics hg]

/-! ## Fields of a summary -/

section

variable (t : Tables) (entries : List Entry)

/-- What is read off the outcomes is read off the entries. -/
theorem map_outcomes {α : Type} {f : Outcome → α} {g : Entry → α}
    (same : ∀ e, f (t.outcome e) = g e) : (entries.map t.outcome).map f = entries.map g := by
  rw [List.map_map]
  exact List.map_congr_left fun e _ ↦ same e

theorem countP_outcomes {p : Outcome → Bool} {q : Entry → Bool}
    (same : ∀ e, p (t.outcome e) = q e) :
    (entries.map t.outcome).countP p = entries.countP q := by
  rw [List.countP_map]
  exact congrArg (List.countP · entries) (funext same)

/-- The row of a target counts the statuses of the target. -/
theorem targets_summary :
    (t.summary (entries.map t.outcome)).targets =
      t.targets.targets.map fun g ↦ ⟨g.id, .ofList (entries.map fun e ↦ t.statusFor e g)⟩ := by
  have tally (i : Nat) (hi : i < t.targets.targets.length) :
      targetTally (entries.map t.outcome) i =
        .ofList (entries.map fun e ↦ t.statusFor e t.targets.targets[i]) := by
    rw [targetTally, List.filterMap_map, ← List.filterMap_eq_map]
    congr 2
    funext e
    simp [verdicts_outcome, hi]
  refine List.ext_getElem (by simp [summary]) fun i _ hi ↦ ?_
  rw [List.length_map] at hi
  simp [summary, tally i hi]

/-- The row of a zone averages the numbers of its classes. -/
theorem zones_summary :
    (t.summary (entries.map t.outcome)).zones =
      t.zones.zones.map fun z ↦
        ⟨z.label, meanOf (totalOf (entries.map (t.zoneCount z))) entries.length⟩ := by
  have total (i : Nat) (hi : i < t.zones.zones.length) :
      zoneTotal (entries.map t.outcome) i =
        totalOf (entries.map (t.zoneCount t.zones.zones[i])) :=
    congrArg totalOf (map_outcomes t entries fun e ↦ t.getD_zones_outcome e hi)
  refine List.ext_getElem (by simp [summary, ZoneOrder.labels]) fun i _ hi ↦ ?_
  rw [List.length_map] at hi
  simp [summary, ZoneOrder.labels, total i hi]

/-- The verdicts on all targets are those on each of them together. -/
theorem labels_summary (status : ReachStatus) :
    (t.summary (entries.map t.outcome)).labels.get status =
      (t.targets.targets.map fun g ↦ (entries.map fun e ↦ t.statusFor e g).count status).sum := by
  calc (t.summary (entries.map t.outcome)).labels.get status
      = ((entries.map t.outcome).flatMap fun o ↦
          o.propagation.verdicts.map Verdict.status).count status := Tally.get_ofList _ _
    _ = (entries.map fun e ↦
          t.targets.targets.countP fun g ↦ t.statusFor e g == status).sum := by
        rw [List.count_flatMap, map_outcomes t entries fun e ↦ ?_]
        rw [Function.comp, verdicts_outcome, List.map_map, List.count, List.countP_map]
        rfl
    _ = (t.targets.targets.map fun g ↦
          entries.countP fun e ↦ t.statusFor e g == status).sum := sum_countP_comm _ _ _
    _ = _ := by
        simp only [List.count, List.countP_map]
        rfl

theorem labels_total_summary :
    (t.summary (entries.map t.outcome)).labels.total =
      entries.length * t.targets.targets.length := by
  calc (t.summary (entries.map t.outcome)).labels.total
      = ((entries.map t.outcome).flatMap fun o ↦
          o.propagation.verdicts.map Verdict.status).length := Tally.total_ofList _
    _ = (entries.map fun _ ↦ t.targets.targets.length).sum := by
        rw [List.length_flatMap, map_outcomes t entries fun e ↦ ?_]
        rw [verdicts_outcome, List.length_map, List.length_map]
    _ = _ := by rw [List.map_const', List.sum_replicate_nat]

theorem compatibleHistogram_summary :
    (t.summary (entries.map t.outcome)).compatibleHistogram =
      histogram (entries.map t.compatibleCount) :=
  congrArg histogram (map_outcomes t entries t.length_compatible_outcome)

theorem getD_get?_compatibleHistogram (c : Nat) :
    ((t.summary (entries.map t.outcome)).compatibleHistogram.get? c).getD 0 =
      entries.countP fun e ↦ decide (t.compatibleCount e = c) := by
  rw [compatibleHistogram_summary, getD_get?_histogram, List.count, List.countP_map]
  rfl

theorem closedEntries_summary :
    (t.summary (entries.map t.outcome)).closedEntries =
      entries.countP fun e ↦ decide (t.compatibleCount e = 0) :=
  countP_outcomes t entries t.isClosed_outcome

theorem unrestrictedEntries_summary :
    (t.summary (entries.map t.outcome)).unrestrictedEntries =
      entries.countP fun e ↦ decide (t.restricted e = ∅) := by
  refine countP_outcomes t entries fun e ↦ ?_
  rw [Bool.eq_iff_iff, decide_eq_true_eq]
  exact SortedSet.isEmpty_iff

theorem invalidTokens_summary :
    (t.summary (entries.map t.outcome)).invalidTokens = (entries.map t.invalidCount).sum :=
  congrArg totalOf (map_outcomes t entries t.length_invalidTokens_outcome)

theorem compatibleMean_summary :
    (t.summary (entries.map t.outcome)).compatibleMean =
      meanOf (totalOf (entries.map t.compatibleCount)) entries.length := by
  change meanOf (totalOf ((entries.map t.outcome).map _)) (entries.map t.outcome).length = _
  rw [map_outcomes t entries t.length_compatible_outcome, List.length_map]

theorem effectiveVocabulary_summary :
    (t.summary (entries.map t.outcome)).effectiveVocabulary =
      .ofList (entries.map t.vocabularySize) :=
  congrArg SizeStatistics.ofList (map_outcomes t entries fun _ ↦ rfl)

end

/-- **A summary accounts for every entry and every verdict once.**  Whether or not propagations are
shared, its rows, totals and means are those of the entries of the batch and of the reports on
them. -/
theorem summary_accounts (t : Tables) (entries : List Entry) (shared withDiagnostics : Bool) :
    t.Accounts entries (t.reports withDiagnostics (t.run shared entries))
      (t.summary (t.run shared entries).outcomes) := by
  rw [outcomes_run]
  have histogram := compatibleHistogram_summary t entries
  have occurrences := getD_get?_compatibleHistogram t entries
  exact {
    size := List.length_map _
    targets := by
      rw [targets_summary, List.forall₂_map_right_iff, List.forall₂_same]
      refine fun g hg ↦ ⟨rfl, fun status ↦ ?_, ?_⟩
      · rw [Tally.get_ofList, countP_statusOf? withDiagnostics shared entries hg]
      · rw [Tally.total_ofList, List.length_map]
    labels := fun status ↦ by
      rw [labels_summary, targets_summary, List.map_map]
      congr 2
      funext g
      exact (Tally.get_ofList _ _).symm
    labels_total := labels_total_summary t entries
    histogram := occurrences
    histogram_keys := fun c ↦ by rw [histogram, mem_keys_histogram, List.mem_map]
    histogram_total := by rw [histogram, sum_histogram, List.length_map]
    closed := (closedEntries_summary t entries).trans (occurrences 0).symm
    unrestricted := unrestrictedEntries_summary t entries
    invalid := invalidTokens_summary t entries
    compatible := by
      rw [compatibleMean_summary]
      exact isMean_map t.compatibleCount entries
    vocabulary := by
      rw [effectiveVocabulary_summary]
      exact SizeStatistics.describes_ofList _
    zones := by
      rw [zones_summary, List.forall₂_map_right_iff, List.forall₂_same]
      exact fun z _ ↦ ⟨rfl, isMean_map (t.zoneCount z) entries⟩ }

end Tables

end ManuscriptReach
