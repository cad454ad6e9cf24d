import ManuscriptReach.Proofs.Accounting

/-!
# Summaries in one pass

All figures of a summary can be kept on one way through a batch, as a program would do it.  The
definition `Tables.summary` states each of them by a pass of its own.  The two agree
(`Tables.summary_eq_onePass`).  What carries the proof is a relation between the figures so far and
the outcomes so far, with one field for each figure (`Figures.Of`).

A figure for each target is changed by the verdict at its place, as far as there are verdicts, and
verdicts beyond the targets count nowhere.  No run has any, but a list of outcomes might: the sum of
all verdicts agrees only without them.
-/

namespace ManuscriptReach

/-! ## Elements changed in place -/

/-- Changes the elements of a list by those of another, as far as both lists go. -/
def changeEach {α β : Type} (f : α → β → α) : List α → List β → List α
  | x :: xs, y :: ys => f x y :: changeEach f xs ys
  | xs, _ => xs

theorem getElem?_changeEach {α β : Type} (f : α → β → α) (xs : List α) (ys : List β) (i : Nat) :
    (changeEach f xs ys)[i]? = xs[i]?.map fun x ↦ ys[i]?.elim x (f x) := by
  induction xs generalizing ys i with
  | nil => simp [changeEach]
  | cons x xs ih =>
    cases ys with
    | nil => simp [changeEach]
    | cons y ys =>
      cases i with
      | zero => rfl
      | succ i => simpa [changeEach] using ih ys i

/-- Where every element is a value of its place, so it is after the change. -/
theorem changeEach_map_range {α β : Type} {f : α → β → α} {g h : Nat → α} {ys : List β} (n : Nat)
    (change : ∀ i, h i = ys[i]?.elim (g i) (f (g i))) :
    changeEach f ((List.range n).map g) ys = (List.range n).map h := by
  apply List.ext_getElem?
  intro i
  rw [getElem?_changeEach, List.getElem?_map, List.getElem?_map, Option.map_map]
  by_cases hi : i < n
  · simp [hi, change]
  · simp [hi]

/-! ## Figures -/

/-- The figures that are kept while a batch is gone through. -/
structure Figures where
  labels : Tally
  /-- A tally for each target. -/
  targets : List Tally
  histogram : SortedMap Nat Nat
  /-- The numbers of compatible folios. -/
  compatible : List Nat
  /-- The sizes of the effective vocabularies. -/
  effective : List Nat
  /-- A total for each zone. -/
  zones : List Nat
  closed : Nat
  unrestricted : Nat
  invalid : Nat
  widened : Nat

namespace Figures

/-- The figures in front of a batch. -/
def start (targets zones : Nat) : Figures where
  labels := .zero
  targets := List.replicate targets .zero
  histogram := ∅
  compatible := []
  effective := []
  zones := List.replicate zones 0
  closed := 0
  unrestricted := 0
  invalid := 0
  widened := 0

/-- The figures after one more outcome. -/
def add (f : Figures) (o : Outcome) : Figures where
  labels := ((o.propagation.verdicts.take f.targets.length).map Verdict.status).foldl
    Tally.record f.labels
  targets := changeEach (fun t v ↦ t.record v.status) f.targets o.propagation.verdicts
  histogram := countOne f.histogram o.propagation.compatible.length
  compatible := f.compatible ++ [o.propagation.compatible.length]
  effective := f.effective ++ [o.propagation.effective.size]
  zones := changeEach (fun n z ↦ n + z.reachable.size) f.zones o.propagation.reachability.zones
  closed := f.closed + if o.propagation.reachability.isClosed then 1 else 0
  unrestricted := f.unrestricted + if o.sorting.partition.restricted.isEmpty then 1 else 0
  invalid := f.invalid + o.sorting.aggregate.invalidTokens.length
  widened := f.widened + if !o.propagation.widenings.isEmpty then 1 else 0

/-- Figures are those of a list of outcomes. -/
structure Of (targets zones : Nat) (outcomes : List Outcome) (f : Figures) : Prop where
  labels : f.labels = .ofList (outcomes.flatMap fun o ↦
    (o.propagation.verdicts.take targets).map Verdict.status)
  targets : f.targets = (List.range targets).map (Tables.targetTally outcomes)
  histogram : f.histogram = ManuscriptReach.histogram
    (outcomes.map fun o ↦ o.propagation.compatible.length)
  compatible : f.compatible = outcomes.map fun o ↦ o.propagation.compatible.length
  effective : f.effective = outcomes.map fun o ↦ o.propagation.effective.size
  zones : f.zones = (List.range zones).map (Tables.zoneTotal outcomes)
  closed : f.closed = outcomes.countP fun o ↦ o.propagation.reachability.isClosed
  unrestricted : f.unrestricted = outcomes.countP fun o ↦ o.sorting.partition.restricted.isEmpty
  invalid : f.invalid = totalOf (outcomes.map fun o ↦ o.sorting.aggregate.invalidTokens.length)
  widened : f.widened = outcomes.countP fun o ↦ !o.propagation.widenings.isEmpty

/-- A figure that is the same at every place. -/
theorem replicate_eq_map_range {α : Type} {x : α} {g : Nat → α} (n : Nat) (same : ∀ i, g i = x) :
    List.replicate n x = (List.range n).map g := by
  rw [funext same, List.map_const', List.length_range]

theorem of_start (targets zones : Nat) : (start targets zones).Of targets zones [] where
  labels := rfl
  targets := replicate_eq_map_range targets fun _ ↦ rfl
  histogram := rfl
  compatible := rfl
  effective := rfl
  zones := replicate_eq_map_range zones fun _ ↦ rfl
  closed := rfl
  unrestricted := rfl
  invalid := rfl
  widened := rfl

/-! ## One outcome more -/

theorem targetTally_concat (outcomes : List Outcome) (o : Outcome) (i : Nat) :
    Tables.targetTally (outcomes ++ [o]) i =
      o.propagation.verdicts[i]?.elim (Tables.targetTally outcomes i) fun v ↦
        (Tables.targetTally outcomes i).record v.status := by
  rw [Tables.targetTally, List.filterMap_append, Tally.ofList, List.foldl_append]
  cases h : o.propagation.verdicts[i]? <;> simp [h, Tables.targetTally, Tally.ofList]

theorem totalOf_concat (ns : List Nat) (n : Nat) : totalOf (ns ++ [n]) = totalOf ns + n := by
  rw [totalOf_eq_sum, totalOf_eq_sum, List.sum_append, List.sum_singleton]

theorem zoneTotal_concat (outcomes : List Outcome) (o : Outcome) (i : Nat) :
    Tables.zoneTotal (outcomes ++ [o]) i =
      o.propagation.reachability.zones[i]?.elim (Tables.zoneTotal outcomes i) fun z ↦
        Tables.zoneTotal outcomes i + z.reachable.size := by
  rw [Tables.zoneTotal, List.map_append, List.map_singleton, totalOf_concat]
  cases o.propagation.reachability.zones[i]? <;> rfl

variable {targets zones : Nat} {outcomes : List Outcome} {f : Figures}

/-- An outcome more keeps the figures those of the outcomes. -/
theorem Of.add (h : f.Of targets zones outcomes) (o : Outcome) :
    (f.add o).Of targets zones (outcomes ++ [o]) where
  labels := by
    have places : f.targets.length = targets := by
      rw [h.targets, List.length_map, List.length_range]
    rw [Figures.add, places, h.labels, List.flatMap_append, List.flatMap_singleton, Tally.ofList,
      Tally.ofList, List.foldl_append]
  targets := by
    rw [Figures.add, h.targets]
    exact changeEach_map_range targets (targetTally_concat outcomes o)
  histogram := by
    rw [Figures.add, h.histogram, List.map_append, histogram_eq_foldl, histogram_eq_foldl,
      List.foldl_append]
    rfl
  compatible := by rw [Figures.add, h.compatible, List.map_append, List.map_singleton]
  effective := by rw [Figures.add, h.effective, List.map_append, List.map_singleton]
  zones := by
    rw [Figures.add, h.zones]
    exact changeEach_map_range zones (zoneTotal_concat outcomes o)
  closed := by rw [Figures.add, h.closed, List.countP_append, List.countP_singleton]
  unrestricted := by rw [Figures.add, h.unrestricted, List.countP_append, List.countP_singleton]
  invalid := by rw [Figures.add, h.invalid, List.map_append, List.map_singleton, totalOf_concat]
  widened := by rw [Figures.add, h.widened, List.countP_append, List.countP_singleton]

/-- Figures that go through more outcomes are those of all of them. -/
theorem Of.foldl (h : f.Of targets zones outcomes) (more : List Outcome) :
    (more.foldl Figures.add f).Of targets zones (outcomes ++ more) := by
  induction more generalizing f outcomes with
  | nil => rwa [List.append_nil]
  | cons o more ih =>
    rw [List.foldl_cons, List.append_cons]
    exact ih (h.add o)

end Figures

/-! ## The summary that figures give -/

namespace Tables

/-- The figures after one pass over a batch. -/
def figures (t : Tables) (outcomes : List Outcome) : Figures :=
  outcomes.foldl Figures.add (.start t.targets.targets.length t.zones.labels.length)

/-- The summary that figures give of a batch with `count` entries. -/
def summaryOf (t : Tables) (count : Nat) (f : Figures) : Summary :=
  let compatibleMean := meanOf (totalOf f.compatible) f.compatible.length
  let effective := SizeStatistics.ofList f.effective
  { entries := count
    labels := f.labels
    targets := (t.targets.targets.zip f.targets).map fun p ↦ ⟨p.1.id, p.2⟩
    compatibleHistogram := f.histogram
    compatibleMean := compatibleMean
    effectiveVocabulary := effective
    closedEntries := f.closed
    unrestrictedEntries := f.unrestricted
    invalidTokens := f.invalid
    zones := (t.zones.labels.zip f.zones).map fun p ↦ ⟨p.1, meanOf p.2 count⟩
    widenedEntries := f.widened
    expectations := t.settings.expectations.checks compatibleMean effective.mean }

/-- What is stated of elements next to values of their places is stated of elements by place. -/
theorem map_zip_map_range {α β γ : Type} (xs : List α) (g : Nat → β) (row : α → β → γ) :
    (xs.zip ((List.range xs.length).map g)).map (fun p ↦ row p.1 p.2) =
      xs.mapIdx fun i x ↦ row x (g i) := by
  refine List.ext_getElem (by simp) fun i _ hi ↦ ?_
  simp

/-- **One pass gives the summary.**  The summary of a list of outcomes is the one that the figures
give which are kept on the way through the list, as long as no outcome has more verdicts than there
are targets. -/
theorem summary_eq_onePass (t : Tables) (outcomes : List Outcome)
    (places : ∀ o ∈ outcomes, o.propagation.verdicts.length ≤ t.targets.targets.length) :
    t.summary outcomes = t.summaryOf outcomes.length (t.figures outcomes) := by
  have h : (t.figures outcomes).Of t.targets.targets.length t.zones.labels.length outcomes :=
    (Figures.of_start _ _).foldl outcomes
  have labels : (outcomes.flatMap fun o ↦
      (o.propagation.verdicts.take t.targets.targets.length).map Verdict.status) =
      outcomes.flatMap fun o ↦ o.propagation.verdicts.map Verdict.status :=
    List.flatMap_congr fun o ho ↦ by rw [List.take_of_length_le (places o ho)]
  rw [summaryOf, h.labels, h.targets, h.histogram, h.compatible, h.effective, h.zones, h.closed,
    h.unrestricted, h.invalid, h.widened, labels, List.length_map,
    map_zip_map_range t.targets.targets _ fun g tally ↦ TargetSummary.mk g.id tally,
    map_zip_map_range t.zones.labels _ fun z n ↦ ZoneSummary.mk z (meanOf n outcomes.length)]
  rfl

/-- The summary of a run is given by one pass over its outcomes. -/
theorem summary_run_eq_onePass (t : Tables) (shared : Bool) (entries : List Entry) :
    t.summary (t.run shared entries).outcomes =
      t.summaryOf entries.length (t.figures (t.run shared entries).outcomes) := by
  rw [outcomes_run, summary_eq_onePass, List.length_map]
  intro o ho
  obtain ⟨e, -, rfl⟩ := List.mem_map.1 ho
  rw [verdicts_outcome, List.length_map]

end Tables

end ManuscriptReach
