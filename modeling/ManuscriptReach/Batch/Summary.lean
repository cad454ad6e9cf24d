import ManuscriptReach.Batch

/-!
# Summaries

A summary counts the verdicts of a batch, states means over its entries, and
checks the means against the bands that the settings expect.
-/

namespace ManuscriptReach

/-- How many verdicts have each status. -/
structure Tally where
  reachable : Nat
  conditional : Nat
  unreachable : Nat
deriving DecidableEq

namespace Tally

/-- Nothing is counted. -/
def zero : Tally := ⟨0, 0, 0⟩

/-- Counts one more verdict. -/
def record (t : Tally) : ReachStatus → Tally
  | .reachable => { t with reachable := t.reachable + 1 }
  | .conditional => { t with conditional := t.conditional + 1 }
  | .unreachable => { t with unreachable := t.unreachable + 1 }

/-- The count of one status. -/
def get (t : Tally) : ReachStatus → Nat
  | .reachable => t.reachable
  | .conditional => t.conditional
  | .unreachable => t.unreachable

/-- The count of all statuses. -/
def total (t : Tally) : Nat := t.reachable + t.conditional + t.unreachable

/-- Counts a list of statuses. -/
def ofList (statuses : List ReachStatus) : Tally := statuses.foldl record zero

theorem get_record (t : Tally) (s s' : ReachStatus) :
    (t.record s).get s' = t.get s' + if s == s' then 1 else 0 := by
  cases s <;> cases s' <;> rfl

theorem total_record (t : Tally) (s : ReachStatus) : (t.record s).total = t.total + 1 := by
  cases s <;> simp only [record, total] <;> omega

theorem get_foldl_record (t : Tally) (statuses : List ReachStatus) (s : ReachStatus) :
    (statuses.foldl record t).get s = t.get s + statuses.count s := by
  induction statuses generalizing t with
  | nil => rfl
  | cons s' statuses ih =>
    rw [List.foldl_cons, ih, get_record, List.count_cons]
    omega

theorem total_foldl_record (t : Tally) (statuses : List ReachStatus) :
    (statuses.foldl record t).total = t.total + statuses.length := by
  induction statuses generalizing t with
  | nil => rfl
  | cons s statuses ih =>
    rw [List.foldl_cons, ih, total_record, List.length_cons]
    omega

/-- The count of a status is the number of its occurrences. -/
theorem get_ofList (statuses : List ReachStatus) (s : ReachStatus) :
    (ofList statuses).get s = statuses.count s := by
  rw [ofList, get_foldl_record]
  cases s <;> exact Nat.zero_add _

/-- Every status is counted. -/
theorem total_ofList (statuses : List ReachStatus) :
    (ofList statuses).total = statuses.length := by
  rw [ofList, total_foldl_record]
  exact Nat.zero_add _

end Tally

/-- The verdicts on one target over a batch. -/
structure TargetSummary where
  target : String
  labels : Tally
deriving DecidableEq

/-- Least, mean and greatest of some sizes. -/
structure SizeStatistics where
  least : Nat
  mean : Float
  greatest : Nat

/-- The mean number of classes reachable in one zone. -/
structure ZoneSummary where
  zone : String
  meanReachable : Float

/-- A statistic held against the band in which it was expected. -/
structure ExpectationCheck where
  name : String
  expected : Band
  observed : Float
  passed : Bool

/-- The statistics of a batch. -/
structure Summary where
  /-- The number of entries. -/
  entries : Nat
  /-- All verdicts. -/
  labels : Tally
  /-- The verdicts on each target, in catalog order. -/
  targets : List TargetSummary
  /-- How many entries have each number of compatible folios. -/
  compatibleHistogram : SortedMap Nat Nat
  /-- The mean number of compatible folios. -/
  compatibleMean : Float
  /-- The sizes of the effective vocabularies. -/
  effectiveVocabulary : SizeStatistics
  /-- How many entries have no compatible folio. -/
  closedEntries : Nat
  /-- How many entries have no restricted middle. -/
  unrestrictedEntries : Nat
  /-- The invalid tokens, each counted once in each entry. -/
  invalidTokens : Nat
  /-- The zones in order; a closed entry counts as zero everywhere. -/
  zones : List ZoneSummary
  /-- How many entries have a vocabulary that widens somewhere along the zones. -/
  widenedEntries : Nat
  /-- The statistics for which a band is expected. -/
  expectations : List ExpectationCheck

/-- The sum of some numbers. -/
def totalOf (ns : List Nat) : Nat := ns.foldr (· + ·) 0

/-- The mean of `count` numbers with the given sum, zero when there is none. -/
def meanOf (total count : Nat) : Float :=
  if count = 0 then 0 else Float.ofNat total / Float.ofNat count

/-- The statistics of some sizes. -/
def SizeStatistics.ofList (sizes : List Nat) : SizeStatistics :=
  ⟨sizes.min?.getD 0, meanOf (totalOf sizes) sizes.length, sizes.max?.getD 0⟩

/-- Holds a statistic against the band in which it was expected. -/
def ExpectationCheck.of (name : String) (expected : Band) (observed : Float) : ExpectationCheck :=
  ⟨name, expected, observed, expected.contains observed⟩

/-- How many elements of a list take each value. -/
def histogram (xs : List Nat) : SortedMap Nat Nat :=
  xs.foldl (fun m x ↦ m.alter (fun n ↦ n.getD 0 + 1) x) ∅

/-- The name under which the mean number of compatible folios is expected and checked. -/
def compatibleMeanName : String := "compatible_folios_mean"

/-- The name under which the mean size of the effective vocabulary is expected and checked. -/
def effectiveMeanName : String := "effective_vocabulary_mean"

/-- Holds the two means against the bands expected of them. -/
def Expectations.checks (e : Expectations) (compatible effective : Float) :
    List ExpectationCheck :=
  (e.compatibleFolios.map fun b ↦ .of compatibleMeanName b compatible).toList ++
    (e.effectiveVocabulary.map fun b ↦ .of effectiveMeanName b effective).toList

namespace Tables

/-- The verdicts on the target at place `i` over a batch. -/
def targetTally (outcomes : List Outcome) (i : Nat) : Tally :=
  .ofList (outcomes.filterMap fun o ↦ o.propagation.verdicts[i]?.map Verdict.status)

/-- The numbers of classes reachable in the zone at place `i` over a batch, added up. -/
def zoneTotal (outcomes : List Outcome) (i : Nat) : Nat :=
  totalOf (outcomes.map fun o ↦
    (o.propagation.reachability.zones[i]?.map fun z ↦ z.reachable.size).getD 0)

/-- The statistics of a batch.  In its outcomes there is one verdict on each target and no other, as
every run gives them; beyond those the sum of all verdicts would count what stands under no
target. -/
def summary (t : Tables) (outcomes : List Outcome) : Summary :=
  let compatible := outcomes.map fun o ↦ o.propagation.compatible.length
  let compatibleMean := meanOf (totalOf compatible) outcomes.length
  let effective := SizeStatistics.ofList (outcomes.map fun o ↦ o.propagation.effective.size)
  { entries := outcomes.length
    labels := .ofList (outcomes.flatMap fun o ↦ o.propagation.verdicts.map Verdict.status)
    targets := t.targets.targets.mapIdx fun i g ↦ ⟨g.id, targetTally outcomes i⟩
    compatibleHistogram := histogram compatible
    compatibleMean := compatibleMean
    effectiveVocabulary := effective
    closedEntries := outcomes.countP fun o ↦ o.propagation.reachability.isClosed
    unrestrictedEntries := outcomes.countP fun o ↦ o.sorting.partition.restricted.isEmpty
    invalidTokens := totalOf (outcomes.map fun o ↦ o.sorting.aggregate.invalidTokens.length)
    zones := t.zones.labels.mapIdx fun i z ↦ ⟨z, meanOf (zoneTotal outcomes i) outcomes.length⟩
    widenedEntries := outcomes.countP fun o ↦ !o.propagation.widenings.isEmpty
    expectations := t.settings.expectations.checks compatibleMean effective.mean }

end Tables

/-- Whether every checked statistic lies in its band. -/
def Summary.expectationsPassed (s : Summary) : Bool := s.expectations.all ExpectationCheck.passed

end ManuscriptReach
