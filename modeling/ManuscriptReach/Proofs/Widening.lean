import ManuscriptReach.Proofs.Sharing
import ManuscriptReach.Proofs.Stages
import ManuscriptReach.Batch.Summary

/-!
# Two reports on widening

The check of the tables goes through the middles that have a legality entry, and for each
of them through the neighbouring zones.  A run goes through the neighbouring zones, and
compares what of the effective vocabulary is legal in them.

Both report the same facts about the middles of the effective vocabulary
(`Tables.widenings_agree`): a middle without an entry is legal everywhere, so it is never
legal in a zone and illegal in the zone before.  Zones are told apart by their labels, so
it does not matter that several of them can share one canonical label.
-/

namespace ManuscriptReach

/-- When what is reported of an element tells something about it, the reports tell it of some of the
elements, in order. -/
theorem map_filterMap_sublist {α β γ : Type} {f : α → Option β} {g : β → γ} {h : α → γ}
    (tells : ∀ x y, f x = some y → g y = h x) (xs : List α) :
    ((xs.filterMap f).map g).Sublist (xs.map h) := by
  induction xs with
  | nil => exact List.nil_sublist _
  | cons x xs ih =>
    cases hx : f x with
    | none =>
      rw [List.filterMap_cons_none hx]
      exact ih.cons _
    | some y =>
      rw [List.filterMap_cons_some hx, List.map_cons, List.map_cons, tells x y hx]
      exact ih.cons_cons _

/-- What a widening says of its middles, one at a time. -/
def Widening.places (w : Widening) : List LegalityViolation :=
  w.widened.toList.map fun m ↦ ⟨m, w.earlier, w.later⟩

/-- The two zones that a widening compares. -/
def Widening.zones (w : Widening) : String × String := (w.earlier, w.later)

theorem Widening.mem_places {w : Widening} {v : LegalityViolation} :
    v ∈ w.places ↔ v.middle ∈ w.widened ∧ v.earlier = w.earlier ∧ v.later = w.later := by
  obtain ⟨m, earlier, later⟩ := v
  simp only [places, List.mem_map, SortedSet.mem_toList, LegalityViolation.mk.injEq]
  constructor
  · rintro ⟨m', hm, rfl, rfl, rfl⟩
    exact ⟨hm, rfl, rfl⟩
  · rintro ⟨hm, rfl, rfl⟩
    exact ⟨m, hm, rfl, rfl, rfl⟩

theorem Widening.places_eq_nil_iff {w : Widening} : w.places = [] ↔ w.widened = ∅ := by
  rw [places, List.map_eq_nil_iff, SortedSet.ext_iff, SortedSet.toList_empty]

/-! ## The check of the tables -/

/-- The table is reported to widen where a zone admits a middle that the zone before does not. -/
theorem Legality.mem_violations {t : Legality} {o : ZoneOrder} {v : LegalityViolation} :
    v ∈ t.violations o ↔ ∃ p ∈ adjacentPairs o.zones, v.earlier = p.1.label ∧ v.later = p.2.label ∧
      t.isLegal v.middle p.2 = true ∧ t.isLegal v.middle p.1 = false := by
  obtain ⟨m, earlier, later⟩ := v
  simp only [violations, List.mem_flatMap, List.mem_filterMap, Option.ite_none_right_eq_some,
    Bool.and_eq_true, Bool.not_eq_true', Option.some.injEq, LegalityViolation.mk.injEq]
  constructor
  · rintro ⟨m', -, p, hp, ⟨barred, legal⟩, rfl, rfl, rfl⟩
    exact ⟨p, hp, rfl, rfl, legal, barred⟩
  · rintro ⟨p, hp, rfl, rfl, legal, barred⟩
    refine ⟨m, ?_, p, hp, ⟨barred, legal⟩, rfl, rfl, rfl⟩
    -- a middle that is barred somewhere has an entry
    by_contra none
    rw [isLegal_of_not_mem_keys none] at barred
    cases barred

/-! ## The check of a run -/

theorem mem_widenings {zs : List ZoneVocabulary} {w : Widening} :
    w ∈ widenings zs ↔ ∃ p ∈ adjacentPairs zs, p.2.legal \ p.1.legal ≠ ∅ ∧
      w = ⟨p.1.zone, p.2.zone, p.2.legal \ p.1.legal⟩ := by
  simp only [widenings, List.mem_filterMap, Option.ite_none_left_eq_some, SortedSet.isEmpty_iff,
    Option.some.injEq, ne_eq, eq_comm (a := w)]

/-- The places reported are those where a vocabulary has a middle that the one before has not. -/
theorem mem_places_widenings {zs : List ZoneVocabulary} {v : LegalityViolation} :
    v ∈ (widenings zs).flatMap Widening.places ↔
      ∃ p ∈ adjacentPairs zs, v.earlier = p.1.zone ∧ v.later = p.2.zone ∧
        v.middle ∈ p.2.legal ∧ v.middle ∉ p.1.legal := by
  simp only [List.mem_flatMap, mem_widenings, Widening.mem_places]
  constructor
  · rintro ⟨w, ⟨p, hp, -, rfl⟩, hm, earlier, later⟩
    exact ⟨p, hp, earlier, later, SortedSet.mem_sdiff.1 hm⟩
  · rintro ⟨p, hp, earlier, later, hm⟩
    have widened := SortedSet.mem_sdiff.2 hm
    refine ⟨_, ⟨p, hp, fun none ↦ ?_, rfl⟩, widened, earlier, later⟩
    exact SortedSet.not_mem_empty _ (none ▸ widened)

theorem widened_ne_of_mem_widenings {zs : List ZoneVocabulary} {w : Widening}
    (h : w ∈ widenings zs) : w.widened ≠ ∅ := by
  obtain ⟨p, -, ne, rfl⟩ := mem_widenings.1 h
  exact ne

/-- A check of neighbours reports each pair once, in order. -/
theorem zones_widenings_sublist (zs : List ZoneVocabulary) :
    ((widenings zs).map Widening.zones).Sublist
      (adjacentPairs (zs.map ZoneVocabulary.zone)) := by
  rw [adjacentPairs_map]
  apply map_filterMap_sublist
  intro p w hw
  obtain ⟨-, report⟩ := Option.ite_none_left_eq_some.1 hw
  cases report
  rfl

theorem Legality.map_zone_vocabularies (t : Legality) (o : ZoneOrder) (vocabulary : StringSet) :
    (t.vocabularies o vocabulary).map ZoneVocabulary.zone = o.labels := by
  rw [vocabularies, List.map_map]
  rfl

/-! ## Both agree -/

/-- Where the legal parts of a vocabulary widen, the table widens at a middle of the vocabulary. -/
theorem Legality.mem_places_vocabularies {t : Legality} {o : ZoneOrder} {vocabulary : StringSet}
    {v : LegalityViolation} :
    v ∈ (widenings (t.vocabularies o vocabulary)).flatMap Widening.places ↔
      v ∈ t.violations o ∧ v.middle ∈ vocabulary := by
  rw [mem_places_widenings, mem_violations, vocabularies, adjacentPairs_map]
  simp only [List.mem_map, exists_exists_and_eq_and, Prod.map, mem_legalIn, not_and,
    Bool.not_eq_true]
  constructor
  · rintro ⟨p, hp, earlier, later, ⟨hm, legal⟩, barred⟩
    exact ⟨⟨p, hp, earlier, later, legal, barred hm⟩, hm⟩
  · rintro ⟨⟨p, hp, earlier, later, legal, barred⟩, hm⟩
    exact ⟨p, hp, earlier, later, ⟨hm, legal⟩, fun _ ↦ barred⟩

namespace Tables

variable {t : Tables} {r : StringSet}

theorem effective_eq_empty (h : t.folios.compatible r = []) : (t.propagate r).effective = ∅ := by
  rw [propagate_of_none h]

/-- A propagation reports the places of the tables that concern its vocabulary. -/
theorem mem_places_propagate {v : LegalityViolation} :
    v ∈ (t.propagate r).widenings.flatMap Widening.places ↔
      v ∈ t.violations ∧ v.middle ∈ (t.propagate r).effective := by
  by_cases h : t.folios.compatible r = []
  · rw [propagate_widenings_closed h, effective_eq_empty h]
    simp
  · rw [propagate_widenings h]
    exact Legality.mem_places_vocabularies

theorem widened_ne_of_mem_propagate {w : Widening} (h : w ∈ (t.propagate r).widenings) :
    w.widened ≠ ∅ := by
  by_cases hc : t.folios.compatible r = []
  · rw [propagate_widenings_closed hc] at h
    cases h
  · rw [propagate_widenings hc] at h
    exact widened_ne_of_mem_widenings h

theorem zones_propagate_widenings_sublist (t : Tables) (r : StringSet) :
    ((t.propagate r).widenings.map Widening.zones).Sublist (adjacentPairs t.zones.labels) := by
  by_cases h : t.folios.compatible r = []
  · rw [propagate_widenings_closed h]
    exact List.nil_sublist _
  · rw [propagate_widenings h, ← t.legality.map_zone_vocabularies]
    exact zones_widenings_sublist _

/-- A propagation reports nothing exactly when no place of the tables concerns its vocabulary. -/
theorem widenings_propagate_eq_nil_iff :
    (t.propagate r).widenings = [] ↔
      ∀ v ∈ t.violations, v.middle ∉ (t.propagate r).effective := by
  have places : (t.propagate r).widenings = [] ↔
      (t.propagate r).widenings.flatMap Widening.places = [] := by
    constructor
    · intro none
      rw [none]
      rfl
    · intro none
      rw [List.eq_nil_iff_forall_not_mem]
      intro w hw
      exact widened_ne_of_mem_propagate hw
        (Widening.places_eq_nil_iff.1 (List.flatMap_eq_nil_iff.1 none w hw))
  rw [places, List.eq_nil_iff_forall_not_mem]
  simp only [mem_places_propagate, not_and]

/-- An entry is counted as widened when the tables widen at a middle of its vocabulary. -/
theorem widenedEntries_summary (t : Tables) (shared : Bool) (entries : List Entry) :
    (t.summary (t.run shared entries).outcomes).widenedEntries =
      entries.countP fun e ↦ t.violations.any fun v ↦
        decide (v.middle ∈ (t.propagate (t.restricted e)).effective) := by
  change (t.run shared entries).outcomes.countP (fun o ↦ !o.propagation.widenings.isEmpty) = _
  rw [outcomes_run, List.countP_map]
  refine List.countP_congr fun e _ ↦ ?_
  change (!(t.propagate (t.restricted e)).widenings.isEmpty) = true ↔ _
  rw [Bool.not_eq_true', ← Bool.not_eq_true, List.isEmpty_iff, widenings_propagate_eq_nil_iff]
  simp

/-- **The check of the tables and the checks of the runs report the same widenings.**  A propagation
reports exactly the places of the tables that concern its effective vocabulary; it names
neighbouring zones, each pair at most once and in order, always with some middle, and none when it
is closed.  So a batch counts the entries whose effective vocabulary has a middle at which the
tables widen. -/
theorem widenings_agree (t : Tables) (r : StringSet) :
    (∀ v, v ∈ (t.propagate r).widenings.flatMap Widening.places ↔
        v ∈ t.violations ∧ v.middle ∈ (t.propagate r).effective) ∧
      ((t.propagate r).widenings.map Widening.zones).Sublist (adjacentPairs t.zones.labels) ∧
      (adjacentPairs t.zones.labels).Nodup ∧
      (∀ w ∈ (t.propagate r).widenings, w.widened ≠ ∅) ∧
      ((t.propagate r).reachability = .closed → (t.propagate r).widenings = []) ∧
      ∀ shared entries, (t.summary (t.run shared entries).outcomes).widenedEntries =
        entries.countP fun e ↦ t.violations.any fun v ↦
          decide (v.middle ∈ (t.propagate (t.restricted e)).effective) := by
  refine ⟨fun v ↦ mem_places_propagate, t.zones_propagate_widenings_sublist r,
    nodup_adjacentPairs t.zones.labels_nodup, fun w ↦ widened_ne_of_mem_propagate, fun h ↦ ?_,
    t.widenedEntries_summary⟩
  by_cases hc : t.folios.compatible r = []
  · exact propagate_widenings_closed hc
  · rw [propagate_opened hc] at h
    cases h

end Tables

end ManuscriptReach
