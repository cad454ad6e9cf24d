import ManuscriptReach.Proofs.Accounting
import ManuscriptReach.Proofs.Described
import ManuscriptReach.Proofs.Narrowing

/-!
# Spreads counted from the folios

When no document states the spreads, they are counted: the spread of a middle is the number
of folios that list it.  Then a restricted middle bounds the folios that an entry can stand
in, since all of them list it (`TableDocuments.Counted`).

Stated spreads bound nothing.  They may call a middle restricted that no folio lists.
-/

namespace ManuscriptReach

/-! ## Counts and classes -/

/-- The counted spread of a middle is the number of folios that contain it, indexed or not. -/
theorem SpreadTable.spread_derive (c : FolioCatalog) (m : String) :
    (derive c).spread m = c.folios.countP fun f ↦ decide (m ∈ f.vocabulary) := by
  rw [spread, derive, SortedMap.get?_ofKeys]
  split
  next => rfl
  next absent =>
    symm
    rw [Option.getD_none, List.countP_eq_zero]
    intro f hf contains
    refine absent (SortedSet.mem_unions.2 ⟨f.vocabulary, List.mem_map_of_mem hf, ?_⟩)
    exact of_decide_eq_true contains

/-- Counts every middle of a folio once more. -/
def countFolio (counts : StringMap Nat) (f : Folio) : StringMap Nat :=
  f.vocabulary.toList.foldl (fun m x ↦ m.alter (fun n ↦ n.getD 0 + 1) x) counts

/-- A folio adds one to the count of each of its middles, however it lists them. -/
theorem get?_countFolio (counts : StringMap Nat) (f : Folio) (m : String) :
    (countFolio counts f).get? m =
      if m ∈ f.vocabulary then some ((counts.get? m).getD 0 + 1) else counts.get? m := by
  suffices step : ∀ (xs : List String) (counts : StringMap Nat), xs.Nodup →
      (xs.foldl (fun m x ↦ m.alter (fun n ↦ n.getD 0 + 1) x) counts).get? m =
        if m ∈ xs then some ((counts.get? m).getD 0 + 1) else counts.get? m from
    step f.vocabulary.toList counts (f.vocabulary.sorted.imp Std.ne_of_lt)
  intro xs
  induction xs with
  | nil => intro counts _; simp
  | cons x xs ih =>
    intro counts nodup
    obtain ⟨hx, hxs⟩ := List.nodup_cons.1 nodup
    rw [List.foldl_cons, ih _ hxs, SortedMap.get?_alter]
    by_cases same : m = x
    · subst same
      simp [hx]
    · simp [same]

/-- Going through the folios once, and through the middles of each, counts the same. -/
theorem SpreadTable.counts_derive (c : FolioCatalog) :
    (derive c).counts = c.folios.foldl countFolio ∅ := by
  suffices run : ∀ (fs : List Folio) (counts : StringMap Nat) (m : String),
      (fs.foldl countFolio counts).get? m =
        if ∃ f ∈ fs, m ∈ f.vocabulary then
          some ((counts.get? m).getD 0 + fs.countP fun f ↦ decide (m ∈ f.vocabulary))
        else counts.get? m by
    refine SortedMap.ext_get? fun m ↦ ?_
    rw [run, derive, SortedMap.get?_ofKeys, SortedMap.get?_empty]
    simp
  intro fs
  induction fs with
  | nil => intro counts m; simp
  | cons f fs ih =>
    intro counts m
    rw [List.foldl_cons, ih, get?_countFolio, List.countP_cons]
    by_cases hf : m ∈ f.vocabulary
    · by_cases hfs : ∃ g ∈ fs, m ∈ g.vocabulary
      · simp [hf, hfs]
        omega
      · have none : fs.countP (fun f ↦ decide (m ∈ f.vocabulary)) = 0 := by
          refine List.countP_eq_zero.2 fun g hg hm ↦ hfs ⟨g, hg, of_decide_eq_true hm⟩
        simp [hf, hfs, none]
    · simp [hf]

namespace MiddleClass

variable {bound spread : Nat}

theorem ofSpread_eq_unknown_iff : ofSpread bound spread = unknown ↔ spread = 0 := by
  unfold ofSpread
  split
  next h => simp [h]
  next h => split <;> simp [h]

theorem ofSpread_eq_restricted_iff :
    ofSpread bound spread = restricted ↔ 1 ≤ spread ∧ spread ≤ bound := by
  unfold ofSpread
  split
  next h => simp [h]
  next h =>
    split
    next le => simp [Nat.one_le_iff_ne_zero.2 h, le]
    next gt => simp [gt]

end MiddleClass

namespace FolioCatalog

variable {c : FolioCatalog} {m : String}

/-- The compatible folios are among those that contain a restricted middle. -/
theorem length_compatible_le {r : StringSet} (h : m ∈ r) :
    (c.compatible r).length ≤ c.folios.countP fun f ↦ decide (m ∈ f.vocabulary) := by
  rw [compatible, ← List.countP_eq_length_filter]
  refine List.countP_mono_left fun f _ hf ↦ ?_
  rw [decide_eq_true_eq] at hf ⊢
  exact hf m h

/-- Compatible with a single middle are the folios that contain it. -/
theorem compatible_singleton (c : FolioCatalog) (m : String) :
    c.compatible (.ofList [m]) = c.folios.filter fun f ↦ decide (m ∈ f.vocabulary) := by
  refine List.filter_congr fun f _ ↦ decide_eq_decide.2 ?_
  simp [SortedSet.subset_def]

/-- Without a restricted middle every folio is compatible. -/
theorem compatible_empty (c : FolioCatalog) : c.compatible ∅ = c.folios :=
  List.filter_eq_self.2 fun _ _ ↦ decide_eq_true fun _ h ↦ absurd h (SortedSet.not_mem_empty _)

end FolioCatalog

theorem Tables.mem_unknown {t : Tables} {e : Entry} {m : String} :
    m ∈ (t.sorting e).partition.unknown ↔
      m ∈ (t.sorting e).aggregate.bundle.middles ∧ t.middleClass m = .unknown :=
  mem_part_sorting (c := .unknown)

/-- A set without two members is empty or has a single member. -/
theorem SortedSet.eq_empty_or_singleton {s : StringSet} (h : s.size < 2) :
    s = ∅ ∨ ∃ m, s = .ofList [m] := by
  rw [size] at h
  match hs : s.toList with
  | [] => exact .inl (SortedSet.ext hs)
  | [m] => exact .inr ⟨m, by rw [← hs, ofList_toList]⟩
  | _ :: _ :: _ =>
    rw [hs, List.length_cons, List.length_cons] at h
    omega

/-! ## Entries -/

/-- What it means for an entry that the spreads are counted from the rows of the folios. -/
structure TableDocuments.Counted (d : TableDocuments) (t : Tables) (e : Entry) : Prop where
  /-- The spread of a middle is the number of folios that list it, -/
  spread : ∀ m ∈ (t.sorting e).aggregate.bundle.middles,
    t.spreads.spread m = d.folios.countP fun f ↦ decide (m ∈ f.vocabulary)
  /-- and it is unknown when none does. -/
  unknown : ∀ m ∈ (t.sorting e).aggregate.bundle.middles,
    m ∈ (t.sorting e).partition.unknown ↔ ∀ f ∈ d.folios, m ∉ f.vocabulary
  /-- The compatible folios are at most as many as the spread of any restricted middle. -/
  compatible : ∀ m ∈ (t.sorting e).partition.restricted,
    (t.outcome e).propagation.compatible.length ≤ t.spreads.spread m ∧
      t.spreads.spread m ≤ d.settings.restrictedSpread
  /-- Under a single restricted middle they are the folios that list it, and the entry is open. -/
  single : ∀ m, (t.sorting e).partition.restricted = .ofList [m] →
    (t.outcome e).propagation.compatible =
        (d.folios.filter fun f ↦ decide (m ∈ f.vocabulary)).map FolioDocument.id ∧
      (t.outcome e).propagation.reachability.isClosed = false
  /-- Without a restricted middle they are all folios. -/
  none : (t.sorting e).partition.restricted = ∅ →
    (t.outcome e).propagation.compatible = d.folios.map FolioDocument.id
  /-- So it takes two restricted middles to close an entry, unless there is no folio. -/
  closed : (t.outcome e).propagation.reachability.isClosed = true →
    d.folios = [] ∨ 2 ≤ (t.sorting e).partition.restricted.size

namespace TableDocuments

variable {d : TableDocuments} {t : Tables} {e : Entry} {m : String}

theorem Describes.spread_folios (h : d.Describes t) (counted : d.spreads = none) (m : String) :
    t.spreads.spread m = t.folios.folios.countP fun f ↦ decide (m ∈ f.vocabulary) := by
  have derived : t.spreads = .derive t.folios := by rw [h.spreads, counted, Option.elim_none]
  rw [derived, SpreadTable.spread_derive]

/-- The spread counted over folios is counted over rows. -/
theorem Describes.spread_rows (h : d.Describes t) (counted : d.spreads = none) (m : String) :
    t.spreads.spread m = d.folios.countP fun f ↦ decide (m ∈ f.vocabulary) := by
  rw [h.spread_folios counted, h.folios_eq, List.countP_map]
  simp only [Function.comp_def, FolioDocument.mem_vocabulary_toFolio]

theorem Describes.unknown_iff (h : d.Describes t) (counted : d.spreads = none) :
    t.middleClass m = .unknown ↔ ∀ f ∈ d.folios, m ∉ f.vocabulary := by
  rw [Tables.middleClass, SpreadTable.classOf, MiddleClass.ofSpread_eq_unknown_iff,
    h.spread_rows counted, List.countP_eq_zero]
  simp only [decide_eq_true_eq]

/-- Restricted is a middle that some folio lists, but not too many. -/
theorem Describes.restricted_iff (h : d.Describes t) :
    t.middleClass m = .restricted ↔
      1 ≤ t.spreads.spread m ∧ t.spreads.spread m ≤ d.settings.restrictedSpread := by
  rw [Tables.middleClass, SpreadTable.classOf, MiddleClass.ofSpread_eq_restricted_iff,
    h.restrictedSpread]

/-- The compatible folios are at most as many as the spread of a restricted middle, and this is at
most the bound. -/
theorem Describes.compatibleCount_le (h : d.Describes t) (counted : d.spreads = none)
    (hm : m ∈ t.restricted e) :
    t.compatibleCount e ≤ t.spreads.spread m ∧
      t.spreads.spread m ≤ d.settings.restrictedSpread := by
  refine ⟨?_, (h.restricted_iff.1 (Tables.mem_restricted.1 hm).2).2⟩
  rw [h.spread_folios counted]
  exact FolioCatalog.length_compatible_le hm

/-- Compatible with a single restricted middle are the folios that list it. -/
theorem Describes.compatible_single (h : d.Describes t) (single : t.restricted e = .ofList [m]) :
    (t.outcome e).propagation.compatible =
      (d.folios.filter fun f ↦ decide (m ∈ f.vocabulary)).map FolioDocument.id := by
  rw [Tables.propagation_outcome, Tables.propagate_compatible, single,
    FolioCatalog.compatible_singleton, h.folios_eq, List.filter_map, List.map_map]
  simp only [Function.comp_def, FolioDocument.mem_vocabulary_toFolio]
  rfl

/-- Some folio lists a restricted middle, so a single one leaves the entry open. -/
theorem Describes.compatibleCount_ne_zero (h : d.Describes t) (counted : d.spreads = none)
    (single : t.restricted e = .ofList [m]) : t.compatibleCount e ≠ 0 := by
  have restricted : m ∈ t.restricted e := by simp [single]
  have positive := (h.restricted_iff.1 (Tables.mem_restricted.1 restricted).2).1
  rw [h.spread_folios counted, List.countP_eq_length_filter] at positive
  rw [Tables.compatibleCount, single, FolioCatalog.compatible_singleton]
  omega

theorem Describes.compatible_none (h : d.Describes t) (none : t.restricted e = ∅) :
    (t.outcome e).propagation.compatible = d.folios.map FolioDocument.id := by
  rw [Tables.propagation_outcome, Tables.propagate_compatible, none,
    FolioCatalog.compatible_empty, h.folios_eq, List.map_map]
  rfl

/-- Counted spreads bound the compatible folios of every entry. -/
theorem Describes.counted (h : d.Describes t) (counted : d.spreads = .none) (e : Entry) :
    d.Counted t e where
  spread := fun m _ ↦ h.spread_rows counted m
  unknown := fun m hm ↦ by rw [Tables.mem_unknown, h.unknown_iff counted, and_iff_right hm]
  compatible := fun m hm ↦ by
    rw [Tables.length_compatible_outcome]
    exact h.compatibleCount_le counted hm
  single := fun m single ↦ by
    refine ⟨h.compatible_single single, ?_⟩
    rw [Tables.isClosed_outcome]
    exact decide_eq_false (h.compatibleCount_ne_zero counted single)
  none := h.compatible_none
  closed := fun closed ↦ by
    rw [Tables.isClosed_outcome, decide_eq_true_eq] at closed
    by_contra! open_
    obtain ⟨folios, few⟩ := open_
    rcases SortedSet.eq_empty_or_singleton few with none | ⟨m, single⟩
    · have all := congrArg List.length (h.compatible_none none)
      rw [Tables.length_compatible_outcome, closed, List.length_map] at all
      exact folios (List.length_eq_zero_iff.1 all.symm)
    · exact h.compatibleCount_ne_zero counted single closed

/-- An entry has no more compatible folios than the bound on spreads, or all of them. -/
theorem Describes.compatibleCount_le_or (h : d.Describes t) (counted : d.spreads = none)
    (e : Entry) :
    t.compatibleCount e ≤ d.settings.restrictedSpread ∨ t.compatibleCount e = d.folios.length := by
  by_cases none : t.restricted e = ∅
  · right
    rw [← Tables.length_compatible_outcome, h.compatible_none none, List.length_map]
  · left
    obtain ⟨m, hm⟩ : ∃ m, m ∈ t.restricted e := by
      by_contra! empty
      exact none (SortedSet.ext_mem fun m ↦
        ⟨fun hm ↦ absurd hm (empty m), fun hm ↦ absurd hm (SortedSet.not_mem_empty m)⟩)
    obtain ⟨count, spread⟩ := h.compatibleCount_le counted hm
    exact Nat.le_trans count spread

/-- **Counted spreads let restricted middles bound the compatible folios.**  The bound holds of
every entry, and of every key in the histogram of a batch, unless the key stands for all folios. -/
theorem build_counted {d : TableDocuments} {t : Tables} (h : d.build = .ok t)
    (counted : d.spreads = none) :
    (∀ e, d.Counted t e) ∧
      ∀ shared entries,
        ∀ n ∈ (t.summary (t.run shared entries).outcomes).compatibleHistogram.keys,
          n ≤ d.settings.restrictedSpread ∨ n = d.folios.length := by
  have described := describes_of_build h
  refine ⟨described.counted counted, fun shared entries n hn ↦ ?_⟩
  rw [Tables.outcomes_run, Tables.compatibleHistogram_summary, mem_keys_histogram] at hn
  obtain ⟨e, -, rfl⟩ := List.mem_map.1 hn
  exact described.compatibleCount_le_or counted e

end TableDocuments

/-- The entry with the middles `a` and `b`, both on one sample folio each, is closed; the entry
with `a` alone stands on one folio, which the histogram counts. -/
theorem build_counted_sample :
    sampleDocuments.build = .ok sampleTables ∧ sampleDocuments.spreads = none ∧
      sampleDocuments.Counted sampleTables ⟨"e2", ["qob", "x", "qoa"]⟩ ∧
      (sampleTables.outcome ⟨"e2", ["qob", "x", "qoa"]⟩).propagation.reachability.isClosed = true ∧
      (sampleTables.sorting ⟨"e2", ["qob", "x", "qoa"]⟩).partition.restricted = .ofList ["a", "b"] ∧
      (sampleTables.outcome ⟨"e1", ["qoa"]⟩).propagation.compatible = ["f1"] ∧
      ∀ n ∈ (sampleTables.summary (sampleTables.run true
          [⟨"e1", ["qoa"]⟩, ⟨"e2", ["qob", "x", "qoa"]⟩]).outcomes).compatibleHistogram.keys,
        n ≤ 1 ∨ n = 2 := by
  have built : sampleDocuments.build = .ok sampleTables := eq_ok_get sampleDocuments_accepted
  obtain ⟨entries, batches⟩ := TableDocuments.build_counted built rfl
  exact ⟨built, rfl, entries _, by decide +kernel, by decide +kernel, by decide +kernel,
    batches true _⟩

end ManuscriptReach
