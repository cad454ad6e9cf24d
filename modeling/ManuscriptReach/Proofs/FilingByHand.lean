import Mathlib.Data.Finset.Card
import ManuscriptReach.Proofs.Filing

/-!
# Filing by hand

Filing a middle leaves what was filed before, so a middle can end up under several classes when
no function gives the classes.  The partition then remembers which middles were filed under which
classes, and nothing else: not in which order, and not how often (`Partition.ofFilings_inj`).

A middle under two classes is counted twice, and looking up its class shows only the first.  The
overlap of the parts is therefore what the sizes tell (`Partition.isDisjoint_iff_size`): the three
parts together have as many members as their union exactly when no two of them meet.
-/

namespace ManuscriptReach

/-! ## Sizes of unions -/

namespace SortedSet

/-- The members as a finite set. -/
def toFinset (s : StringSet) : Finset String := s.toList.toFinset

variable {s t : StringSet}

theorem mem_toFinset {x : String} : x ∈ s.toFinset ↔ x ∈ s := List.mem_toFinset

theorem card_toFinset (s : StringSet) : s.toFinset.card = s.size := by
  apply List.toFinset_card_of_nodup
  apply s.sorted.imp
  rintro x y below rfl
  exact String.lt_irrefl x below

theorem toFinset_union (s t : StringSet) : (s ∪ t).toFinset = s.toFinset ∪ t.toFinset := by
  ext x
  rw [Finset.mem_union, mem_toFinset, mem_toFinset, mem_toFinset, mem_union]

theorem size_union_le (s t : StringSet) : (s ∪ t).size ≤ s.size + t.size := by
  rw [← card_toFinset, ← card_toFinset, ← card_toFinset, toFinset_union]
  exact Finset.card_union_le _ _

/-- Two sets are disjoint when no member of their union is counted twice. -/
theorem disjoint_iff_size_union : s.Disjoint t ↔ (s ∪ t).size = s.size + t.size := by
  rw [← card_toFinset, ← card_toFinset, ← card_toFinset, toFinset_union,
    Finset.card_union_eq_card_add_card, Finset.disjoint_left, disjoint_def]
  simp only [mem_toFinset]

theorem disjoint_union_left {u : StringSet} :
    (s ∪ t).Disjoint u ↔ s.Disjoint u ∧ t.Disjoint u := by
  simp only [disjoint_def, mem_union, or_imp, forall_and]

theorem size_eq_zero_iff : s.size = 0 ↔ s = ∅ := by
  rw [size, List.length_eq_zero_iff, ← List.isEmpty_iff]
  exact isEmpty_iff

end SortedSet

namespace Partition

variable {p : Partition} {m : String} {c : MiddleClass}
variable {filings others : List (String × MiddleClass)}

/-- No two parts meet when together they have as many members as their union.  A union is at most
as large as its parts together, so both unions have to be disjoint. -/
theorem isDisjoint_iff_size : p.isDisjoint = true ↔ p.size = p.all.size := by
  have first := SortedSet.size_union_le p.restricted p.universal
  have second := SortedSet.size_union_le (p.restricted ∪ p.universal) p.unknown
  have apart : p.isDisjoint = true ↔
      p.restricted.Disjoint p.universal ∧ (p.restricted ∪ p.universal).Disjoint p.unknown := by
    rw [isDisjoint, Bool.and_eq_true, Bool.and_eq_true, decide_eq_true_eq, decide_eq_true_eq,
      decide_eq_true_eq, SortedSet.disjoint_union_left, and_assoc]
  rw [apart, SortedSet.disjoint_iff_size_union, SortedSet.disjoint_iff_size_union, size, all]
  omega

theorem isEmpty_iff_all : p.isEmpty = true ↔ p.all = ∅ := by
  have parts : p.isEmpty = true ↔ p.restricted = ∅ ∧ p.universal = ∅ ∧ p.unknown = ∅ := by
    rw [isEmpty, beq_iff_eq, size, ← SortedSet.size_eq_zero_iff, ← SortedSet.size_eq_zero_iff,
      ← SortedSet.size_eq_zero_iff]
    omega
  rw [parts]
  constructor
  · rintro ⟨restricted, universal, unknown⟩
    rw [all, restricted, universal, unknown]
    rfl
  · intro none
    have unfiled (c : MiddleClass) : p.part c = ∅ := by
      apply SortedSet.ext_mem
      intro m
      refine iff_of_false (fun hc ↦ SortedSet.not_mem_empty m ?_) (SortedSet.not_mem_empty m)
      rw [← none]
      exact mem_all_iff.2 ⟨c, hc⟩
    exact ⟨unfiled .restricted, unfiled .universal, unfiled .unknown⟩

/-! ## Runs of filings -/

/-- Files middles under classes, one after the other. -/
def fileAll (p : Partition) (filings : List (String × MiddleClass)) : Partition :=
  filings.foldl (fun p f ↦ p.insert f.1 f.2) p

/-- The partition after some filings, from the one that files nothing. -/
def ofFilings (filings : List (String × MiddleClass)) : Partition := fileAll ∅ filings

/-- A middle is filed under a class when it was before or when one of the filings says so. -/
theorem mem_part_fileAll :
    m ∈ (p.fileAll filings).part c ↔ (m, c) ∈ filings ∨ m ∈ p.part c := by
  induction filings generalizing p with
  | nil => exact (or_iff_right List.not_mem_nil).symm
  | cons f filings ih =>
    obtain ⟨x, d⟩ := f
    change m ∈ ((p.insert x d).fileAll filings).part c ↔ _
    rw [ih, mem_part_insert, List.mem_cons, Prod.mk.injEq, eq_comm (a := d)]
    tauto

theorem mem_part_ofFilings : m ∈ (ofFilings filings).part c ↔ (m, c) ∈ filings :=
  mem_part_fileAll.trans (or_iff_left (not_mem_part_empty c m))

theorem all_ofFilings (filings : List (String × MiddleClass)) :
    (ofFilings filings).all = .ofList (filings.map Prod.fst) := by
  apply SortedSet.ext_mem
  intro m
  rw [mem_all_iff, SortedSet.mem_ofList, List.mem_map]
  constructor
  · rintro ⟨c, hc⟩
    exact ⟨(m, c), mem_part_ofFilings.1 hc, rfl⟩
  · rintro ⟨⟨x, c⟩, hx, rfl⟩
    exact ⟨c, mem_part_ofFilings.2 hx⟩

/-- The order of filings and their repetition do not matter, and nothing else is forgotten. -/
theorem ofFilings_inj :
    ofFilings others = ofFilings filings ↔ ∀ f, f ∈ others ↔ f ∈ filings := by
  constructor
  · rintro same ⟨m, c⟩
    rw [← mem_part_ofFilings, same, mem_part_ofFilings]
  · intro same
    apply ext_part
    intro c m
    rw [mem_part_ofFilings, mem_part_ofFilings]
    exact same (m, c)

/-- A partition answers for the filings that it was filled with. -/
structure Records (p : Partition) (filings : List (String × MiddleClass)) : Prop where
  all : p.all = .ofList (filings.map Prod.fst)
  /-- A middle is found under the first class, in their order, under which it was ever filed. -/
  classOf? : ∀ m, p.classOf? m = MiddleClass.all.find? fun c ↦ decide ((m, c) ∈ filings)
  unfiled : ∀ m, p.classOf? m = none ↔ ∀ c, (m, c) ∉ filings
  /-- The parts are disjoint when no middle was filed under two classes, -/
  disjoint : p.isDisjoint = true ↔
    ∀ m c d, (m, c) ∈ filings → (m, d) ∈ filings → c = d
  /-- which the sizes tell as well. -/
  size : p.isDisjoint = true ↔ p.size = p.all.size
  isEmpty : p.isEmpty = true ↔ filings = []
  /-- Other filings give the same partition when they are the same in some order, with or without
  repetitions. -/
  filled : ∀ others, ofFilings others = p ↔ ∀ f, f ∈ others ↔ f ∈ filings

/-- **Filing by hand is recorded.**  After any sequence of filings the partition answers as the
filings say: which middles were filed, under which class each is found, whether one was filed under
two classes, and whether there was any. -/
theorem ofFilings_records (filings : List (String × MiddleClass)) :
    (ofFilings filings).Records filings where
  all := all_ofFilings filings
  classOf? m := by
    rw [classOf?_eq_find?]
    simp only [mem_part_ofFilings]
  unfiled m := by
    rw [classOf?_eq_none_iff, mem_all_iff, not_exists]
    simp only [mem_part_ofFilings]
  disjoint := by
    rw [isDisjoint_iff]
    simp only [mem_part_ofFilings]
  size := isDisjoint_iff_size
  isEmpty := by
    rw [isEmpty_iff_all, all_ofFilings, SortedSet.ofList_eq_empty_iff, List.map_eq_nil_iff]
  filled _ := ofFilings_inj

/-- A middle under two classes is counted twice and found under the first. -/
example : (ofFilings [("a", .unknown), ("b", .unknown), ("a", .universal)]).size = 3 ∧
    (ofFilings [("a", .unknown), ("b", .unknown), ("a", .universal)]).classOf? "a" =
      some .universal := by
  decide +kernel

end Partition

end ManuscriptReach
