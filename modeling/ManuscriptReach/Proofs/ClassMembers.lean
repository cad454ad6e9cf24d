import Mathlib.Data.Finset.Sort
import Mathlib.Order.Interval.Finset.Nat
import ManuscriptReach.Class.Codec
import ManuscriptReach.Proofs.ClassIndex
import ManuscriptReach.Proofs.Json.Record

/-!
# Words of class bits as finite sets

A set of classes is a word of 64 bits, of which 15 stand for no class.  Some questions are put to
the word as a whole: how many bits it has, whether it vanishes, whether another word covers it.
Others read only the bits of classes.  `ClassSet.Represents` says that all answers are those of one
finite set of numbers.

A set comes about by a `ClassSet.Run` of operations, and each operation is followed on finite sets.
The lemmas on single operations take the representation through one step, `Run.represents` through
a whole run.
-/

namespace ManuscriptReach

/-- The bits of a word are counted one by one. -/
theorem ClassWord.toNat_cpop (w : ClassWord) : w.cpop.toNat = (List.range 64).countP w.getLsbD := by
  suffices h : ∀ n, w.cpopNatRec n 0 = (List.range n).countP w.getLsbD from
    (BitVec.toNat_cpop w).trans (h 64)
  intro n
  induction n with
  | zero => rfl
  | succ n ih =>
    rw [BitVec.cpopNatRec_succ, BitVec.cpopNatRec_eq, ih, List.range_succ, List.countP_append,
      List.countP_singleton]
    cases w.getLsbD n <;> simp

namespace ClassId

theorem number_mem_Icc (c : ClassId) : c.number ∈ Finset.Icc 1 classCount :=
  Finset.mem_Icc.2 ⟨c.one_le_number, c.number_le⟩

/-- Numbers in range are the numbers of some classes. -/
theorem exists_map_number {ns : List ℕ} (h : ∀ n ∈ ns, n ∈ Finset.Icc 1 classCount) :
    ∃ cs : List ClassId, cs.map number = ns := by
  have range : ns ∈ Set.range (List.map number) := by
    rw [Set.range_list_map]
    exact fun n hn ↦ exists_number (Finset.mem_Icc.1 (h n hn))
  exact range

end ClassId

namespace ClassSet

variable {s t : ClassSet} {m n : Finset ℕ} {i : ℕ}

/-! ## The numbers of a set -/

/-- The places of the bits of a set. -/
def numbers (s : ClassSet) : Finset ℕ := (Finset.range 64).filter fun i ↦ s.word.getLsbD i = true

theorem mem_numbers : i ∈ s.numbers ↔ s.word.getLsbD i = true := by
  rw [numbers, Finset.mem_filter, Finset.mem_range, and_iff_right_iff_imp]
  exact BitVec.lt_of_getLsbD

theorem number_mem_numbers {c : ClassId} : c.number ∈ s.numbers ↔ c ∈ s :=
  mem_numbers.trans mem_def.symm

/-- Every bit is that of a member. -/
theorem exists_of_mem_numbers (h : i ∈ s.numbers) : ∃ c ∈ s, c.number = i :=
  exists_of_getLsbD (mem_numbers.1 h)

theorem numbers_subset (s : ClassSet) : s.numbers ⊆ Finset.Icc 1 classCount := by
  intro i hi
  obtain ⟨c, -, rfl⟩ := exists_of_mem_numbers hi
  exact c.number_mem_Icc

theorem numbers_inj : s.numbers = t.numbers ↔ s = t := by
  constructor
  · intro h
    ext c
    rw [← number_mem_numbers, h, number_mem_numbers]
  · exact congrArg numbers

theorem subset_iff_numbers : s ⊆ t ↔ s.numbers ⊆ t.numbers := by
  rw [subset_iff]
  constructor
  · intro h i hi
    obtain ⟨c, hc, rfl⟩ := exists_of_mem_numbers hi
    exact number_mem_numbers.2 (h c hc)
  · exact fun h c hc ↦ number_mem_numbers.1 (h (number_mem_numbers.2 hc))

theorem isEmpty_iff_numbers : s.isEmpty = true ↔ s.numbers = ∅ := by
  have word : s.isEmpty = true ↔ s.word = (∅ : ClassSet).word := beq_iff_eq
  have none : (∅ : ClassSet).numbers = ∅ := by
    rw [Finset.eq_empty_iff_forall_notMem]
    intro i hi
    obtain ⟨c, hc, -⟩ := exists_of_mem_numbers hi
    exact not_mem_empty c hc
  rw [word, word_inj, ← none, numbers_inj]

theorem size_eq_card (s : ClassSet) : s.size = s.numbers.card := by
  rw [size, ClassWord.toNat_cpop, List.countP_eq_length_filter,
    ← List.toFinset_card_of_nodup (List.nodup_range.filter _), List.toFinset_filter,
    List.toFinset_range]
  rfl

/-- The members are listed in ascending order, and each once. -/
theorem map_number_toList (s : ClassSet) : s.toList.map ClassId.number = s.numbers.sort := by
  have ascends : (s.toList.map ClassId.number).Pairwise (· < ·) := by
    rw [List.pairwise_map]
    exact ClassId.pairwise_number_all.filter _
  have members : (s.toList.map ClassId.number).toFinset = s.numbers := by
    ext i
    rw [List.mem_toFinset, List.mem_map]
    constructor
    · rintro ⟨c, hc, rfl⟩
      exact number_mem_numbers.2 (mem_toList.1 hc)
    · intro hi
      obtain ⟨c, hc, rfl⟩ := exists_of_mem_numbers hi
      exact ⟨c, mem_toList.2 hc, rfl⟩
  rw [← members, (List.toFinset_sort _ (ascends.imp Nat.ne_of_lt)).2 (ascends.imp Nat.le_of_lt)]

theorem length_toList (s : ClassSet) : s.toList.length = s.size := by
  rw [← List.length_map ClassId.number, map_number_toList, Finset.length_sort, size_eq_card]

/-! ## Representation -/

/-- A set of classes stands for a finite set of numbers. -/
structure Represents (s : ClassSet) (m : Finset ℕ) : Prop where
  /-- The numbers are those of classes. -/
  within : m ⊆ Finset.Icc 1 classCount
  /-- The word has bits at these numbers, and at no other place. -/
  bits : ∀ i, s.word.getLsbD i = true ↔ i ∈ m
  contains : ∀ c, c ∈ s ↔ c.number ∈ m
  isEmpty : s.isEmpty = true ↔ m = ∅
  size : s.size = m.card
  /-- The members are listed once each, in ascending order. -/
  listed : s.toList.map ClassId.number = m.sort
  length : s.toList.length = s.size

theorem represents_numbers (s : ClassSet) : s.Represents s.numbers where
  within := s.numbers_subset
  bits _ := mem_numbers.symm
  contains _ := number_mem_numbers.symm
  isEmpty := isEmpty_iff_numbers
  size := s.size_eq_card
  listed := s.map_number_toList
  length := s.length_toList

namespace Represents

theorem numbers_eq (h : s.Represents m) : s.numbers = m := by
  ext i
  rw [mem_numbers, h.bits]

/-- The members determine all the rest. -/
theorem of_contains (within : m ⊆ Finset.Icc 1 classCount)
    (contains : ∀ c, c ∈ s ↔ c.number ∈ m) : s.Represents m := by
  have same : s.numbers = m := by
    ext i
    constructor
    · intro hi
      obtain ⟨c, hc, rfl⟩ := exists_of_mem_numbers hi
      exact (contains c).1 hc
    · intro hi
      obtain ⟨c, rfl⟩ := ClassId.exists_number (Finset.mem_Icc.1 (within hi))
      exact number_mem_numbers.2 ((contains c).2 hi)
  exact same ▸ s.represents_numbers

/-! ## One operation -/

theorem empty : (∅ : ClassSet).Represents ∅ :=
  .of_contains (Finset.empty_subset _) (by simp)

theorem full : ClassSet.full.Represents (Finset.Icc 1 classCount) :=
  .of_contains (Finset.Subset.refl _) fun c ↦ iff_of_true (mem_full c) c.number_mem_Icc

theorem insert (hs : s.Represents m) (c : ClassId) :
    (s.insert c).Represents (Insert.insert c.number m) :=
  .of_contains (Finset.insert_subset c.number_mem_Icc hs.within) fun d ↦ by
    rw [mem_insert, Finset.mem_insert, hs.contains, ClassId.number_inj, or_comm]

theorem erase (hs : s.Represents m) (c : ClassId) : (s.erase c).Represents (m.erase c.number) :=
  .of_contains ((Finset.erase_subset _ _).trans hs.within) fun d ↦ by
    rw [mem_erase, Finset.mem_erase, hs.contains, Ne, Ne, ClassId.number_inj, and_comm]

theorem union (hs : s.Represents m) (ht : t.Represents n) : (s ∪ t).Represents (m ∪ n) :=
  .of_contains (Finset.union_subset hs.within ht.within) fun c ↦ by
    rw [mem_union, Finset.mem_union, hs.contains, ht.contains]

theorem sdiff (hs : s.Represents m) (ht : t.Represents n) : (s \ t).Represents (m \ n) :=
  .of_contains (Finset.sdiff_subset.trans hs.within) fun c ↦ by
    rw [mem_sdiff, Finset.mem_sdiff, hs.contains, ht.contains]

theorem ofList (cs : List ClassId) :
    (ClassSet.ofList cs).Represents (cs.map ClassId.number).toFinset := by
  refine .of_contains (fun i hi ↦ ?_) fun c ↦ ?_
  · obtain ⟨c, -, rfl⟩ := List.mem_map.1 (List.mem_toFinset.1 hi)
    exact c.number_mem_Icc
  · rw [mem_ofList, List.mem_toFinset, ClassId.mem_map_number_iff]

theorem getD {a : Option ClassSet} {b : Option (Finset ℕ)} (h : Option.Rel Represents a b)
    (otherwise : s.Represents m) : (a.getD s).Represents (b.getD m) := by
  cases h with
  | none => exact otherwise
  | some h => exact h

end Represents

end ClassSet

/-! ## Reading -/

section

variable {x : Json} {c : ClassId}

/-- A class is read from its number. -/
theorem ClassId.read?_eq_some_iff : ClassId.read? x = some c ↔ Node.natural? x = some c.number := by
  simp only [ClassId.read?, Node.natural32?, Option.bind_eq_some_iff, Option.filter_eq_some_iff,
    ClassId.ofNat?_eq_some_iff, decide_eq_true_eq]
  constructor
  · rintro ⟨n, ⟨number, -⟩, rfl⟩
    exact number
  · intro number
    have small : c.number < twoTo 32 := Nat.lt_of_lt_of_le c.number_lt (by decide)
    exact ⟨c.number, ⟨number, small⟩, rfl⟩

/-- What is not read as a class is not the number of one. -/
theorem ClassId.read?_eq_none_iff :
    ClassId.read? x = none ↔ ∀ n, Node.natural? x = some n → n ∉ Finset.Icc 1 classCount := by
  rw [Option.eq_none_iff_forall_ne_some]
  constructor
  · intro h n number range
    obtain ⟨c, rfl⟩ := ClassId.exists_number (Finset.mem_Icc.1 range)
    exact h c (ClassId.read?_eq_some_iff.2 number)
  · intro h c hc
    exact h c.number (ClassId.read?_eq_some_iff.1 hc) c.number_mem_Icc

theorem ClassId.mapM_read?_eq_some_iff {xs : List Json} {cs : List ClassId} :
    xs.mapM ClassId.read? = some cs ↔ xs.mapM Node.natural? = some (cs.map ClassId.number) := by
  induction xs generalizing cs with
  | nil => cases cs <;> simp
  | cons x xs ih =>
    simp only [List.mapM_cons, Option.bind_eq_bind, Option.bind_eq_some_iff, Option.pure_def,
      Option.some.injEq, ClassId.read?_eq_some_iff, ih]
    constructor
    · rintro ⟨c, hc, cs, hcs, rfl⟩
      exact ⟨c.number, hc, cs.map ClassId.number, hcs, rfl⟩
    · rintro ⟨n, hn, ns, hns, same⟩
      obtain ⟨c, cs, rfl, rfl, rfl⟩ := List.map_eq_cons_iff.1 same.symm
      exact ⟨c, hn, cs, hns, rfl⟩

end

namespace ClassSet

/-- The numbers in a JSON list, when all of them are numbers of classes. -/
def listed? (x : Json) : Option (Finset ℕ) := do
  let ns ← Node.list? Node.natural? x
  if ∀ n ∈ ns, n ∈ Finset.Icc 1 classCount then some ns.toFinset else none

/-- What is read stands for the numbers listed, and nothing is read when they are not all numbers
of classes. -/
theorem rel_read? (x : Json) : Option.Rel Represents (ClassSet.read? x) (listed? x) := by
  cases items : (Node.items? x : Option (List Json)) with
  | none => simp [ClassSet.read?, listed?, Node.list?, items]
  | some xs =>
    cases classes : xs.mapM ClassId.read? with
    | some cs =>
      have numbers := ClassId.mapM_read?_eq_some_iff.1 classes
      have range : ∀ n ∈ cs.map ClassId.number, n ∈ Finset.Icc 1 classCount :=
        List.forall_mem_map.2 fun c _ ↦ c.number_mem_Icc
      simp only [ClassSet.read?, listed?, Node.list?, items, Option.bind_eq_bind, Option.bind_some,
        classes, numbers, Option.map_some, if_pos range]
      exact .some (.ofList cs)
    | none =>
      have refused : listed? x = none := by
        simp only [listed?, Node.list?, items, Option.bind_eq_bind, Option.bind_some,
          Option.bind_eq_none_iff, ite_eq_right_iff, reduceCtorEq, imp_false]
        intro ns numbers range
        obtain ⟨cs, rfl⟩ := ClassId.exists_map_number range
        rw [ClassId.mapM_read?_eq_some_iff.2 numbers] at classes
        cases classes
      simp only [ClassSet.read?, refused, Node.list?, items, Option.bind_eq_bind, Option.bind_some,
        classes, Option.map_none]
      exact .none

/-- A text is refused unless it is a JSON list of numbers of classes. -/
theorem readAs?_ne_none_iff {text : String} :
    Json.readAs? ClassSet.read? text ≠ none ↔ ∃ xs, Json.read? text = some (.array xs) ∧
      ∀ x ∈ xs, ∃ n ∈ Finset.Icc 1 classCount, Node.natural? x = some n := by
  have item {x : Json} : ClassId.read? x ≠ none ↔
      ∃ n ∈ Finset.Icc 1 classCount, Node.natural? x = some n := by
    rw [Ne, ClassId.read?_eq_none_iff]
    push Not
    simp only [and_comm]
  have list (xs : List Json) : ClassSet.read? (Json.array xs) ≠ none ↔
      ∀ x ∈ xs, ClassId.read? x ≠ none := by
    have items : Node.list? ClassId.read? (Json.array xs) = xs.mapM ClassId.read? := rfl
    rw [read?, Ne, Option.map_eq_none_iff, items, mapM_eq_none_iff]
    push Not
    rfl
  simp only [← item, ← list]
  rw [Json.readAs?]
  constructor
  · intro h
    cases tree : Json.read? text with
    | none => exact absurd (by rw [tree]; rfl) h
    | some x =>
      rw [tree, Option.bind_some] at h
      cases x with
      | array xs => exact ⟨xs, rfl, h⟩
      | _ => exact absurd rfl h
  · rintro ⟨xs, tree, h⟩
    rw [tree]
    exact h

/-- A set reads back from its text. -/
theorem readAs?_compact (s : ClassSet) : Json.readAs? ClassSet.read? s.toJson.compact = some s := by
  have plain : Json.IsPlain s.toJson :=
    Json.isPlain_array_map (f := ClassId.toJson) (fun c ↦ Json.isPlain_ofNat c.number) s.toList
  have item (c : ClassId) : ClassId.read? c.toJson = some c :=
    ClassId.read?_eq_some_iff.2 (Json.natural?_ofNat (Nat.lt_trans c.number_lt (by decide)))
  rw [Json.readAs?, Json.read?_compact plain, Option.bind_some, read?, toJson,
    Json.list?_array fun c _ ↦ item c, Option.map_some, ofList_toList]

/-! ## Runs -/

/-- How a set of classes comes about. -/
inductive Run where
  | empty
  | full
  | insert (c : ClassId) (r : Run)
  | erase (c : ClassId) (r : Run)
  | union (r q : Run)
  | sdiff (r q : Run)
  /-- Collects a list of classes. -/
  | collect (cs : List ClassId)
  /-- Reads a JSON text in place of what was there, which stays if the text is refused. -/
  | load (text : String) (r : Run)

namespace Run

/-- The set that a run leads to. -/
def set : Run → ClassSet
  | empty => ∅
  | full => .full
  | insert c r => r.set.insert c
  | erase c r => r.set.erase c
  | union r q => r.set ∪ q.set
  | sdiff r q => r.set \ q.set
  | collect cs => .ofList cs
  | load text r => (Json.readAs? ClassSet.read? text).getD r.set

/-- The finite set of numbers that a run leads to. -/
def members : Run → Finset ℕ
  | empty => ∅
  | full => Finset.Icc 1 classCount
  | insert c r => Insert.insert c.number r.members
  | erase c r => r.members.erase c.number
  | union r q => r.members ∪ q.members
  | sdiff r q => r.members \ q.members
  | collect cs => (cs.map ClassId.number).toFinset
  | load text r => (Json.readAs? listed? text).getD r.members

/-- A text that is refused leaves what was there. -/
theorem represents_load {r : Run} (h : r.set.Represents r.members) (text : String) :
    (load text r).set.Represents (load text r).members := by
  rw [set, members, Json.readAs?, Json.readAs?]
  cases Json.read? text with
  | none => exact h
  | some x => exact Represents.getD (rel_read? x) h

/-- Whatever a run did, its set stands for the finite set that the same steps lead to. -/
theorem represents (r : Run) : r.set.Represents r.members := by
  induction r with
  | empty => exact .empty
  | full => exact .full
  | insert c r ih => exact ih.insert c
  | erase c r ih => exact ih.erase c
  | union r q ihr ihq => exact ihr.union ihq
  | sdiff r q ihr ihq => exact ihr.sdiff ihq
  | collect cs => exact .ofList cs
  | load text r ih => exact represents_load ih text

end Run

/-- **A set of classes is a finite set of numbers**, whatever run of operations it comes from: the
two agree on every question, also on those between two runs; a set reads back from its list and
from its JSON text; and a text is loaded exactly when it is a list of numbers of classes. -/
theorem run_represents (r q : Run) :
    r.set.Represents r.members ∧ (r.set ⊆ q.set ↔ r.members ⊆ q.members) ∧
      (r.set = q.set ↔ r.members = q.members) ∧ ofList r.set.toList = r.set ∧
      Json.readAs? ClassSet.read? r.set.toJson.compact = some r.set ∧
      ∀ text, Json.readAs? ClassSet.read? text ≠ none ↔ ∃ xs, Json.read? text = some (.array xs) ∧
        ∀ x ∈ xs, ∃ n ∈ Finset.Icc 1 classCount, Node.natural? x = some n := by
  have hr := r.represents.numbers_eq
  have hq := q.represents.numbers_eq
  refine ⟨r.represents, ?_, ?_, ofList_toList _, readAs?_compact _, fun _ ↦ readAs?_ne_none_iff⟩
  · rw [subset_iff_numbers, hr, hq]
  · rw [← numbers_inj, hr, hq]

end ClassSet

end ManuscriptReach
