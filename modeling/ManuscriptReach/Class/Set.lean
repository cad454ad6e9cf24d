import ManuscriptReach.Class.Id

/-!
# Sets of instruction classes

A `ClassSet` is a word with one bit for each class, at the place of the class's
number.  A word has more bits than there are classes.  Sets never have one of those
that stand for no class, so that questions to the word as a whole, such as how many
bits it has, are answered for the members: the empty word is the empty set, and two
sets with the same members are equal.
-/

namespace ManuscriptReach

/-- A word of bits at the places of class numbers. -/
abbrev ClassWord := BitVec 64

/-- The word with the bit of one class. -/
def ClassId.bit (c : ClassId) : ClassWord := 1#64 <<< c.number

namespace ClassWord

/-- The word with the bits of all classes. -/
def full : ClassWord := ((1#64 <<< classCount) - 1#64) <<< 1

/-- Every bit of the word stands for a class. -/
def IsProper (w : ClassWord) : Prop := ∀ i, w.getLsbD i = true → 1 ≤ i ∧ i ≤ classCount

end ClassWord

/-! ## Bits of words -/

namespace ClassId

variable {c d : ClassId}

theorem number_lt (c : ClassId) : c.number < 64 := Nat.lt_of_le_of_lt c.number_le (by decide)

@[simp] theorem getLsbD_bit {i : Nat} : c.bit.getLsbD i = decide (c.number = i) := by
  have places : c.bit = BitVec.twoPow 64 c.number := rfl
  rw [places, BitVec.getLsbD_twoPow, decide_eq_true c.number_lt, Bool.true_and]

/-- A word has the bit of a class when the bit does not vanish from it. -/
theorem and_bit_ne_iff {w : ClassWord} : w &&& c.bit ≠ 0#64 ↔ w.getLsbD c.number = true := by
  have meet (i : Nat) : (w &&& c.bit).getLsbD i = (w.getLsbD i && decide (c.number = i)) := by
    rw [BitVec.getLsbD_and, getLsbD_bit]
  constructor
  · intro ne
    refine Decidable.byContradiction fun absent ↦ ne ?_
    refine BitVec.eq_of_getLsbD_eq fun i _ ↦ ?_
    rw [meet, BitVec.getLsbD_zero]
    by_cases here : c.number = i
    · subst here
      simp [absent]
    · simp [here]
  · intro present vanishes
    have bit := meet c.number
    rw [vanishes] at bit
    simp [present] at bit

end ClassId

namespace ClassWord

theorem getLsbD_full {i : Nat} : full.getLsbD i = decide (1 ≤ i ∧ i ≤ classCount) := by
  by_cases inside : i < 64
  · have bits : ∀ i : Fin 64, full.getLsbD i = decide (1 ≤ i.val ∧ i.val ≤ classCount) := by decide
    exact bits ⟨i, inside⟩
  · have outside : ¬ (1 ≤ i ∧ i ≤ classCount) := fun h ↦
      inside (Nat.lt_of_le_of_lt h.2 (by decide))
    rw [BitVec.getLsbD_of_ge _ _ (Nat.le_of_not_lt inside), decide_eq_false outside]

variable {w v : ClassWord}

theorem isProper_zero : IsProper 0#64 := by
  intro i h
  rw [BitVec.getLsbD_zero] at h
  cases h

theorem isProper_full : IsProper full := by
  intro i h
  rw [getLsbD_full] at h
  exact of_decide_eq_true h

theorem isProper_bit (c : ClassId) : IsProper c.bit := by
  intro i h
  rw [ClassId.getLsbD_bit] at h
  rw [← of_decide_eq_true h]
  exact ⟨c.one_le_number, c.number_le⟩

theorem IsProper.or (hw : w.IsProper) (hv : v.IsProper) : IsProper (w ||| v) := by
  intro i h
  rw [BitVec.getLsbD_or, Bool.or_eq_true] at h
  exact h.elim (hw i) (hv i)

/-- Taking bits away leaves no others. -/
theorem IsProper.and (hw : w.IsProper) (v : ClassWord) : IsProper (w &&& v) := by
  intro i h
  rw [BitVec.getLsbD_and, Bool.and_eq_true] at h
  exact hw i h.1

end ClassWord

/-! ## Sets -/

/-- A set of instruction classes, one bit a class. -/
structure ClassSet where
  /-- The bit at a class's number tells whether the class is a member. -/
  word : ClassWord
  /-- No other bit is set. -/
  proper : word.IsProper
deriving DecidableEq

namespace ClassSet

instance : Membership ClassId ClassSet := ⟨fun s c ↦ s.word &&& c.bit ≠ 0#64⟩

instance (c : ClassId) (s : ClassSet) : Decidable (c ∈ s) :=
  inferInstanceAs (Decidable (s.word &&& c.bit ≠ 0#64))

theorem mem_def {c : ClassId} {s : ClassSet} : c ∈ s ↔ s.word.getLsbD c.number = true :=
  ClassId.and_bit_ne_iff

/-- Every bit of a set is that of a member. -/
theorem exists_of_getLsbD {s : ClassSet} {i : Nat} (h : s.word.getLsbD i = true) :
    ∃ c ∈ s, c.number = i := by
  obtain ⟨c, rfl⟩ := ClassId.exists_number (s.proper i h)
  exact ⟨c, mem_def.2 h, rfl⟩

theorem word_inj {s t : ClassSet} : s.word = t.word ↔ s = t := by
  constructor
  · intro h
    cases s
    cases t
    cases h
    rfl
  · exact congrArg word

/-- Sets with the same members are equal. -/
@[ext] theorem ext {s t : ClassSet} (h : ∀ c : ClassId, c ∈ s ↔ c ∈ t) : s = t := by
  refine word_inj.1 (BitVec.eq_of_getLsbD_eq fun i _ ↦ Bool.eq_iff_iff.2 ?_)
  constructor <;> intro bit
  · obtain ⟨c, hc, rfl⟩ := exists_of_getLsbD bit
    exact mem_def.1 ((h c).1 hc)
  · obtain ⟨c, hc, rfl⟩ := exists_of_getLsbD bit
    exact mem_def.1 ((h c).2 hc)

/-- The set without members. -/
def empty : ClassSet := ⟨0#64, ClassWord.isProper_zero⟩

instance : EmptyCollection ClassSet := ⟨empty⟩

@[simp] theorem not_mem_empty (c : ClassId) : c ∉ (∅ : ClassSet) := by
  intro h
  have bit : (0#64).getLsbD c.number = true := mem_def.1 h
  rw [BitVec.getLsbD_zero] at bit
  cases bit

/-- The set of all classes. -/
def full : ClassSet := ⟨.full, ClassWord.isProper_full⟩

@[simp] theorem mem_full (c : ClassId) : c ∈ full := by
  rw [mem_def]
  exact ClassWord.getLsbD_full.trans (decide_eq_true ⟨c.one_le_number, c.number_le⟩)

/-- The members of either set. -/
def union (s t : ClassSet) : ClassSet := ⟨s.word ||| t.word, s.proper.or t.proper⟩

instance : Union ClassSet := ⟨union⟩

@[simp] theorem mem_union {c : ClassId} {s t : ClassSet} : c ∈ s ∪ t ↔ c ∈ s ∨ c ∈ t := by
  have word : (s ∪ t).word = s.word ||| t.word := rfl
  simp [mem_def, word]

/-- The members of the first set that are not members of the second. -/
def sdiff (s t : ClassSet) : ClassSet := ⟨s.word &&& ~~~t.word, s.proper.and _⟩

instance : SDiff ClassSet := ⟨sdiff⟩

@[simp] theorem mem_sdiff {c : ClassId} {s t : ClassSet} : c ∈ s \ t ↔ c ∈ s ∧ c ∉ t := by
  have word : (s \ t).word = s.word &&& ~~~t.word := rfl
  simp [mem_def, word, c.number_lt]

/-- Adds one class. -/
def insert (c : ClassId) (s : ClassSet) : ClassSet :=
  ⟨s.word ||| c.bit, s.proper.or (ClassWord.isProper_bit c)⟩

@[simp] theorem mem_insert {c d : ClassId} {s : ClassSet} : d ∈ s.insert c ↔ d ∈ s ∨ d = c := by
  simp only [mem_def, insert, BitVec.getLsbD_or, ClassId.getLsbD_bit, Bool.or_eq_true,
    decide_eq_true_eq, ClassId.number_inj]
  exact or_congr_right eq_comm

/-- Takes one class out. -/
def erase (c : ClassId) (s : ClassSet) : ClassSet := ⟨s.word &&& ~~~c.bit, s.proper.and _⟩

@[simp] theorem mem_erase {c d : ClassId} {s : ClassSet} : d ∈ s.erase c ↔ d ∈ s ∧ d ≠ c := by
  simp only [mem_def, erase, BitVec.getLsbD_and, BitVec.getLsbD_not, d.number_lt,
    ClassId.getLsbD_bit, decide_true, Bool.true_and, Bool.and_eq_true, Bool.not_eq_true',
    decide_eq_false_iff_not, ClassId.number_inj]
  exact and_congr_right fun _ ↦ ne_comm

instance : HasSubset ClassSet := ⟨fun s t ↦ s.word &&& ~~~t.word = 0#64⟩

instance (s t : ClassSet) : Decidable (s ⊆ t) :=
  inferInstanceAs (Decidable (s.word &&& ~~~t.word = 0#64))

/-- One set is contained in another when each of its members is a member of the other. -/
theorem subset_iff {s t : ClassSet} : s ⊆ t ↔ ∀ c ∈ s, c ∈ t := by
  have word : s ⊆ t ↔ (s \ t).word = (∅ : ClassSet).word := Iff.rfl
  rw [word, word_inj, ClassSet.ext_iff]
  simp only [mem_sdiff, not_mem_empty, iff_false, not_and, Decidable.not_not]

theorem Subset.refl (s : ClassSet) : s ⊆ s := subset_iff.2 fun _ h ↦ h

theorem Subset.trans {s t u : ClassSet} (h : s ⊆ t) (h' : t ⊆ u) : s ⊆ u :=
  subset_iff.2 fun c hc ↦ subset_iff.1 h' c (subset_iff.1 h c hc)

/-- The classes of a list; order and repetition do not matter. -/
def ofList (cs : List ClassId) : ClassSet := cs.foldl (fun s c ↦ s.insert c) ∅

theorem mem_foldl_insert {cs : List ClassId} {s : ClassSet} {c : ClassId} :
    c ∈ cs.foldl (fun s c ↦ s.insert c) s ↔ c ∈ s ∨ c ∈ cs := by
  induction cs generalizing s with
  | nil => simp
  | cons d cs ih => simp [ih, or_assoc]

@[simp] theorem mem_ofList {cs : List ClassId} {c : ClassId} : c ∈ ofList cs ↔ c ∈ cs := by
  simp [ofList, mem_foldl_insert]

/-- The members in ascending order. -/
def toList (s : ClassSet) : List ClassId := ClassId.all.filter fun c ↦ decide (c ∈ s)

@[simp] theorem mem_toList {c : ClassId} {s : ClassSet} : c ∈ s.toList ↔ c ∈ s := by
  simp [toList]

@[simp] theorem ofList_toList (s : ClassSet) : ofList s.toList = s := by ext c; simp

/-- The number of members: how many bits of the word are set. -/
def size (s : ClassSet) : Nat := s.word.cpop.toNat

/-- Whether the set has no member. -/
def isEmpty (s : ClassSet) : Bool := s.word == 0#64

/-- The classes of a list of numbers, or the first number that names no class. -/
def ofNumbers : List Nat → Except Nat ClassSet
  | ns => ofList <$> ns.mapM fun n ↦ (ClassId.ofNat? n).elim (.error n) .ok

/-- The members in braces, as in `{1, 2}`. -/
def display (s : ClassSet) : String :=
  "\x7b" ++ ", ".intercalate (s.toList.map fun c ↦ toString c.number) ++ "\x7d"

end ClassSet

end ManuscriptReach
