/-!
# Instruction class numbers

Instruction classes are numbered from 1 to `classCount`.  A `ClassId` is one of
these numbers, so nothing downstream checks the range again.
-/

namespace ManuscriptReach

/-- How many instruction classes there are. -/
def classCount : Nat := 49

/-- An instruction class, by its zero-based place in the numbering. -/
@[ext]
structure ClassId where
  /-- The place of the class: one less than its number. -/
  index : Fin classCount
deriving DecidableEq

namespace ClassId

/-- The number by which documents and reports name the class. -/
def number (c : ClassId) : Nat := c.index + 1

/-- The class with a given number. -/
def ofNat? (n : Nat) : Option ClassId :=
  if h : 1 ≤ n ∧ n ≤ classCount then some ⟨⟨n - 1, by omega⟩⟩ else none

/-- Every class, in ascending order. -/
def all : List ClassId := (List.finRange classCount).map ClassId.mk

theorem one_le_number (c : ClassId) : 1 ≤ c.number := Nat.le_add_left ..

theorem number_le (c : ClassId) : c.number ≤ classCount := c.index.isLt

@[simp] theorem number_inj {c d : ClassId} : c.number = d.number ↔ c = d := by
  constructor
  · intro h
    exact ClassId.ext (Fin.ext (Nat.succ.inj h))
  · rintro rfl; rfl

theorem exists_number {n : Nat} (h : 1 ≤ n ∧ n ≤ classCount) : ∃ c : ClassId, c.number = n :=
  ⟨⟨⟨n - 1, by omega⟩⟩, Nat.sub_add_cancel h.1⟩

/-- A number names a class exactly when it is between 1 and `classCount`. -/
theorem ofNat?_eq_some_iff {n : Nat} {c : ClassId} : ofNat? n = some c ↔ c.number = n := by
  unfold ofNat?
  split
  next h =>
    rw [Option.some.injEq, ClassId.ext_iff, Fin.ext_iff]
    simp only [number]; omega
  next h =>
    have h1 := c.one_le_number; have h2 := c.number_le
    simp only [reduceCtorEq, false_iff]; omega

@[simp] theorem mem_all (c : ClassId) : c ∈ all :=
  List.mem_map.2 ⟨c.index, List.mem_finRange _, rfl⟩

@[simp] theorem length_all : all.length = classCount := by simp [all]

end ClassId

end ManuscriptReach
