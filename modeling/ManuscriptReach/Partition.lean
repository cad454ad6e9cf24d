import ManuscriptReach.Spread

/-!
# Partitions of a set of middles

A `Partition` files middles under the three classes.  Filing one middle under
two classes is possible by hand (`Partition.insert`), and `isDisjoint` tells;
filing a set by a classifying function (`Partition.ofSet`) never does it.
-/

namespace ManuscriptReach

/-- Middles filed under their classes. -/
structure Partition where
  /-- The middles that occur in few folios. -/
  restricted : StringSet
  /-- The middles that occur in many folios. -/
  universal : StringSet
  /-- The middles that occur in no folio. -/
  unknown : StringSet
deriving DecidableEq

namespace Partition

/-- The partition that files nothing. -/
def empty : Partition := ⟨∅, ∅, ∅⟩

instance : EmptyCollection Partition := ⟨empty⟩

/-- Files one more middle; what was filed before stays. -/
def insert (p : Partition) (middle : String) : MiddleClass → Partition
  | .restricted => { p with restricted := p.restricted.insert middle }
  | .universal => { p with universal := p.universal.insert middle }
  | .unknown => { p with unknown := p.unknown.insert middle }

/-- Files every member of a set under the class that a function gives it. -/
def ofSet (classOf : String → MiddleClass) (middles : StringSet) : Partition where
  restricted := middles.filter fun m ↦ classOf m = .restricted
  universal := middles.filter fun m ↦ classOf m = .universal
  unknown := middles.filter fun m ↦ classOf m = .unknown

/-- The middles that are filed under a class. -/
def part (p : Partition) : MiddleClass → StringSet
  | .restricted => p.restricted
  | .universal => p.universal
  | .unknown => p.unknown

theorem mem_part_ofSet {classOf : String → MiddleClass} {middles : StringSet} {m : String}
    {c : MiddleClass} : m ∈ (ofSet classOf middles).part c ↔ m ∈ middles ∧ classOf m = c := by
  cases c <;> simp [ofSet, part]

/-- The first of the three classes, in their order, under which a middle is filed. -/
def classOf? (p : Partition) (middle : String) : Option MiddleClass :=
  if middle ∈ p.restricted then some .restricted
  else if middle ∈ p.universal then some .universal
  else if middle ∈ p.unknown then some .unknown
  else none

/-- How many middles are filed, counted once for each class. -/
def size (p : Partition) : Nat := p.restricted.size + p.universal.size + p.unknown.size

/-- Whether nothing is filed. -/
def isEmpty (p : Partition) : Bool := p.size == 0

/-- Every filed middle. -/
def all (p : Partition) : StringSet := p.restricted ∪ p.universal ∪ p.unknown

/-- Whether no middle is filed under two classes. -/
def isDisjoint (p : Partition) : Bool :=
  decide (p.restricted.Disjoint p.universal) && decide (p.restricted.Disjoint p.unknown) &&
    decide (p.universal.Disjoint p.unknown)

end Partition

end ManuscriptReach
