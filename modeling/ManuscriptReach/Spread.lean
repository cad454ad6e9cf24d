import ManuscriptReach.Collection.SortedMap
import ManuscriptReach.Folio

/-!
# Spreads

The spread of a middle is the number of context folios in which it occurs.
Middles with a small spread are restricted: they narrow down where an entry can
stand.  Middles with a large one are universal, and those in no folio unknown.
-/

namespace ManuscriptReach

/-- What a middle's spread makes of it. -/
inductive MiddleClass where
  /-- Occurs in few folios. -/
  | restricted
  /-- Occurs in many folios. -/
  | universal
  /-- Occurs in no folio. -/
  | unknown
deriving DecidableEq

namespace MiddleClass

/-- The name of the class in documents and reports. -/
def name : MiddleClass → String
  | restricted => "RESTRICTED"
  | universal => "UNIVERSAL"
  | unknown => "UNKNOWN"

/-- The class of a middle with the given spread, where spreads up to `bound` are small. -/
def ofSpread (bound spread : Nat) : MiddleClass :=
  if spread = 0 then unknown else if spread ≤ bound then restricted else universal

end MiddleClass

/-- The spread of every indexed middle. -/
@[ext]
structure SpreadTable where
  /-- The indexed middles and their spreads. -/
  counts : StringMap Nat
deriving DecidableEq

namespace SpreadTable

/-- Counts, for every middle in any vocabulary, the folios that contain it.  The counts are natural
numbers where a program counts in words of 32 bits: fewer than `2 ^ 32` folios are meant. -/
def derive (c : FolioCatalog) : SpreadTable where
  counts := .ofKeys (.unions (c.folios.map Folio.vocabulary))
    fun m ↦ c.folios.countP fun f ↦ decide (m ∈ f.vocabulary)

/-- The spread of a middle, zero when it is not indexed. -/
def spread (t : SpreadTable) (middle : String) : Nat := (t.counts.get? middle).getD 0

/-- The class of a middle, where spreads up to `bound` are small. -/
def classOf (t : SpreadTable) (bound : Nat) (middle : String) : MiddleClass :=
  .ofSpread bound (t.spread middle)

end SpreadTable

end ManuscriptReach
