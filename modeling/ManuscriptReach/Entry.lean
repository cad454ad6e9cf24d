import ManuscriptReach.Propagation

/-!
# Registry entries and their outcomes

An entry is a named sequence of tokens.  Its outcome holds the bundle of the
tokens, the partition of the bundle's middles, and the propagation of the
restricted ones.
-/

namespace ManuscriptReach

/-- A record of the registry. -/
structure Entry where
  /-- The name of the record. -/
  id : String
  /-- The tokens in order. -/
  tokens : List String
deriving DecidableEq

/-- The bundle of an entry and the classes of its middles. -/
structure Sorting where
  /-- What the tokens contribute. -/
  aggregate : Aggregate
  /-- The bundle's middles, filed under their classes. -/
  partition : Partition
deriving DecidableEq

/-- All that follows from one entry. -/
structure Outcome where
  /-- The entry's name. -/
  id : String
  /-- Its bundle and the classes of its middles. -/
  sorting : Sorting
  /-- What follows from its restricted middles. -/
  propagation : Propagation
deriving DecidableEq

namespace Tables

/-- The class of a middle under these tables. -/
def middleClass (t : Tables) (middle : String) : MiddleClass :=
  t.spreads.classOf t.settings.restrictedSpread middle

/-- Decomposes an entry's tokens, gathers them, and files the middles under their classes. -/
def sorting (t : Tables) (e : Entry) : Sorting :=
  let aggregate := t.markers.aggregate e.tokens
  ⟨aggregate, .ofSet t.middleClass aggregate.bundle.middles⟩

/-- An entry files the middles of its bundle under their classes. -/
theorem mem_part_sorting {t : Tables} {e : Entry} {m : String} {c : MiddleClass} :
    m ∈ (t.sorting e).partition.part c ↔
      m ∈ (t.sorting e).aggregate.bundle.middles ∧ t.middleClass m = c :=
  Partition.mem_part_ofSet

/-- The restricted middles of an entry. -/
def restricted (t : Tables) (e : Entry) : StringSet := (t.sorting e).partition.restricted

theorem mem_restricted {t : Tables} {e : Entry} {m : String} :
    m ∈ t.restricted e ↔
      m ∈ (t.markers.bundle e.tokens).middles ∧ t.middleClass m = .restricted :=
  mem_part_sorting (c := .restricted)

/-- The outcome of an entry. -/
def outcome (t : Tables) (e : Entry) : Outcome :=
  let sorting := t.sorting e
  ⟨e.id, sorting, t.propagate sorting.partition.restricted⟩

/-- What follows from an entry follows from its restricted middles. -/
theorem propagation_outcome (t : Tables) (e : Entry) :
    (t.outcome e).propagation = t.propagate (t.restricted e) := rfl

end Tables

end ManuscriptReach
