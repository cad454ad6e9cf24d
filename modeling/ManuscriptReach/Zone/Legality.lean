import ManuscriptReach.Collection.SortedMap
import ManuscriptReach.Zone.Order

/-!
# Legality by zone

A legality table gives, for some middles, the canonical labels of the zones in
which they are legal.  A middle without an entry is legal everywhere.

Legality should only shrink along the zone order.  `Legality.violations` reports
where the table widens it, `widenings` where the vocabularies of a run do.
-/

namespace ManuscriptReach

/-- Where the middles with an entry are legal. -/
@[ext]
structure Legality where
  /-- The canonical labels of the zones in which a middle is legal. -/
  entries : StringMap StringSet
deriving DecidableEq

/-- A middle that a zone admits and the zone before it does not. -/
structure LegalityViolation where
  /-- The middle. -/
  middle : String
  /-- The zone that does not admit it. -/
  earlier : String
  /-- The zone right after, which does. -/
  later : String
deriving DecidableEq

namespace Legality

/-- The first entry, and in it the first zone, that names no canonical label of the order. -/
def firstUnknown? (t : Legality) (o : ZoneOrder) : Option (String × String) :=
  t.entries.toList.findSome? fun p ↦
    (p.2.toList.find? fun z ↦ decide (z ∉ o.canonicalLabels)).map fun z ↦ (p.1, z)

/-- Whether every zone that an entry names is a canonical label of the order. -/
def Names (t : Legality) (o : ZoneOrder) : Prop :=
  ∀ p ∈ t.entries.toList, ∀ z ∈ p.2, z ∈ o.canonicalLabels

theorem firstUnknown?_eq_none_iff {t : Legality} {o : ZoneOrder} :
    t.firstUnknown? o = none ↔ t.Names o := by
  simp [firstUnknown?, Names]

/-- Whether a middle is legal in a zone. -/
def isLegal (t : Legality) (middle : String) (zone : Zone) : Bool :=
  match t.entries.get? middle with
  | none => true
  | some zones => decide (zone.canonical ∈ zones)

/-- A middle is legal where its entry, if it has one, says so. -/
theorem isLegal_iff {t : Legality} {middle : String} {zone : Zone} :
    t.isLegal middle zone = true ↔
      ∀ zones, t.entries.get? middle = some zones → zone.canonical ∈ zones := by
  unfold isLegal
  split
  next h => simp [h]
  next zones h => simp [h]

/-- A middle without an entry is legal everywhere. -/
theorem isLegal_of_not_mem_keys {t : Legality} {middle : String} (h : middle ∉ t.entries.keys)
    (zone : Zone) : t.isLegal middle zone = true := by
  rw [isLegal, SortedMap.get?_eq_none_iff.2 h]

/-- Every place where the table admits a middle after the zone before did not. -/
def violations (t : Legality) (o : ZoneOrder) : List LegalityViolation :=
  t.entries.keys.flatMap fun middle ↦
    (adjacentPairs o.zones).filterMap fun p ↦
      if !t.isLegal middle p.1 && t.isLegal middle p.2 then
        some ⟨middle, p.1.label, p.2.label⟩
      else none

/-- The members of a vocabulary that are legal in a zone. -/
def legalIn (t : Legality) (vocabulary : StringSet) (zone : Zone) : StringSet :=
  vocabulary.filter fun m ↦ t.isLegal m zone

@[simp] theorem mem_legalIn {t : Legality} {vocabulary : StringSet} {zone : Zone} {m : String} :
    m ∈ t.legalIn vocabulary zone ↔ m ∈ vocabulary ∧ t.isLegal m zone = true :=
  SortedSet.mem_filter

end Legality

/-- The vocabulary that is legal in a zone. -/
structure ZoneVocabulary where
  /-- The zone's label. -/
  zone : String
  /-- The legal middles. -/
  legal : StringSet
deriving DecidableEq

/-- The vocabulary legal in each zone, in zone order. -/
def Legality.vocabularies (t : Legality) (o : ZoneOrder) (vocabulary : StringSet) :
    List ZoneVocabulary :=
  o.zones.map fun z ↦ ⟨z.label, t.legalIn vocabulary z⟩

/-- Middles that a zone's vocabulary has and the vocabulary of the zone before has not. -/
structure Widening where
  /-- The zone without the middles. -/
  earlier : String
  /-- The zone right after, with them. -/
  later : String
  /-- The middles. -/
  widened : StringSet
deriving DecidableEq

/-- Every place where the vocabularies of neighbouring zones widen. -/
def widenings (zones : List ZoneVocabulary) : List Widening :=
  (adjacentPairs zones).filterMap fun p ↦
    let widened := p.2.legal \ p.1.legal
    if widened.isEmpty then none else some ⟨p.1.zone, p.2.zone, widened⟩

end ManuscriptReach
