import ManuscriptReach.Tables.Fault

/-!
# Settings of a run

The settings bound the spread of a restricted middle, and may state in which
bands two statistics of a batch are expected to fall.
-/

namespace ManuscriptReach

/-- A band of numbers, both ends included. -/
structure Band where
  /-- The lower end. -/
  low : Float
  /-- The upper end. -/
  high : Float
deriving DecidableEq

/-- Whether a number lies in a band. -/
def Band.contains (b : Band) (x : Float) : Bool := b.low ≤ x && x ≤ b.high

/-- What is expected of a batch. -/
structure Expectations where
  /-- The mean number of compatible folios. -/
  compatibleFolios : Option Band
  /-- The mean size of the effective vocabulary. -/
  effectiveVocabulary : Option Band
deriving DecidableEq

/-- Nothing is expected. -/
def Expectations.none : Expectations := ⟨.none, .none⟩

/-- The largest spread of a restricted middle unless the settings say otherwise. -/
def defaultRestrictedSpread : Nat := 3

/-- The settings of a run. -/
structure Settings where
  /-- The largest spread of a restricted middle. -/
  restrictedSpread : Nat
  /-- What is expected of a batch. -/
  expectations : Expectations
  /-- A spread of one is restricted. -/
  one_le : 1 ≤ restrictedSpread

/-- Checks that the bound is not zero. -/
def Settings.ofParts (restrictedSpread : Nat) (expectations : Expectations) :
    Except TableFault Settings :=
  if h : 1 ≤ restrictedSpread then .ok ⟨restrictedSpread, expectations, h⟩
  else .error .zeroRestrictedSpread

end ManuscriptReach
