/-!
# The parts of a token

A regular token is a marker, a middle and possibly a suffix, in this order.  Two
other things can come of a token: it is a known infrastructure token, which has no
parts, or no marker begins it and it is invalid.
-/

namespace ManuscriptReach

/-- The parts of a regular token. -/
structure Morphology where
  /-- The base family to which the marker belongs. -/
  family : String
  /-- The marker as it stands in the token. -/
  marker : String
  /-- The text between marker and suffix, possibly empty. -/
  middle : String
  /-- The listed suffix that ends the token, if one does. -/
  suffix : Option String
deriving DecidableEq

namespace Morphology

/-- Whether the marker is an extended variant and not itself a family. -/
def isExtended (m : Morphology) : Bool := m.marker != m.family

/-- Whether anything stands between marker and suffix. -/
def hasMiddle (m : Morphology) : Bool := m.middle != ""

end Morphology

/-- What comes of a token. -/
inductive Decomposition where
  /-- A listed structural token. -/
  | infrastructure
  /-- No marker begins the token. -/
  | invalid
  /-- A regular token. -/
  | parsed (parts : Morphology)
deriving DecidableEq

namespace Decomposition

/-- The parts of a regular token. -/
def parts? : Decomposition → Option Morphology
  | parsed m => some m
  | _ => none

/-- Whether the token is a structural one. -/
def isInfrastructure : Decomposition → Bool
  | infrastructure => true
  | _ => false

/-- Whether no marker begins the token. -/
def isInvalid : Decomposition → Bool
  | invalid => true
  | _ => false

end Decomposition

end ManuscriptReach
