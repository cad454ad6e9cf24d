import ManuscriptReach.Class.Id

/-!
# What can be wrong with table documents

Each constructor is one reason to refuse a set of table documents, with the data
that names the culprit.  `TableFault.message` is the only place that holds wording.
-/

namespace ManuscriptReach

/-- The two kinds of class that require no middle. -/
inductive FloorKind where
  | kernel
  | atomic
deriving DecidableEq

/-- The word for a kind of floor class in documents and messages. -/
def FloorKind.word : FloorKind → String
  | .kernel => "kernel"
  | .atomic => "atomic"

/-- The two marker lists in which an empty text makes no sense. -/
inductive AffixTable where
  | suffix
  | infrastructure
deriving DecidableEq

/-- The word for a marker list in messages. -/
def AffixTable.word : AffixTable → String
  | .suffix => "suffix"
  | .infrastructure => "infrastructure"

/-- A reason to refuse a set of table documents. -/
inductive TableFault where
  /-- No prefix family is listed. -/
  | noFamilies
  /-- A marker has neither two nor three characters. -/
  | markerLength (marker : String)
  /-- An extended variant stands for a family that is not listed. -/
  | unknownFamily (variant family : String)
  /-- An extended variant is itself a family. -/
  | shadowedFamily (variant : String)
  /-- The empty text is listed as a suffix or as an infrastructure token. -/
  | emptyEntry (table : AffixTable)
  /-- Two context folios have one id. -/
  | duplicateFolio (id : String)
  /-- No zone is listed. -/
  | noZones
  /-- Two zones have one label. -/
  | duplicateZone (label : String)
  /-- A legality entry names a zone that is no zone's canonical label. -/
  | unknownLegalityZone (middle zone : String)
  /-- A number names no class. -/
  | classNumber (number : Nat)
  /-- A class is defined twice. -/
  | duplicateClass (id : ClassId)
  /-- Some classes are not defined. -/
  | missingClasses (ids : List ClassId)
  /-- A decomposable class requires no middle. -/
  | emptyRequirement (id : ClassId)
  /-- A kernel or atomic class lists required middles. -/
  | unexpectedRequirement (id : ClassId) (kind : FloorKind)
  /-- Two targets have one id. -/
  | duplicateTarget (id : String)
  /-- The bound on a restricted middle's spread is zero. -/
  | zeroRestrictedSpread
deriving DecidableEq

/-- What is said about a class number out of range. -/
def classNumberMessage (number : Nat) : String :=
  "class id " ++ toString number ++ " outside 1..=" ++ toString classCount

/-- What the user is told. -/
def TableFault.message : TableFault → String
  | noFamilies => "marker table defines no prefix families"
  | markerLength marker =>
    "marker '" ++ marker ++ "' has " ++ toString marker.length ++ " characters, expected 2 or 3"
  | unknownFamily variant family =>
    "extended marker '" ++ variant ++ "' maps to unknown family '" ++ family ++ "'"
  | shadowedFamily variant => "extended marker '" ++ variant ++ "' shadows a base family"
  | emptyEntry table => "empty string in " ++ table.word ++ " table"
  | duplicateFolio id => "duplicate context-folio id '" ++ id ++ "'"
  | noZones => "zone order is empty"
  | duplicateZone label => "duplicate zone label '" ++ label ++ "'"
  | unknownLegalityZone middle zone =>
    "legality entry for middle '" ++ middle ++ "' names unknown zone '" ++ zone ++ "'"
  | classNumber number => classNumberMessage number
  | duplicateClass id => "class " ++ toString id.number ++ " defined more than once"
  | missingClasses ids =>
    "class catalog is missing classes [" ++
      ", ".intercalate (ids.map fun c ↦ toString c.number) ++ "]"
  | emptyRequirement id => "decomposable class " ++ toString id.number ++ " has no required middles"
  | unexpectedRequirement id kind =>
    kind.word ++ " class " ++ toString id.number ++ " must not list required middles"
  | duplicateTarget id => "duplicate target id '" ++ id ++ "'"
  | zeroRestrictedSpread => "restricted_max_spread must be at least 1"

end ManuscriptReach
