import ManuscriptReach.Collection.SortedSet
import ManuscriptReach.Collection.SortedMap
import ManuscriptReach.Tables.Fault
import ManuscriptReach.Morphology.Decomposition

/-!
# Markers and the decomposition of tokens

A `Markers` table lists the prefix families, the extended variants that stand for
one of them, the suffixes, and the infrastructure tokens.  `Markers.decompose`
splits a token: the longest marker that begins it, then the longest suffix that
ends what follows the marker, then the middle between the two.

Markers and suffixes are sorted once, longest first, so that the first candidate that
fits is the longest.
-/

namespace ManuscriptReach

/-- Whether a text is tried before another: longer texts come first, and texts of one length in
their own order. -/
def isTriedBefore (s t : String) : Bool :=
  decide (t.utf8ByteSize < s.utf8ByteSize) ||
    (s.utf8ByteSize == t.utf8ByteSize && decide (s ≤ t))

/-- Every marker with its family, in the order in which they are tried. -/
def markerCandidates (families : StringSet) (extended : StringMap String) :
    List (String × String) :=
  (families.toList.map (fun f ↦ (f, f)) ++ extended.toList).mergeSort fun p q ↦
    isTriedBefore p.1 q.1

/-- The suffixes in the order in which they are tried. -/
def suffixCandidates (suffixes : StringSet) : List String := suffixes.toList.mergeSort isTriedBefore

/-- The marker tables of a transcription. -/
structure Markers where
  /-- The prefix families. -/
  families : StringSet
  /-- The extended variants, each with the family for which it stands. -/
  extended : StringMap String
  /-- The suffixes. -/
  suffixes : StringSet
  /-- The tokens that are structural and have no parts. -/
  infrastructure : StringSet
  /-- Every marker with its family, the longest first. -/
  candidates : List (String × String)
  /-- The suffixes, the longest first. -/
  endings : List String
  /-- There is a family. -/
  families_ne : families ≠ ∅
  /-- Every marker has two or three characters. -/
  length_marker : ∀ m ∈ families.toList ++ extended.keys, m.length = 2 ∨ m.length = 3
  /-- A variant is no family, and stands for one. -/
  extended_family : ∀ p ∈ extended.toList, p.1 ∉ families ∧ p.2 ∈ families
  /-- The empty text is no suffix. -/
  suffix_ne : "" ∉ suffixes
  /-- The empty text is no infrastructure token. -/
  infrastructure_ne : "" ∉ infrastructure
  /-- The candidates are computed from the families and the variants, -/
  candidates_eq : candidates = markerCandidates families extended
  /-- and the endings from the suffixes. -/
  endings_eq : endings = suffixCandidates suffixes

namespace Markers

/-- Checks marker lists in the order families, lengths, variants, suffixes, infrastructure; the
first fault found is reported. -/
def ofSets (families : StringSet) (extended : StringMap String)
    (suffixes infrastructure : StringSet) : Except TableFault Markers :=
  if hf : families = ∅ then .error .noFamilies
  else
    match hl : (families.toList ++ extended.keys).find? fun m ↦ !(m.length == 2 || m.length == 3) with
    | some m => .error (.markerLength m)
    | none =>
      match he : extended.toList.find? fun p ↦ !(decide (p.1 ∉ families) && decide (p.2 ∈ families)) with
      | some (variant, family) =>
        if variant ∈ families then .error (.shadowedFamily variant)
        else .error (.unknownFamily variant family)
      | none =>
        if hs : "" ∈ suffixes then .error (.emptyEntry .suffix)
        else if hi : "" ∈ infrastructure then .error (.emptyEntry .infrastructure)
        else .ok {
          families := families
          extended := extended
          suffixes := suffixes
          infrastructure := infrastructure
          candidates := markerCandidates families extended
          endings := suffixCandidates suffixes
          families_ne := hf
          length_marker := fun m hm ↦ by
            simpa [Decidable.or_iff_not_imp_left] using List.find?_eq_none.1 hl m hm
          extended_family := fun p hp ↦ by simpa using List.find?_eq_none.1 he p hp
          suffix_ne := hs
          infrastructure_ne := hi
          candidates_eq := rfl
          endings_eq := rfl }

/-- The longest marker that begins a token, and its family: the first candidate that does. -/
def matchMarker (t : Markers) (token : String) : Option (String × String) :=
  t.candidates.find? fun p ↦ p.1.toList.isPrefixOf token.toList

/-- The longest suffix that ends a text: the first candidate that does. -/
def matchSuffix (t : Markers) (rest : String) : Option String :=
  t.endings.find? fun s ↦ s.toList.isSuffixOf rest.toList

/-- The text of `rest` without its last `n` characters. -/
def dropEnd (rest : String) (n : Nat) : String := String.ofList (rest.toList.take (rest.length - n))

/-- Splits a token into its parts. -/
def decompose (t : Markers) (token : String) : Decomposition :=
  if token ∈ t.infrastructure then .infrastructure
  else
    match t.matchMarker token with
    | none => .invalid
    | some (marker, family) =>
      let rest := String.ofList (token.toList.drop marker.length)
      let suffix := t.matchSuffix rest
      .parsed {
        family := family
        marker := marker
        middle := dropEnd rest (suffix.elim 0 String.length)
        suffix := suffix }

end Markers

end ManuscriptReach
