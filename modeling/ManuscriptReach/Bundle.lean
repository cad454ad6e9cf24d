import ManuscriptReach.Morphology.Markers

/-!
# Bundles

The bundle of an entry holds the middles and the families of its regular tokens.
It is a pair of sets, so the order and the repetition of tokens do not matter.
The tokens that contribute nothing are kept beside it.
-/

namespace ManuscriptReach

/-- The middles and families of some tokens. -/
structure Bundle where
  /-- The middles, the empty one left out. -/
  middles : StringSet
  /-- The families of the markers. -/
  families : StringSet
deriving DecidableEq

/-- Whether the bundle holds nothing. -/
def Bundle.isEmpty (b : Bundle) : Bool := b.middles.isEmpty && b.families.isEmpty

/-- The bundle of some tokens, with the tokens that contribute nothing to it. -/
structure Aggregate where
  /-- What the regular tokens contribute. -/
  bundle : Bundle
  /-- The invalid tokens, each once, in order of first occurrence. -/
  invalidTokens : List String
  /-- How many tokens are structural, with repetition. -/
  infrastructureTokens : Nat
deriving DecidableEq

namespace Markers

/-- The parts of the regular tokens among the given ones. -/
def regularParts (t : Markers) (tokens : List String) : List Morphology :=
  tokens.filterMap fun w ↦ (t.decompose w).parts?

/-- The bundle of some tokens. -/
def bundle (t : Markers) (tokens : List String) : Bundle where
  middles := .ofList (((t.regularParts tokens).filter Morphology.hasMiddle).map Morphology.middle)
  families := .ofList ((t.regularParts tokens).map Morphology.family)

/-- The middles of a bundle are the middles of its regular tokens, but not the empty one. -/
theorem mem_middles_bundle {t : Markers} {tokens : List String} {m : String} :
    m ∈ (t.bundle tokens).middles ↔
      ∃ w ∈ tokens, ∃ p, t.decompose w = .parsed p ∧ p.hasMiddle = true ∧ p.middle = m := by
  have parts {d : Decomposition} {p : Morphology} : d.parts? = some p ↔ d = .parsed p := by
    cases d <;> simp [Decomposition.parts?]
  rw [bundle, SortedSet.mem_ofList]
  simp only [List.mem_map, List.mem_filter, regularParts, List.mem_filterMap, parts]
  constructor
  · rintro ⟨p, ⟨⟨w, hw, hp⟩, hne⟩, hm⟩
    exact ⟨w, hw, p, hp, hne, hm⟩
  · rintro ⟨w, hw, p, hp, hne, hm⟩
    exact ⟨p, ⟨⟨w, hw, hp⟩, hne⟩, hm⟩

/-- Decomposes some tokens and gathers what they contribute. -/
def aggregate (t : Markers) (tokens : List String) : Aggregate where
  bundle := t.bundle tokens
  invalidTokens := (tokens.filter fun w ↦ (t.decompose w).isInvalid).eraseDups
  infrastructureTokens := tokens.countP fun w ↦ (t.decompose w).isInfrastructure

end Markers

end ManuscriptReach
