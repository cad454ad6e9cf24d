import Mathlib.Data.List.Induction
import ManuscriptReach.Bundle
import ManuscriptReach.Proofs.Restating
import ManuscriptReach.Proofs.TokenParts

/-!
# Gathering tokens

The aggregate of some tokens is given part by part: two sets, a list without repetitions
and a count.  `Aggregate.add` takes in a single token, which changes one of the parts or, if
it is regular, up to two sets.  Going through the tokens with it gives the aggregate
(`Markers.aggregate_eq_foldl`).

What the parts are does not depend on the way they are gathered (`Markers.Gathers`).  The
bundle sees the set of the tokens only, and makes unions of concatenations.  The list of the
invalid tokens sees the order in which these occur first, and the count sees repetitions.
-/

namespace ManuscriptReach

/-! ## First occurrences -/

section Lists

variable {α : Type} [DecidableEq α]

/-- One more element of a list is new or has occurred before. -/
theorem eraseDups_concat (xs : List α) (x : α) :
    (xs ++ [x]).eraseDups = if x ∈ xs.eraseDups then xs.eraseDups else xs.eraseDups ++ [x] := by
  rw [List.eraseDups_append]
  by_cases h : x ∈ xs
  · simp [List.removeAll, h]
  · simp [List.removeAll, h, List.eraseDups_cons]

/-- Distinct elements of some kind stand in the order in which they occur first in the list. -/
theorem pairwise_idxOf_eraseDups (p : α → Bool) (xs : List α) :
    (xs.filter p).eraseDups.Pairwise fun x y ↦ xs.idxOf x < xs.idxOf y := by
  induction xs using List.reverseRecOn with
  | nil => exact List.Pairwise.nil
  | append_singleton xs x ih =>
    have occurred {y : α} (hy : y ∈ (xs.filter p).eraseDups) : y ∈ xs :=
      (List.mem_filter.1 (List.mem_eraseDups.1 hy)).1
    have kept : (xs.filter p).eraseDups.Pairwise fun y z ↦
        (xs ++ [x]).idxOf y < (xs ++ [x]).idxOf z := by
      apply ih.imp_of_mem
      intro y z hy hz less
      rwa [List.idxOf_append_of_mem (occurred hy), List.idxOf_append_of_mem (occurred hz)]
    rw [List.filter_append]
    cases hx : p x with
    | false =>
      rw [List.filter_cons_of_neg (by simp [hx]), List.filter_nil, List.append_nil]
      exact kept
    | true =>
      rw [List.filter_cons_of_pos hx, List.filter_nil, eraseDups_concat]
      split
      next => exact kept
      next new =>
        refine List.pairwise_append.2 ⟨kept, List.pairwise_singleton _ _, fun y hy z hz ↦ ?_⟩
        obtain rfl := List.mem_singleton.1 hz
        have absent : z ∉ xs := fun mem ↦
          new (List.mem_eraseDups.2 (List.mem_filter.2 ⟨mem, hx⟩))
        rw [List.idxOf_append_of_mem (occurred hy), List.idxOf_append_of_notMem absent]
        exact Nat.lt_add_right _ (List.idxOf_lt_length_iff.2 (occurred hy))

end Lists

theorem SortedSet.ofList_concat (xs : List String) (x : String) :
    SortedSet.ofList (xs ++ [x]) = (SortedSet.ofList xs).insert x := by
  rw [ofList, ofList, List.foldl_append]
  rfl

/-! ## One token at a time -/

namespace Bundle

/-- The bundle that holds nothing. -/
def empty : Bundle := ⟨∅, ∅⟩

instance : EmptyCollection Bundle := ⟨empty⟩

/-- What either bundle holds, set by set. -/
def union (b c : Bundle) : Bundle := ⟨b.middles ∪ c.middles, b.families ∪ c.families⟩

instance : Union Bundle := ⟨union⟩

/-- Bundles that hold the same are equal. -/
theorem ext_mem {b c : Bundle} (middles : ∀ m, m ∈ b.middles ↔ m ∈ c.middles)
    (families : ∀ f, f ∈ b.families ↔ f ∈ c.families) : b = c := by
  cases b
  cases c
  exact congrArg₂ mk (SortedSet.ext_mem middles) (SortedSet.ext_mem families)

/-- Takes in the parts of one more token, of which an empty middle does not count. -/
def add (b : Bundle) (p : Morphology) : Bundle where
  middles := if p.hasMiddle then b.middles.insert p.middle else b.middles
  families := b.families.insert p.family

end Bundle

namespace Aggregate

/-- The aggregate of no token. -/
def empty : Aggregate := ⟨∅, [], 0⟩

/-- Takes in one more token, given what comes of it. -/
def add (a : Aggregate) (token : String) : Decomposition → Aggregate
  | .infrastructure => { a with infrastructureTokens := a.infrastructureTokens + 1 }
  | .invalid =>
    if token ∈ a.invalidTokens then a
    else { a with invalidTokens := a.invalidTokens ++ [token] }
  | .parsed p => { a with bundle := a.bundle.add p }

end Aggregate

namespace Markers

/-- A token with parts adds these to the bundle, and any other leaves it as it is. -/
theorem bundle_concat (t : Markers) (xs : List String) (w : String) :
    t.bundle (xs ++ [w]) = (t.decompose w).parts?.elim (t.bundle xs) (t.bundle xs).add := by
  have parts : t.regularParts (xs ++ [w]) =
      t.regularParts xs ++ (t.decompose w).parts?.toList := by
    rw [regularParts, List.filterMap_append]
    cases h : (t.decompose w).parts? <;> simp [regularParts, h]
  rw [bundle, parts, List.filter_append, List.map_append, List.map_append]
  cases (t.decompose w).parts? with
  | none => simp [bundle]
  | some p =>
    rw [Option.toList_some, Option.elim_some, Bundle.add]
    cases hp : p.hasMiddle with
    | false => simp [bundle, hp, SortedSet.ofList_concat]
    | true => simp [bundle, hp, SortedSet.ofList_concat]

/-- One more token is taken in according to what comes of it. -/
theorem aggregate_concat (t : Markers) (xs : List String) (w : String) :
    t.aggregate (xs ++ [w]) = (t.aggregate xs).add w (t.decompose w) := by
  unfold aggregate
  rw [List.filter_append, List.countP_append]
  cases h : t.decompose w with
  | infrastructure =>
    rw [bundle_concat, h, Aggregate.add]
    simp [h, Decomposition.parts?, Decomposition.isInvalid, Decomposition.isInfrastructure]
  | invalid =>
    have listed : [w].filter (fun w ↦ (t.decompose w).isInvalid) = [w] := by
      simp [h, Decomposition.isInvalid]
    rw [bundle_concat, h, listed, eraseDups_concat, Aggregate.add]
    simp only [List.countP_singleton, h, Decomposition.isInfrastructure]
    split
    next => rfl
    next => rfl
  | parsed p =>
    rw [bundle_concat, h, Aggregate.add]
    simp [h, Decomposition.parts?, Decomposition.isInvalid, Decomposition.isInfrastructure]

/-- Going through the tokens once gathers all parts of the aggregate. -/
theorem aggregate_eq_foldl (t : Markers) (tokens : List String) :
    t.aggregate tokens = tokens.foldl (fun a w ↦ a.add w (t.decompose w)) .empty := by
  induction tokens using List.reverseRecOn with
  | nil => rfl
  | append_singleton tokens w ih => rw [List.foldl_concat, ← ih, aggregate_concat]

/-! ## What is gathered -/

/-- An aggregate holds what some tokens contribute. -/
structure Gathers (t : Markers) (tokens : List String) (a : Aggregate) : Prop where
  /-- The middles are those of the regular tokens, but not the empty one. -/
  middles : ∀ m, m ∈ a.bundle.middles ↔
    m ≠ "" ∧ ∃ w ∈ tokens, ∃ p, t.decompose w = .parsed p ∧ p.middle = m
  /-- The families are those of all regular tokens, -/
  families : ∀ f, f ∈ a.bundle.families ↔
    ∃ w ∈ tokens, ∃ p, t.decompose w = .parsed p ∧ p.family = f
  /-- and they are listed as families. -/
  families_subset : a.bundle.families ⊆ t.families
  /-- The invalid tokens are there, -/
  invalid : ∀ w, w ∈ a.invalidTokens ↔ w ∈ tokens ∧ t.decompose w = .invalid
  /-- each once, -/
  once : a.invalidTokens.Nodup
  /-- in the order in which they occur first. -/
  order : a.invalidTokens.Pairwise fun v w ↦ tokens.idxOf v < tokens.idxOf w
  /-- The structural tokens are counted as often as they occur. -/
  infrastructure : a.infrastructureTokens = tokens.countP fun w ↦ decide (w ∈ t.infrastructure)

section

variable {t : Markers} {tokens xs ys : List String} {w f m : String}

theorem mem_middles_iff : m ∈ (t.bundle tokens).middles ↔
    m ≠ "" ∧ ∃ w ∈ tokens, ∃ p, t.decompose w = .parsed p ∧ p.middle = m := by
  rw [mem_middles_bundle]
  constructor
  · rintro ⟨w, hw, p, hp, some, rfl⟩
    exact ⟨bne_iff_ne.1 some, w, hw, p, hp, rfl⟩
  · rintro ⟨ne, w, hw, p, hp, rfl⟩
    exact ⟨w, hw, p, hp, bne_iff_ne.2 ne, rfl⟩

/-- The families of a bundle are those of its regular tokens, also of such with an empty middle. -/
theorem mem_families_bundle : f ∈ (t.bundle tokens).families ↔
    ∃ w ∈ tokens, ∃ p, t.decompose w = .parsed p ∧ p.family = f := by
  have parts {d : Decomposition} {p : Morphology} : d.parts? = some p ↔ d = .parsed p := by
    cases d <;> simp [Decomposition.parts?]
  rw [bundle, SortedSet.mem_ofList]
  simp only [List.mem_map, regularParts, List.mem_filterMap, parts]
  constructor
  · rintro ⟨p, ⟨w, hw, hp⟩, hf⟩
    exact ⟨w, hw, p, hp, hf⟩
  · rintro ⟨w, hw, p, hp, hf⟩
    exact ⟨p, ⟨w, hw, hp⟩, hf⟩

theorem mem_invalidTokens :
    w ∈ (t.aggregate tokens).invalidTokens ↔ w ∈ tokens ∧ t.decompose w = .invalid := by
  have invalid {d : Decomposition} : d.isInvalid = true ↔ d = .invalid := by
    cases d <;> simp [Decomposition.isInvalid]
  rw [aggregate, List.mem_eraseDups, List.mem_filter, invalid]

theorem nodup_invalidTokens (t : Markers) (tokens : List String) :
    (t.aggregate tokens).invalidTokens.Nodup := nodup_eraseDups _

/-- A family that comes of a token is listed. -/
theorem family_mem_of_parsed {p : Morphology} (h : t.decompose w = .parsed p) :
    p.family ∈ t.families := by
  rcases t.decompose_cases w with ⟨-, value⟩ | ⟨-, -, value⟩ | ⟨-, q, value, splits⟩
  · cases h.symm.trans value
  · cases h.symm.trans value
  · cases h.symm.trans value
    exact splits.family_mem

theorem isInfrastructure_decompose (t : Markers) (w : String) :
    (t.decompose w).isInfrastructure = decide (w ∈ t.infrastructure) := by
  rcases t.decompose_cases w with ⟨mem, value⟩ | ⟨mem, -, value⟩ | ⟨mem, p, value, -⟩
  · rw [value, decide_eq_true mem]
    rfl
  · rw [value, decide_eq_false mem]
    rfl
  · rw [value, decide_eq_false mem]
    rfl

theorem gathers_aggregate (t : Markers) (tokens : List String) :
    t.Gathers tokens (t.aggregate tokens) where
  middles := fun _ ↦ mem_middles_iff
  families := fun _ ↦ mem_families_bundle
  families_subset := by
    intro f hf
    obtain ⟨w, -, p, hp, rfl⟩ := mem_families_bundle.1 hf
    exact family_mem_of_parsed hp
  invalid := fun _ ↦ mem_invalidTokens
  once := t.nodup_invalidTokens tokens
  order := pairwise_idxOf_eraseDups _ tokens
  infrastructure := List.countP_congr fun w _ ↦ by rw [isInfrastructure_decompose]

/-! ## Concatenations, equal sets and deletions -/

/-- The bundle of a concatenation is the union of the bundles. -/
theorem bundle_append (t : Markers) (xs ys : List String) :
    t.bundle (xs ++ ys) = t.bundle xs ∪ t.bundle ys := by
  apply Bundle.ext_mem
  · intro m
    change _ ↔ m ∈ (t.bundle xs).middles ∪ (t.bundle ys).middles
    rw [SortedSet.mem_union, mem_middles_iff, mem_middles_iff, mem_middles_iff, ← and_or_left]
    simp only [List.mem_append, or_and_right, exists_or]
  · intro f
    change _ ↔ f ∈ (t.bundle xs).families ∪ (t.bundle ys).families
    rw [SortedSet.mem_union, mem_families_bundle, mem_families_bundle, mem_families_bundle]
    simp only [List.mem_append, or_and_right, exists_or]

/-- A bundle depends on the regular tokens only. -/
theorem bundle_eq_of_regular
    (h : ∀ w p, t.decompose w = .parsed p → (w ∈ xs ↔ w ∈ ys)) : t.bundle xs = t.bundle ys := by
  have same (q : Morphology → Prop) : (∃ w ∈ xs, ∃ p, t.decompose w = .parsed p ∧ q p) ↔
      ∃ w ∈ ys, ∃ p, t.decompose w = .parsed p ∧ q p := by
    constructor
    · rintro ⟨w, hw, p, hp, hq⟩
      exact ⟨w, (h w p hp).1 hw, p, hp, hq⟩
    · rintro ⟨w, hw, p, hp, hq⟩
      exact ⟨w, (h w p hp).2 hw, p, hp, hq⟩
  apply Bundle.ext_mem
  · intro m
    rw [mem_middles_iff, mem_middles_iff, same]
  · intro f
    rw [mem_families_bundle, mem_families_bundle, same]

/-- The same tokens have the same invalid ones among them. -/
theorem invalidTokens_perm (h : SameElements xs ys) :
    (t.aggregate xs).invalidTokens.Perm (t.aggregate ys).invalidTokens := by
  rw [List.perm_ext_iff_of_nodup (t.nodup_invalidTokens xs) (t.nodup_invalidTokens ys)]
  intro w
  rw [mem_invalidTokens, mem_invalidTokens, h w]

/-- A token that is neither invalid nor structural is regular. -/
theorem mem_filter_regular {p : Morphology} (h : t.decompose w = .parsed p) :
    w ∈ tokens.filter (fun w ↦ !(t.decompose w).isInvalid && !(t.decompose w).isInfrastructure) ↔
      w ∈ tokens := by
  rw [List.mem_filter, h]
  exact and_iff_left rfl

end

/-- **Gathering is a homomorphism into sets.**  Taking in the tokens one by one gathers their
middles and families as sets, the invalid tokens in the order in which they occur first, and the
number of structural ones.  So a concatenation has the union of the bundles; tokens that are the
same as a set have one bundle and the same invalid tokens, in some order; and deleting the invalid
and the structural tokens leaves the bundle as it is. -/
theorem aggregate_gathers (t : Markers) (xs ys : List String) :
    t.aggregate xs = xs.foldl (fun a w ↦ a.add w (t.decompose w)) .empty ∧
      t.Gathers xs (t.aggregate xs) ∧
      (t.aggregate []).bundle = ∅ ∧
      (t.aggregate (xs ++ ys)).bundle = (t.aggregate xs).bundle ∪ (t.aggregate ys).bundle ∧
      (SameElements xs ys → (t.aggregate xs).bundle = (t.aggregate ys).bundle ∧
        (t.aggregate xs).invalidTokens.Perm (t.aggregate ys).invalidTokens) ∧
      (t.aggregate (xs.filter fun w ↦
        !(t.decompose w).isInvalid && !(t.decompose w).isInfrastructure)).bundle =
          (t.aggregate xs).bundle := by
  refine ⟨t.aggregate_eq_foldl xs, t.gathers_aggregate xs, rfl, t.bundle_append xs ys,
    fun same ↦ ⟨?_, invalidTokens_perm same⟩, ?_⟩
  · exact bundle_eq_of_regular fun w _ _ ↦ same w
  · exact bundle_eq_of_regular fun _ _ ↦ mem_filter_regular

end Markers

theorem gatheringMarkers_accepted :
    (Markers.ofSets (.ofList ["qo"]) ∅ (.ofList ["y"]) (.ofList ["s"])).toOption.isSome = true := by
  decide +kernel

/-- Markers with a family, a suffix and a structural token. -/
def gatheringMarkers : Markers := Option.get _ gatheringMarkers_accepted

/-- Of seven tokens two are regular, one of them with an empty middle; one invalid token occurs
twice and another once; and the structural token occurs twice.  In another order and without the
repetitions they have the same bundle, and the same invalid tokens in another order. -/
theorem aggregate_gathers_sample :
    SameElements ["dar", "qoky", "s", "xx", "qoy", "dar", "s"] ["s", "xx", "qoy", "dar", "qoky"] ∧
      (gatheringMarkers.aggregate ["dar", "qoky", "s", "xx", "qoy", "dar", "s"]).bundle =
        (gatheringMarkers.aggregate ["s", "xx", "qoy", "dar", "qoky"]).bundle ∧
      gatheringMarkers.aggregate ["dar", "qoky", "s", "xx", "qoy", "dar", "s"] =
        ⟨⟨.ofList ["k"], .ofList ["qo"]⟩, ["dar", "xx"], 2⟩ ∧
      (gatheringMarkers.aggregate ["s", "xx", "qoy", "dar", "qoky"]).invalidTokens =
        ["xx", "dar"] := by
  have same : SameElements ["dar", "qoky", "s", "xx", "qoy", "dar", "s"]
      ["s", "xx", "qoy", "dar", "qoky"] := fun w ↦ by grind
  have bundles := ((gatheringMarkers.aggregate_gathers _ _).2.2.2.2.1 same).1
  exact ⟨same, bundles, by decide +kernel, by decide +kernel⟩

end ManuscriptReach
