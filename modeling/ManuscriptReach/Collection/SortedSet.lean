/-!
# Finite sets in canonical form

A `SortedSet α` is a strictly increasing list.  Every finite subset of a linear
order has exactly one such list, so two sets are equal as soon as they have the
same members (`SortedSet.ext_mem`), and writing a set out needs no further sort.

Strings are ordered by code point, which is the order of their UTF-8 bytes.
-/

namespace ManuscriptReach

/-- A finite set, kept as its members in strictly increasing order. -/
@[ext]
structure SortedSet (α : Type) [LT α] where
  /-- The members, smallest first. -/
  toList : List α
  /-- Each member is smaller than every later one. -/
  sorted : toList.Pairwise (· < ·)

/-- Finite sets of strings. -/
abbrev StringSet := SortedSet String

namespace SortedSet

variable {α : Type} [LT α]

instance [DecidableEq α] : DecidableEq (SortedSet α) := fun s t ↦
  decidable_of_iff (s.toList = t.toList) SortedSet.ext_iff.symm

instance : Membership α (SortedSet α) := ⟨fun s x ↦ x ∈ s.toList⟩

/-- Membership in a set is membership in its list. -/
theorem mem_def {x : α} {s : SortedSet α} : x ∈ s ↔ x ∈ s.toList := Iff.rfl

@[simp] theorem mem_toList {x : α} {s : SortedSet α} : x ∈ s.toList ↔ x ∈ s := Iff.rfl

instance [DecidableEq α] (x : α) (s : SortedSet α) : Decidable (x ∈ s) :=
  inferInstanceAs (Decidable (x ∈ s.toList))

instance : HasSubset (SortedSet α) := ⟨fun s t ↦ ∀ x ∈ s.toList, x ∈ t⟩

theorem subset_def {s t : SortedSet α} : s ⊆ t ↔ ∀ x ∈ s, x ∈ t := Iff.rfl

theorem Subset.refl (s : SortedSet α) : s ⊆ s := fun _ h ↦ h

theorem Subset.trans {s t u : SortedSet α} (h : s ⊆ t) (h' : t ⊆ u) : s ⊆ u :=
  fun x hx ↦ h' x (h x hx)

instance [DecidableEq α] (s t : SortedSet α) : Decidable (s ⊆ t) :=
  inferInstanceAs (Decidable (∀ x ∈ s.toList, x ∈ t))

/-- Two sets are disjoint when no member of the first lies in the second. -/
def Disjoint (s t : SortedSet α) : Prop := ∀ x ∈ s.toList, x ∉ t

theorem disjoint_def {s t : SortedSet α} : s.Disjoint t ↔ ∀ x ∈ s, x ∉ t := Iff.rfl

instance [DecidableEq α] (s t : SortedSet α) : Decidable (s.Disjoint t) :=
  inferInstanceAs (Decidable (∀ x ∈ s.toList, x ∉ t))

/-- The set without members. -/
def empty : SortedSet α := ⟨[], .nil⟩

instance : EmptyCollection (SortedSet α) := ⟨empty⟩

instance : Inhabited (SortedSet α) := ⟨empty⟩

@[simp] theorem toList_empty : (∅ : SortedSet α).toList = [] := rfl

@[simp] theorem not_mem_empty (x : α) : x ∉ (∅ : SortedSet α) := List.not_mem_nil

/-- The number of members. -/
def size (s : SortedSet α) : Nat := s.toList.length

/-- Whether the set has no member. -/
def isEmpty (s : SortedSet α) : Bool := s.toList.isEmpty

/-- A set is empty exactly when it is `∅`. -/
@[simp] theorem isEmpty_iff {s : SortedSet α} : s.isEmpty = true ↔ s = ∅ := by
  rw [isEmpty, List.isEmpty_iff, SortedSet.ext_iff, toList_empty]

/-- The members that pass a test. -/
def filter (p : α → Bool) (s : SortedSet α) : SortedSet α :=
  ⟨s.toList.filter p, s.sorted.filter p⟩

@[simp] theorem mem_filter {p : α → Bool} {s : SortedSet α} {x : α} :
    x ∈ s.filter p ↔ x ∈ s ∧ p x = true := List.mem_filter

/-- The members of `s` that are not members of `t`. -/
def sdiff [DecidableEq α] (s t : SortedSet α) : SortedSet α := s.filter fun x ↦ decide (x ∉ t)

instance [DecidableEq α] : SDiff (SortedSet α) := ⟨sdiff⟩

@[simp] theorem mem_sdiff [DecidableEq α] {s t : SortedSet α} {x : α} :
    x ∈ s \ t ↔ x ∈ s ∧ x ∉ t := by
  change x ∈ sdiff s t ↔ _
  simp [sdiff]

variable [LE α] [Std.IsLinearOrder α] [Std.LawfulOrderLT α]

/-- Increasing lists with the same members are equal. -/
theorem eq_of_pairwise {xs ys : List α} (hx : xs.Pairwise (· < ·)) (hy : ys.Pairwise (· < ·))
    (h : ∀ z, z ∈ xs ↔ z ∈ ys) : xs = ys := by
  induction xs generalizing ys with
  | nil =>
    cases ys with
    | nil => rfl
    | cons y ys => exact absurd ((h y).2 (List.mem_cons_self ..)) (List.not_mem_nil)
  | cons x xs ih =>
    cases ys with
    | nil => exact absurd ((h x).1 (List.mem_cons_self ..)) (List.not_mem_nil)
    | cons y ys =>
      obtain ⟨hx1, hx2⟩ := List.pairwise_cons.1 hx
      obtain ⟨hy1, hy2⟩ := List.pairwise_cons.1 hy
      have hxy : x = y := by
        rcases List.mem_cons.1 ((h x).1 (List.mem_cons_self ..)) with e | m
        · exact e
        rcases List.mem_cons.1 ((h y).2 (List.mem_cons_self ..)) with e | m'
        · exact e.symm
        exact absurd (Std.lt_trans (hy1 x m) (hx1 y m')) Std.lt_irrefl
      subst hxy
      congr 1
      refine ih hx2 hy2 fun z ↦ ⟨fun hz ↦ ?_, fun hz ↦ ?_⟩
      · rcases List.mem_cons.1 ((h z).1 (List.mem_cons_of_mem _ hz)) with e | m
        · exact absurd (e ▸ hx1 z hz) Std.lt_irrefl
        · exact m
      · rcases List.mem_cons.1 ((h z).2 (List.mem_cons_of_mem _ hz)) with e | m
        · exact absurd (e ▸ hy1 z hz) Std.lt_irrefl
        · exact m

/-- Sets with the same members are equal. -/
theorem ext_mem {s t : SortedSet α} (h : ∀ z, z ∈ s ↔ z ∈ t) : s = t :=
  SortedSet.ext (eq_of_pairwise s.sorted t.sorted h)

/-- Nothing is left over exactly when the first set is contained in the second. -/
theorem sdiff_eq_empty_iff [DecidableEq α] {s t : SortedSet α} : s \ t = ∅ ↔ s ⊆ t := by
  constructor
  · intro h x hx
    refine Decidable.byContradiction fun hxt ↦ not_mem_empty x ?_
    rw [← h]
    exact mem_sdiff.2 ⟨hx, hxt⟩
  · intro h
    apply ext_mem
    intro x
    rw [mem_sdiff]
    exact ⟨fun hx ↦ absurd (h x hx.1) hx.2, fun hx ↦ absurd hx (not_mem_empty x)⟩

variable [DecidableLT α]

/-- Puts `x` at its place in an increasing list, which is left alone when it already holds `x`. -/
def place (x : α) : List α → List α
  | [] => [x]
  | y :: ys => if x < y then x :: y :: ys else if y < x then y :: place x ys else y :: ys

theorem mem_place {x z : α} {xs : List α} : z ∈ place x xs ↔ z = x ∨ z ∈ xs := by
  induction xs with
  | nil => simp [place]
  | cons y ys ih =>
    rw [place]
    split
    · simp
    split
    · simp [ih]; grind
    next hxy hyx =>
      rcases Std.lt_trichotomy x y with h | h | h
      · exact absurd h hxy
      · subst h; simp
      · exact absurd h hyx

theorem pairwise_place {x : α} {xs : List α} (h : xs.Pairwise (· < ·)) :
    (place x xs).Pairwise (· < ·) := by
  induction xs with
  | nil => simp [place]
  | cons y ys ih =>
    obtain ⟨hy, hys⟩ := List.pairwise_cons.1 h
    rw [place]
    split
    next hxy =>
      refine List.pairwise_cons.2 ⟨fun z hz ↦ ?_, h⟩
      rcases List.mem_cons.1 hz with rfl | hz
      · exact hxy
      · exact Std.lt_trans hxy (hy z hz)
    split
    next hyx =>
      refine List.pairwise_cons.2 ⟨fun z hz ↦ ?_, ih hys⟩
      rcases mem_place.1 hz with rfl | hz
      · exact hyx
      · exact hy z hz
    · exact h

/-- Adds one member. -/
def insert (x : α) (s : SortedSet α) : SortedSet α :=
  ⟨place x s.toList, pairwise_place s.sorted⟩

@[simp] theorem mem_insert {x z : α} {s : SortedSet α} : z ∈ s.insert x ↔ z = x ∨ z ∈ s := mem_place

/-- The set of the elements of a list; order and repetition do not matter. -/
def ofList (xs : List α) : SortedSet α := xs.foldl (fun s x ↦ s.insert x) ∅

theorem mem_foldl_insert {xs : List α} {s : SortedSet α} {z : α} :
    z ∈ xs.foldl (fun s x ↦ s.insert x) s ↔ z ∈ s ∨ z ∈ xs := by
  induction xs generalizing s with
  | nil => simp
  | cons x xs ih => simp [ih]; grind

@[simp] theorem mem_ofList {xs : List α} {z : α} : z ∈ ofList xs ↔ z ∈ xs := by
  simp [ofList, mem_foldl_insert]

/-- The members of either set. -/
def union (s t : SortedSet α) : SortedSet α := t.toList.foldl (fun u x ↦ u.insert x) s

instance : Union (SortedSet α) := ⟨union⟩

@[simp] theorem mem_union {s t : SortedSet α} {z : α} : z ∈ s ∪ t ↔ z ∈ s ∨ z ∈ t := by
  change z ∈ union s t ↔ _
  simp [union, mem_foldl_insert]

/-- Reading a set back from its list changes nothing. -/
@[simp] theorem ofList_toList (s : SortedSet α) : ofList s.toList = s :=
  ext_mem fun _ ↦ mem_ofList

/-- The union of a list of sets. -/
def unions (ss : List (SortedSet α)) : SortedSet α := ss.foldl (· ∪ ·) ∅

@[simp] theorem mem_unions {ss : List (SortedSet α)} {z : α} :
    z ∈ unions ss ↔ ∃ s ∈ ss, z ∈ s := by
  suffices h : ∀ u : SortedSet α, z ∈ ss.foldl (· ∪ ·) u ↔ z ∈ u ∨ ∃ s ∈ ss, z ∈ s by
    simpa [unions] using h ∅
  induction ss with
  | nil => simp
  | cons s ss ih => intro u; simp [ih, or_assoc]

end SortedSet

end ManuscriptReach
