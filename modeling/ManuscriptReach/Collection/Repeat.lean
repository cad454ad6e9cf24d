/-!
# Repeated elements and neighbouring pairs of a list
-/

namespace ManuscriptReach

variable {α : Type}

/-- The first element of a list that also stands earlier in it or in `seen`. -/
def firstRepeatAfter? [DecidableEq α] (seen : List α) : List α → Option α
  | [] => none
  | x :: xs => if x ∈ seen then some x else firstRepeatAfter? (x :: seen) xs

/-- The first element of a list that also stands earlier in it. -/
def firstRepeat? [DecidableEq α] (xs : List α) : Option α := firstRepeatAfter? [] xs

theorem firstRepeatAfter?_eq_none_iff [DecidableEq α] {seen xs : List α} :
    firstRepeatAfter? seen xs = none ↔ xs.Nodup ∧ ∀ x ∈ xs, x ∉ seen := by
  induction xs generalizing seen with
  | nil => simp [firstRepeatAfter?]
  | cons x xs ih =>
    rw [firstRepeatAfter?]
    split
    next h => simp [h]
    next h =>
      rw [ih, List.nodup_cons]
      simp only [List.mem_cons, not_or]
      grind

/-- A list has no repeated element exactly when its elements are pairwise different. -/
theorem firstRepeat?_eq_none_iff [DecidableEq α] {xs : List α} :
    firstRepeat? xs = none ↔ xs.Nodup := by
  simp [firstRepeat?, firstRepeatAfter?_eq_none_iff]

theorem nodup_eraseDups [DecidableEq α] (xs : List α) : xs.eraseDups.Nodup := by
  induction hn : xs.length using Nat.strongRecOn generalizing xs with
  | _ n ih =>
    cases xs with
    | nil => exact List.nodup_nil
    | cons x xs =>
      rw [List.eraseDups_cons, List.nodup_cons]
      constructor
      · simp [List.mem_eraseDups]
      · refine ih _ ?_ _ rfl
        rw [← hn, List.length_cons]
        exact Nat.lt_succ_of_le (List.length_filter_le _ xs)

/-- Each element of a list with its successor. -/
def adjacentPairs (xs : List α) : List (α × α) := xs.zip xs.tail

theorem adjacentPairs_map {β : Type} (f : α → β) (xs : List α) :
    adjacentPairs (xs.map f) = (adjacentPairs xs).map (Prod.map f f) := by
  rw [adjacentPairs, adjacentPairs, ← List.map_tail, List.zip_map]

/-- Pairwise different elements make pairwise different pairs. -/
theorem nodup_adjacentPairs {xs : List α} (h : xs.Nodup) : (adjacentPairs xs).Nodup := by
  induction xs with
  | nil => exact List.nodup_nil
  | cons x xs ih =>
    obtain ⟨hx, hxs⟩ := List.nodup_cons.1 h
    cases xs with
    | nil => exact List.nodup_nil
    | cons y ys =>
      change ((x, y) :: adjacentPairs (y :: ys)).Nodup
      refine List.nodup_cons.2 ⟨fun mem ↦ ?_, ih hxs⟩
      exact hx (List.of_mem_zip mem).1

end ManuscriptReach
