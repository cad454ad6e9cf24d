import Mathlib.Data.List.Basic
import ManuscriptReach.Collection.Repeat

/-!
# Checks that report their first fault

A check stops at the first fault it finds.  `Checks fs x` says so without the order of
evaluation: `fs` lists every fault, whether the check gets there or not; `x` fails with
the first of them, and passes when there is none.

Checks that run one after another find the faults of the first and then those of the
second (`Checks.bind`), and a check of every element of a list finds those of the
elements in turn (`Checks.mapM`).
-/

namespace ManuscriptReach

variable {α β ε : Type}

/-- A result fails with the first of all faults, and passes without one. -/
inductive Checks : List ε → Except ε α → Prop
  /-- There is no fault. -/
  | passed (a : α) : Checks [] (.ok a)
  /-- The first fault is reported, whatever else is wrong. -/
  | failed (f : ε) (fs : List ε) : Checks (f :: fs) (.error f)

namespace Checks

variable {fs gs : List ε} {x : Except ε α}

/-- What is reported is the first fault of the first list that has one. -/
theorem of_head? {f : ε} (h : fs.head? = some f) (gs : List ε) :
    Checks (fs ++ gs) (.error f : Except ε α) := by
  obtain ⟨rest, rfl⟩ := List.head?_eq_some_iff.1 h
  exact .failed f (rest ++ gs)

/-- A list without faults does not count. -/
theorem of_append (h : fs = []) (hx : Checks gs x) : Checks (fs ++ gs) x := by
  rw [h]
  exact hx

/-- A check fails with the first fault. -/
theorem eq_error_iff (h : Checks fs x) {f : ε} : x = .error f ↔ fs.head? = some f := by
  cases h with
  | passed a => simp
  | failed g gs => simp

/-- A check passes when there is no fault. -/
theorem exists_eq_ok_iff (h : Checks fs x) : (∃ a, x = .ok a) ↔ fs = [] := by
  cases h with
  | passed a => simp
  | failed g gs => simp

/-- After a check that passes the next one runs. -/
theorem bind {k : α → Except ε β} (h : Checks fs x) (hk : ∀ a, x = .ok a → Checks gs (k a)) :
    Checks (fs ++ gs) (x >>= k) := by
  cases h with
  | passed a => exact hk a rfl
  | failed f fs => exact .failed f (fs ++ gs)

/-- What is done with the result of a check adds no fault. -/
theorem bind_pure (h : Checks fs x) (k : α → β) : Checks fs (x >>= fun a ↦ pure (k a)) := by
  rw [← List.append_nil fs]
  exact h.bind fun a _ ↦ .passed (k a)

/-- A fault in other words is the first in other words. -/
theorem mapError {δ : Type} (h : Checks fs x) (g : ε → δ) : Checks (fs.map g) (x.mapError g) := by
  cases h with
  | passed a => exact .passed a
  | failed f fs => exact .failed (g f) (fs.map g)

/-- The elements of a list are checked one after another. -/
theorem mapM {xs : List α} {faults : α → List ε} {check : α → Except ε β}
    (h : ∀ x, Checks (faults x) (check x)) : Checks (xs.flatMap faults) (xs.mapM check) := by
  induction xs with
  | nil => exact .passed []
  | cons x xs ih =>
    rw [List.flatMap_cons, List.mapM_cons]
    exact (h x).bind fun y _ ↦ ih.bind_pure (y :: ·)

end Checks

section Results

variable {x : Except ε α} {f : α → β}

theorem map_eq_ok_iff {b : β} : x.map f = .ok b ↔ ∃ a, x = .ok a ∧ f a = b := by
  cases x <;> simp [Except.map]

theorem map_eq_error_iff {fault : ε} : x.map f = .error fault ↔ x = .error fault := by
  cases x <;> simp [Except.map]

theorem map_map {γ : Type} (g : β → γ) : (x.map f).map g = x.map fun a ↦ g (f a) := by
  cases x <;> rfl

theorem map_mapError {δ : Type} (x : Except ε α) (g : ε → δ) (f : α → β) :
    (x.mapError g).map f = (x.map f).mapError g := by
  cases x <;> rfl

theorem mapError_mapError {δ γ : Type} (x : Except ε α) (g : ε → δ) (h : δ → γ) :
    (x.mapError g).mapError h = x.mapError fun fault ↦ h (g fault) := by
  cases x <;> rfl

theorem bind_eq_ok_iff {k : α → Except ε β} {b : β} :
    x >>= k = .ok b ↔ ∃ a, x = .ok a ∧ k a = .ok b := by
  cases x <;> simp [bind, Except.bind]

/-- A result is the value that it is known to hold. -/
theorem eq_ok_get (h : x.toOption.isSome = true) : x = .ok (x.toOption.get h) := by
  cases x with
  | error fault => cases h
  | ok a => rfl

end Results

/-- What the results of a check tell of their elements, they tell of all, in order. -/
theorem map_eq_map_of_mapM {γ : Type} {xs : List α} {ys : List β} {check : α → Except ε β}
    {f : α → γ} {g : β → γ} (h : xs.mapM check = .ok ys)
    (same : ∀ x y, check x = .ok y → f x = g y) : xs.map f = ys.map g := by
  induction xs generalizing ys with
  | nil =>
    cases h
    rfl
  | cons x xs ih =>
    rw [List.mapM_cons] at h
    cases hx : check x with
    | error fault =>
      rw [hx] at h
      cases h
    | ok y =>
      cases hxs : xs.mapM check with
      | error fault =>
        rw [hx, hxs] at h
        cases h
      | ok zs =>
        rw [hx, hxs] at h
        cases h
        rw [List.map_cons, List.map_cons, same x y hx, ih hxs]

/-- A check whose results a function finds as well keeps what the function finds. -/
theorem filterMap_of_mapM {xs : List α} {ys : List β} {check : α → Except ε β} {f : α → Option β}
    (h : xs.mapM check = .ok ys) (same : ∀ x y, check x = .ok y → f x = some y) :
    xs.filterMap f = ys := by
  calc xs.filterMap f
      = (xs.map f).filterMap id := by rw [List.filterMap_map, Function.id_comp]
    _ = (ys.map some).filterMap id := by rw [map_eq_map_of_mapM h same]
    _ = ys := by rw [List.filterMap_map, Function.id_comp, List.filterMap_some]

/-- What a check makes of a list it makes of the elements. -/
theorem exists_of_mem_mapM {xs : List α} {ys : List β} {check : α → Except ε β}
    (h : xs.mapM check = .ok ys) {y : β} (hy : y ∈ ys) : ∃ x ∈ xs, check x = .ok y := by
  induction xs generalizing ys with
  | nil =>
    cases h
    cases hy
  | cons x xs ih =>
    rw [List.mapM_cons] at h
    obtain ⟨z, hz, h⟩ := bind_eq_ok_iff.1 h
    obtain ⟨zs, hzs, h⟩ := bind_eq_ok_iff.1 h
    cases h
    rcases List.mem_cons.1 hy with rfl | hy
    · exact ⟨x, List.mem_cons_self, hz⟩
    · obtain ⟨x', hx', hc⟩ := ih hzs hy
      exact ⟨x', List.mem_cons_of_mem x hx', hc⟩

/-! ## Faults of single conditions -/

/-- One fault unless a condition holds. -/
def faultUnless (condition : Prop) [Decidable condition] (fault : ε) : List ε :=
  if condition then [] else [fault]

@[simp] theorem faultUnless_eq_nil_iff {condition : Prop} [Decidable condition] {fault : ε} :
    faultUnless condition fault = [] ↔ condition := by
  unfold faultUnless
  split <;> simp_all

theorem faultUnless_of_not {condition : Prop} [Decidable condition] (h : ¬ condition) (fault : ε) :
    faultUnless condition fault = [fault] := if_neg h

/-- What may be missing is checked for being there. -/
theorem Checks.of_elim (a : Option α) (fault : ε) :
    Checks (faultUnless (a.isSome = true) fault) (a.elim (.error fault) .ok) := by
  cases a with
  | none => exact .failed fault []
  | some a => exact .passed a

/-! ## Faults of single elements -/

variable {xs : List α} {p : α → Bool} {faults : α → List ε}

/-- When a search for elements at fault finds one, the first of its faults comes first. -/
theorem head?_flatMap_of_find? {x : α} {f : ε} (h : xs.find? p = some x)
    (sound : ∀ y, p y = false → faults y = []) (hf : (faults x).head? = some f) :
    (xs.flatMap faults).head? = some f := by
  obtain ⟨-, before, after, rfl, good⟩ := List.find?_eq_some_iff_append.1 h
  have none : before.flatMap faults = [] := by
    rw [List.flatMap_eq_nil_iff]
    intro y hy
    exact sound y (by simpa using good y hy)
  rw [List.flatMap_append, none, List.nil_append, List.flatMap_cons, List.head?_append, hf]
  rfl

/-- When a search for elements at fault finds none, there is no fault. -/
theorem flatMap_eq_nil_of_find? (h : xs.find? p = none) (sound : ∀ y, p y = false → faults y = []) :
    xs.flatMap faults = [] := by
  rw [List.flatMap_eq_nil_iff]
  intro x hx
  exact sound x (by simpa using List.find?_eq_none.1 h x hx)

/-- The first fault of the elements that miss a condition is that of the first of them. -/
theorem head?_flatMap_faultUnless {condition : α → Prop} [DecidablePred condition] {fault : α → ε} :
    (xs.flatMap fun x ↦ faultUnless (condition x) (fault x)).head? =
      (xs.find? fun x ↦ decide (¬ condition x)).map fault := by
  induction xs with
  | nil => rfl
  | cons x xs ih =>
    rw [List.flatMap_cons, List.find?_cons]
    by_cases hx : condition x
    · rw [faultUnless_eq_nil_iff.2 hx, List.nil_append, ih]
      simp [hx]
    · rw [faultUnless_of_not hx]
      simp [hx]

/-! ## Repetitions -/

/-- Every element of a list together with the elements before it, which follow the given ones. -/
def withBefore (before : List α) : List α → List (List α × α)
  | [] => []
  | x :: xs => (before, x) :: withBefore (before ++ [x]) xs

/-- The elements that also stand earlier in a list. -/
def repeats [DecidableEq α] (xs : List α) : List α :=
  ((withBefore [] xs).filter fun q ↦ decide (q.2 ∈ q.1)).map Prod.snd

/-- Without what stands before them, the elements are those of the list. -/
@[simp] theorem map_snd_withBefore (before xs : List α) :
    (withBefore before xs).map Prod.snd = xs := by
  induction xs generalizing before with
  | nil => rfl
  | cons x xs ih => rw [withBefore, List.map_cons, ih]

theorem withBefore_map (f : α → β) (before xs : List α) :
    withBefore (before.map f) (xs.map f) =
      (withBefore before xs).map fun q ↦ (q.1.map f, f q.2) := by
  induction xs generalizing before with
  | nil => rfl
  | cons x xs ih =>
    rw [List.map_cons, withBefore, withBefore, List.map_cons, ← ih, List.map_append]
    rfl

theorem firstRepeatAfter?_eq_head? [DecidableEq α] {seen before : List α}
    (h : ∀ x, x ∈ seen ↔ x ∈ before) :
    firstRepeatAfter? seen xs =
      (((withBefore before xs).filter fun q ↦ decide (q.2 ∈ q.1)).map Prod.snd).head? := by
  induction xs generalizing seen before with
  | nil => rfl
  | cons x xs ih =>
    rw [firstRepeatAfter?, withBefore]
    by_cases hx : x ∈ before
    · rw [if_pos ((h x).2 hx), List.filter_cons_of_pos (by simpa using hx)]
      rfl
    · rw [if_neg (fun hs ↦ hx ((h x).1 hs)), List.filter_cons_of_neg (by simpa using hx)]
      refine ih fun y ↦ ?_
      rw [List.mem_cons, List.mem_append, List.mem_singleton, h, or_comm]

/-- The search for a repetition finds the first. -/
theorem firstRepeat?_eq_head? [DecidableEq α] (xs : List α) :
    firstRepeat? xs = (repeats xs).head? := firstRepeatAfter?_eq_head? fun _ ↦ Iff.rfl

theorem repeats_eq_nil_iff [DecidableEq α] {xs : List α} : repeats xs = [] ↔ xs.Nodup := by
  rw [← List.head?_eq_none_iff, ← firstRepeat?_eq_head?, firstRepeat?_eq_none_iff]

/-- The first repetition is the fault of a check for repetitions. -/
theorem Checks.of_repeat [DecidableEq β] {ys : List β} {y : β} (h : firstRepeat? ys = some y)
    (fault : β → ε) : Checks ((repeats ys).map fault) (.error (fault y) : Except ε α) := by
  rw [← List.append_nil (List.map _ _)]
  refine .of_head? ?_ _
  rw [List.head?_map, ← firstRepeat?_eq_head?, h]
  rfl

theorem Checks.of_nodup [DecidableEq β] {ys : List β} (h : firstRepeat? ys = none) (fault : β → ε)
    (a : α) : Checks ((repeats ys).map fault) (.ok a) := by
  rw [repeats_eq_nil_iff.2 (firstRepeat?_eq_none_iff.1 h)]
  exact .passed a

/-- The values at the elements of a list are pairwise different when no element has the value of
one before it. -/
theorem nodup_map_iff_withBefore {f : α → β} :
    (xs.map f).Nodup ↔ ∀ q ∈ withBefore [] xs, f q.2 ∉ q.1.map f := by
  classical
  rw [← repeats_eq_nil_iff, repeats, List.map_eq_nil_iff, List.filter_eq_nil_iff,
    ← List.map_nil (f := f), withBefore_map]
  simp only [List.forall_mem_map, decide_eq_true_eq]

end ManuscriptReach
