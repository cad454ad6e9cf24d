import ManuscriptReach.Collection.SortedMap

/-!
# Tables of slots

A `SlotTable α` gives every element that it meets a slot: the first element gets
slot 0, and each new one the slot after the last.  An element that was met before
keeps the slot it got then.

So work on the elements of a list can be done once for each distinct element, and
be read back at the slots (`SlotTable.assign`, `gather`).
-/

namespace ManuscriptReach

/-- The elements met so far, and the slot of each. -/
structure SlotTable (α : Type) [DecidableEq α] where
  /-- The slot of each element met. -/
  slots : List (α × Nat)
  /-- The elements met, in the order of their slots. -/
  keys : List α
  /-- An element has a slot exactly when it stands there. -/
  lookup_iff : ∀ x i, slots.lookup x = some i ↔ keys[i]? = some x

namespace SlotTable

variable {α : Type} [DecidableEq α]

/-- The table that has met nothing. -/
def empty : SlotTable α := ⟨[], [], by simp⟩

/-- A new element can have the slot after the last. -/
theorem lookup_iff_push {t : SlotTable α} {x : α} (h : t.slots.lookup x = none) (y : α) (i : Nat) :
    ((x, t.keys.length) :: t.slots).lookup y = some i ↔ (t.keys ++ [x])[i]? = some y := by
  rw [SortedMap.lookup_cons_ite]
  split
  next hy =>
    subst hy
    have fresh : t.keys[i]? ≠ some y := fun e ↦ by
      rw [(t.lookup_iff y i).2 e] at h
      cases h
    rcases Nat.lt_trichotomy i t.keys.length with hi | rfl | hi
    · rw [List.getElem?_append_left hi]
      simp only [fresh, iff_false, Option.some.injEq]
      omega
    · simp
    · rw [List.getElem?_eq_none (by simp; omega)]
      simp only [reduceCtorEq, iff_false, Option.some.injEq]
      omega
  next hy =>
    rw [t.lookup_iff]
    rcases Nat.lt_trichotomy i t.keys.length with hi | rfl | hi
    · rw [List.getElem?_append_left hi]
    · simp [Ne.symm hy]
    · rw [List.getElem?_eq_none (by omega), List.getElem?_eq_none (by simp; omega)]

/-- The slot of an element, which gets one when it is new. -/
def assign (t : SlotTable α) (x : α) : Nat × SlotTable α :=
  match h : t.slots.lookup x with
  | some i => (i, t)
  | none => (t.keys.length, ⟨(x, t.keys.length) :: t.slots, t.keys ++ [x], lookup_iff_push h⟩)

/-- The slots of the elements of a list, one after another. -/
def assignAll (t : SlotTable α) : List α → List Nat × SlotTable α
  | [] => ([], t)
  | x :: xs =>
    let first := t.assign x
    let rest := first.2.assignAll xs
    (first.1 :: rest.1, rest.2)

/-- An element stands at the slot that it is given. -/
theorem getElem?_assign (t : SlotTable α) (x : α) :
    (t.assign x).2.keys[(t.assign x).1]? = some x := by
  unfold assign
  split
  next i h => exact (t.lookup_iff x i).1 h
  next h => simp

/-- What was met before keeps its slot. -/
theorem prefix_assign (t : SlotTable α) (x : α) : t.keys <+: (t.assign x).2.keys := by
  unfold assign
  split
  · exact List.prefix_refl _
  · exact List.prefix_append ..

theorem prefix_assignAll (t : SlotTable α) (xs : List α) : t.keys <+: (t.assignAll xs).2.keys := by
  induction xs generalizing t with
  | nil => exact List.prefix_refl _
  | cons x xs ih => exact (t.prefix_assign x).trans (ih _)

/-- The elements that stand at the slots of a list are those of the list, in its order. -/
theorem map_getElem?_assignAll (t : SlotTable α) (xs : List α) :
    (t.assignAll xs).1.map (fun i ↦ (t.assignAll xs).2.keys[i]?) = xs.map some := by
  induction xs generalizing t with
  | nil => rfl
  | cons x xs ih =>
    have first : ((t.assign x).2.assignAll xs).2.keys[(t.assign x).1]? = some x := by
      -- the slots given to `xs` come after those given up to `x`
      obtain ⟨ks, hks⟩ := (t.assign x).2.prefix_assignAll xs
      have stands := t.getElem?_assign x
      obtain ⟨hlt, -⟩ := List.getElem?_eq_some_iff.1 stands
      rw [← hks, List.getElem?_append_left hlt, stands]
    simp only [assignAll, List.map_cons, first, ih]

/-- Something stands at every slot of a list. -/
theorem lt_length_of_mem_assignAll {t : SlotTable α} {xs : List α} {i : Nat}
    (h : i ∈ (t.assignAll xs).1) : i < (t.assignAll xs).2.keys.length := by
  have stands : (t.assignAll xs).2.keys[i]? ∈ xs.map some := by
    rw [← t.map_getElem?_assignAll xs]
    exact List.mem_map_of_mem h
  obtain ⟨x, -, hx⟩ := List.mem_map.1 stands
  exact (List.getElem?_eq_some_iff.1 hx.symm).1

theorem length_assignAll (t : SlotTable α) (xs : List α) :
    (t.assignAll xs).1.length = xs.length := by
  simpa using congrArg List.length (t.map_getElem?_assignAll xs)

/-- No element has two slots. -/
theorem nodup_keys (t : SlotTable α) : t.keys.Nodup := by
  refine List.pairwise_iff_getElem.2 fun i j hi hj hij e ↦ ?_
  have atI := (t.lookup_iff _ _).2 (List.getElem?_eq_getElem hi)
  have atJ := (t.lookup_iff _ _).2 (List.getElem?_eq_getElem hj)
  rw [e, atJ] at atI
  exact absurd (Option.some.inj atI) (by omega)

theorem mem_keys_assign {t : SlotTable α} {x y : α} :
    y ∈ (t.assign x).2.keys ↔ y = x ∨ y ∈ t.keys := by
  unfold assign
  split
  next i h =>
    have hx : x ∈ t.keys := List.mem_of_getElem? ((t.lookup_iff x i).1 h)
    constructor
    · exact Or.inr
    · rintro (rfl | hy)
      · exact hx
      · exact hy
  next h => simp [or_comm]

/-- A table has met what it had met before and the elements of the list. -/
theorem mem_keys_assignAll {t : SlotTable α} {xs : List α} {y : α} :
    y ∈ (t.assignAll xs).2.keys ↔ y ∈ xs ∨ y ∈ t.keys := by
  induction xs generalizing t with
  | nil => simp [assignAll]
  | cons x xs ih =>
    change y ∈ ((t.assign x).2.assignAll xs).2.keys ↔ _
    rw [ih, mem_keys_assign, List.mem_cons]
    constructor
    · rintro (h | rfl | h)
      · exact .inl (.inr h)
      · exact .inl (.inl rfl)
      · exact .inr h
    · rintro ((rfl | h) | h)
      · exact .inr (.inl rfl)
      · exact .inl h
      · exact .inr (.inr h)

end SlotTable

/-- The values at some slots, each of which has one. -/
def gather {β : Type} (values : List β) (slots : List Nat) (h : ∀ i ∈ slots, i < values.length) :
    List β :=
  slots.attach.map fun i ↦ values.get ⟨i.1, h i.1 i.2⟩

/-- Gathering finds what a partial look-up finds. -/
theorem map_some_gather {β : Type} {values : List β} {slots : List Nat}
    (h : ∀ i ∈ slots, i < values.length) :
    (gather values slots h).map some = slots.map fun i ↦ values[i]? := by
  rw [gather, List.map_map, ← List.attach_map_val (f := fun i ↦ values[i]?) (l := slots)]
  refine List.map_congr_left fun i _ ↦ ?_
  exact (List.getElem?_eq_getElem (h i.1 i.2)).symm

end ManuscriptReach
