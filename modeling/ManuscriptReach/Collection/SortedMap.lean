import ManuscriptReach.Collection.SortedSet

/-!
# Finite maps in canonical form

A `SortedMap κ β` is a list of pairs with strictly increasing keys.  As for
`SortedSet`, a finite map has exactly one such list, so writing a map out gives
its keys in order, each once.
-/

namespace ManuscriptReach

/-- A finite map, kept as its pairs in strictly increasing order of their keys. -/
@[ext]
structure SortedMap (κ : Type) [LT κ] (β : Type) where
  /-- The pairs, smallest key first. -/
  toList : List (κ × β)
  /-- Each key is smaller than every later one. -/
  sorted : (toList.map Prod.fst).Pairwise (· < ·)

/-- Finite maps from strings. -/
abbrev StringMap (β : Type) := SortedMap String β

namespace SortedMap

theorem lookup_cons_ite {κ β : Type} [DecidableEq κ] {k z : κ} {b : β} {xs : List (κ × β)} :
    ((k, b) :: xs).lookup z = if z = k then some b else xs.lookup z := by
  by_cases h : z = k
  · simp [h]
  · simp [List.lookup_cons, h, beq_eq_false_iff_ne.2 h]

/-- Lists of pairs with the same keys, each once, and the same values are equal. -/
theorem eq_of_lookup {κ β : Type} [DecidableEq κ] {xs ys : List (κ × β)}
    (nodup : (xs.map Prod.fst).Nodup) (keys : xs.map Prod.fst = ys.map Prod.fst)
    (h : ∀ k, xs.lookup k = ys.lookup k) : xs = ys := by
  induction xs generalizing ys with
  | nil => exact (List.map_eq_nil_iff.1 keys.symm).symm
  | cons p xs ih =>
    obtain ⟨k, b⟩ := p
    obtain ⟨⟨l, c⟩, ys, rfl, same, tails⟩ := List.map_eq_cons_iff.1 keys.symm
    cases same
    obtain ⟨hk, nodup⟩ := List.nodup_cons.1 nodup
    have value := h k
    simp only [lookup_cons_ite] at value
    cases value
    congr 1
    refine ih nodup tails.symm fun z ↦ ?_
    have same := h z
    simp only [lookup_cons_ite] at same
    by_cases hz : z = k
    · have absent {zs : List (κ × β)} (hzs : k ∉ zs.map Prod.fst) : zs.lookup z = none := by
        refine List.lookup_eq_none_iff.2 fun q hq ↦ bne_iff_ne.2 fun e ↦ hzs ?_
        exact hz ▸ e ▸ List.mem_map_of_mem hq
      rw [absent hk, absent (tails ▸ hk)]
    · simpa [hz] using same

variable {κ β : Type} [LT κ]

instance [DecidableEq κ] [DecidableEq β] : DecidableEq (SortedMap κ β) := fun s t ↦
  decidable_of_iff (s.toList = t.toList) SortedMap.ext_iff.symm

theorem pairwise_keys_nil : (([] : List (κ × β)).map Prod.fst).Pairwise (· < ·) := List.Pairwise.nil

/-- The map without keys. -/
def empty : SortedMap κ β := ⟨[], pairwise_keys_nil⟩

instance : EmptyCollection (SortedMap κ β) := ⟨empty⟩

instance : Inhabited (SortedMap κ β) := ⟨empty⟩

@[simp] theorem toList_empty : (∅ : SortedMap κ β).toList = [] := rfl

/-- The keys, smallest first. -/
def keys (m : SortedMap κ β) : List κ := m.toList.map Prod.fst

/-- The number of keys. -/
def size (m : SortedMap κ β) : Nat := m.toList.length

/-- Whether the map has no key. -/
def isEmpty (m : SortedMap κ β) : Bool := m.toList.isEmpty

/-- The value at a key. -/
def get? [DecidableEq κ] (m : SortedMap κ β) (k : κ) : Option β := m.toList.lookup k

theorem get?_eq_none_iff [DecidableEq κ] {m : SortedMap κ β} {k : κ} :
    m.get? k = none ↔ k ∉ m.keys := by
  rw [get?, List.lookup_eq_none_iff, keys, List.mem_map]
  constructor
  · rintro h ⟨p, hp, rfl⟩
    simpa using h p hp
  · intro h p hp
    exact bne_iff_ne.2 fun e ↦ h ⟨p, hp, e.symm⟩

/-- The value at a key stands in the pair with this key. -/
theorem get?_eq_some_iff [DecidableEq κ] [LE κ] [Std.IsLinearOrder κ] [Std.LawfulOrderLT κ]
    {m : SortedMap κ β} {k : κ} {b : β} : m.get? k = some b ↔ (k, b) ∈ m.toList := by
  obtain ⟨xs, sorted⟩ := m
  change xs.lookup k = some b ↔ (k, b) ∈ xs
  induction xs with
  | nil => simp
  | cons p xs ih =>
    obtain ⟨l, c⟩ := p
    obtain ⟨hl, hxs⟩ := List.pairwise_cons.1 sorted
    rw [lookup_cons_ite, List.mem_cons, Prod.mk.injEq]
    by_cases h : k = l
    · subst h
      have others : (k, b) ∉ xs := fun mem ↦
        Std.lt_irrefl (hl k (List.mem_map_of_mem mem))
      simp [others, eq_comm]
    · simp [h, ih hxs]

/-- Maps with the same values are equal. -/
theorem ext_get? [DecidableEq κ] [LE κ] [Std.IsLinearOrder κ] [Std.LawfulOrderLT κ]
    {m n : SortedMap κ β} (h : ∀ k, m.get? k = n.get? k) : m = n := by
  have keys : m.keys = n.keys := by
    refine SortedSet.eq_of_pairwise m.sorted n.sorted fun k ↦ ?_
    have absent : k ∉ m.keys ↔ k ∉ n.keys := by
      rw [← get?_eq_none_iff, ← get?_eq_none_iff, h]
    exact ⟨fun hm ↦ Decidable.byContradiction fun hn ↦ absent.2 hn hm,
      fun hn ↦ Decidable.byContradiction fun hm ↦ absent.1 hm hn⟩
  exact SortedMap.ext (eq_of_lookup (m.sorted.imp Std.ne_of_lt) keys h)

@[simp] theorem get?_empty [DecidableEq κ] (k : κ) : (∅ : SortedMap κ β).get? k = none := rfl

/-- The map that sends each member of a set to a function's value there. -/
def ofKeys (s : SortedSet κ) (f : κ → β) : SortedMap κ β :=
  ⟨s.toList.map fun k ↦ (k, f k), by
    have h : (s.toList.map fun k ↦ (k, f k)).map Prod.fst = s.toList := by
      rw [List.map_map]; exact List.map_id _
    rw [h]; exact s.sorted⟩

@[simp] theorem get?_ofKeys [DecidableEq κ] {s : SortedSet κ} {f : κ → β} {k : κ} :
    (ofKeys s f).get? k = if k ∈ s then some (f k) else none := by
  change (s.toList.map fun k ↦ (k, f k)).lookup k = if k ∈ s.toList then _ else _
  induction s.toList with
  | nil => simp
  | cons x xs ih =>
    rw [List.map_cons, lookup_cons_ite, ih]
    by_cases h : k = x <;> simp [h]

variable [DecidableLT κ]

/-- Replaces the value at `k` in an increasing list of pairs by a function of the old one. -/
def placeWith (f : Option β → β) (k : κ) : List (κ × β) → List (κ × β)
  | [] => [(k, f none)]
  | (l, b) :: rest =>
    if k < l then (k, f none) :: (l, b) :: rest
    else if l < k then (l, b) :: placeWith f k rest
    else (k, f (some b)) :: rest

theorem mem_keys_placeWith {f : Option β → β} {k z : κ} {xs : List (κ × β)}
    [LE κ] [Std.IsLinearOrder κ] [Std.LawfulOrderLT κ] :
    z ∈ (placeWith f k xs).map Prod.fst ↔ z = k ∨ z ∈ xs.map Prod.fst := by
  induction xs with
  | nil => simp [placeWith]
  | cons p rest ih =>
    obtain ⟨l, b⟩ := p
    rw [placeWith]
    split
    · simp
    split
    · rw [List.map_cons, List.mem_cons, ih, List.map_cons, List.mem_cons]; grind
    next hkl hlk =>
      rcases Std.lt_trichotomy k l with h | h | h
      · exact absurd h hkl
      · subst h; simp
      · exact absurd h hlk

variable [LE κ] [Std.IsLinearOrder κ] [Std.LawfulOrderLT κ]

theorem pairwise_placeWith {f : Option β → β} {k : κ} {xs : List (κ × β)}
    (h : (xs.map Prod.fst).Pairwise (· < ·)) :
    ((placeWith f k xs).map Prod.fst).Pairwise (· < ·) := by
  induction xs with
  | nil => simp [placeWith]
  | cons p rest ih =>
    obtain ⟨l, b⟩ := p
    obtain ⟨hl, hrest⟩ := List.pairwise_cons.1 h
    rw [placeWith]
    split
    next hkl =>
      refine List.pairwise_cons.2 ⟨fun z hz ↦ ?_, h⟩
      rcases List.mem_cons.1 hz with rfl | hz
      · exact hkl
      · exact Std.lt_trans hkl (hl z hz)
    split
    next hlk =>
      refine List.pairwise_cons.2 ⟨fun z hz ↦ ?_, ih hrest⟩
      rcases mem_keys_placeWith.1 hz with rfl | hz
      · exact hlk
      · exact hl z hz
    next hkl hlk =>
      rcases Std.lt_trichotomy k l with e | e | e
      · exact absurd e hkl
      · subst e; exact h
      · exact absurd e hlk

/-- Sets the value at `k` to a function of the value that was there. -/
def alter (f : Option β → β) (k : κ) (m : SortedMap κ β) : SortedMap κ β :=
  ⟨placeWith f k m.toList, pairwise_placeWith m.sorted⟩

theorem mem_keys_alter {f : Option β → β} {k z : κ} {m : SortedMap κ β} :
    z ∈ (m.alter f k).keys ↔ z = k ∨ z ∈ m.keys := mem_keys_placeWith

/-- Sets the value at `k`. -/
def insert (k : κ) (b : β) (m : SortedMap κ β) : SortedMap κ β := m.alter (fun _ ↦ b) k

/-- The map of a list of pairs; of two pairs with one key the later counts. -/
def ofList (ps : List (κ × β)) : SortedMap κ β := ps.foldl (fun m p ↦ m.insert p.1 p.2) ∅

/-- A key above all others comes last. -/
theorem placeWith_eq_append {f : Option β → β} {k : κ} {ps : List (κ × β)}
    (above : ∀ p ∈ ps, p.1 < k) : placeWith f k ps = ps ++ [(k, f none)] := by
  induction ps with
  | nil => rfl
  | cons p ps ih =>
    obtain ⟨l, b⟩ := p
    obtain ⟨first, rest⟩ := List.forall_mem_cons.1 above
    have notBelow : ¬ k < l := fun below ↦ Std.lt_irrefl (Std.lt_trans below first)
    rw [placeWith, if_neg notBelow, if_pos first, ih rest]
    rfl

/-- Pairs with increasing keys are put behind those that are there. -/
theorem toList_foldl_insert {m : SortedMap κ β} {ps : List (κ × β)}
    (sorted : ((m.toList ++ ps).map Prod.fst).Pairwise (· < ·)) :
    (ps.foldl (fun m p ↦ m.insert p.1 p.2) m).toList = m.toList ++ ps := by
  induction ps generalizing m with
  | nil => exact (List.append_nil _).symm
  | cons p ps ih =>
    have above : ∀ q ∈ m.toList, q.1 < p.1 := by
      rw [List.map_append, List.pairwise_append] at sorted
      intro q hq
      exact sorted.2.2 q.1 (List.mem_map_of_mem hq) p.1 (List.mem_cons_self ..)
    have placed : (m.insert p.1 p.2).toList = m.toList ++ [p] := placeWith_eq_append above
    have appended : (m.insert p.1 p.2).toList ++ ps = m.toList ++ p :: ps := by
      rw [placed, List.append_assoc]
      rfl
    rw [List.foldl_cons, ih (by rw [appended]; exact sorted), appended]

/-- Reading a map back from its list changes nothing. -/
theorem ofList_toList (m : SortedMap κ β) : ofList m.toList = m :=
  SortedMap.ext (toList_foldl_insert (m := ∅) m.sorted)

variable [DecidableEq κ]

theorem lookup_placeWith {f : Option β → β} {k z : κ} {xs : List (κ × β)}
    (h : (xs.map Prod.fst).Pairwise (· < ·)) :
    (placeWith f k xs).lookup z = if z = k then some (f (xs.lookup k)) else xs.lookup z := by
  induction xs with
  | nil => simp [placeWith, lookup_cons_ite]
  | cons p rest ih =>
    obtain ⟨l, b⟩ := p
    obtain ⟨hl, hrest⟩ := List.pairwise_cons.1 h
    have absent : k < l → ((l, b) :: rest).lookup k = none := by
      intro hkl
      refine List.lookup_eq_none_iff.2 fun q hq ↦ ?_
      rcases List.mem_cons.1 hq with rfl | hq
      · simpa using fun e : k = l ↦ Std.lt_irrefl (e ▸ hkl : l < l)
      · have := Std.lt_trans hkl (hl q.1 (List.mem_map_of_mem hq))
        simpa using fun e : k = q.1 ↦ Std.lt_irrefl (e ▸ this : q.1 < q.1)
    rw [placeWith]
    split
    next hkl => rw [lookup_cons_ite, absent hkl]
    split
    next hkl hlk =>
      have hne : k ≠ l := fun e ↦ hkl (e ▸ hlk)
      simp only [lookup_cons_ite, ih hrest, hne, if_false]
      by_cases hz : z = l
      · simp [hz, hne.symm]
      · simp [hz]
    next hkl hlk =>
      rcases Std.lt_trichotomy k l with e | e | e
      · exact absurd e hkl
      · subst e
        by_cases hz : z = k <;> simp [lookup_cons_ite, hz]
      · exact absurd e hlk

@[simp] theorem get?_alter {f : Option β → β} {k z : κ} {m : SortedMap κ β} :
    (m.alter f k).get? z = if z = k then some (f (m.get? k)) else m.get? z :=
  lookup_placeWith m.sorted

@[simp] theorem get?_insert {k z : κ} {b : β} {m : SortedMap κ β} :
    (m.insert k b).get? z = if z = k then some b else m.get? z := get?_alter

end SortedMap

end ManuscriptReach
