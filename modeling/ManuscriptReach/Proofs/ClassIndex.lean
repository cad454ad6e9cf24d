import Mathlib.Data.List.FinRange
import Mathlib.Data.List.Nodup
import ManuscriptReach.Proofs.Described
import ManuscriptReach.Proofs.Meaning

/-!
# The catalog as an index

Rows of a class table can come in any order.  A catalog that is made from them has the definition
of a class at the place that the class's number tells: every class has one row, so the definitions
in ascending order leave no gap, and the place decides which row it is (`ClassCatalog.Indexes`).

A catalog splits the classes into those that no vocabulary prunes and those with a requirement.
Pruning starts from all classes and takes only some of the second kind out, so that the first kind
is what always stays (`ClassCatalog.Splits`).
-/

namespace ManuscriptReach

/-! ## Definitions as rows -/

/-- The row that gives a definition. -/
def InstructionClass.row (k : InstructionClass) : ClassRow :=
  ⟨k.id, k.requirement.kind, k.requirement.middles⟩

theorem ClassRow.row_of_toClass {r : ClassRow} {k : InstructionClass} (h : r.toClass = .ok k) :
    k.row = r := by
  obtain ⟨kind, middles⟩ := requirement_of_toClass h
  rw [InstructionClass.row, id_of_toClass h, kind, middles]

theorem Requirement.middles_ne_iff {r : Requirement} :
    r.middles ≠ ∅ ↔ r.kind = .decomposable := by
  rw [← isPrunable_iff]
  cases r with
  | floor kind => simp [middles, isPrunable]
  | anyOf ms ne => simpa [middles, isPrunable] using ne

theorem ClassId.pairwise_number_all : ClassId.all.Pairwise fun i j ↦ i.number < j.number := by
  rw [all, List.pairwise_map]
  exact (List.pairwise_lt_finRange classCount).imp Nat.succ_lt_succ

namespace ClassCatalog

variable {c : ClassCatalog} {rows : List ClassRow} {i : ClassId} {legal : StringSet}

/-! ## Places -/

theorem getElem?_classes (c : ClassCatalog) (i : ClassId) :
    c.classes[i.number - 1]? = some (c.get i) := by
  have bound : i.index < c.classes.length := by
    rw [c.length_classes]
    exact i.index.isLt
  exact List.getElem?_eq_getElem bound

/-- The definitions ascend, so each class has one. -/
theorem pairwise_number (c : ClassCatalog) :
    c.classes.Pairwise fun k l ↦ k.id.number < l.id.number := by
  rw [← List.pairwise_map (f := InstructionClass.id) (R := fun i j ↦ i.number < j.number), c.ids_eq]
  exact ClassId.pairwise_number_all

theorem nodup_rows (c : ClassCatalog) : (c.classes.map InstructionClass.row).Nodup := by
  rw [List.Nodup, List.pairwise_map]
  apply c.pairwise_number.imp
  intro k l less same
  exact Nat.ne_of_lt less (congrArg (fun r ↦ r.id.number) same)

/-! ## Rows -/

/-- Rows that make a catalog are for different classes. -/
theorem nodup_ids_of_ofRows (h : ofRows rows = .ok c) : (rows.map ClassRow.id).Nodup := by
  have none : catalogFaults rows = [] := (ofRows_checks rows).exists_eq_ok_iff.1 ⟨c, h⟩
  exact (catalogFaults_eq_nil_iff.1 none).1

theorem row_mem_of_ofRows (h : ofRows rows = .ok c) {k : InstructionClass} (hk : k ∈ c.classes) :
    k.row ∈ rows := by
  obtain ⟨r, hr, hrk⟩ := exists_row_of_mem h hk
  rwa [ClassRow.row_of_toClass hrk]

/-- A class has the definition that its row gives. -/
theorem row_get_of_ofRows (h : ofRows rows = .ok c) {r : ClassRow} (hr : r ∈ rows) :
    (c.get r.id).row = r := by
  have given : (c.get r.id).row ∈ rows := row_mem_of_ofRows h (c.get_mem r.id)
  exact List.inj_on_of_nodup_map (nodup_ids_of_ofRows h) given hr (c.id_get r.id)

/-- The definitions are those of the rows, each once. -/
theorem perm_of_ofRows (h : ofRows rows = .ok c) :
    (c.classes.map InstructionClass.row).Perm rows := by
  rw [List.perm_ext_iff_of_nodup c.nodup_rows (nodup_ids_of_ofRows h).of_map]
  intro r
  rw [List.mem_map]
  constructor
  · rintro ⟨k, hk, rfl⟩
    exact row_mem_of_ofRows h hk
  · intro hr
    exact ⟨c.get r.id, c.get_mem r.id, row_get_of_ofRows h hr⟩

/-! ## The floor and the rest -/

theorem mem_prunable {k : InstructionClass} :
    k ∈ c.prunable ↔ k ∈ c.classes ∧ k.requirement.isPrunable = true := List.mem_filter

/-- A class is among some of the definitions when its own is. -/
theorem mem_map_id_filter {p : InstructionClass → Bool} :
    i ∈ (c.classes.filter p).map InstructionClass.id ↔ p (c.get i) = true := by
  simp only [List.mem_map, List.mem_filter]
  constructor
  · rintro ⟨k, ⟨hk, hp⟩, rfl⟩
    rwa [get_id_of_mem hk]
  · intro hp
    exact ⟨c.get i, ⟨c.get_mem i, hp⟩, c.id_get i⟩

theorem mem_map_id_prunable :
    i ∈ c.prunable.map InstructionClass.id ↔ (c.get i).requirement.isPrunable = true :=
  mem_map_id_filter

theorem mem_floor : i ∈ c.floor ↔ (c.get i).requirement.isPrunable = false := by
  rw [floor, ClassSet.mem_ofList, mem_map_id_filter, Bool.not_eq_true']

/-- A class stays unless it can be pruned and nothing that it requires is legal. -/
theorem mem_reachable_iff_floor : i ∈ c.reachable legal ↔
    i ∈ c.floor ∨ ∃ m ∈ (c.get i).requirement.middles, m ∈ legal := by
  rw [mem_reachable_iff_get, mem_floor]
  cases (c.get i).requirement with
  | floor kind => simp [Requirement.isMet, Requirement.isPrunable]
  | anyOf ms ne =>
    rw [Requirement.isMet_iff]
    simp [Requirement.isPrunable]

/-! ## Catalogs from rows -/

/-- The catalog tells from a class's number what some rows say of the class. -/
structure Indexes (c : ClassCatalog) (rows : List ClassRow) : Prop where
  /-- The number of a class tells the place of its definition. -/
  place : ∀ i : ClassId, c.classes[i.number - 1]? = some (c.get i)
  /-- What is found for a class is its own definition. -/
  id_get : ∀ i, (c.get i).id = i
  /-- It is given by a row. -/
  given : ∀ i, (c.get i).row ∈ rows
  /-- No other row is for the class. -/
  unique : ∀ r ∈ rows, (c.get r.id).row = r
  /-- The definitions are those given by the rows. -/
  perm : (c.classes.map InstructionClass.row).Perm rows
  /-- A row is decomposable when it requires some middle. -/
  requires : ∀ r ∈ rows, r.middles ≠ ∅ ↔ r.kind = .decomposable
  /-- The definitions ascend. -/
  ascending : c.classes.Pairwise fun k l ↦ k.id.number < l.id.number

/-- The catalog tells the classes that no vocabulary prunes from those that require something. -/
structure Splits (c : ClassCatalog) : Prop where
  /-- The decomposable classes are those that can be pruned. -/
  prunable : ∀ k, k ∈ c.prunable ↔ k ∈ c.classes ∧ k.requirement.kind = .decomposable
  /-- No class is of both sorts. -/
  disjoint : ∀ i ∈ c.floor, i ∉ c.prunable.map InstructionClass.id
  /-- Every class is of one sort. -/
  total : ∀ i, i ∈ c.floor ∨ i ∈ c.prunable.map InstructionClass.id
  /-- Decomposable classes, and no others, require some middle. -/
  requires : ∀ k ∈ c.classes, k.requirement.middles ≠ ∅ ↔ k.requirement.kind = .decomposable
  /-- The floor is reachable with any vocabulary. -/
  floor_subset : ∀ legal, c.floor ⊆ c.reachable legal
  /-- Nothing else is reachable without any. -/
  reachable_empty : c.reachable ∅ = c.floor
  /-- A decomposable class is reachable when one of its middles is legal. -/
  reachable_iff : ∀ legal, ∀ k ∈ c.prunable,
    k.id ∈ c.reachable legal ↔ ∃ m ∈ k.requirement.middles, m ∈ legal

theorem indexes_of_ofRows (h : ofRows rows = .ok c) : c.Indexes rows where
  place := c.getElem?_classes
  id_get := c.id_get
  given i := row_mem_of_ofRows h (c.get_mem i)
  unique _ := row_get_of_ofRows h
  perm := perm_of_ofRows h
  requires r hr := by
    rw [← row_get_of_ofRows h hr]
    exact Requirement.middles_ne_iff
  ascending := c.pairwise_number

theorem splits (c : ClassCatalog) : c.Splits where
  prunable k := by rw [mem_prunable, Requirement.isPrunable_iff]
  disjoint i kept prunable := by
    rw [mem_map_id_prunable, mem_floor.1 kept] at prunable
    cases prunable
  total i := by
    rw [mem_floor, mem_map_id_prunable]
    exact (Bool.eq_false_or_eq_true _).symm
  requires k _ := Requirement.middles_ne_iff
  floor_subset legal := ClassSet.subset_iff.2 fun i kept ↦ mem_reachable_iff_floor.2 (.inl kept)
  reachable_empty := by
    ext i
    rw [mem_reachable_iff_floor]
    simp
  reachable_iff legal k hk := by
    obtain ⟨listed, prunable⟩ := mem_prunable.1 hk
    rw [mem_reachable_iff_floor, mem_floor, get_id_of_mem listed, prunable]
    simp

/-- **A catalog is a total index of its rows.**  Whatever the order of the rows that a catalog is
made from, each class is found at the place of its number, with the definition that its row gives;
and the catalog splits the classes into a floor, which is reachable with any vocabulary, and those
that are reachable when one of the middles that they require is legal. -/
theorem ofRows_indexes_splits (h : ofRows rows = .ok c) : c.Indexes rows ∧ c.Splits :=
  ⟨indexes_of_ofRows h, c.splits⟩

/-- Rows from the last class to the first, of which only the first nine require nothing. -/
def descendingRows : List ClassRow :=
  ClassId.all.reverse.map fun i ↦
    if i.number ≤ 9 then ⟨i, .kernel, ∅⟩ else ⟨i, .decomposable, .ofList ["a"]⟩

/-- Rows in descending order make a catalog, in which the twelfth class has its own row. -/
theorem ofRows_indexes_splits_sample : ∃ c, ofRows descendingRows = .ok c ∧
    (c.Indexes descendingRows ∧ c.Splits) ∧
      (c.get ⟨11, by decide⟩).row = ⟨⟨11, by decide⟩, .decomposable, .ofList ["a"]⟩ := by
  have accepted : (ofRows descendingRows).toOption.isSome = true := by decide +kernel
  have twelfth : ⟨⟨11, by decide⟩, .decomposable, .ofList ["a"]⟩ ∈ descendingRows := by
    decide +kernel
  have index := ofRows_indexes_splits (eq_ok_get accepted)
  exact ⟨_, eq_ok_get accepted, index, index.1.unique _ twelfth⟩

end ClassCatalog

end ManuscriptReach
