import ManuscriptReach.Collection.SortedSet
import ManuscriptReach.Class.Set
import ManuscriptReach.Tables.Fault

/-!
# The class catalog

Every instruction class has a requirement.  Kernel and atomic classes require
nothing and can never be pruned; they are the floor.  A decomposable class lists
middles, and is pruned when none of them is legal.
-/

namespace ManuscriptReach

/-- The kinds of instruction class. -/
inductive ClassKind where
  | kernel
  | atomic
  | decomposable
deriving DecidableEq

/-- The word for a kind in documents. -/
def ClassKind.word : ClassKind → String
  | kernel => FloorKind.kernel.word
  | atomic => FloorKind.atomic.word
  | decomposable => "decomposable"

/-- What a class requires of the legal vocabulary. -/
inductive Requirement where
  /-- Nothing. -/
  | floor (kind : FloorKind)
  /-- One of these middles. -/
  | anyOf (middles : StringSet) (ne : middles ≠ ∅)
deriving DecidableEq

namespace Requirement

/-- The kind of a class with this requirement. -/
def kind : Requirement → ClassKind
  | floor .kernel => .kernel
  | floor .atomic => .atomic
  | anyOf .. => .decomposable

/-- The required middles, none for a floor class. -/
def middles : Requirement → StringSet
  | floor _ => ∅
  | anyOf ms _ => ms

/-- Whether a class with this requirement can be pruned. -/
def isPrunable : Requirement → Bool
  | floor _ => false
  | anyOf .. => true

/-- Whether a vocabulary meets the requirement. -/
def isMet (legal : StringSet) : Requirement → Bool
  | floor _ => true
  | anyOf ms _ => !decide (ms.Disjoint legal)

theorem isMet_of_not_isPrunable {legal : StringSet} {r : Requirement} (h : r.isPrunable = false) :
    r.isMet legal = true := by
  cases r with
  | floor kind => rfl
  | anyOf ms ne => cases h

/-- A requirement is met unless it can fail and none of its middles is there. -/
theorem isMet_iff {legal : StringSet} {r : Requirement} :
    r.isMet legal = true ↔ (r.isPrunable = true → ∃ m ∈ r.middles, m ∈ legal) := by
  cases r with
  | floor kind => simp [isMet, isPrunable]
  | anyOf ms ne => simp [isMet, isPrunable, middles, SortedSet.disjoint_def]

end Requirement

/-- An instruction class and what it requires. -/
structure InstructionClass where
  /-- The class. -/
  id : ClassId
  /-- What it requires. -/
  requirement : Requirement
deriving DecidableEq

/-- A row of a class table: a kind and a list of middles, which may not fit together. -/
structure ClassRow where
  /-- The class that the row defines. -/
  id : ClassId
  /-- The kind given. -/
  kind : ClassKind
  /-- The middles given. -/
  middles : StringSet
deriving DecidableEq

namespace ClassRow

/-- The floor kind of a row must come without middles. -/
def floorClass (r : ClassRow) (kind : FloorKind) : Except TableFault InstructionClass :=
  if r.middles = ∅ then .ok ⟨r.id, .floor kind⟩ else .error (.unexpectedRequirement r.id kind)

/-- The class that a row defines, when kind and middles fit together. -/
def toClass (r : ClassRow) : Except TableFault InstructionClass :=
  match r.kind with
  | .kernel => r.floorClass .kernel
  | .atomic => r.floorClass .atomic
  | .decomposable =>
    if h : r.middles = ∅ then .error (.emptyRequirement r.id) else .ok ⟨r.id, .anyOf r.middles h⟩

/-- The classes that rows define.  The first row at fault is reported, which defines a class of
`seen` or of an earlier row, or whose kind and middles do not fit together. -/
def toClassesAfter (seen : ClassSet) : List ClassRow → Except TableFault (List InstructionClass)
  | [] => .ok []
  | r :: rs =>
    if r.id ∈ seen then .error (.duplicateClass r.id)
    else do
      let c ← r.toClass
      let cs ← toClassesAfter (seen.insert r.id) rs
      return c :: cs

end ClassRow

/-- One definition for every class, in ascending order. -/
@[ext]
structure ClassCatalog where
  /-- The definitions. -/
  classes : List InstructionClass
  /-- They define the classes in order, each once. -/
  ids_eq : classes.map InstructionClass.id = ClassId.all

namespace ClassCatalog

theorem ids_eq_of_mapM {cs ds : List InstructionClass} {ids : List ClassId}
    (h : ids.mapM (fun i ↦ cs.find? fun c ↦ c.id == i) = some ds) :
    ds.map InstructionClass.id = ids := by
  induction ids generalizing ds with
  | nil => simp at h; simp [← h]
  | cons i ids ih =>
    simp only [List.mapM_cons, Option.bind_eq_bind, Option.bind_eq_some_iff] at h
    obtain ⟨c, hc, ds', hds, h⟩ := h
    simp only [Option.pure_def, Option.some.injEq] at h
    subst h
    have := List.find?_some hc
    simp_all

/-- Checks that every class is defined, each once, by a row that makes sense. -/
def ofRows (rows : List ClassRow) : Except TableFault ClassCatalog := do
  let cs ← ClassRow.toClassesAfter ∅ rows
  match h : ClassId.all.mapM fun i ↦ cs.find? fun c ↦ c.id == i with
  | some ds => .ok ⟨ds, ids_eq_of_mapM h⟩
  | none => .error (.missingClasses (ClassId.all.filter fun i ↦ cs.all fun c ↦ c.id != i))

theorem length_classes (c : ClassCatalog) : c.classes.length = classCount := by
  rw [← ClassId.length_all, ← c.ids_eq, List.length_map]

/-- The definition of a class. -/
def get (c : ClassCatalog) (id : ClassId) : InstructionClass :=
  c.classes.get ⟨id.index, by rw [c.length_classes]; exact id.index.isLt⟩

/-- The definition of a class bears its number. -/
@[simp] theorem id_get (c : ClassCatalog) (i : ClassId) : (c.get i).id = i := by
  have bound : i.index.val < (c.classes.map InstructionClass.id).length := by
    rw [List.length_map, c.length_classes]
    exact i.index.isLt
  have named : (c.classes.map InstructionClass.id)[i.index.val] = i := by
    simp only [c.ids_eq]
    simp [ClassId.all]
  rw [List.getElem_map] at named
  exact named

theorem get_mem (c : ClassCatalog) (i : ClassId) : c.get i ∈ c.classes := List.get_mem ..

/-- The definitions listed are those of their classes. -/
theorem get_id_of_mem {c : ClassCatalog} {k : InstructionClass} (h : k ∈ c.classes) :
    c.get k.id = k := by
  obtain ⟨j, hj, rfl⟩ := List.getElem_of_mem h
  have bound : j < classCount := c.length_classes ▸ hj
  have place : (c.classes[j]).id = ⟨⟨j, bound⟩⟩ := c.id_get ⟨⟨j, bound⟩⟩
  rw [place]
  rfl

/-- The classes that can be pruned. -/
def prunable (c : ClassCatalog) : List InstructionClass :=
  c.classes.filter fun k ↦ k.requirement.isPrunable

/-- The classes that can never be pruned. -/
def floor (c : ClassCatalog) : ClassSet :=
  .ofList ((c.classes.filter fun k ↦ !k.requirement.isPrunable).map InstructionClass.id)

/-- The classes left over when a class that can be pruned goes whose requirement a vocabulary does
not meet. -/
def reachable (c : ClassCatalog) (legal : StringSet) : ClassSet :=
  c.prunable.foldl (fun s k ↦ if k.requirement.isMet legal then s else s.erase k.id) .full

theorem mem_foldl_prune {ks : List InstructionClass} {legal : StringSet} {s : ClassSet}
    {i : ClassId} :
    i ∈ ks.foldl (fun s k ↦ if k.requirement.isMet legal then s else s.erase k.id) s ↔
      i ∈ s ∧ ∀ k ∈ ks, k.id = i → k.requirement.isMet legal = true := by
  induction ks generalizing s with
  | nil => simp
  | cons k ks ih =>
    rw [List.foldl_cons, ih]
    split
    next h => simp [h]
    next h =>
      rw [ClassSet.mem_erase, List.forall_mem_cons, and_assoc]
      refine and_congr_right fun _ ↦ and_congr_left fun _ ↦ ?_
      exact ⟨fun ne e ↦ absurd e.symm ne, fun met e ↦ h (met e.symm)⟩

/-- A class is reachable when the definitions that bear its number require nothing that is not
there. -/
theorem mem_reachable {c : ClassCatalog} {legal : StringSet} {i : ClassId} :
    i ∈ c.reachable legal ↔ ∀ k ∈ c.classes, k.id = i → k.requirement.isMet legal = true := by
  rw [reachable, mem_foldl_prune]
  simp only [ClassSet.mem_full, true_and, prunable, List.mem_filter]
  constructor
  · intro h k hk hi
    cases hp : k.requirement.isPrunable with
    | false => exact Requirement.isMet_of_not_isPrunable hp
    | true => exact h k ⟨hk, hp⟩ hi
  · intro h k hk hi
    exact h k hk.1 hi

/-- A class is reachable when its requirement is met. -/
theorem mem_reachable_iff_get {c : ClassCatalog} {legal : StringSet} {i : ClassId} :
    i ∈ c.reachable legal ↔ (c.get i).requirement.isMet legal = true := by
  rw [mem_reachable]
  constructor
  · exact fun h ↦ h (c.get i) (c.get_mem i) (c.id_get i)
  · rintro h k hk rfl
    rwa [get_id_of_mem hk] at h

end ClassCatalog

end ManuscriptReach
