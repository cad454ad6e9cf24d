import ManuscriptReach.Proofs.Acceptance

/-!
# What accepted documents describe, row by row

`TableDocuments.Describes` names the checks that tables have passed.  Here the tables are
tied to the rows themselves: folios and targets come one from each row, in the order of the
rows, and every class comes from a row that defines it.
-/

namespace ManuscriptReach

/-! ## Folios -/

theorem FolioCatalog.folios_of_ofList {fs : List Folio} {c : FolioCatalog} (h : ofList fs = .ok c) :
    c.folios = fs := by
  unfold ofList at h
  split at h
  · cases h
  · cases h
    rfl

/-- The folios are those of the rows, in their order. -/
theorem TableDocuments.Describes.folios_eq {d : TableDocuments} {t : Tables} (h : d.Describes t) :
    t.folios.folios = d.folios.map FolioDocument.toFolio := FolioCatalog.folios_of_ofList h.folios

/-- A folio holds what its row lists. -/
@[simp] theorem FolioDocument.mem_vocabulary_toFolio {f : FolioDocument} {m : String} :
    m ∈ f.toFolio.vocabulary ↔ m ∈ f.vocabulary := SortedSet.mem_ofList

/-! ## Targets -/

theorem TargetCatalog.targets_of_ofList {gs : List Target} {c : TargetCatalog}
    (h : ofList gs = .ok c) : c.targets = gs := by
  unfold ofList at h
  split at h
  · cases h
  · cases h
    rfl

/-- The target of a row whose footprint lists numbers of classes. -/
def TargetDocument.target (d : TargetDocument) : Target :=
  ⟨d.id, .ofList (d.footprint.filterMap ClassId.ofNat?)⟩

theorem ofNat?_of_classOfNumber {n : Nat} {i : ClassId} (h : classOfNumber n = .ok i) :
    ClassId.ofNat? n = some i := by
  unfold classOfNumber at h
  cases hn : ClassId.ofNat? n with
  | none =>
    rw [hn] at h
    cases h
  | some j =>
    rw [hn] at h
    cases h
    rfl

theorem TargetDocument.target_of_toTarget {d : TargetDocument} {g : Target}
    (h : d.toTarget = .ok g) : d.target = g := by
  obtain ⟨ids, hids, h⟩ := bind_eq_ok_iff.1 h
  cases h
  rw [target, filterMap_of_mapM hids fun _ _ ↦ ofNat?_of_classOfNumber]

/-- The targets are those of the rows, in their order. -/
theorem TableDocuments.Describes.targets_eq {d : TableDocuments} {t : Tables} (h : d.Describes t) :
    t.targets.targets = d.targets.map TargetDocument.target := by
  obtain ⟨gs, hgs, hc⟩ := bind_eq_ok_iff.1 h.targets
  rw [TargetCatalog.targets_of_ofList hc]
  have rows := map_eq_map_of_mapM hgs fun _ _ ↦ TargetDocument.target_of_toTarget
  exact (rows.trans (List.map_id gs)).symm

/-! ## Classes -/

/-- A row gives a class its number, its kind and its middles. -/
structure ClassDocument.Defines (d : ClassDocument) (k : InstructionClass) : Prop where
  id : k.id.number = d.id
  kind : k.requirement.kind = d.kind
  middles : k.requirement.middles = .ofList d.middles

/-- The class of a row that makes sense has the kind and the middles of the row. -/
theorem ClassRow.requirement_of_toClass {r : ClassRow} {k : InstructionClass}
    (h : r.toClass = .ok k) : k.requirement.kind = r.kind ∧ k.requirement.middles = r.middles := by
  unfold toClass floorClass at h
  split at h
  next kind =>
    split at h
    next none =>
      cases h
      exact ⟨kind.symm, none.symm⟩
    next => cases h
  next kind =>
    split at h
    next none =>
      cases h
      exact ⟨kind.symm, none.symm⟩
    next => cases h
  next kind =>
    split at h
    next => cases h
    next =>
      cases h
      exact ⟨kind.symm, rfl⟩

theorem ClassRow.exists_of_mem_toClassesAfter {seen : ClassSet} {rows : List ClassRow}
    {ks : List InstructionClass} (h : toClassesAfter seen rows = .ok ks) {k : InstructionClass}
    (hk : k ∈ ks) : ∃ r ∈ rows, r.toClass = .ok k := by
  induction rows generalizing seen ks with
  | nil =>
    cases h
    cases hk
  | cons r rs ih =>
    rw [toClassesAfter] at h
    split at h
    · cases h
    obtain ⟨c, hc, h⟩ := bind_eq_ok_iff.1 h
    obtain ⟨cs, hcs, h⟩ := bind_eq_ok_iff.1 h
    cases h
    rcases List.mem_cons.1 hk with rfl | hk
    · exact ⟨r, List.mem_cons_self, hc⟩
    · obtain ⟨r', hr', h'⟩ := ih hcs hk
      exact ⟨r', List.mem_cons_of_mem r hr', h'⟩

/-- The definitions found for some classes are among those searched. -/
theorem ClassCatalog.mem_of_mapM_find? {ks found : List InstructionClass} {ids : List ClassId}
    (h : ids.mapM (fun i ↦ ks.find? fun k ↦ k.id == i) = some found) {k : InstructionClass}
    (hk : k ∈ found) : k ∈ ks := by
  induction ids generalizing found with
  | nil =>
    cases h
    cases hk
  | cons i ids ih =>
    simp only [List.mapM_cons, Option.bind_eq_bind, Option.bind_eq_some_iff] at h
    obtain ⟨c, hc, cs, hcs, h⟩ := h
    cases h
    rcases List.mem_cons.1 hk with rfl | hk
    · exact List.mem_of_find?_eq_some hc
    · exact ih hcs hk

/-- A catalog lists classes that rows define. -/
theorem ClassCatalog.exists_row_of_mem {rows : List ClassRow} {c : ClassCatalog}
    (h : ofRows rows = .ok c) {k : InstructionClass} (hk : k ∈ c.classes) :
    ∃ r ∈ rows, r.toClass = .ok k := by
  obtain ⟨ks, hks, h⟩ := bind_eq_ok_iff.1 h
  split at h
  next found hfound =>
    cases h
    refine ClassRow.exists_of_mem_toClassesAfter hks ?_
    exact mem_of_mapM_find? hfound hk
  next => cases h

/-- Every class comes from a row. -/
theorem TableDocuments.Describes.exists_defines {d : TableDocuments} {t : Tables}
    (h : d.Describes t) {k : InstructionClass} (hk : k ∈ t.classes.classes) :
    ∃ c ∈ d.classes, c.Defines k := by
  obtain ⟨rows, hrows, hc⟩ := bind_eq_ok_iff.1 h.classes
  obtain ⟨r, hr, hrk⟩ := ClassCatalog.exists_row_of_mem hc hk
  obtain ⟨c, hcd, hcr⟩ := exists_of_mem_mapM hrows hr
  obtain ⟨i, hi, hrow⟩ := Option.map_eq_some_iff.1 (ClassDocument.row?_of_toRow hcr)
  obtain ⟨kind, middles⟩ := ClassRow.requirement_of_toClass hrk
  have id := ClassRow.id_of_toClass hrk
  subst hrow
  refine ⟨c, hcd, ?_, kind, middles⟩
  rw [id]
  exact ClassId.ofNat?_eq_some_iff.1 hi

/-- Catalogs that give every class the same definition are equal. -/
theorem ClassCatalog.eq_of_get {c d : ClassCatalog} (h : ∀ i, c.get i = d.get i) : c = d := by
  have listed (e : ClassCatalog) : e.classes = ClassId.all.map e.get := by
    rw [← e.ids_eq, List.map_map]
    refine (List.map_id _).symm.trans (List.map_congr_left fun k hk ↦ ?_)
    exact (get_id_of_mem hk).symm
  refine ClassCatalog.ext ?_
  rw [listed c, listed d]
  exact List.map_congr_left fun i _ ↦ h i

/-! ## Settings -/

theorem Settings.parts_of_ofParts {spread : Nat} {e : Expectations} {s : Settings}
    (h : ofParts spread e = .ok s) : s.restrictedSpread = spread ∧ s.expectations = e := by
  unfold ofParts at h
  split at h
  · cases h
    exact ⟨rfl, rfl⟩
  · cases h

theorem TableDocuments.Describes.restrictedSpread {d : TableDocuments} {t : Tables}
    (h : d.Describes t) : t.settings.restrictedSpread = d.settings.restrictedSpread :=
  (Settings.parts_of_ofParts h.settings).1

theorem TableDocuments.Describes.expectations {d : TableDocuments} {t : Tables}
    (h : d.Describes t) : t.settings.expectations = d.settings.expectations :=
  (Settings.parts_of_ofParts h.settings).2

end ManuscriptReach
