import Mathlib.Data.List.Nodup
import ManuscriptReach.Proofs.FirstFault
import ManuscriptReach.Tables.Document

/-!
# Which documents are accepted

`TableDocuments.Accepts` states what makes table documents acceptable, condition by
condition and in terms of what the documents list.  `TableDocuments.faults` lists every
fault of some documents, in the order in which they count.  `build_checks` relates the
list to `TableDocuments.build`, which stops at the first; `faults_eq_nil_iff` relates it
to the conditions.

A class whose number is out of range has no row.  That costs nothing: such a number is
a fault that comes before all faults of rows.
-/

namespace ManuscriptReach

theorem SortedSet.ofList_eq_empty_iff {xs : List String} : SortedSet.ofList xs = ∅ ↔ xs = [] := by
  constructor
  · intro h
    rw [List.eq_nil_iff_forall_not_mem]
    intro x hx
    apply SortedSet.not_mem_empty x
    rw [← h]
    exact SortedSet.mem_ofList.2 hx
  · rintro rfl
    rfl

/-! ## Conditions -/

/-- The markers of some documents make sense. -/
structure MarkersDocument.Accepts (d : MarkersDocument) : Prop where
  /-- There is a family. -/
  families_ne : d.families ≠ []
  /-- Families and variants have two or three characters. -/
  length_family : ∀ m ∈ d.families, m.length = 2 ∨ m.length = 3
  length_variant : ∀ p ∈ d.extended.toList, p.1.length = 2 ∨ p.1.length = 3
  /-- A variant is no family, and stands for one. -/
  variant : ∀ p ∈ d.extended.toList, p.1 ∉ d.families ∧ p.2 ∈ d.families
  /-- The empty text is neither a suffix nor an infrastructure token. -/
  suffix_ne : "" ∉ d.suffixes
  infrastructure_ne : "" ∉ d.infrastructure

/-- The canonical labels of the listed zones. -/
def ZonesDocument.canonicalLabels (d : ZonesDocument) : List String :=
  d.zones.map fun z ↦ z.canonical.getD z.label

/-- The documents make sense, each on its own and together. -/
structure TableDocuments.Accepts (d : TableDocuments) : Prop where
  markers : d.markers.Accepts
  /-- The ids of the folios are pairwise different. -/
  folios : (d.folios.map FolioDocument.id).Nodup
  /-- There is a zone, and the labels are pairwise different. -/
  zones_ne : d.zones.zones ≠ []
  labels : (d.zones.zones.map ZoneDocument.label).Nodup
  /-- A legality entry names canonical labels only. -/
  legality : ∀ p ∈ d.zones.legality.toList, ∀ z ∈ p.2, z ∈ d.zones.canonicalLabels
  /-- The classes are numbered from one to `classCount`, each number given once. -/
  classes : (d.classes.map ClassDocument.id).Perm (List.range' 1 classCount)
  /-- The decomposable classes are those with a required middle. -/
  required : ∀ c ∈ d.classes, c.kind = .decomposable ↔ c.middles ≠ []
  /-- Footprints list numbers of classes. -/
  footprints : ∀ g ∈ d.targets, ∀ n ∈ g.footprint, 1 ≤ n ∧ n ≤ classCount
  /-- The ids of the targets are pairwise different. -/
  targets : (d.targets.map TargetDocument.id).Nodup
  /-- A spread of one is restricted. -/
  spread : 1 ≤ d.settings.restrictedSpread

/-! ## Faults -/

/-- Every marker, in the order of the checks: the families, then the variants. -/
def MarkersDocument.markers (d : MarkersDocument) : List String :=
  (SortedSet.ofList d.families).toList ++ d.extended.keys

/-- The fault of a marker that is too short or too long. -/
def markerFaults (m : String) : List TableFault :=
  faultUnless (m.length = 2 ∨ m.length = 3) (.markerLength m)

/-- The faults of a variant and its family. -/
def variantFaults (families : List String) (p : String × String) : List TableFault :=
  faultUnless (p.1 ∉ families) (.shadowedFamily p.1) ++
    faultUnless (p.2 ∈ families) (.unknownFamily p.1 p.2)

/-- The faults of the markers. -/
def MarkersDocument.faults (d : MarkersDocument) : List TableFault :=
  List.flatten [
    faultUnless (d.families ≠ []) .noFamilies,
    d.markers.flatMap markerFaults,
    d.extended.toList.flatMap (variantFaults d.families),
    faultUnless ("" ∉ d.suffixes) (.emptyEntry .suffix),
    faultUnless ("" ∉ d.infrastructure) (.emptyEntry .infrastructure)]

/-- The faults of the zone order. -/
def ZonesDocument.orderFaults (d : ZonesDocument) : List TableFault :=
  faultUnless (d.zones ≠ []) .noZones ++
    (repeats (d.zones.map ZoneDocument.label)).map .duplicateZone

/-- The faults of the legality entries. -/
def ZonesDocument.legalityFaults (d : ZonesDocument) : List TableFault :=
  d.legality.toList.flatMap fun p ↦ p.2.toList.flatMap fun z ↦
    faultUnless (z ∈ d.canonicalLabels) (.unknownLegalityZone p.1 z)

/-- The fault of a number that names no class. -/
def numberFaults (number : Nat) : List TableFault :=
  faultUnless (1 ≤ number ∧ number ≤ classCount) (.classNumber number)

/-- The row of a class whose number is in range. -/
def ClassDocument.row? (d : ClassDocument) : Option ClassRow :=
  (ClassId.ofNat? d.id).map fun i ↦ ⟨i, d.kind, .ofList d.middles⟩

/-- The fault of a kind and middles that do not fit together. -/
def ClassRow.faults (r : ClassRow) : List TableFault :=
  match r.kind with
  | .kernel => faultUnless (r.middles = ∅) (.unexpectedRequirement r.id .kernel)
  | .atomic => faultUnless (r.middles = ∅) (.unexpectedRequirement r.id .atomic)
  | .decomposable => faultUnless (r.middles ≠ ∅) (.emptyRequirement r.id)

/-- The faults of a row that follows some other rows. -/
def rowFaults (q : List ClassRow × ClassRow) : List TableFault :=
  faultUnless (q.2.id ∉ q.1.map ClassRow.id) (.duplicateClass q.2.id) ++ q.2.faults

/-- The classes without a row. -/
def missingClasses (rows : List ClassRow) : List ClassId :=
  ClassId.all.filter fun i ↦ decide (i ∉ rows.map ClassRow.id)

/-- The faults of some rows as a catalog. -/
def catalogFaults (rows : List ClassRow) : List TableFault :=
  (withBefore [] rows).flatMap rowFaults ++
    faultUnless (missingClasses rows = []) (.missingClasses (missingClasses rows))

/-- The faults of the classes. -/
def classFaults (ds : List ClassDocument) : List TableFault :=
  (ds.flatMap fun c ↦ numberFaults c.id) ++ catalogFaults (ds.filterMap ClassDocument.row?)

/-- The faults of the targets. -/
def targetFaults (ds : List TargetDocument) : List TableFault :=
  (ds.flatMap fun g ↦ g.footprint.flatMap numberFaults) ++
    (repeats (ds.map TargetDocument.id)).map .duplicateTarget

/-- Every fault of some documents, in the order in which they count. -/
def TableDocuments.faults (d : TableDocuments) : List TableFault :=
  List.flatten [
    d.markers.faults,
    (repeats (d.folios.map FolioDocument.id)).map .duplicateFolio,
    d.zones.orderFaults,
    d.zones.legalityFaults,
    classFaults d.classes,
    targetFaults d.targets,
    faultUnless (1 ≤ d.settings.restrictedSpread) .zeroRestrictedSpread]

/-! ## The checks find the first fault -/

theorem MarkersDocument.build_checks (d : MarkersDocument) : Checks d.faults d.build := by
  have family {m : String} : m ∈ SortedSet.ofList d.families ↔ m ∈ d.families :=
    SortedSet.mem_ofList
  have length (m : String) (h : (!(m.length == 2 || m.length == 3)) = false) :
      markerFaults m = [] := by
    simpa [markerFaults, Decidable.or_iff_not_imp_left] using h
  have variant (p : String × String) (h : (!(decide (p.1 ∉ SortedSet.ofList d.families) &&
      decide (p.2 ∈ SortedSet.ofList d.families))) = false) :
      variantFaults d.families p = [] := by
    simpa [variantFaults] using h
  unfold build Markers.ofSets faults
  simp only [List.flatten_cons, List.flatten_nil]
  split
  next hf => exact .of_head? (by simp [faultUnless, SortedSet.ofList_eq_empty_iff.1 hf]) _
  next hf =>
  refine .of_append (faultUnless_eq_nil_iff.2 (mt SortedSet.ofList_eq_empty_iff.2 hf)) ?_
  split
  next m hm =>
    have bad : ¬ (m.length = 2 ∨ m.length = 3) := by simpa using List.find?_some hm
    refine .of_head? (head?_flatMap_of_find? hm length ?_) _
    rw [markerFaults, faultUnless_of_not bad]
    rfl
  next hm =>
  refine .of_append (flatMap_eq_nil_of_find? hm length) ?_
  split
  next v f hp =>
    split
    next hv =>
      refine .of_head? (head?_flatMap_of_find? hp variant ?_) _
      rw [variantFaults, faultUnless_of_not (not_not.2 (family.1 hv))]
      rfl
    next hv =>
      have bad : f ∉ d.families := by
        have either : v ∈ d.families ∨ f ∉ d.families := by simpa using List.find?_some hp
        exact either.resolve_left (mt family.2 hv)
      refine .of_head? (head?_flatMap_of_find? hp variant ?_) _
      rw [variantFaults, faultUnless_eq_nil_iff.2 (mt family.2 hv), faultUnless_of_not bad]
      rfl
  next hp =>
  refine .of_append (flatMap_eq_nil_of_find? hp variant) ?_
  split
  next hs => exact .of_head? (by simp [faultUnless, SortedSet.mem_ofList.1 hs]) _
  next hs =>
  refine .of_append (faultUnless_eq_nil_iff.2 (mt SortedSet.mem_ofList.2 hs)) ?_
  split
  next hi => exact .of_head? (by simp [faultUnless, SortedSet.mem_ofList.1 hi]) _
  next hi =>
  exact .of_append (faultUnless_eq_nil_iff.2 (mt SortedSet.mem_ofList.2 hi)) (.passed _)

theorem FolioCatalog.ofList_checks (fs : List Folio) :
    Checks ((repeats (fs.map Folio.id)).map .duplicateFolio) (FolioCatalog.ofList fs) := by
  unfold ofList
  split
  next id h => exact .of_repeat h _
  next h => exact .of_nodup h _ _

theorem TargetCatalog.ofList_checks (gs : List Target) :
    Checks ((repeats (gs.map Target.id)).map .duplicateTarget) (TargetCatalog.ofList gs) := by
  unfold ofList
  split
  next id h => exact .of_repeat h _
  next h => exact .of_nodup h _ _

theorem ZonesDocument.order_checks (d : ZonesDocument) : Checks d.orderFaults d.order := by
  have labels : (d.zones.map ZoneDocument.toZone).map Zone.label =
      d.zones.map ZoneDocument.label := by
    rw [List.map_map]
    rfl
  unfold order ZoneOrder.ofList orderFaults
  rw [← labels]
  split
  next hz =>
    exact .of_head? (by simp [faultUnless, List.map_eq_nil_iff.1 hz]) _
  next hz =>
  refine .of_append (faultUnless_eq_nil_iff.2 (mt (congrArg _) hz)) ?_
  split
  next label h => exact .of_repeat h _
  next h => exact .of_nodup h _ _

/-- The canonical labels of the order are those of the document. -/
theorem ZonesDocument.mem_canonicalLabels {d : ZonesDocument} {o : ZoneOrder}
    (h : d.order = .ok o) {z : String} : z ∈ o.canonicalLabels ↔ z ∈ d.canonicalLabels := by
  have zones : o.zones = d.zones.map ZoneDocument.toZone := by
    unfold order ZoneOrder.ofList at h
    split at h
    · cases h
    · split at h
      · cases h
      · cases h
        rfl
  rw [ZoneOrder.canonicalLabels, zones, SortedSet.mem_ofList, List.map_map]
  rfl

/-- The search for an unknown zone finds the first fault of the legality entries. -/
theorem ZonesDocument.firstUnknown?_eq_head? {d : ZonesDocument} {o : ZoneOrder}
    (h : d.order = .ok o) :
    (d.table.firstUnknown? o).map (fun p ↦ TableFault.unknownLegalityZone p.1 p.2) =
      d.legalityFaults.head? := by
  rw [legalityFaults, List.head?_flatMap, Legality.firstUnknown?, List.map_findSome?]
  congr 1
  funext p
  rw [head?_flatMap_faultUnless, Function.comp, Option.map_map]
  simp only [mem_canonicalLabels h]
  rfl

/-! ### Classes and targets -/

theorem ClassId.ofNat?_eq_none_iff {n : Nat} :
    ClassId.ofNat? n = none ↔ ¬ (1 ≤ n ∧ n ≤ classCount) := by
  unfold ofNat?
  split
  next h => simp [h]
  next h => simp [h]

theorem classOfNumber_checks (n : Nat) : Checks (numberFaults n) (classOfNumber n) := by
  unfold classOfNumber numberFaults
  cases h : ClassId.ofNat? n with
  | none =>
    rw [faultUnless_of_not (ClassId.ofNat?_eq_none_iff.1 h)]
    exact .failed _ _
  | some i =>
    have range : 1 ≤ n ∧ n ≤ classCount := by
      by_contra bad
      rw [ClassId.ofNat?_eq_none_iff.2 bad] at h
      cases h
    rw [faultUnless_eq_nil_iff.2 range]
    exact .passed i

theorem ClassDocument.toRow_checks (c : ClassDocument) : Checks (numberFaults c.id) c.toRow :=
  (classOfNumber_checks c.id).bind_pure _

theorem ClassDocument.row?_of_toRow {c : ClassDocument} {r : ClassRow} (h : c.toRow = .ok r) :
    c.row? = some r := by
  unfold toRow classOfNumber at h
  unfold row?
  cases hi : ClassId.ofNat? c.id with
  | none =>
    rw [hi] at h
    cases h
  | some i =>
    rw [hi] at h
    cases h
    rfl

theorem ClassRow.toClass_checks (r : ClassRow) : Checks r.faults r.toClass := by
  unfold toClass faults
  cases r.kind with
  | kernel =>
    simp only [floorClass]
    split
    next h => exact faultUnless_eq_nil_iff.2 h ▸ .passed _
    next h => exact faultUnless_of_not h _ ▸ .failed _ _
  | atomic =>
    simp only [floorClass]
    split
    next h => exact faultUnless_eq_nil_iff.2 h ▸ .passed _
    next h => exact faultUnless_of_not h _ ▸ .failed _ _
  | decomposable =>
    simp only
    split
    next h => exact faultUnless_of_not (not_not.2 h) _ ▸ .failed _ _
    next h => exact faultUnless_eq_nil_iff.2 h ▸ .passed _

/-- A row that makes sense defines the class whose number it bears. -/
theorem ClassRow.id_of_toClass {r : ClassRow} {c : InstructionClass} (h : r.toClass = .ok c) :
    c.id = r.id := by
  unfold toClass floorClass at h
  split at h <;> split at h <;> cases h <;> rfl

theorem ClassRow.toClassesAfter_checks {seen : ClassSet} {before rows : List ClassRow}
    (h : ∀ i, i ∈ seen ↔ i ∈ before.map ClassRow.id) :
    Checks ((withBefore before rows).flatMap rowFaults) (toClassesAfter seen rows) := by
  induction rows generalizing seen before with
  | nil => exact .passed []
  | cons r rs ih =>
    rw [withBefore, List.flatMap_cons, rowFaults, toClassesAfter, List.append_assoc]
    split
    next hr => exact .of_head? (by rw [faultUnless_of_not (not_not.2 ((h r.id).1 hr))]; rfl) _
    next hr =>
    refine .of_append (faultUnless_eq_nil_iff.2 (mt (h r.id).2 hr)) ?_
    refine r.toClass_checks.bind fun c _ ↦ ?_
    refine Checks.bind_pure (ih fun i ↦ ?_) (c :: ·)
    rw [ClassSet.mem_insert, h, List.map_append, List.mem_append]
    simp

/-- The classes that some rows define are those of the rows, in their order. -/
theorem ClassRow.map_id_of_toClassesAfter {seen : ClassSet} {rows : List ClassRow}
    {cs : List InstructionClass} (h : toClassesAfter seen rows = .ok cs) :
    cs.map InstructionClass.id = rows.map ClassRow.id := by
  induction rows generalizing seen cs with
  | nil =>
    cases h
    rfl
  | cons r rs ih =>
    rw [toClassesAfter] at h
    split at h
    · cases h
    · cases hc : r.toClass with
      | error f =>
        rw [hc] at h
        cases h
      | ok c =>
        cases hcs : toClassesAfter (seen.insert r.id) rs with
        | error f =>
          rw [hc, hcs] at h
          cases h
        | ok cs' =>
          rw [hc, hcs] at h
          cases h
          rw [List.map_cons, List.map_cons, ih hcs, id_of_toClass hc]

theorem mapM_eq_none_iff {α β : Type} {f : α → Option β} {xs : List α} :
    xs.mapM f = none ↔ ∃ x ∈ xs, f x = none := by
  induction xs with
  | nil => simp
  | cons x xs ih =>
    rw [List.mapM_cons, List.exists_mem_cons_iff, ← ih]
    cases f x with
    | none => simp
    | some y => cases xs.mapM f <;> simp

/-- A definition for every class is found exactly when no class is missing. -/
theorem mapM_find?_eq_none_iff {cs : List InstructionClass} :
    (ClassId.all.mapM fun i ↦ cs.find? fun c ↦ c.id == i) = none ↔
      ∃ i, i ∉ cs.map InstructionClass.id := by
  rw [mapM_eq_none_iff]
  simp [List.find?_eq_none]

theorem missingClasses_eq_nil_iff {rows : List ClassRow} :
    missingClasses rows = [] ↔ ∀ i, i ∈ rows.map ClassRow.id := by
  rw [missingClasses, List.filter_eq_nil_iff]
  simp only [ClassId.mem_all, forall_const, decide_eq_true_eq, not_not]

theorem ClassCatalog.ofRows_checks (rows : List ClassRow) :
    Checks (catalogFaults rows) (ClassCatalog.ofRows rows) := by
  unfold ofRows catalogFaults
  refine Checks.bind (ClassRow.toClassesAfter_checks fun i ↦ by simp) fun cs hcs ↦ ?_
  have ids := ClassRow.map_id_of_toClassesAfter hcs
  split
  next ds h =>
    have complete : missingClasses rows = [] := by
      rw [missingClasses_eq_nil_iff, ← ids]
      intro i
      by_contra missing
      rw [mapM_find?_eq_none_iff.2 ⟨i, missing⟩] at h
      cases h
    rw [faultUnless_eq_nil_iff.2 complete]
    exact .passed _
  next h =>
    have missing : (ClassId.all.filter fun i ↦ cs.all fun c ↦ c.id != i) = missingClasses rows := by
      rw [missingClasses, ← ids]
      refine List.filter_congr fun i _ ↦ ?_
      rw [Bool.eq_iff_iff]
      simp [List.all_eq_true]
    have some_missing : ¬ missingClasses rows = [] := by
      obtain ⟨i, hi⟩ := mapM_find?_eq_none_iff.1 h
      rw [missingClasses_eq_nil_iff, ← ids]
      exact fun complete ↦ hi (complete i)
    rw [missing, faultUnless_of_not some_missing]
    exact .failed _ _

theorem buildClasses_checks (ds : List ClassDocument) :
    Checks (classFaults ds) (buildClasses ds) := by
  refine Checks.bind (.mapM ClassDocument.toRow_checks) fun rows hrows ↦ ?_
  rw [filterMap_of_mapM hrows fun _ _ ↦ ClassDocument.row?_of_toRow]
  exact ClassCatalog.ofRows_checks rows

theorem TargetDocument.toTarget_checks (g : TargetDocument) :
    Checks (g.footprint.flatMap numberFaults) g.toTarget :=
  (Checks.mapM classOfNumber_checks).bind_pure _

theorem TargetDocument.id_of_toTarget {g : TargetDocument} {target : Target}
    (h : g.toTarget = .ok target) : target.id = g.id := by
  unfold toTarget at h
  cases hc : g.footprint.mapM classOfNumber with
  | error f =>
    rw [hc] at h
    cases h
  | ok cs =>
    rw [hc] at h
    cases h
    rfl

theorem buildTargets_checks (ds : List TargetDocument) :
    Checks (targetFaults ds) (buildTargets ds) := by
  refine Checks.bind (.mapM TargetDocument.toTarget_checks) fun gs hgs ↦ ?_
  rw [map_eq_map_of_mapM hgs fun _ _ h ↦ (TargetDocument.id_of_toTarget h).symm]
  exact TargetCatalog.ofList_checks gs

theorem Settings.ofParts_checks (spread : Nat) (e : Expectations) :
    Checks (faultUnless (1 ≤ spread) .zeroRestrictedSpread) (Settings.ofParts spread e) := by
  unfold ofParts
  split
  next h => exact faultUnless_eq_nil_iff.2 h ▸ .passed _
  next h => exact faultUnless_of_not h _ ▸ .failed _ _

/-- Building tables from documents fails with the first fault of these. -/
theorem TableDocuments.build_checks (d : TableDocuments) : Checks d.faults d.build := by
  have folioIds : (d.folios.map FolioDocument.toFolio).map Folio.id =
      d.folios.map FolioDocument.id := by
    rw [List.map_map]
    rfl
  unfold build faults
  simp only [List.flatten_cons, List.flatten_nil, List.append_nil]
  rw [← folioIds]
  refine d.markers.build_checks.bind fun markers _ ↦ ?_
  refine (FolioCatalog.ofList_checks _).bind fun folios _ ↦ ?_
  refine d.zones.order_checks.bind fun zones hzones ↦ ?_
  have legality := ZonesDocument.firstUnknown?_eq_head? hzones
  split
  next middle zone h =>
    rw [h] at legality
    exact .of_head? legality.symm _
  next h =>
  rw [h] at legality
  refine .of_append (List.head?_eq_none_iff.1 legality.symm) ?_
  refine (buildClasses_checks _).bind fun classes _ ↦ ?_
  refine (buildTargets_checks _).bind fun targets _ ↦ ?_
  exact (Settings.ofParts_checks _ _).bind_pure _

/-! ## What accepted documents describe -/

/-- Some documents describe some tables, each document its own. -/
structure TableDocuments.Describes (d : TableDocuments) (t : Tables) : Prop where
  markers : d.markers.build = .ok t.markers
  folios : FolioCatalog.ofList (d.folios.map FolioDocument.toFolio) = .ok t.folios
  /-- Spreads computed elsewhere are taken over, others are counted. -/
  spreads : t.spreads = d.spreads.elim (.derive t.folios) .mk
  zones : d.zones.order = .ok t.zones
  legality : t.legality = d.zones.table
  classes : buildClasses d.classes = .ok t.classes
  targets : buildTargets d.targets = .ok t.targets
  settings : Settings.ofParts d.settings.restrictedSpread d.settings.expectations = .ok t.settings

/-- The tables built from documents are those that the documents describe. -/
theorem TableDocuments.describes_of_build {d : TableDocuments} {t : Tables} (h : d.build = .ok t) :
    d.Describes t := by
  obtain ⟨markers, hmarkers, h⟩ := bind_eq_ok_iff.1 h
  obtain ⟨folios, hfolios, h⟩ := bind_eq_ok_iff.1 h
  obtain ⟨zones, hzones, h⟩ := bind_eq_ok_iff.1 h
  dsimp only at h
  split at h
  · cases h
  obtain ⟨classes, hclasses, h⟩ := bind_eq_ok_iff.1 h
  obtain ⟨targets, htargets, h⟩ := bind_eq_ok_iff.1 h
  obtain ⟨settings, hsettings, h⟩ := bind_eq_ok_iff.1 h
  cases h
  exact ⟨hmarkers, hfolios, rfl, hzones, rfl, hclasses, htargets, hsettings⟩

/-! ## No fault is left when the conditions hold -/

theorem MarkersDocument.faults_eq_nil_iff {d : MarkersDocument} :
    d.faults = [] ↔ d.Accepts := by
  have keys : (∀ m ∈ d.extended.keys, m.length = 2 ∨ m.length = 3) ↔
      ∀ p ∈ d.extended.toList, p.1.length = 2 ∨ p.1.length = 3 := by
    rw [SortedMap.keys, List.forall_mem_map]
  simp only [faults, List.flatten_cons, List.flatten_nil, List.append_nil, List.append_eq_nil_iff,
    faultUnless_eq_nil_iff, markerFaults, variantFaults, List.flatMap_eq_nil_iff, markers,
    List.forall_mem_append, SortedSet.mem_toList, SortedSet.mem_ofList, keys]
  constructor
  · rintro ⟨families_ne, ⟨family, variantLength⟩, variant, suffix, infrastructure⟩
    exact ⟨families_ne, family, variantLength, variant, suffix, infrastructure⟩
  · rintro ⟨families_ne, family, variantLength, variant, suffix, infrastructure⟩
    exact ⟨families_ne, ⟨family, variantLength⟩, variant, suffix, infrastructure⟩

theorem ZonesDocument.legalityFaults_eq_nil_iff {d : ZonesDocument} :
    d.legalityFaults = [] ↔ ∀ p ∈ d.legality.toList, ∀ z ∈ p.2, z ∈ d.canonicalLabels := by
  simp only [legalityFaults, List.flatMap_eq_nil_iff, faultUnless_eq_nil_iff, SortedSet.mem_toList]

theorem numberFaults_eq_nil_iff {n : Nat} : numberFaults n = [] ↔ 1 ≤ n ∧ n ≤ classCount := by
  rw [numberFaults, faultUnless_eq_nil_iff]

theorem ClassRow.faults_eq_nil_iff {r : ClassRow} :
    r.faults = [] ↔ (r.kind = .decomposable ↔ r.middles ≠ ∅) := by
  unfold faults
  cases r.kind <;> simp

/-- Rows make a catalog without fault when every class has one and no class has two, and kinds and
middles fit together. -/
theorem catalogFaults_eq_nil_iff {rows : List ClassRow} :
    catalogFaults rows = [] ↔ (rows.map ClassRow.id).Nodup ∧
      (∀ r ∈ rows, r.kind = .decomposable ↔ r.middles ≠ ∅) ∧ ∀ i, i ∈ rows.map ClassRow.id := by
  have each : (∀ q ∈ withBefore [] rows, q.2.faults = []) ↔
      ∀ r ∈ rows, r.kind = .decomposable ↔ r.middles ≠ ∅ := by
    conv_rhs => rw [← map_snd_withBefore [] rows]
    simp only [List.forall_mem_map, ClassRow.faults_eq_nil_iff]
  rw [catalogFaults, List.append_eq_nil_iff, faultUnless_eq_nil_iff, missingClasses_eq_nil_iff,
    nodup_map_iff_withBefore, ← each, ← and_assoc]
  simp only [List.flatMap_eq_nil_iff, rowFaults, List.append_eq_nil_iff, faultUnless_eq_nil_iff,
    forall_and]

theorem ClassDocument.eq_of_row? {c : ClassDocument} {r : ClassRow} (h : c.row? = some r) :
    r.id.number = c.id ∧ r.kind = c.kind ∧ (r.middles ≠ ∅ ↔ c.middles ≠ []) := by
  obtain ⟨i, hi, rfl⟩ := Option.map_eq_some_iff.1 h
  exact ⟨ClassId.ofNat?_eq_some_iff.1 hi, rfl, not_congr SortedSet.ofList_eq_empty_iff⟩

theorem ClassDocument.exists_row? {c : ClassDocument} (h : 1 ≤ c.id ∧ c.id ≤ classCount) :
    ∃ r, c.row? = some r := by
  rw [row?]
  cases hi : ClassId.ofNat? c.id with
  | none => exact absurd h (ClassId.ofNat?_eq_none_iff.1 hi)
  | some i => exact ⟨_, rfl⟩

/-- The rows bear the numbers of the documents when these are in range. -/
theorem map_number_rows {ds : List ClassDocument}
    (h : ∀ c ∈ ds, 1 ≤ c.id ∧ c.id ≤ classCount) :
    ((ds.filterMap ClassDocument.row?).map ClassRow.id).map ClassId.number =
      ds.map ClassDocument.id := by
  induction ds with
  | nil => rfl
  | cons c cs ih =>
    obtain ⟨hc, hcs⟩ := List.forall_mem_cons.1 h
    obtain ⟨r, hr⟩ := ClassDocument.exists_row? hc
    rw [List.filterMap_cons_some hr, List.map_cons, List.map_cons, List.map_cons, ih hcs,
      (ClassDocument.eq_of_row? hr).1]

theorem forall_rows_iff {ds : List ClassDocument}
    (h : ∀ c ∈ ds, 1 ≤ c.id ∧ c.id ≤ classCount) :
    (∀ r ∈ ds.filterMap ClassDocument.row?, r.kind = .decomposable ↔ r.middles ≠ ∅) ↔
      ∀ c ∈ ds, c.kind = .decomposable ↔ c.middles ≠ [] := by
  constructor
  · intro rows c hc
    obtain ⟨r, hr⟩ := ClassDocument.exists_row? (h c hc)
    obtain ⟨-, kind, middles⟩ := ClassDocument.eq_of_row? hr
    rw [← kind, ← middles]
    exact rows r (List.mem_filterMap.2 ⟨c, hc, hr⟩)
  · intro documents r hr
    obtain ⟨c, hc, hr⟩ := List.mem_filterMap.1 hr
    obtain ⟨-, kind, middles⟩ := ClassDocument.eq_of_row? hr
    rw [kind, middles]
    exact documents c hc

theorem ClassId.mem_map_number_iff {ids : List ClassId} {i : ClassId} :
    i.number ∈ ids.map ClassId.number ↔ i ∈ ids :=
  List.mem_map_of_injective fun _ _ ↦ ClassId.number_inj.1

/-- The classes are without fault when their numbers are those of all classes, each once, and
exactly the decomposable ones list middles. -/
theorem classFaults_eq_nil_iff {ds : List ClassDocument} :
    classFaults ds = [] ↔ (ds.map ClassDocument.id).Perm (List.range' 1 classCount) ∧
      ∀ c ∈ ds, c.kind = .decomposable ↔ c.middles ≠ [] := by
  have inRange {n : Nat} : n ∈ List.range' 1 classCount ↔ 1 ≤ n ∧ n ≤ classCount := by
    rw [List.mem_range'_1]
    omega
  rw [classFaults, List.append_eq_nil_iff, catalogFaults_eq_nil_iff]
  simp only [List.flatMap_eq_nil_iff, numberFaults_eq_nil_iff]
  constructor
  · rintro ⟨range, nodup, required, complete⟩
    refine ⟨?_, (forall_rows_iff range).1 required⟩
    have numbers := List.Nodup.map (fun _ _ ↦ ClassId.number_inj.1) nodup
    rw [← map_number_rows range, List.perm_ext_iff_of_nodup numbers List.nodup_range']
    intro n
    rw [inRange]
    constructor
    · intro hn
      obtain ⟨i, -, rfl⟩ := List.mem_map.1 hn
      exact ⟨i.one_le_number, i.number_le⟩
    · intro hn
      cases hi : ClassId.ofNat? n with
      | none => exact absurd hn (ClassId.ofNat?_eq_none_iff.1 hi)
      | some i =>
        rw [← ClassId.ofNat?_eq_some_iff.1 hi]
        exact ClassId.mem_map_number_iff.2 (complete i)
  · rintro ⟨perm, required⟩
    have range : ∀ c ∈ ds, 1 ≤ c.id ∧ c.id ≤ classCount := fun c hc ↦
      inRange.1 (perm.subset (List.mem_map_of_mem hc))
    rw [← map_number_rows range] at perm
    refine ⟨range, List.Nodup.of_map _ (perm.nodup_iff.2 List.nodup_range'),
      (forall_rows_iff range).2 required, fun i ↦ ?_⟩
    rw [← ClassId.mem_map_number_iff]
    exact perm.symm.subset (inRange.2 ⟨i.one_le_number, i.number_le⟩)

theorem targetFaults_eq_nil_iff {ds : List TargetDocument} :
    targetFaults ds = [] ↔ (∀ g ∈ ds, ∀ n ∈ g.footprint, 1 ≤ n ∧ n ≤ classCount) ∧
      (ds.map TargetDocument.id).Nodup := by
  simp only [targetFaults, List.append_eq_nil_iff, List.flatMap_eq_nil_iff,
    numberFaults_eq_nil_iff, List.map_eq_nil_iff, repeats_eq_nil_iff]

/-- Documents are without fault exactly when they make sense. -/
theorem TableDocuments.faults_eq_nil_iff {d : TableDocuments} : d.faults = [] ↔ d.Accepts := by
  simp only [faults, List.flatten_cons, List.flatten_nil, List.append_nil, List.append_eq_nil_iff,
    MarkersDocument.faults_eq_nil_iff, List.map_eq_nil_iff, repeats_eq_nil_iff,
    ZonesDocument.orderFaults, ZonesDocument.legalityFaults_eq_nil_iff, classFaults_eq_nil_iff,
    targetFaults_eq_nil_iff, faultUnless_eq_nil_iff]
  constructor
  · rintro ⟨markers, folios, ⟨zones_ne, labels⟩, legality, ⟨classes, required⟩,
      ⟨footprints, targets⟩, spread⟩
    exact ⟨markers, folios, zones_ne, labels, legality, classes, required, footprints, targets,
      spread⟩
  · rintro ⟨markers, folios, zones_ne, labels, legality, classes, required, footprints, targets,
      spread⟩
    exact ⟨markers, folios, ⟨zones_ne, labels⟩, legality, ⟨classes, required⟩,
      ⟨footprints, targets⟩, spread⟩

/-- **Documents are accepted exactly when they make sense, and otherwise the first fault is
reported.** -/
theorem TableDocuments.build_firstFault (d : TableDocuments) :
    ((∃ t, d.build = .ok t) ↔ d.Accepts) ∧
      ∀ f, d.build = .error f ↔ d.faults.head? = some f := by
  constructor
  · rw [d.build_checks.exists_eq_ok_iff, faults_eq_nil_iff]
  · exact fun f ↦ d.build_checks.eq_error_iff

end ManuscriptReach
