import Mathlib.Data.Multiset.MapFold
import ManuscriptReach.Proofs.Canonical
import ManuscriptReach.Proofs.Described
import ManuscriptReach.Tables.Fingerprint

/-!
# Documents in other words

Documents restate others when they say the same and differ only in how they list it: the
elements of a set in another order or more than once, the rows of a table in another order
(`TableDocuments.Restates`).

Whether documents are accepted does not depend on how they list anything, though the fault
that is reported first does.  The tables hold sets, and one class after another, so of all
this they show the order of the folios and of the targets only (`Tables.Permutes`).  Where the
documents leave these two in place, nothing is left to show.
-/

namespace ManuscriptReach

/-! ## Restatements -/

/-- Two lists hold the same elements, in whatever order and however often. -/
def SameElements {α : Type} (xs ys : List α) : Prop := ∀ x, x ∈ xs ↔ x ∈ ys

namespace SameElements

variable {α : Type} {xs ys : List α}

theorem refl (xs : List α) : SameElements xs xs := fun _ ↦ Iff.rfl

theorem symm (h : SameElements xs ys) : SameElements ys xs := fun x ↦ (h x).symm

theorem ne_nil_iff (h : SameElements xs ys) : xs ≠ [] ↔ ys ≠ [] := by
  rw [ne_eq, ne_eq, List.eq_nil_iff_forall_not_mem, List.eq_nil_iff_forall_not_mem]
  simp only [h _]

/-- Lists of the same elements make one set. -/
theorem ofList_eq {xs ys : List String} (h : SameElements xs ys) :
    SortedSet.ofList xs = SortedSet.ofList ys := by
  apply SortedSet.ext_mem
  intro x
  rw [SortedSet.mem_ofList, SortedSet.mem_ofList, h]

end SameElements

/-- The documents list the same markers. -/
structure MarkersDocument.Restates (d d' : MarkersDocument) : Prop where
  families : SameElements d.families d'.families
  extended : d.extended = d'.extended
  suffixes : SameElements d.suffixes d'.suffixes
  infrastructure : SameElements d.infrastructure d'.infrastructure

/-- The rows list the same vocabulary for one folio. -/
structure FolioDocument.Restates (f f' : FolioDocument) : Prop where
  id : f.id = f'.id
  vocabulary : SameElements f.vocabulary f'.vocabulary

/-- The rows list the same middles for one class. -/
structure ClassDocument.Restates (c c' : ClassDocument) : Prop where
  id : c.id = c'.id
  kind : c.kind = c'.kind
  middles : SameElements c.middles c'.middles

/-- The rows list the same footprint for one target. -/
structure TargetDocument.Restates (g g' : TargetDocument) : Prop where
  id : g.id = g'.id
  footprint : SameElements g.footprint g'.footprint

/-- The documents say the same, in rows that may stand in another order. -/
structure TableDocuments.Restates (d d' : TableDocuments) : Prop where
  markers : d.markers.Restates d'.markers
  folios : Multiset.Rel FolioDocument.Restates d.folios d'.folios
  spreads : d.spreads = d'.spreads
  zones : d.zones = d'.zones
  classes : Multiset.Rel ClassDocument.Restates d.classes d'.classes
  targets : Multiset.Rel TargetDocument.Restates d.targets d'.targets
  settings : d.settings = d'.settings

theorem MarkersDocument.Restates.refl (d : MarkersDocument) : d.Restates d :=
  ⟨.refl _, rfl, .refl _, .refl _⟩

theorem FolioDocument.Restates.refl (f : FolioDocument) : f.Restates f := ⟨rfl, .refl _⟩

theorem ClassDocument.Restates.refl (c : ClassDocument) : c.Restates c := ⟨rfl, rfl, .refl _⟩

theorem TargetDocument.Restates.refl (g : TargetDocument) : g.Restates g := ⟨rfl, .refl _⟩

theorem MarkersDocument.Restates.symm {d d' : MarkersDocument} (h : d.Restates d') :
    d'.Restates d :=
  ⟨h.families.symm, h.extended.symm, h.suffixes.symm, h.infrastructure.symm⟩

theorem FolioDocument.Restates.symm {f f' : FolioDocument} (h : f.Restates f') : f'.Restates f :=
  ⟨h.id.symm, h.vocabulary.symm⟩

theorem ClassDocument.Restates.symm {c c' : ClassDocument} (h : c.Restates c') : c'.Restates c :=
  ⟨h.id.symm, h.kind.symm, h.middles.symm⟩

theorem TargetDocument.Restates.symm {g g' : TargetDocument} (h : g.Restates g') :
    g'.Restates g :=
  ⟨h.id.symm, h.footprint.symm⟩

section Rows

variable {α β γ : Type} {R : α → β → Prop} {xs : List α} {ys : List β}

/-- Related rows, read from the other side. -/
theorem rel_symm {S : β → α → Prop} (h : Multiset.Rel R xs ys) (symm : ∀ x y, R x y → S y x) :
    Multiset.Rel S ys xs :=
  (Multiset.rel_flip.2 h).mono fun y _ x _ hxy ↦ symm x y hxy

/-- Rows that are related place by place. -/
theorem rel_of_forall₂ (h : List.Forall₂ R xs ys) : Multiset.Rel R xs ys := by
  induction h with
  | nil => exact .zero
  | cons head _ ih => exact .cons head ih

/-- Rows in another order. -/
theorem rel_of_perm {R : α → α → Prop} (refl : ∀ x, R x x) {xs ys : List α} (h : xs.Perm ys) :
    Multiset.Rel R xs ys := by
  rw [Multiset.coe_eq_coe.2 h]
  exact Multiset.rel_refl_of_refl_on fun x _ ↦ refl x

/-- What rows have in common that are related place by place, they have in one order. -/
theorem map_eq_of_forall₂ (h : List.Forall₂ R xs ys) {f : α → γ} {g : β → γ}
    (same : ∀ x y, R x y → f x = g y) : xs.map f = ys.map g := by
  rw [← List.forall₂_eq_eq_eq, List.forall₂_map_left_iff, List.forall₂_map_right_iff]
  exact h.imp same

/-- What related rows have in common, they have in another order. -/
theorem map_perm_of_rel (h : Multiset.Rel R xs ys) {f : α → γ} {g : β → γ}
    (same : ∀ x y, R x y → f x = g y) : (xs.map f).Perm (ys.map g) := by
  rw [← Multiset.coe_eq_coe, ← Multiset.map_coe, ← Multiset.map_coe, ← Multiset.rel_eq,
    Multiset.rel_map]
  exact h.mono fun x _ y _ ↦ same x y

/-- What holds of every row holds of the rows related to them. -/
theorem forall_of_rel (h : Multiset.Rel R xs ys) {p : α → Prop} {q : β → Prop}
    (pass : ∀ x y, R x y → p x → q y) (hp : ∀ x ∈ xs, p x) : ∀ y ∈ ys, q y := by
  intro y hy
  obtain ⟨x, hx, hxy⟩ := Multiset.exists_mem_of_rel_of_mem (Multiset.rel_flip.2 h) hy
  exact pass x y hxy (hp x hx)

end Rows

theorem TableDocuments.Restates.symm {d d' : TableDocuments} (h : d.Restates d') :
    d'.Restates d where
  markers := h.markers.symm
  folios := rel_symm h.folios fun _ _ ↦ FolioDocument.Restates.symm
  spreads := h.spreads.symm
  zones := h.zones.symm
  classes := rel_symm h.classes fun _ _ ↦ ClassDocument.Restates.symm
  targets := rel_symm h.targets fun _ _ ↦ TargetDocument.Restates.symm
  settings := h.settings.symm

/-! ## Acceptance -/

theorem MarkersDocument.Restates.accepts {d d' : MarkersDocument} (h : d.Restates d')
    (ha : d.Accepts) : d'.Accepts where
  families_ne := h.families.ne_nil_iff.1 ha.families_ne
  length_family := fun m hm ↦ ha.length_family m ((h.families m).2 hm)
  length_variant := h.extended ▸ ha.length_variant
  variant := fun p hp ↦ by
    rw [← h.families, ← h.families]
    exact ha.variant p (h.extended ▸ hp)
  suffix_ne := mt (h.suffixes "").2 ha.suffix_ne
  infrastructure_ne := mt (h.infrastructure "").2 ha.infrastructure_ne

/-- Restated documents make as much sense. -/
theorem TableDocuments.Restates.accepts {d d' : TableDocuments} (h : d.Restates d')
    (ha : d.Accepts) : d'.Accepts where
  markers := h.markers.accepts ha.markers
  folios := (map_perm_of_rel h.folios fun _ _ ↦ FolioDocument.Restates.id).nodup ha.folios
  zones_ne := h.zones ▸ ha.zones_ne
  labels := h.zones ▸ ha.labels
  legality := h.zones ▸ ha.legality
  classes := (map_perm_of_rel h.classes fun _ _ ↦ ClassDocument.Restates.id).symm.trans ha.classes
  required := forall_of_rel h.classes
    (fun _ _ same required ↦ by rwa [← same.kind, ← same.middles.ne_nil_iff]) ha.required
  footprints := forall_of_rel h.targets
    (fun _ _ same numbers n hn ↦ numbers n ((same.footprint n).2 hn)) ha.footprints
  targets := (map_perm_of_rel h.targets fun _ _ ↦ TargetDocument.Restates.id).nodup ha.targets
  spread := h.settings ▸ ha.spread

theorem TableDocuments.exists_build_iff_accepts {d : TableDocuments} :
    (∃ t, d.build = .ok t) ↔ d.Accepts := by
  rw [d.build_checks.exists_eq_ok_iff, faults_eq_nil_iff]

/-- Restated documents are accepted as well. -/
theorem TableDocuments.Restates.exists_build_iff {d d' : TableDocuments} (h : d.Restates d') :
    (∃ t, d.build = .ok t) ↔ ∃ u, d'.build = .ok u := by
  rw [exists_build_iff_accepts, exists_build_iff_accepts]
  exact ⟨h.accepts, h.symm.accepts⟩

/-! ## Tables -/

/-- The tables differ at most in the order of the folios and in that of the targets. -/
structure Tables.Permutes (t u : Tables) : Prop where
  markers : t.markers = u.markers
  folios : t.folios.folios.Perm u.folios.folios
  spreads : t.spreads = u.spreads
  zones : t.zones = u.zones
  legality : t.legality = u.legality
  classes : t.classes = u.classes
  targets : t.targets.targets.Perm u.targets.targets
  settings : t.settings = u.settings

/-- With folios and targets in the same order nothing is left to differ. -/
theorem Tables.Permutes.eq {t u : Tables} (h : t.Permutes u) (folios : t.folios = u.folios)
    (targets : t.targets = u.targets) : t = u := by
  obtain ⟨markers, -, spreads, zones, legality, classes, -, settings⟩ := h
  cases t
  cases u
  cases markers
  cases folios
  cases spreads
  cases zones
  cases legality
  cases classes
  cases targets
  cases settings
  rfl

theorem MarkersDocument.Restates.build_eq {d d' : MarkersDocument} (h : d.Restates d') :
    d.build = d'.build := by
  rw [build, build, h.families.ofList_eq, h.extended, h.suffixes.ofList_eq,
    h.infrastructure.ofList_eq]

theorem FolioDocument.Restates.toFolio_eq {f f' : FolioDocument} (h : f.Restates f') :
    f.toFolio = f'.toFolio := by
  rw [toFolio, toFolio, h.id, h.vocabulary.ofList_eq]

theorem TargetDocument.Restates.target_eq {g g' : TargetDocument} (h : g.Restates g') :
    g.target = g'.target := by
  have footprint : ClassSet.ofList (g.footprint.filterMap ClassId.ofNat?) =
      .ofList (g'.footprint.filterMap ClassId.ofNat?) := by
    ext i
    simp only [ClassSet.mem_ofList, List.mem_filterMap, h.footprint _]
  rw [target, target, h.id, footprint]

/-- Rows that restate each other define one class. -/
theorem ClassDocument.Restates.defines_unique {c c' : ClassDocument} {k k' : InstructionClass}
    (h : c.Restates c') (hk : c.Defines k) (hk' : c'.Defines k') : k = k' := by
  obtain ⟨i, requirement⟩ := k
  obtain ⟨i', requirement'⟩ := k'
  have id : i = i' := ClassId.number_inj.1 (by rw [hk.id, hk'.id, h.id])
  have same : requirement = requirement' := Requirement.eq_of_kind_of_middles
    (by rw [hk.kind, hk'.kind, h.kind]) (by rw [hk.middles, hk'.middles, h.middles.ofList_eq])
  rw [id, same]

/-- Counting does not depend on the order of the folios. -/
theorem SpreadTable.derive_eq_of_perm {c c' : FolioCatalog} (h : c.folios.Perm c'.folios) :
    derive c = derive c' := by
  have indexed : SortedSet.unions (c.folios.map Folio.vocabulary) =
      .unions (c'.folios.map Folio.vocabulary) := by
    apply SortedSet.ext_mem
    intro m
    simp only [SortedSet.mem_unions, (h.map Folio.vocabulary).mem_iff]
  rw [derive, derive, indexed]
  congr 2
  funext m
  exact h.countP_eq _

namespace TableDocuments

variable {d d' : TableDocuments} {t u : Tables}

/-- A row that bears the number of a class defines it, for no other row does. -/
theorem Describes.defines_get (h : d.Describes t) (accepted : d.Accepts) {c : ClassDocument}
    (hc : c ∈ d.classes) {i : ClassId} (id : i.number = c.id) : c.Defines (t.classes.get i) := by
  obtain ⟨c', hc', defines⟩ := h.exists_defines (t.classes.get_mem i)
  have ids : c'.id = c.id := by rw [← defines.id, ClassCatalog.id_get, id]
  have nodup : (d.classes.map ClassDocument.id).Nodup :=
    accepted.classes.symm.nodup List.nodup_range'
  rwa [List.inj_on_of_nodup_map nodup hc' hc ids] at defines

/-- Class by class the tables have the same definition. -/
theorem Describes.classes_eq (h : d.Describes t) (h' : d'.Describes u) (same : d.Restates d')
    (accepted : d'.Accepts) : t.classes = u.classes := by
  apply ClassCatalog.eq_of_get
  intro i
  obtain ⟨c, hc, defines⟩ := h.exists_defines (t.classes.get_mem i)
  obtain ⟨c', hc', restates⟩ := Multiset.exists_mem_of_rel_of_mem same.classes hc
  refine restates.defines_unique defines (h'.defines_get accepted hc' ?_)
  rw [← restates.id, ← defines.id, ClassCatalog.id_get]

/-- The tables of restated documents differ at most in the order of folios and of targets. -/
theorem Describes.permutes (h : d.Describes t) (h' : d'.Describes u) (same : d.Restates d')
    (accepted : d'.Accepts) : t.Permutes u := by
  have folios : t.folios.folios.Perm u.folios.folios := by
    rw [h.folios_eq, h'.folios_eq]
    exact map_perm_of_rel same.folios fun _ _ ↦ FolioDocument.Restates.toFolio_eq
  exact {
    markers := Except.ok.inj (by rw [← h.markers, ← h'.markers, same.markers.build_eq])
    folios := folios
    spreads := by
      rw [h.spreads, h'.spreads, same.spreads, SpreadTable.derive_eq_of_perm folios]
    zones := Except.ok.inj (by rw [← h.zones, ← h'.zones, same.zones])
    legality := by rw [h.legality, h'.legality, same.zones]
    classes := h.classes_eq h' same accepted
    targets := by
      rw [h.targets_eq, h'.targets_eq]
      exact map_perm_of_rel same.targets fun _ _ ↦ TargetDocument.Restates.target_eq
    settings := Except.ok.inj (by rw [← h.settings, ← h'.settings, same.settings]) }

theorem permutes_of_build (same : d.Restates d') (h : d.build = .ok t) (h' : d'.build = .ok u) :
    t.Permutes u :=
  (describes_of_build h).permutes (describes_of_build h') same
    (exists_build_iff_accepts.1 ⟨u, h'⟩)

end TableDocuments

/-! ## Rows in place -/

/-- The documents say the same and leave folios and targets in place. -/
structure TableDocuments.Relists (d d' : TableDocuments) : Prop where
  markers : d.markers.Restates d'.markers
  folios : List.Forall₂ FolioDocument.Restates d.folios d'.folios
  spreads : d.spreads = d'.spreads
  zones : d.zones = d'.zones
  classes : Multiset.Rel ClassDocument.Restates d.classes d'.classes
  targets : List.Forall₂ TargetDocument.Restates d.targets d'.targets
  settings : d.settings = d'.settings

namespace TableDocuments

variable {d d' : TableDocuments} {t u : Tables}

theorem Relists.restates (h : d.Relists d') : d.Restates d' where
  markers := h.markers
  folios := rel_of_forall₂ h.folios
  spreads := h.spreads
  zones := h.zones
  classes := h.classes
  targets := rel_of_forall₂ h.targets
  settings := h.settings

/-- The same rows in the same places give the same tables. -/
theorem Relists.eq_of_build (same : d.Relists d') (h : d.build = .ok t) (h' : d'.build = .ok u) :
    t = u := by
  have described := describes_of_build h
  have described' := describes_of_build h'
  refine (permutes_of_build same.restates h h').eq (FolioCatalog.ext ?_) (TargetCatalog.ext ?_)
  · rw [described.folios_eq, described'.folios_eq]
    exact map_eq_of_forall₂ same.folios fun _ _ ↦ FolioDocument.Restates.toFolio_eq
  · rw [described.targets_eq, described'.targets_eq]
    exact map_eq_of_forall₂ same.targets fun _ _ ↦ TargetDocument.Restates.target_eq

/-- **How documents list sets and classes leaves no trace.**  Documents that differ in nothing else
are both accepted or both rejected; they describe the same tables, which have one canonical text and
one fingerprint. -/
theorem build_relists (d d' : TableDocuments) (same : d.Relists d') :
    ((∃ t, d.build = .ok t) ↔ ∃ u, d'.build = .ok u) ∧
      ∀ t u, d.build = .ok t → d'.build = .ok u →
        t = u ∧ t.canonical.toUTF8 = u.canonical.toUTF8 ∧
          Fingerprint.ofTables t = Fingerprint.ofTables u := by
  refine ⟨same.restates.exists_build_iff, fun t u h h' ↦ ?_⟩
  obtain rfl := same.eq_of_build h h'
  exact ⟨rfl, rfl, rfl⟩

end TableDocuments

/-- The sample documents with lists in another order and with repetitions, and with the class rows
upside down. -/
def shuffledDocuments : TableDocuments :=
  { relistedDocuments with spreads := none, zones := sampleDocuments.zones }

theorem shuffledDocuments_relists : sampleDocuments.Relists shuffledDocuments where
  markers := ⟨fun x ↦ by simp [sampleDocuments, shuffledDocuments, relistedDocuments], rfl, .refl _,
    .refl _⟩
  folios := .cons ⟨rfl, fun x ↦ by grind⟩ (.cons ⟨rfl, fun x ↦ by grind⟩ .nil)
  spreads := rfl
  zones := rfl
  classes := rel_of_perm ClassDocument.Restates.refl (List.reverse_perm _).symm
  targets := .cons ⟨rfl, fun x ↦ by grind⟩ (.cons ⟨rfl, .refl _⟩ .nil)
  settings := rfl

theorem build_relists_sample :
    sampleDocuments.Relists shuffledDocuments ∧ sampleDocuments.build = .ok sampleTables ∧
      shuffledDocuments.build = .ok sampleTables := by
  have built : sampleDocuments.build = .ok sampleTables := eq_ok_get sampleDocuments_accepted
  obtain ⟨accepted, same⟩ := TableDocuments.build_relists sampleDocuments shuffledDocuments
    shuffledDocuments_relists
  obtain ⟨u, hu⟩ := accepted.1 ⟨_, built⟩
  refine ⟨shuffledDocuments_relists, built, ?_⟩
  rw [hu, (same _ u built hu).1]

end ManuscriptReach
