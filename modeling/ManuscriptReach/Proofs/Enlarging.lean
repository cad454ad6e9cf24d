import ManuscriptReach.Proofs.Narrowing

/-!
# Larger tables

`Tables.GrowsTo` relates two sets of tables with the same zones and the same targets.
The second has more folios or more middles on them, admits middles in more zones,
requires less of its classes, and has smaller footprints.  Nothing else about the two
is compared: markers, spreads and settings may differ.

An entry that is missing from a legality table admits its middle everywhere.  So
leaving an entry out is growth, and adding one is not.

Growth widens every propagation (`Tables.propagate_growsTo`).  A closed propagation may
become open; an open one stays open.
-/

namespace ManuscriptReach

/-- Whatever can fail of the second requirement can fail of the first, and the second has every
middle of the first. -/
def Requirement.Relaxes (r s : Requirement) : Prop :=
  s.isPrunable = true → r.isPrunable = true ∧ r.middles ⊆ s.middles

instance (r s : Requirement) : Decidable (r.Relaxes s) :=
  inferInstanceAs (Decidable (s.isPrunable = true → r.isPrunable = true ∧ r.middles ⊆ s.middles))

/-- Wherever the second table has an entry, the first has one that admits no more zones. -/
def Legality.Loosens (t u : Legality) : Prop :=
  ∀ m zones, u.entries.get? m = some zones → ∃ ys, t.entries.get? m = some ys ∧ ys ⊆ zones

/-- The second target is the first with as many classes in its footprint or fewer. -/
structure Target.Eases (g h : Target) : Prop where
  id : h.id = g.id
  footprint : h.footprint ⊆ g.footprint

/-- The second tables have the zones and the targets of the first, and are larger. -/
structure Tables.GrowsTo (t u : Tables) : Prop where
  /-- The zones are the same, in the same order. -/
  zones : u.zones.zones = t.zones.zones
  /-- Every folio is still there, with as many middles or more. -/
  folios : ∀ f ∈ t.folios.folios, ∃ g ∈ u.folios.folios, g.id = f.id ∧ f.vocabulary ⊆ g.vocabulary
  /-- Legality entries are left out or admit more zones. -/
  legality : t.legality.Loosens u.legality
  /-- Classes require one of more middles, or nothing any more. -/
  classes : ∀ i, (t.classes.get i).requirement.Relaxes (u.classes.get i).requirement
  /-- The targets are the same, in the same order, and need no further class. -/
  targets : List.Forall₂ Target.Eases t.targets.targets u.targets.targets

/-! ## Single tables -/

namespace Requirement

variable {q r s : Requirement}

theorem Relaxes.refl (r : Requirement) : r.Relaxes r := fun h ↦ ⟨h, SortedSet.Subset.refl _⟩

theorem Relaxes.trans (h : q.Relaxes r) (h' : r.Relaxes s) : q.Relaxes s := by
  intro hs
  obtain ⟨hr, hrs⟩ := h' hs
  obtain ⟨hq, hqr⟩ := h hr
  exact ⟨hq, SortedSet.Subset.trans hqr hrs⟩

/-- What meets a requirement meets every relaxed one. -/
theorem Relaxes.isMet (h : r.Relaxes s) {v w : StringSet} (hv : v ⊆ w)
    (met : r.isMet v = true) : s.isMet w = true := by
  rw [isMet_iff] at met ⊢
  intro hs
  obtain ⟨hr, hrs⟩ := h hs
  obtain ⟨m, hm, hmv⟩ := met hr
  exact ⟨m, hrs m hm, hv m hmv⟩

end Requirement

namespace Legality

variable {s t u : Legality}

theorem Loosens.refl (t : Legality) : t.Loosens t := fun _ zones h ↦
  ⟨zones, h, SortedSet.Subset.refl _⟩

theorem Loosens.trans (h : s.Loosens t) (h' : t.Loosens u) : s.Loosens u := by
  intro m zones hz
  obtain ⟨ys, hy, hyz⟩ := h' m zones hz
  obtain ⟨xs, hx, hxy⟩ := h m ys hy
  exact ⟨xs, hx, SortedSet.Subset.trans hxy hyz⟩

/-- A middle stays legal wherever it was. -/
theorem Loosens.isLegal (h : t.Loosens u) {m : String} {z : Zone} (legal : t.isLegal m z = true) :
    u.isLegal m z = true := by
  rw [isLegal_iff] at legal ⊢
  intro zones hz
  obtain ⟨ys, hy, hyz⟩ := h m zones hz
  exact hyz _ (legal ys hy)

end Legality

/-- Larger vocabularies leave more classes when these require less. -/
theorem ClassCatalog.reachable_subset {c d : ClassCatalog}
    (h : ∀ i, (c.get i).requirement.Relaxes (d.get i).requirement) {v w : StringSet} (hv : v ⊆ w) :
    c.reachable v ⊆ d.reachable w := by
  rw [ClassSet.subset_iff]
  intro i hi
  rw [mem_reachable_iff_get] at hi ⊢
  exact (h i).isMet hv hi

theorem Target.Eases.trans {g h k : Target} (hgh : g.Eases h) (hhk : h.Eases k) : g.Eases k :=
  ⟨hhk.id.trans hgh.id, ClassSet.Subset.trans hhk.footprint hgh.footprint⟩

theorem forall₂_trans {α : Type} {R : α → α → Prop} (trans : ∀ a b c, R a b → R b c → R a c)
    {xs ys zs : List α} (h : List.Forall₂ R xs ys) (h' : List.Forall₂ R ys zs) :
    List.Forall₂ R xs zs := by
  induction h generalizing zs with
  | nil => exact h'
  | cons hab _ ih =>
    cases h' with
    | cons hbc hrest => exact .cons (trans _ _ _ hab hbc) (ih hrest)

/-! ## All tables -/

namespace Tables

variable {s t u : Tables} {r : StringSet}

theorem GrowsTo.refl (t : Tables) : t.GrowsTo t where
  zones := rfl
  folios := fun f hf ↦ ⟨f, hf, rfl, SortedSet.Subset.refl _⟩
  legality := .refl _
  classes := fun _ ↦ .refl _
  targets := List.forall₂_same.2 fun _ _ ↦ ⟨rfl, ClassSet.Subset.refl _⟩

/-- Steps of growth make up growth, so it does not matter how they are combined. -/
theorem GrowsTo.trans (h : s.GrowsTo t) (h' : t.GrowsTo u) : s.GrowsTo u where
  zones := h'.zones.trans h.zones
  folios := by
    intro f hf
    obtain ⟨g, hg, hgf, hfg⟩ := h.folios f hf
    obtain ⟨k, hk, hkg, hgk⟩ := h'.folios g hg
    exact ⟨k, hk, hkg.trans hgf, SortedSet.Subset.trans hfg hgk⟩
  legality := h.legality.trans h'.legality
  classes := fun i ↦ (h.classes i).trans (h'.classes i)
  targets := forall₂_trans (fun _ _ _ hgh hhk ↦ hgh.trans hhk) h.targets h'.targets

/-- A folio stays compatible. -/
theorem GrowsTo.mem_compatible (h : t.GrowsTo u) {id : String}
    (hid : id ∈ (t.propagate r).compatible) : id ∈ (u.propagate r).compatible := by
  rw [propagate_compatible, List.mem_map] at hid ⊢
  obtain ⟨f, hf, rfl⟩ := hid
  obtain ⟨hfolio, hr⟩ := FolioCatalog.mem_compatible.1 hf
  obtain ⟨g, hg, hgf, hfg⟩ := h.folios f hfolio
  exact ⟨g, FolioCatalog.mem_compatible.2 ⟨hg, SortedSet.Subset.trans hr hfg⟩, hgf⟩

theorem GrowsTo.compatible_ne_nil (h : t.GrowsTo u) (ne : t.folios.compatible r ≠ []) :
    u.folios.compatible r ≠ [] := by
  obtain ⟨f, hf⟩ := List.exists_mem_of_ne_nil _ ne
  have hid : f.id ∈ (t.propagate r).compatible := by
    rw [propagate_compatible]
    exact List.mem_map_of_mem hf
  have hid' := h.mem_compatible hid
  rw [propagate_compatible] at hid'
  intro none
  rw [none] at hid'
  exact List.not_mem_nil hid'

/-- The compatible folios have no fewer middles together. -/
theorem GrowsTo.effective (h : t.GrowsTo u) (r : StringSet) :
    (t.propagate r).effective ⊆ (u.propagate r).effective := by
  intro m hm
  obtain ⟨f, hf, hr, hmf⟩ := mem_effective.1 hm
  obtain ⟨g, hg, -, hfg⟩ := h.folios f hf
  exact mem_effective.2 ⟨g, hg, SortedSet.Subset.trans hr hfg, hfg m hmf⟩

/-- No less is legal and reachable in a zone, given no smaller a vocabulary. -/
theorem GrowsTo.zoneReach (h : t.GrowsTo u) {v w : StringSet} (hv : v ⊆ w) (z : Zone) :
    (t.zoneReach v z).Within (u.zoneReach w z) :=
  have legal : t.legality.legalIn v z ⊆ u.legality.legalIn w z :=
    Legality.legalIn_subset hv fun _ _ hm ↦ h.legality.isLegal hm
  ⟨rfl, legal, ClassCatalog.reachable_subset h.classes legal⟩

theorem GrowsTo.reachability (h : t.GrowsTo u) (r : StringSet) :
    (t.propagate r).reachability.Within (u.propagate r).reachability := by
  by_cases ht : t.folios.compatible r = []
  · rw [propagate_closed ht]
    exact .closed _
  · rw [propagate_opened ht, propagate_opened (h.compatible_ne_nil ht), zoneReaches_eq_map,
      zoneReaches_eq_map, h.zones]
    refine .opened ?_
    rw [List.forall₂_map_left_iff, List.forall₂_map_right_iff, List.forall₂_same]
    intro z _
    exact h.zoneReach (h.effective r) z

/-- Larger tables give a wider propagation. -/
theorem GrowsTo.propagate (h : t.GrowsTo u) (r : StringSet) :
    (t.propagate r).Within (u.propagate r) where
  effective := h.effective r
  reachability := h.reachability r
  verdicts := by
    rw [propagate_verdicts, propagate_verdicts, verdicts, verdicts, List.forall₂_map_left_iff,
      List.forall₂_map_right_iff]
    refine h.targets.imp fun g k eases ↦ ?_
    exact ⟨eases.id.symm, (h.reachability r).rank_status_le eases.footprint⟩

/-- **Larger tables never worsen a verdict.**  For all restricted middles, every compatible folio
stays compatible, everything that was granted stays granted, in every zone of an open propagation,
and there is still one verdict for each target, no further from `reachable`. -/
theorem propagate_growsTo (t u : Tables) (h : t.GrowsTo u) (r : StringSet) :
    (∀ id ∈ (t.propagate r).compatible, id ∈ (u.propagate r).compatible) ∧
      (t.propagate r).Within (u.propagate r) ∧
      (t.propagate r).verdicts.map Verdict.target = t.targets.targets.map Target.id := by
  refine ⟨fun id hid ↦ h.mem_compatible hid, h.propagate r, ?_⟩
  rw [propagate_verdicts, verdicts, List.map_map]
  rfl

end Tables

/-- The sample documents after some growth: a folio with both middles and a further middle on
another, no legality entry, a further required middle, and a smaller footprint. -/
def grownDocuments : TableDocuments where
  markers := ⟨["qo"], ∅, [], []⟩
  folios := [⟨"f0", ["a", "b"]⟩, ⟨"f1", ["a", "c", "d"]⟩, ⟨"f2", ["b", "c"]⟩]
  spreads := none
  zones := ⟨[⟨"A", none⟩, ⟨"B", none⟩], ∅⟩
  classes := ⟨1, .decomposable, ["a", "e"]⟩ :: (List.range 48).map fun i ↦ ⟨i + 2, .atomic, []⟩
  targets := [⟨"T1", [1]⟩, ⟨"T2", [2]⟩]
  settings := ⟨1, .none⟩

theorem grownDocuments_accepted : grownDocuments.build.toOption.isSome = true := by
  decide +kernel

/-- The tables that the grown documents describe. -/
def grownTables : Tables := grownDocuments.build.toOption.get grownDocuments_accepted

theorem sampleTables_growsTo : sampleTables.GrowsTo grownTables where
  zones := by decide +kernel
  folios := by decide +kernel
  legality := by
    intro m zones h
    have none : grownTables.legality.entries = ∅ := by decide +kernel
    rw [none, SortedMap.get?_empty] at h
    cases h
  classes := by
    have all : ∀ i ∈ ClassId.all, (sampleTables.classes.get i).requirement.Relaxes
        (grownTables.classes.get i).requirement := by decide +kernel
    exact fun i ↦ all i (ClassId.mem_all i)
  targets := by
    have eases : ∀ p ∈ sampleTables.targets.targets.zip grownTables.targets.targets,
        p.2.id = p.1.id ∧ p.2.footprint ⊆ p.1.footprint := by decide +kernel
    refine List.forall₂_iff_zip.2 ⟨by decide +kernel, fun {g k} hgk ↦ ?_⟩
    exact ⟨(eases (g, k) hgk).1, (eases (g, k) hgk).2⟩

/-- No sample folio has both `a` and `b`; after growth one has, and both targets become
reachable. -/
theorem propagate_growsTo_sample :
    sampleTables.GrowsTo grownTables ∧
      (sampleTables.propagate (.ofList ["a", "b"])).Within
        (grownTables.propagate (.ofList ["a", "b"])) ∧
      (sampleTables.propagate (.ofList ["a", "b"])).verdicts =
        [⟨"T1", .unreachable⟩, ⟨"T2", .unreachable⟩] ∧
      (grownTables.propagate (.ofList ["a", "b"])).verdicts =
        [⟨"T1", .reachable⟩, ⟨"T2", .reachable⟩] :=
  ⟨sampleTables_growsTo,
    (Tables.propagate_growsTo sampleTables grownTables sampleTables_growsTo
      (.ofList ["a", "b"])).2.1,
    by decide +kernel, by decide +kernel⟩

end ManuscriptReach
