import ManuscriptReach.Tables

/-!
# Table documents

A `TableDocuments` value holds what seven documents say, as they say it: lists
keep their order and their repetitions, and class numbers may be out of range.
`TableDocuments.build` checks them, table by table, and freezes them.
-/

namespace ManuscriptReach

/-- The document on markers. -/
structure MarkersDocument where
  families : List String
  extended : StringMap String
  suffixes : List String
  infrastructure : List String
deriving DecidableEq

/-- A row of the document on context folios. -/
structure FolioDocument where
  id : String
  vocabulary : List String
deriving DecidableEq

/-- A row of the list of zones. -/
structure ZoneDocument where
  label : String
  canonical : Option String
deriving DecidableEq

/-- The document on zones. -/
structure ZonesDocument where
  zones : List ZoneDocument
  legality : StringMap StringSet
deriving DecidableEq

/-- A row of the document on classes. -/
structure ClassDocument where
  id : Nat
  kind : ClassKind
  middles : List String
deriving DecidableEq

/-- A row of the document on targets. -/
structure TargetDocument where
  id : String
  footprint : List Nat
deriving DecidableEq

/-- The document on settings. -/
structure SettingsDocument where
  restrictedSpread : Nat
  expectations : Expectations
deriving DecidableEq

/-- What a set of table documents says. -/
structure TableDocuments where
  markers : MarkersDocument
  folios : List FolioDocument
  /-- Spreads computed elsewhere; without them they are counted. -/
  spreads : Option (StringMap Nat)
  zones : ZonesDocument
  classes : List ClassDocument
  targets : List TargetDocument
  settings : SettingsDocument

/-- The document that lists no marker. -/
def MarkersDocument.empty : MarkersDocument := ⟨[], ∅, [], []⟩

/-- The document that lists no zone. -/
def ZonesDocument.empty : ZonesDocument := ⟨[], ∅⟩

/-- The settings of a run that says nothing about them. -/
def SettingsDocument.default : SettingsDocument := ⟨defaultRestrictedSpread, .none⟩

/-- The marker table that a document describes. -/
def MarkersDocument.build (d : MarkersDocument) : Except TableFault Markers :=
  Markers.ofSets (.ofList d.families) d.extended (.ofList d.suffixes) (.ofList d.infrastructure)

/-- The folio that a row describes. -/
def FolioDocument.toFolio (d : FolioDocument) : Folio := ⟨d.id, .ofList d.vocabulary⟩

/-- The zone that a row describes; its canonical label is its own unless the row gives one. -/
def ZoneDocument.toZone (d : ZoneDocument) : Zone := ⟨d.label, d.canonical.getD d.label⟩

/-- The zone order that a document describes. -/
def ZonesDocument.order (d : ZonesDocument) : Except TableFault ZoneOrder :=
  ZoneOrder.ofList (d.zones.map ZoneDocument.toZone)

/-- The legality table of a document. -/
def ZonesDocument.table (d : ZonesDocument) : Legality := ⟨d.legality⟩

/-- The class with a given number. -/
def classOfNumber (number : Nat) : Except TableFault ClassId :=
  (ClassId.ofNat? number).elim (.error (.classNumber number)) .ok

/-- The row of the class table that a document row describes. -/
def ClassDocument.toRow (d : ClassDocument) : Except TableFault ClassRow := do
  return ⟨← classOfNumber d.id, d.kind, .ofList d.middles⟩

/-- The class catalog that a document describes.  All numbers are checked first. -/
def buildClasses (ds : List ClassDocument) : Except TableFault ClassCatalog := do
  ClassCatalog.ofRows (← ds.mapM ClassDocument.toRow)

/-- The target that a row describes. -/
def TargetDocument.toTarget (d : TargetDocument) : Except TableFault Target := do
  return ⟨d.id, .ofList (← d.footprint.mapM classOfNumber)⟩

/-- The target catalog that a document describes.  All footprints are checked first. -/
def buildTargets (ds : List TargetDocument) : Except TableFault TargetCatalog := do
  TargetCatalog.ofList (← ds.mapM TargetDocument.toTarget)

namespace TableDocuments

/-- Checks the documents in the order markers, folios, zones, legality, classes, targets,
settings, and freezes them.  The first fault found is reported. -/
def build (d : TableDocuments) : Except TableFault Tables := do
  let markers ← d.markers.build
  let folios ← FolioCatalog.ofList (d.folios.map FolioDocument.toFolio)
  let spreads := d.spreads.elim (.derive folios) .mk
  let zones ← d.zones.order
  let legality := d.zones.table
  match h : legality.firstUnknown? zones with
  | some (middle, zone) => .error (.unknownLegalityZone middle zone)
  | none => do
    let classes ← buildClasses d.classes
    let targets ← buildTargets d.targets
    let settings ← Settings.ofParts d.settings.restrictedSpread d.settings.expectations
    return {
      markers := markers
      folios := folios
      spreads := spreads
      zones := zones
      legality := legality
      classes := classes
      targets := targets
      settings := settings
      legality_names := Legality.firstUnknown?_eq_none_iff.1 h }

end TableDocuments

end ManuscriptReach
