import ManuscriptReach.Tables.Document
import ManuscriptReach.Report.Codec
import ManuscriptReach.Settings.Codec
import ManuscriptReach.Class.Codec
import ManuscriptReach.Zone.Codec

/-!
# Table documents and tables in writing

Table documents are read from any format and written back as they were read, with
their order and repetitions.  Tables are written in one canonical way: sets and
maps in order, rows in theirs.
-/

namespace ManuscriptReach

variable {ν : Type} [Node ν]

/-- Reads a kind of class. -/
def ClassKind.read? : ν → Option ClassKind :=
  readWord? ClassKind.word [.kernel, .atomic, .decomposable]

namespace MarkersDocument

/-- Reads the document on markers. -/
def read? (x : ν) : Option MarkersDocument := do
  let [families, extended, suffixes, infrastructure] ←
    Node.fields? ["prefixes", "extended_prefixes", "suffixes", "infrastructure"] x | none
  return ⟨← Node.required Node.texts? families,
    ← Node.withDefault ∅ (Node.textMap? Node.text?) extended,
    ← Node.withDefault [] Node.texts? suffixes, ← Node.withDefault [] Node.texts? infrastructure⟩

/-- The document on markers as an object. -/
def toJson (d : MarkersDocument) : Json :=
  .record [("prefixes", .ofStrings d.families),
    ("extended_prefixes", .ofStringMap Json.ofString d.extended),
    ("suffixes", .ofStrings d.suffixes), ("infrastructure", .ofStrings d.infrastructure)]

end MarkersDocument

namespace FolioDocument

/-- Reads a row of the document on folios. -/
def read? (x : ν) : Option FolioDocument := do
  let [id, vocabulary] ← Node.fields? ["id", "vocabulary"] x | none
  return ⟨← Node.required Node.text? id, ← Node.required Node.texts? vocabulary⟩

/-- A row of the document on folios as an object. -/
def toJson (d : FolioDocument) : Json :=
  .record [("id", .ofString d.id), ("vocabulary", .ofStrings d.vocabulary)]

end FolioDocument

namespace ZoneDocument

/-- Reads a row of the list of zones. -/
def read? (x : ν) : Option ZoneDocument := do
  let [label, canonical] ← Node.fields? ["label", "canonical"] x | none
  return ⟨← Node.required Node.text? label, ← Node.optional Node.text? canonical⟩

/-- A row of the list of zones as an object. -/
def toJson (d : ZoneDocument) : Json :=
  .record [("label", .ofString d.label), ("canonical", .nullable Json.ofString d.canonical)]

end ZoneDocument

namespace ZonesDocument

/-- Reads the document on zones. -/
def read? (x : ν) : Option ZonesDocument := do
  let [zones, legality] ← Node.fields? ["zones", "legality"] x | none
  return ⟨← Node.required (Node.list? ZoneDocument.read?) zones,
    ← Node.withDefault ∅ (Node.textMap? Node.textSet?) legality⟩

/-- The document on zones as an object. -/
def toJson (d : ZonesDocument) : Json :=
  .record [("zones", .array (d.zones.map ZoneDocument.toJson)),
    ("legality", .ofStringMap Json.ofStringSet d.legality)]

end ZonesDocument

namespace ClassDocument

/-- Reads a row of the document on classes. -/
def read? (x : ν) : Option ClassDocument := do
  let [id, kind, middles] ← Node.fields? ["id", "kind", "middles"] x | none
  return ⟨← Node.required Node.natural32? id, ← Node.required ClassKind.read? kind,
    ← Node.withDefault [] Node.texts? middles⟩

/-- A row of the document on classes as an object. -/
def toJson (d : ClassDocument) : Json :=
  .record [("id", .ofNat d.id), ("kind", .ofString d.kind.word), ("middles", .ofStrings d.middles)]

end ClassDocument

namespace TargetDocument

/-- Reads a row of the document on targets. -/
def read? (x : ν) : Option TargetDocument := do
  let [id, footprint] ← Node.fields? ["id", "footprint"] x | none
  return ⟨← Node.required Node.text? id, ← Node.required (Node.list? Node.natural32?) footprint⟩

/-- A row of the document on targets as an object. -/
def toJson (d : TargetDocument) : Json :=
  .record [("id", .ofString d.id), ("footprint", .array (d.footprint.map Json.ofNat))]

end TargetDocument

namespace SettingsDocument

/-- Reads the document on settings. -/
def read? (x : ν) : Option SettingsDocument := do
  let [spread, expectations] ← Node.fields? ["restricted_max_spread", "expectations"] x | none
  return ⟨← Node.withDefault defaultRestrictedSpread Node.natural32? spread,
    ← Node.withDefault .none Expectations.read? expectations⟩

/-- The document on settings as an object. -/
def toJson (d : SettingsDocument) : Json :=
  .record [("restricted_max_spread", .ofNat d.restrictedSpread),
    ("expectations", d.expectations.toJson)]

end SettingsDocument

/-- Reads the document on spreads. -/
def readSpreads? : ν → Option (StringMap Nat) := Node.textMap? Node.natural32?

/-- A marker table as an object. -/
def Markers.toJson (t : Markers) : Json :=
  .record [("families", .ofStringSet t.families),
    ("extended", .ofStringMap Json.ofString t.extended),
    ("suffixes", .ofStringSet t.suffixes), ("infrastructure", .ofStringSet t.infrastructure)]

/-- A folio as an object. -/
def Folio.toJson (f : Folio) : Json :=
  .record [("id", .ofString f.id), ("vocabulary", .ofStringSet f.vocabulary)]

/-- Spreads as an object. -/
def SpreadTable.toJson (t : SpreadTable) : Json := .ofStringMap Json.ofNat t.counts

/-- A zone as an object. -/
def Zone.toJson (z : Zone) : Json :=
  .record [("label", .ofString z.label), ("canonical", .ofString z.canonical)]

/-- A legality table as an object. -/
def Legality.toJson (t : Legality) : Json := .ofStringMap Json.ofStringSet t.entries

/-- A class as an object. -/
def InstructionClass.toJson (c : InstructionClass) : Json :=
  .record [("id", c.id.toJson), ("kind", .ofString c.requirement.kind.word),
    ("middles", .ofStringSet c.requirement.middles)]

/-- A target as an object. -/
def Target.toJson (t : Target) : Json :=
  .record [("id", .ofString t.id), ("footprint", t.footprint.toJson)]

/-- Settings as an object. -/
def Settings.toJson (s : Settings) : Json :=
  .record [("restricted_max_spread", .ofNat s.restrictedSpread),
    ("expectations", s.expectations.toJson)]

/-- Tables as an object. -/
def Tables.toJson (t : Tables) : Json :=
  .record [("markers", t.markers.toJson), ("folios", .array (t.folios.folios.map Folio.toJson)),
    ("spreads", t.spreads.toJson), ("zones", .array (t.zones.zones.map Zone.toJson)),
    ("legality", t.legality.toJson),
    ("classes", .array (t.classes.classes.map InstructionClass.toJson)),
    ("targets", .array (t.targets.targets.map Target.toJson)), ("settings", t.settings.toJson)]

/-- The canonical text of tables. -/
def Tables.canonical (t : Tables) : String := t.toJson.compact

end ManuscriptReach
