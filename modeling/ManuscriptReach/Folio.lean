import ManuscriptReach.Collection.SortedSet
import ManuscriptReach.Collection.Repeat
import ManuscriptReach.Tables.Fault

/-!
# Context folios

A context folio is a reference page with a fixed vocabulary of middles.  A
catalog lists folios in a fixed order under different ids.
-/

namespace ManuscriptReach

/-- A reference page and the middles that occur on it. -/
structure Folio where
  /-- The name of the page. -/
  id : String
  /-- The middles that occur on the page. -/
  vocabulary : StringSet
deriving DecidableEq

/-- Folios in a fixed order, under different ids. -/
@[ext]
structure FolioCatalog where
  /-- The folios in order. -/
  folios : List Folio
  /-- No two folios share an id. -/
  ids_nodup : (folios.map Folio.id).Nodup

namespace FolioCatalog

/-- Checks that the ids are pairwise different. -/
def ofList (folios : List Folio) : Except TableFault FolioCatalog :=
  match h : firstRepeat? (folios.map Folio.id) with
  | some id => .error (.duplicateFolio id)
  | none => .ok ⟨folios, firstRepeat?_eq_none_iff.1 h⟩

/-- The folio with a given id. -/
def get? (c : FolioCatalog) (id : String) : Option Folio := c.folios.find? fun f ↦ f.id == id

/-- The folios whose vocabulary contains every one of the given middles, in catalog order. -/
def compatible (c : FolioCatalog) (restricted : StringSet) : List Folio :=
  c.folios.filter fun f ↦ decide (restricted ⊆ f.vocabulary)

theorem mem_compatible {c : FolioCatalog} {restricted : StringSet} {f : Folio} :
    f ∈ c.compatible restricted ↔ f ∈ c.folios ∧ restricted ⊆ f.vocabulary := by
  simp [compatible]

theorem compatible_eq_nil_iff {c : FolioCatalog} {restricted : StringSet} :
    c.compatible restricted = [] ↔ ∀ f ∈ c.folios, ¬ restricted ⊆ f.vocabulary := by
  simp [compatible]

end FolioCatalog

end ManuscriptReach
