import ManuscriptReach.Collection.SortedSet
import ManuscriptReach.Collection.SortedMap
import ManuscriptReach.Json.Numeral
import ManuscriptReach.Json.Literal

/-!
# JSON texts as trees

A `Json` tree keeps what is written: numerals with their digits, string literals
with their escapes, and the members of an object in order, repeated names included.
What a numeral or a literal stands for is asked only where it is used.
-/

namespace ManuscriptReach

/-- A JSON text. -/
inductive Json where
  | null
  | bool (b : Bool)
  | numeral (n : Numeral)
  | literal (body : List Char)
  | array (items : List Json)
  | object (members : List (List Char × Json))

namespace Json

instance : Inhabited Json := ⟨null⟩

/-- The literal of a text. -/
def ofString (s : String) : Json := literal (Literal.encode s)

/-- The numeral of a natural number. -/
def ofNat (n : Nat) : Json := numeral (.ofNat n)

/-- The numeral of a double; a double that is not finite is written as null. -/
def ofFloat (x : Float) : Json := (Numeral.ofFloat? x).elim null numeral

/-- The array of some texts. -/
def ofStrings (ss : List String) : Json := array (ss.map ofString)

/-- The array of a set's members. -/
def ofStringSet (s : StringSet) : Json := ofStrings s.toList

/-- The object with the given members. -/
def record (members : List (String × Json)) : Json :=
  object (members.map fun p ↦ (Literal.encode p.1, p.2))

/-- The object of a map from strings. -/
def ofStringMap {β : Type} (f : β → Json) (m : StringMap β) : Json :=
  record (m.toList.map fun p ↦ (p.1, f p.2))

/-- The member that states an optional value, left out without one. -/
def optional {α : Type} (name : String) (f : α → Json) (a : Option α) : List (String × Json) :=
  (a.map fun a ↦ (name, f a)).toList

/-- The value of an optional part, null without one. -/
def nullable {α : Type} (f : α → Json) (a : Option α) : Json := a.elim null f

end Json

end ManuscriptReach
