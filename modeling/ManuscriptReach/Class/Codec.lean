import ManuscriptReach.Class.Set
import ManuscriptReach.Json.Writer
import ManuscriptReach.Json.Node

/-!
# Classes in documents

A class is written as its number and a set of classes as the ascending list of
their numbers.  A list that is read may have any order and repetitions, but every
item must be the number of a class.
-/

namespace ManuscriptReach

/-- A class as its number. -/
def ClassId.toJson (c : ClassId) : Json := .ofNat c.number

/-- A set of classes as the ascending list of their numbers. -/
def ClassSet.toJson (s : ClassSet) : Json := .array (s.toList.map ClassId.toJson)

variable {ν : Type} [Node ν]

/-- Reads a class from its number. -/
def ClassId.read? (x : ν) : Option ClassId := (Node.natural32? x).bind ClassId.ofNat?

/-- Reads a set of classes from a list of numbers. -/
def ClassSet.read? (x : ν) : Option ClassSet := (Node.list? ClassId.read? x).map ClassSet.ofList

end ManuscriptReach
