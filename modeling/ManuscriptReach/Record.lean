import ManuscriptReach.Collection.SortedSet
import ManuscriptReach.Number.Power
import ManuscriptReach.Collection.SortedMap

/-!
# Reading records from documents

Documents come in more than one format, and a record reads the same from each.
A format is a type of nodes that offers the views of `Node`; a reader of records
is a function from nodes, generic in the format.

A record is written as named fields in any order or, where the format allows it, as a
plain list of its fields in their fixed order, from which optional fields may be
missing at the end.  Of named fields those without a meaning are passed over; one that
occurs twice is a mistake.  In a map, by contrast, the last value of a repeated key
counts.
-/

namespace ManuscriptReach

/-- The views that a document format offers of a piece of a document. -/
class Node (ν : Type) where
  /-- Whether the piece states that there is no value. -/
  isAbsent : ν → Bool
  /-- Whether the piece states that there is no value and gives one all the same. -/
  isContradictory : ν → Bool := fun _ ↦ false
  /-- The text that the piece holds. -/
  text? : ν → Option String
  /-- The alternative that the piece names, where one of several is asked for. -/
  word? : ν → Option String
  /-- The natural number below `2 ^ 64` that the piece holds. -/
  natural? : ν → Option Nat
  /-- The double that the piece holds. -/
  float? : ν → Option Float
  /-- The truth value that the piece holds. -/
  bool? : ν → Option Bool
  /-- The items of a list. -/
  items? : ν → Option (List ν)
  /-- The fields of a record, in their fixed order, where it is written as a list. -/
  unnamed? : ν → Option (List ν)
  /-- The keys and values of a mapping in order; a key that is no text is `none`. -/
  members? : ν → Option (List (Option String × ν))
  /-- The same where every key is a natural number below `2 ^ 64`, written plainly. -/
  numbered? : ν → Option (List (Nat × ν))

namespace Node

variable {ν α : Type}

/-- The one value under a key, `none` inside when there is no such key, and a failure when there
are two. -/
def atKey? (members : List (Option String × ν)) (key : String) : Option (Option ν) :=
  match members.filter fun m ↦ m.1 == some key with
  | [] => some none
  | [m] => some (some m.2)
  | _ => none

variable [Node ν]

/-- The values of the named fields of a record, in the given order of names. -/
def fields? (names : List String) (x : ν) : Option (List (Option ν)) :=
  match unnamed? x with
  | some xs =>
    if xs.length ≤ names.length then
      some (xs.map some ++ List.replicate (names.length - xs.length) none)
    else none
  | none => do
    let ms ← members? x
    if ms.any fun m ↦ m.1.isNone then none else names.mapM (atKey? ms)

/-- A field that must be there. -/
def required (read : ν → Option α) (field : Option ν) : Option α := field.bind read

/-- A field that has a value when it is not there. -/
def withDefault (default : α) (read : ν → Option α) : Option ν → Option α
  | none => some default
  | some x => read x

/-- A field that may be missing or absent. -/
def optional (read : ν → Option α) : Option ν → Option (Option α)
  | none => some none
  | some x =>
    if isContradictory x then none
    else if isAbsent x then some none
    else (read x).map some

/-- A natural number below `2 ^ 32`. -/
def natural32? (x : ν) : Option Nat := (natural? x).filter fun n ↦ decide (n < twoTo 32)

/-- A list. -/
def list? (read : ν → Option α) (x : ν) : Option (List α) := do (← items? x).mapM read

/-- A list of texts. -/
def texts? : ν → Option (List String) := list? text?

/-- A set of texts. -/
def textSet? (x : ν) : Option StringSet := (texts? x).map .ofList

/-- A map from texts. -/
def textMap? (read : ν → Option α) (x : ν) : Option (StringMap α) := do
  let ps ← (← members? x).mapM fun m ↦ do return (← m.1, ← read m.2)
  return .ofList ps

end Node

end ManuscriptReach
