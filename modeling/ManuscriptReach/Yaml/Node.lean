import ManuscriptReach.Record
import ManuscriptReach.Yaml.Tree
import ManuscriptReach.Yaml.Number

/-!
# YAML values as parts of documents

Every scalar can be read as a text; only a plain one can be read as a number or be
absent, or a literal one with the tag of the type.  What is left out reads as a list or
mapping of nothing.  A list does not stand for a record.  A tag that begins with an
exclamation mark names an alternative; of other tags most are passed over.

An alias reads as the node with its anchor, however often that happens.  There is no
limit here to how many aliases are followed in all; a reader that gives up after a
hundred for every piece of the document agrees on all documents that stay below.
-/

namespace ManuscriptReach.Yaml

/-- The words for null. -/
def nullWords : List String := ["~", "null", "Null", "NULL"]

/-- The words for an absent value. -/
def absentWords : List String := "" :: nullWords

/-- The tag of a type that the format knows. -/
def typeTag (name : String) : Tag := .ofChars ("tag:yaml.org,2002:" ++ name).toList

/-- The text of a scalar. -/
def text? (y : Yaml) : Option String :=
  match y.node with
  | .scalar _ _ text => some text
  | _ => none

/-- The text of a scalar that can be read as of a type. -/
def typedText? (type : String) (y : Yaml) : Option String :=
  match y.node with
  | .scalar .plain _ text => some text
  | .scalar .literal (some tag) text => if tag = typeTag type then some text else none
  | _ => none

/-- Whether a node is left out. -/
def isLeftOut (y : Yaml) : Bool :=
  match y.node with
  | .scalar .plain _ text => text == ""
  | _ => false

/-- The alternative that a tag names.  A mark alone is the name of one. -/
def alternative? : Tag → Option String
  | [] => none
  | c :: cs =>
    if c = 0x21 then String.fromUTF8? ⟨(if cs = [] then [c] else cs).toArray⟩ else none

/-- The natural number that a node holds. -/
def wholeNumber? (y : Yaml) : Option Nat := (y.typedText? "int").bind natural?

instance : Node Yaml where
  isAbsent y :=
    match y.node with
    | .scalar .plain none text => decide (text ∈ absentWords)
    | .scalar .plain (some tag) text => decide (tag = typeTag "null" ∧ text ∈ nullWords)
    | _ => false
  isContradictory y :=
    match y.node with
    | .scalar .plain (some tag) text => decide (tag = typeTag "null" ∧ text ∉ nullWords)
    | _ => false
  text? := text?
  word? y :=
    match y.node with
    | .scalar style tag text =>
      match tag.bind alternative? with
      | none => some text
      | some name => if style = .plain ∧ text ∈ absentWords then some name else none
    | _ => none
  natural? := wholeNumber?
  float? y := (y.typedText? "float").bind float?
  bool? y := (y.typedText? "bool").bind fun s ↦
    if s ∈ ["true", "True", "TRUE"] then some true
    else if s ∈ ["false", "False", "FALSE"] then some false
    else none
  items? y :=
    match y.node with
    | .list xs => some (xs.map y.part)
    | _ => if y.isLeftOut then some [] else none
  unnamed? _ := none
  members? y :=
    match y.node with
    | .mapping ms => some (ms.map fun m ↦ ((y.part m.1).text?, y.part m.2))
    | _ => if y.isLeftOut then some [] else none
  numbered? y :=
    match y.node with
    | .mapping ms => ms.mapM fun m ↦ (y.part m.1).wholeNumber?.map (·, y.part m.2)
    | _ => if y.isLeftOut then some [] else none

/-- Reads a record from a text that is one YAML document. -/
def readAs? {α : Type} (read : Yaml → Option α) (s : String) : Option α := (read? s).bind read

end ManuscriptReach.Yaml
