import ManuscriptReach.Yaml.Token

/-!
# YAML texts as trees

A `Yaml.Tree` keeps the texts of scalars, and their style and tags, which decide if they
can be read as numbers.  An item or value that is left out is the plain scalar without
text, and so is a document that says nothing.  An alias stands in the tree as a
reference.  It is not replaced by what it refers to: it may stand within that, and what
a reference means is settled by the last node with its number in the whole document.
-/

namespace ManuscriptReach

namespace Yaml

/-- A node of a YAML document. -/
inductive Tree where
  | scalar (style : Style) (tag : Option Tag) (text : String)
  | list (items : List Tree)
  | mapping (members : List (Tree × Tree))
  /-- A node with an anchor. -/
  | anchored (id : Nat) (node : Tree)
  /-- What stands for the node with an anchor. -/
  | reference (id : Nat)

namespace Tree

/-- What is left out. -/
def missing : Tree := scalar .plain none ""

/-- A node without its anchor. -/
def bare : Tree → Tree
  | anchored _ x => x
  | x => x

mutual

/-- The nodes with anchors, in the order of their beginnings. -/
def anchors : Tree → List (Nat × Tree)
  | scalar _ _ _ => []
  | list xs => anchorsOfItems xs
  | mapping ms => anchorsOfMembers ms
  | anchored id x => (id, x) :: x.anchors
  | reference _ => []

/-- The same for the items of a list. -/
def anchorsOfItems : List Tree → List (Nat × Tree)
  | [] => []
  | x :: xs => x.anchors ++ anchorsOfItems xs

/-- The same for the members of a mapping. -/
def anchorsOfMembers : List (Tree × Tree) → List (Nat × Tree)
  | [] => []
  | (k, v) :: ms => k.anchors ++ v.anchors ++ anchorsOfMembers ms

end

/-- Whether the first token is one of those given. -/
def startsWith (among : List Token) : List Token → Bool
  | t :: _ => decide (t ∈ among)
  | [] => false

/-- The anchor and the tag in front of a node, which stand in either order, and the tokens after
them. -/
def properties : List Token → Option Nat × Option Tag × List Token
  | .anchor id :: .tag t :: ts => (some id, some t, ts)
  | .tag t :: .anchor id :: ts => (some id, some t, ts)
  | .anchor id :: ts => (some id, none, ts)
  | .tag t :: ts => (none, some t, ts)
  | ts => (none, none, ts)

/-- A node with an anchor, where it has one. -/
def under (anchor : Option Nat) (x : Tree) : Tree := anchor.elim x (anchored · x)

mutual

/-- Reads what the first tokens state.  A list without indentation of its own may stand where
`unindented` says so.  Properties without anything after them state what is left out, and the tag
that is an exclamation mark counts there only. -/
def ofTokens? : Nat → (inBlock unindented : Bool) → List Token → Option (Tree × List Token)
  | 0, _, _, _ => none
  | _ + 1, _, _, .reference id :: ts => some (reference id, ts)
  | fuel + 1, inBlock, unindented, ts =>
    let (anchor, tag, ts) := properties ts
    let empty : Option (Tree × List Token) :=
      if anchor.isNone && tag.isNone then none else some (scalar .plain tag "", ts)
    let content : Option (Tree × List Token) :=
      match ts with
      | .scalar style text :: ts =>
        some (scalar style (tag.filter (· ≠ Tag.mark)) text, ts)
      | .openList :: ts => (flowItems? fuel true ts).map fun p ↦ (list p.1, p.2)
      | .openMapping :: ts => (flowMembers? fuel true ts).map fun p ↦ (mapping p.1, p.2)
      | .blockList :: ts =>
        if inBlock then (items? fuel ts).map fun p ↦ (list p.1, p.2) else empty
      | .blockMapping :: ts =>
        if inBlock then (members? fuel ts).map fun p ↦ (mapping p.1, p.2) else empty
      | .item :: ts =>
        if unindented then (unindentedItems? fuel (.item :: ts)).map fun p ↦ (list p.1, p.2)
        else empty
      | _ => empty
    content.map fun p ↦ (under anchor p.1, p.2)

/-- The same, where what is stated may be left out in front of some tokens. -/
def ofTokensUnless? : Nat → (among : List Token) → (inBlock unindented : Bool) → List Token →
    Option (Tree × List Token)
  | 0, _, _, _, _ => none
  | fuel + 1, among, inBlock, unindented, ts =>
    if startsWith among ts then some (missing, ts) else ofTokens? fuel inBlock unindented ts

/-- Reads the items of a list in a block. -/
def items? : Nat → List Token → Option (List Tree × List Token)
  | 0, _ => none
  | fuel + 1, ts =>
    match ts with
    | .item :: ts => do
      let (x, ts) ← ofTokensUnless? fuel [.item, .blockEnd] true false ts
      let (xs, ts) ← items? fuel ts
      return (x :: xs, ts)
    | .blockEnd :: ts => some ([], ts)
    | _ => none

/-- Reads the items of a list that has no indentation of its own. -/
def unindentedItems? : Nat → List Token → Option (List Tree × List Token)
  | 0, _ => none
  | fuel + 1, ts =>
    match ts with
    | .item :: ts => do
      let (x, ts) ← ofTokensUnless? fuel [.item, .key, .value, .blockEnd] true false ts
      let (xs, ts) ← unindentedItems? fuel ts
      return (x :: xs, ts)
    | _ => some ([], ts)

/-- Reads the members of a mapping in a block. -/
def members? : Nat → List Token → Option (List (Tree × Tree) × List Token)
  | 0, _ => none
  | fuel + 1, ts =>
    match ts with
    | .key :: ts => do
      let (k, ts) ← ofTokensUnless? fuel [.key, .value, .blockEnd] true true ts
      let (v, ts) ← value? fuel [.key, .value, .blockEnd] true ts
      let (ms, ts) ← members? fuel ts
      return ((k, v) :: ms, ts)
    | .blockEnd :: ts => some ([], ts)
    | _ => none

/-- Reads the value of a member, which may be left out in front of some tokens. -/
def value? : Nat → (among : List Token) → (inBlock : Bool) → List Token →
    Option (Tree × List Token)
  | 0, _, _, _ => none
  | fuel + 1, among, inBlock, ts =>
    match ts with
    | .value :: ts => ofTokensUnless? fuel among inBlock inBlock ts
    | _ => some (missing, ts)

/-- Reads the items of a list between brackets.  Where a key is left out after its sign, the next
sign does not count. -/
def flowItems? : Nat → (first : Bool) → List Token → Option (List Tree × List Token)
  | 0, _, _ => none
  | fuel + 1, first, ts =>
    match ts with
    | .closeList :: ts => some ([], ts)
    | _ => do
      let ts ← if first then some ts else if startsWith [.comma] ts then some (ts.drop 1) else none
      match ts with
      | .closeList :: ts => return ([], ts)
      | .key :: ts =>
        let (k, ts) ←
          if startsWith [.value, .comma, .closeList] ts then some (missing, ts.drop 1)
          else ofTokens? fuel false false ts
        let (v, ts) ← value? fuel [.comma, .closeList] false ts
        let (xs, ts) ← flowItems? fuel false ts
        return (mapping [(k, v)] :: xs, ts)
      | _ =>
        let (x, ts) ← ofTokens? fuel false false ts
        let (xs, ts) ← flowItems? fuel false ts
        return (x :: xs, ts)

/-- Reads the members of a mapping between braces. -/
def flowMembers? : Nat → (first : Bool) → List Token →
    Option (List (Tree × Tree) × List Token)
  | 0, _, _ => none
  | fuel + 1, first, ts =>
    match ts with
    | .closeMapping :: ts => some ([], ts)
    | _ => do
      let ts ← if first then some ts else if startsWith [.comma] ts then some (ts.drop 1) else none
      match ts with
      | .closeMapping :: ts => return ([], ts)
      | .key :: ts =>
        let (k, ts) ← ofTokensUnless? fuel [.value, .comma, .closeMapping] false false ts
        let (v, ts) ← value? fuel [.comma, .closeMapping] false ts
        let (ms, ts) ← flowMembers? fuel false ts
        return ((k, v) :: ms, ts)
      | _ =>
        let (k, ts) ← ofTokens? fuel false false ts
        let (ms, ts) ← flowMembers? fuel false ts
        return ((k, missing) :: ms, ts)

end

/-- Whether a token is a directive. -/
def isDirective : Token → Bool
  | .directive _ => true
  | _ => false

/-- Reads the content of the only document.  Directives stand in front of its mark, at most one on
the version and on every handle. -/
def document? (fuel : Nat) (ts : List Token) : Option (Tree × List Token) :=
  let directives := ts.takeWhile isDirective
  match ts.drop directives.length with
  | .documentStart :: ts =>
    if !decide directives.Nodup then none
    else if ts.isEmpty || startsWith [.documentStart, .documentEnd] ts then some (missing, ts)
    else ofTokens? fuel true false ts
  | ts =>
    if directives ≠ [] then none
    else if ts = [] then some (missing, [])
    else ofTokens? fuel true false ts

end Tree

end Yaml

/-- A YAML document, or a part of one with the anchored nodes of the whole. -/
structure Yaml where
  /-- The nodes with anchors, the last one first. -/
  anchored : List (Nat × Yaml.Tree)
  tree : Yaml.Tree

namespace Yaml

/-- Reads a text that is one YAML document. -/
def read? (s : String) : Option Yaml := do
  let ts ← tokens? s
  let (tree, rest) ← Tree.document? (3 * ts.length + 3) ts
  if rest.all (· == .documentEnd) then return ⟨tree.anchors.reverse, tree⟩ else none

/-- What a part of a document states, which is elsewhere where the part is a reference. -/
def node (y : Yaml) : Tree :=
  match y.tree.bare with
  | .reference id => (y.anchored.lookup id).getD .missing
  | x => x

/-- A part of the same document. -/
def part (y : Yaml) (tree : Tree) : Yaml := ⟨y.anchored, tree⟩

end Yaml

end ManuscriptReach
