import ManuscriptReach.Json.Numeral
import ManuscriptReach.Text.Hex
import ManuscriptReach.Yaml.Cursor

/-!
# YAML properties and directives

In front of a node may stand an anchor, under which others refer to the node, and a
tag, which names its type.  A tag is given in full between angles or begins with a
handle, and directives in front of a document say what handles stand for.  In a tag a
percent sign and two hexadecimal digits state a byte; the bytes need not be a text, and
what follows a zero byte is lost.
-/

namespace ManuscriptReach.Yaml

/-- The signs of names. -/
def isNameSign (c : Char) : Bool := c.isAlphanum || c == '_' || c == '-'

/-- Whether the name of an anchor may end in front of a text. -/
def endsName (cs : List Char) : Bool :=
  atGap cs || cs.head?.any (· ∈ ['?', ':', ',', ']', '\x7d', '%', '@', '\x60'])

/-- The name of an anchor at the front of a text. -/
def anchorName? (cs : List Char) : Option (List Char) :=
  let name := cs.takeWhile isNameSign
  if name ≠ [] && endsName (cs.drop name.length) then some name else none

/-- The bytes of a tag. -/
abbrev Tag := List UInt8

/-- The tag that ASCII characters state. -/
def Tag.ofChars (cs : List Char) : Tag := cs.map fun c ↦ .ofNat c.toNat

/-- The tag that is an exclamation mark alone. -/
def Tag.mark : Tag := .ofChars ['!']

/-- What stays of a tag, which ends in front of a zero byte. -/
def Tag.cut (t : Tag) : Tag := t.takeWhile (· ≠ 0)

/-- The signs of tags; those that structure flow collections count between angles only. -/
def isTagSign (inAngles : Bool) (c : Char) : Bool :=
  isNameSign c || c ∈ ";/?:@&=+$.!~*'()".toList || (inAngles && c ∈ [',', '[', ']'])

/-- How many bytes follow the first byte of a character in UTF-8. -/
def followers? (b : Nat) : Option Nat :=
  if b < 0x80 then some 0
  else if b < 0xc0 then none
  else if b < 0xe0 then some 1
  else if b < 0xf0 then some 2
  else if b < 0xf8 then some 3
  else none

/-- The signs of a tag at the front of a text, and what is left of the text.  Of a character that is
stated byte by byte `pending` bytes are still to come. -/
def tagSigns? (inAngles : Bool) (pending : Nat) : List Char → Option (Tag × List Char)
  | '%' :: high :: low :: cs => do
    let b := 16 * (← hexValue? high) + (← hexValue? low)
    let pending ←
      if pending = 0 then followers? b
      else if b / 64 = 2 then some (pending - 1)
      else none
    let (bs, rest) ← tagSigns? inAngles pending cs
    return (.ofNat b :: bs, rest)
  | c :: cs =>
    if pending ≠ 0 || c == '%' then none
    else if isTagSign inAngles c then do
      let (bs, rest) ← tagSigns? inAngles 0 cs
      return (.ofNat c.toNat :: bs, rest)
    else some ([], c :: cs)
  | [] => if pending = 0 then some ([], []) else none

/-- The same, where there must be a sign. -/
def someTagSigns? (inAngles : Bool) (cs : List Char) : Option (Tag × List Char) :=
  (tagSigns? inAngles 0 cs).filter fun p ↦ p.2.length < cs.length

/-- What handles stand for that no directive mentions. -/
def usualHandles : List (List Char × Tag) :=
  [(['!'], .mark), (['!', '!'], .ofChars "tag:yaml.org,2002:".toList)]

/-- The tag of which an exclamation mark in front of a text is the beginning, and what is left of the
text. -/
def tag? (handles : List (List Char × Tag)) : List Char → Option (Tag × List Char)
  | '<' :: cs => do
    let (t, rest) ← someTagSigns? true cs
    if rest.head? == some '>' then return (t.cut, rest.drop 1) else none
  | cs =>
    let name := cs.takeWhile isNameSign
    match cs.drop name.length with
    | '!' :: cs => do
      let (t, rest) ← someTagSigns? false cs
      return ((← handles.lookup ('!' :: name ++ ['!'])) ++ t.cut, rest)
    | cs => do
      let (t, rest) ← tagSigns? false 0 cs
      let t := Tag.cut (.ofChars name ++ t)
      if t = [] then return (.mark, rest)
      return ((← handles.lookup ['!']) ++ t, rest)

/-- What is said in front of a document. -/
inductive Directive where
  /-- The document keeps to a version of the format that is read. -/
  | version
  /-- A handle stands for the beginning of tags. -/
  | handle (name : List Char) (tag : Tag)

/-- The rest of a text after a version of the format that is read, which is 1.1 or 1.2. -/
def afterVersion? (cs : List Char) : Option (List Char) :=
  let major := cs.takeWhile Char.isDigit
  match cs.drop major.length with
  | '.' :: cs =>
    let minor := cs.takeWhile Char.isDigit
    if major.length ≤ 9 && minor.length ≤ 9 && digitsValue major == 1 &&
        (digitsValue minor == 1 || digitsValue minor == 2) then
      some (cs.drop minor.length)
    else none
  | _ => none

/-- The handle at the front of a text, and what is left of the text. -/
def handle? : List Char → Option (List Char × List Char)
  | '!' :: cs =>
    let name := cs.takeWhile isNameSign
    match cs.drop name.length with
    | '!' :: rest => some ('!' :: name ++ ['!'], rest)
    | rest => if name = [] then some (['!'], rest) else none
  | _ => none

/-- The directive after a percent sign, and what is left of the text. -/
def directive? (cs : List Char) : Option (Directive × List Char) := do
  let name := cs.takeWhile isNameSign
  let rest := cs.drop name.length
  if !atGap rest then none
  if name = "YAML".toList then
    return (.version, ← afterVersion? (rest.dropWhile isGap))
  else if name = "TAG".toList then
    let (handle, rest) ← handle? (rest.dropWhile isGap)
    if !rest.head?.any isGap then none
    let (t, rest) ← someTagSigns? true (rest.dropWhile isGap)
    if !atGap rest then none
    return (.handle handle t.cut, rest)
  else none

end ManuscriptReach.Yaml
