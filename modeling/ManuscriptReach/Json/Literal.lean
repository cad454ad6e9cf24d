import ManuscriptReach.Text.Hex

/-!
# JSON string literals

The body of a literal is the text between its quotes.  `Literal.scan?` cuts a body
off, checking only its form; `Literal.decode?` says which text it stands for, if
any: an escaped half of a surrogate pair without the other half stands for none.
`Literal.encode` escapes the quote, the backslash and the control characters.
-/

namespace ManuscriptReach.Literal

/-- The number that four hexadecimal digits denote. -/
def hexWord? (a b c d : Char) : Option Nat := do
  return (((← hexValue? a) * 16 + (← hexValue? b)) * 16 + (← hexValue? c)) * 16 + (← hexValue? d)

/-- The character for which a backslash and a letter stand. -/
def escaped? : Char → Option Char
  | '"' => some '"'
  | '\\' => some '\\'
  | '/' => some '/'
  | 'b' => some '\x08'
  | 'f' => some '\x0c'
  | 'n' => some '\n'
  | 'r' => some '\r'
  | 't' => some '\t'
  | _ => none

/-- Cuts off a literal's body and the quote that ends it; `acc` is the body so far, backwards. -/
def scanAfter? (acc : List Char) : List Char → Option (List Char × List Char)
  | [] => none
  | '"' :: rest => some (acc.reverse, rest)
  | '\\' :: 'u' :: a :: b :: c :: d :: rest =>
    if (hexWord? a b c d).isSome then scanAfter? (d :: c :: b :: a :: 'u' :: '\\' :: acc) rest
    else none
  | '\\' :: e :: rest =>
    if (escaped? e).isSome then scanAfter? (e :: '\\' :: acc) rest else none
  | c :: rest => if c < ' ' || c == '\\' then none else scanAfter? (c :: acc) rest

/-- Cuts off a literal's body and the quote that ends it. -/
def scan? (cs : List Char) : Option (List Char × List Char) := scanAfter? [] cs

/-- Whether a number is the first half of a surrogate pair. -/
def isLeading (n : Nat) : Bool := 0xd800 ≤ n && n < 0xdc00

/-- Whether a number is the second half of a surrogate pair. -/
def isTrailing (n : Nat) : Bool := 0xdc00 ≤ n && n < 0xe000

/-- The text for which a body stands; `acc` is the text so far, backwards. -/
def decodeAfter? (acc : List Char) : List Char → Option (List Char)
  | [] => some acc.reverse
  | '\\' :: 'u' :: a :: b :: c :: d :: rest =>
    match hexWord? a b c d with
    | none => none
    | some n =>
      if isTrailing n then none
      else if isLeading n then
        match rest with
        | '\\' :: 'u' :: a' :: b' :: c' :: d' :: rest' =>
          match hexWord? a' b' c' d' with
          | none => none
          | some m =>
            if isTrailing m then
              decodeAfter? (Char.ofNat (0x10000 + (n - 0xd800) * 0x400 + (m - 0xdc00)) :: acc) rest'
            else none
        | _ => none
      else decodeAfter? (Char.ofNat n :: acc) rest
  | '\\' :: e :: rest =>
    match escaped? e with
    | none => none
    | some c => decodeAfter? (c :: acc) rest
  | c :: rest => decodeAfter? (c :: acc) rest

/-- The text for which a body stands. -/
def decode? (body : List Char) : Option String := (decodeAfter? [] body).map String.ofList

/-- How one character is written in a body. -/
def encodeChar (c : Char) : List Char :=
  if c = '"' then ['\\', '"']
  else if c = '\\' then ['\\', '\\']
  else if c = '\x08' then ['\\', 'b']
  else if c = '\x0c' then ['\\', 'f']
  else if c = '\n' then ['\\', 'n']
  else if c = '\r' then ['\\', 'r']
  else if c = '\t' then ['\\', 't']
  else if c < ' ' then ['\\', 'u', '0', '0', hexDigit (c.toNat / 16), hexDigit (c.toNat % 16)]
  else [c]

/-- The body that stands for a text. -/
def encode (s : String) : List Char := s.toList.flatMap encodeChar

end ManuscriptReach.Literal
