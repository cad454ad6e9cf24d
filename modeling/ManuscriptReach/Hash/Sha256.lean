import ManuscriptReach.Text.Hex
import ManuscriptReach.Number.Power

/-!
# SHA-256

A message is padded to blocks of sixteen 32-bit words, and every block is mixed
into eight registers in 64 rounds.  `Sha256.hexDigits` writes the registers as 64
hexadecimal digits.
-/

namespace ManuscriptReach.Sha256

/-- The eight registers. -/
structure Registers where
  a : UInt32
  b : UInt32
  c : UInt32
  d : UInt32
  e : UInt32
  f : UInt32
  g : UInt32
  h : UInt32
deriving DecidableEq

/-- The registers before the first block: the first 32 bits of the fractional parts of the square
roots of the first eight primes. -/
def Registers.initial : Registers :=
  ⟨0x6a09e667, 0xbb67ae85, 0x3c6ef372, 0xa54ff53a, 0x510e527f, 0x9b05688c, 0x1f83d9ab, 0x5be0cd19⟩

/-- The registers in order. -/
def Registers.toList (r : Registers) : List UInt32 := [r.a, r.b, r.c, r.d, r.e, r.f, r.g, r.h]

/-- Adds registers one by one. -/
def Registers.add (r s : Registers) : Registers :=
  ⟨r.a + s.a, r.b + s.b, r.c + s.c, r.d + s.d, r.e + s.e, r.f + s.f, r.g + s.g, r.h + s.h⟩

/-- The constants of the rounds: the first 32 bits of the fractional parts of the cube roots of
the first 64 primes. -/
def roundConstants : List UInt32 :=
  [0x428a2f98, 0x71374491, 0xb5c0fbcf, 0xe9b5dba5, 0x3956c25b, 0x59f111f1, 0x923f82a4, 0xab1c5ed5,
    0xd807aa98, 0x12835b01, 0x243185be, 0x550c7dc3, 0x72be5d74, 0x80deb1fe, 0x9bdc06a7, 0xc19bf174,
    0xe49b69c1, 0xefbe4786, 0x0fc19dc6, 0x240ca1cc, 0x2de92c6f, 0x4a7484aa, 0x5cb0a9dc, 0x76f988da,
    0x983e5152, 0xa831c66d, 0xb00327c8, 0xbf597fc7, 0xc6e00bf3, 0xd5a79147, 0x06ca6351, 0x14292967,
    0x27b70a85, 0x2e1b2138, 0x4d2c6dfc, 0x53380d13, 0x650a7354, 0x766a0abb, 0x81c2c92e, 0x92722c85,
    0xa2bfe8a1, 0xa81a664b, 0xc24b8b70, 0xc76c51a3, 0xd192e819, 0xd6990624, 0xf40e3585, 0x106aa070,
    0x19a4c116, 0x1e376c08, 0x2748774c, 0x34b0bcb5, 0x391c0cb3, 0x4ed8aa4a, 0x5b9cca4f, 0x682e6ff3,
    0x748f82ee, 0x78a5636f, 0x84c87814, 0x8cc70208, 0x90befffa, 0xa4506ceb, 0xbef9a3f7, 0xc67178f2]

/-- Sixteen consecutive words of a schedule. -/
abbrev Window := Vector UInt32 16

/-- Turns a word to the right by `n` bits. -/
def rotate (x n : UInt32) : UInt32 := (x >>> n) ||| (x <<< (32 - n))

/-- The window one word further: the new word comes from four of the sixteen before it. -/
def Window.next (w : Window) : Window :=
  let s0 := rotate w[1] 7 ^^^ rotate w[1] 18 ^^^ (w[1] >>> 3)
  let s1 := rotate w[14] 17 ^^^ rotate w[14] 19 ^^^ (w[14] >>> 10)
  (w.eraseIdx 0).push (w[0] + s0 + w[9] + s1)

/-- One round, with the first word of the window. -/
def round (s : Registers × Window) (constant : UInt32) : Registers × Window :=
  let (r, w) := s
  let s1 := rotate r.e 6 ^^^ rotate r.e 11 ^^^ rotate r.e 25
  let choice := (r.e &&& r.f) ^^^ (~~~r.e &&& r.g)
  let t1 := r.h + s1 + choice + constant + w[0]
  let s0 := rotate r.a 2 ^^^ rotate r.a 13 ^^^ rotate r.a 22
  let majority := (r.a &&& r.b) ^^^ (r.a &&& r.c) ^^^ (r.b &&& r.c)
  (⟨t1 + (s0 + majority), r.a, r.b, r.c, r.d + t1, r.e, r.f, r.g⟩, w.next)

/-- Mixes a block into the registers. -/
def mix (r : Registers) (block : Window) : Registers := r.add (roundConstants.foldl round (r, block)).1

/-- The number of blocks of a padded message. -/
def blockCount (size : Nat) : Nat := (size + 8) / 64 + 1

/-- A byte of a padded message: after the message a one bit, zeros, and at the end of the last
block the message's length in bits. -/
def paddedByte (message : ByteArray) (i : Nat) : UInt8 :=
  let finish := 64 * blockCount message.size
  if h : i < message.size then message[i]
  else if i = message.size then 0x80
  else if i + 8 < finish then 0
  else UInt8.ofNat (8 * message.size / twoTo (8 * (finish - 1 - i)))

/-- A word of a padded message, its first byte in the highest place. -/
def paddedWord (message : ByteArray) (i : Nat) : UInt32 :=
  let byte (k : Nat) : UInt32 := (paddedByte message (4 * i + k)).toUInt32
  (byte 0 <<< 24) ||| (byte 1 <<< 16) ||| (byte 2 <<< 8) ||| byte 3

/-- A block of a padded message. -/
def block (message : ByteArray) (i : Nat) : Window :=
  .ofFn fun (k : Fin 16) ↦ paddedWord message (16 * i + k)

/-- The registers after all blocks of a message. -/
def digest (message : ByteArray) : Registers :=
  (List.range (blockCount message.size)).foldl (fun r i ↦ mix r (block message i)) .initial

/-- A word as eight hexadecimal digits. -/
def hexWord (w : UInt32) : List Char :=
  (List.range 8).map fun i ↦ hexDigit (w.toNat / twoTo (4 * (7 - i)) % 16)

/-- The digest of a message as 64 hexadecimal digits in lower case. -/
def hexDigits (message : ByteArray) : String :=
  String.ofList ((digest message).toList.flatMap hexWord)

/-- The digest of a text's UTF-8 bytes. -/
def hexText (s : String) : String := hexDigits s.toUTF8

end ManuscriptReach.Sha256
