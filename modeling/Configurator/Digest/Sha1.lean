import Configurator.Text.Hexadecimal

/-!
# The SHA-1 digest

`digest` maps a list of bytes to the five words of its SHA-1 digest and
`hexDigest` writes them as forty lowercase hexadecimal digits.  The message
schedule is a window of sixteen words that moves by one word a round.
-/

namespace Configurator.Digest.Sha1

/-- The five words that are carried from block to block. -/
structure Chain where
  a : UInt32
  b : UInt32
  c : UInt32
  d : UInt32
  e : UInt32
  deriving DecidableEq, Repr

/-- The chain before the first block. -/
def Chain.initial : Chain :=
  ⟨0x67452301, 0xEFCDAB89, 0x98BADCFE, 0x10325476, 0xC3D2E1F0⟩

/-- Add two chains word by word. -/
def Chain.add (left right : Chain) : Chain :=
  ⟨left.a + right.a, left.b + right.b, left.c + right.c, left.d + right.d,
    left.e + right.e⟩

/-- Rotate a word to the left by `amount` bits, where `0 < amount < 32`. -/
def rotate (word : UInt32) (amount : UInt32) : UInt32 :=
  (word <<< amount) ||| (word >>> (32 - amount))

/-- The Boolean function and the constant of a round. -/
def mixing (round : Nat) (b c d : UInt32) : UInt32 × UInt32 :=
  if round < 20 then ((b &&& c) ||| ((b ^^^ 0xFFFFFFFF) &&& d), 0x5A827999)
  else if round < 40 then (b ^^^ c ^^^ d, 0x6ED9EBA1)
  else
    if round < 60 then ((b &&& c) ||| (b &&& d) ||| (c &&& d), 0x8F1BBCDC)
  else (b ^^^ c ^^^ d, 0xCA62C1D6)

/-- One round with the schedule word `word`. -/
def step (round : Nat) (word : UInt32) (chain : Chain) : Chain :=
  let (mixed, constant) := mixing round chain.b chain.c chain.d
  ⟨rotate chain.a 5 + mixed + chain.e + constant + word, chain.a,
    rotate chain.b 30, chain.c, chain.d⟩

/-- The next sixteen words of the schedule, one word further on. -/
def slide : List UInt32 → List UInt32
  | [w0, w1, w2, w3, w4, w5, w6, w7, w8, w9, w10, w11, w12, w13, w14,
      w15] =>
          [w1, w2, w3, w4, w5, w6, w7, w8, w9, w10, w11, w12, w13, w14, w15,
            rotate (w13 ^^^ w8 ^^^ w2 ^^^ w0) 1]
  | other => other

/-- The last `remaining` of the eighty rounds. -/
def rounds : (remaining : Nat) → (window : List UInt32) → Chain → Chain
  | 0, _, chain => chain
  | remaining + 1, window, chain =>
      rounds remaining (slide window)
        (step (79 - remaining) (window.headD 0) chain)

/-- Work the blocks of sixteen words into the chain. -/
def absorb (chain : Chain) : List UInt32 → Chain
  | w0 :: w1 :: w2 :: w3 :: w4 :: w5 :: w6 :: w7 :: w8 :: w9 :: w10 :: w11
      :: w12 :: w13 :: w14 :: w15 :: rest =>
      absorb
        (chain.add
          (rounds 80
            [w0, w1, w2, w3, w4, w5, w6, w7, w8, w9, w10, w11, w12, w13,
              w14, w15] chain)) rest
  | _ => chain

/-- Big-endian words of a list of bytes. -/
def words : List UInt8 → List UInt32
  | b0 :: b1 :: b2 :: b3 :: rest =>
      ((b0.toUInt32 <<< 24) ||| (b1.toUInt32 <<< 16) |||
        (b2.toUInt32 <<< 8) ||| b3.toUInt32) :: words rest
  | _ => []

/-- The low `count` bytes of a number, the most significant first. -/
def bigEndian (number : Nat) : (count : Nat) → List UInt8
  | 0 => []
  | count + 1 =>
      UInt8.ofNat (number / 256 ^ count) :: bigEndian number count

/--
Append a one bit, zeros up to eight bytes before a full block, and the bit
length.
-/
def pad (message : List UInt8) : List UInt8 :=
  message ++ 0x80 :: List.replicate ((119 - message.length % 64) % 64) 0 ++
    bigEndian (8 * message.length) 8

/-- The SHA-1 digest of a message. -/
def digest (message : List UInt8) : Chain :=
  absorb Chain.initial (words (pad message))

/-- A word as eight hexadecimal digits. -/
def hexWord (word : UInt32) : List Char :=
  [28, 24, 20, 16, 12, 8, 4, 0].map fun shift =>
    Text.hexDigit ((word.toNat >>> shift) % 16)

/-- The SHA-1 digest of a message as forty hexadecimal digits. -/
def hexDigest (message : List UInt8) : String :=
  let chain := digest message
  String.ofList
    ([chain.a, chain.b, chain.c, chain.d, chain.e].flatMap hexWord)

end Configurator.Digest.Sha1
