/-!
# Digests

The SHA-256 digest of a text, as a configuration's hash is recorded: 64 digits
in base 16. A text is taken as its UTF-8 bytes, padded to blocks of 16 words,
and every block is folded into eight words.
-/

namespace ProxyFleet.Digest

/-- The words added in the rounds: the first 32 bits of the fractions of the cube roots of the
first 64 primes. -/
def roundWords : List UInt32 :=
  [0x428a2f98, 0x71374491, 0xb5c0fbcf, 0xe9b5dba5, 0x3956c25b, 0x59f111f1,
    0x923f82a4, 0xab1c5ed5, 0xd807aa98, 0x12835b01, 0x243185be, 0x550c7dc3,
    0x72be5d74, 0x80deb1fe, 0x9bdc06a7, 0xc19bf174, 0xe49b69c1, 0xefbe4786,
    0x0fc19dc6, 0x240ca1cc, 0x2de92c6f, 0x4a7484aa, 0x5cb0a9dc, 0x76f988da,
    0x983e5152, 0xa831c66d, 0xb00327c8, 0xbf597fc7, 0xc6e00bf3, 0xd5a79147,
    0x06ca6351, 0x14292967, 0x27b70a85, 0x2e1b2138, 0x4d2c6dfc, 0x53380d13,
    0x650a7354, 0x766a0abb, 0x81c2c92e, 0x92722c85, 0xa2bfe8a1, 0xa81a664b,
    0xc24b8b70, 0xc76c51a3, 0xd192e819, 0xd6990624, 0xf40e3585, 0x106aa070,
    0x19a4c116, 0x1e376c08, 0x2748774c, 0x34b0bcb5, 0x391c0cb3, 0x4ed8aa4a,
    0x5b9cca4f, 0x682e6ff3, 0x748f82ee, 0x78a5636f, 0x84c87814, 0x8cc70208,
    0x90befffa, 0xa4506ceb, 0xbef9a3f7, 0xc67178f2]

/-- Eight words, as they are carried from block to block. -/
structure State where
  a : UInt32
  b : UInt32
  c : UInt32
  d : UInt32
  e : UInt32
  f : UInt32
  g : UInt32
  h : UInt32
  deriving DecidableEq, Repr

namespace State

/-- The words at the start: the first 32 bits of the fractions of the square roots of the first
eight primes. -/
def initial : State :=
  ⟨0x6a09e667, 0xbb67ae85, 0x3c6ef372, 0xa54ff53a, 0x510e527f, 0x9b05688c,
    0x1f83d9ab, 0x5be0cd19⟩

/-- The words of a state. -/
def words (s : State) : List UInt32 := [s.a, s.b, s.c, s.d, s.e, s.f, s.g, s.h]

/-- Two states added word by word. -/
def add (s t : State) : State :=
  ⟨s.a + t.a, s.b + t.b, s.c + t.c, s.d + t.d, s.e + t.e, s.f + t.f, s.g + t.g, s.h + t.h⟩

end State

/-- The bits of a word moved around to the right. -/
def rotate (x n : UInt32) : UInt32 := (x >>> n) ||| (x <<< (32 - n))

/-- Mixes a word into later words of a block, from 15 words behind. -/
def spreadFar (x : UInt32) : UInt32 := rotate x 7 ^^^ rotate x 18 ^^^ (x >>> 3)

/-- Mixes a word into later words of a block, from two words behind. -/
def spreadNear (x : UInt32) : UInt32 := rotate x 17 ^^^ rotate x 19 ^^^ (x >>> 10)

/-- Adds words to a block, each made from earlier ones; the latest word comes first. -/
def extend : Nat → List UInt32 → List UInt32
  | 0, ws => ws
  | n + 1, ws =>
    let w := spreadNear (ws.getD 1 0) + ws.getD 6 0 + spreadFar (ws.getD 14 0) + ws.getD 15 0
    extend n (w :: ws)

/-- The 64 words of a block of 16. -/
def schedule (block : List UInt32) : List UInt32 := (extend 48 block.reverse).reverse

/-- One round, with its word of the block and its own word. -/
def round (s : State) (word : UInt32 × UInt32) : State :=
  let choice := (s.e &&& s.f) ^^^ (~~~s.e &&& s.g)
  let majority := (s.a &&& s.b) ^^^ (s.a &&& s.c) ^^^ (s.b &&& s.c)
  let high := rotate s.a 2 ^^^ rotate s.a 13 ^^^ rotate s.a 22
  let low := rotate s.e 6 ^^^ rotate s.e 11 ^^^ rotate s.e 25
  let t := s.h + low + choice + word.2 + word.1
  ⟨t + high + majority, s.a, s.b, s.c, s.d + t, s.e, s.f, s.g⟩

/-- Folds a block into the words. -/
def compress (s : State) (block : List UInt32) : State :=
  s.add (((schedule block).zip roundWords).foldl round s)

/-- The bytes of a number, eight of them, the most significant first. -/
def lengthBytes (n : Nat) : List UInt8 :=
  [56, 48, 40, 32, 24, 16, 8, 0].map fun shift => (n >>> shift).toUInt8

/-- A message with its end marked, filled up with zeros, and its length in bits at the end. -/
def pad (message : List UInt8) : List UInt8 :=
  let n := message.length
  message ++ 0x80 :: (List.replicate ((119 - n % 64) % 64) 0 ++ lengthBytes (8 * n))

/-- Four bytes to a word, the most significant first. -/
def toWords : List UInt8 → List UInt32
  | a :: b :: c :: d :: rest =>
    (a.toUInt32 <<< 24 ||| b.toUInt32 <<< 16 ||| c.toUInt32 <<< 8 ||| d.toUInt32) :: toWords rest
  | _ => []

/-- Sixteen words to a block; `room` is what the last block can still take. -/
def toBlocks : Nat → List UInt32 → List UInt32 → List (List UInt32)
  | _, _, [] => []
  | 0, block, w :: ws => (w :: block).reverse :: toBlocks 15 [] ws
  | room + 1, block, w :: ws => toBlocks room (w :: block) ws

/-- The words of a message. -/
def ofBytes (message : List UInt8) : State :=
  (toBlocks 15 [] (toWords (pad message))).foldl compress .initial

/-- A digit in base 16. -/
def hexDigit (n : Nat) : Char := if n < 10 then Char.ofNat (48 + n) else Char.ofNat (87 + n)

/-- The eight digits of a word. -/
def wordText (w : UInt32) : List Char :=
  [28, 24, 20, 16, 12, 8, 4, 0].map fun shift => hexDigit ((w.toNat >>> shift) % 16)

end ProxyFleet.Digest

namespace ProxyFleet

/-- The digest of a text, in digits. -/
def digestOf (s : String) : String :=
  String.ofList ((Digest.ofBytes s.toUTF8.toList).words.flatMap Digest.wordText)

end ProxyFleet
