/-
This file computes the SHA-256 digest of a list of bytes: the message is padded to whole blocks of
sixteen words, each block is stretched to sixty-four words, and the rounds mix these into a state
of eight words. Words are thirty-two bits wide and all sums wrap.
-/

import LuauReference.Text.Numeral

namespace LuauReference

namespace Sha256

/-- The round constants: the first bits of the fractional parts of the cube roots of the first
sixty-four primes. -/
def roundConstants : List UInt32 :=
  [0x428a2f98, 0x71374491, 0xb5c0fbcf, 0xe9b5dba5, 0x3956c25b, 0x59f111f1, 0x923f82a4, 0xab1c5ed5,
    0xd807aa98, 0x12835b01, 0x243185be, 0x550c7dc3, 0x72be5d74, 0x80deb1fe, 0x9bdc06a7, 0xc19bf174,
    0xe49b69c1, 0xefbe4786, 0x0fc19dc6, 0x240ca1cc, 0x2de92c6f, 0x4a7484aa, 0x5cb0a9dc, 0x76f988da,
    0x983e5152, 0xa831c66d, 0xb00327c8, 0xbf597fc7, 0xc6e00bf3, 0xd5a79147, 0x06ca6351, 0x14292967,
    0x27b70a85, 0x2e1b2138, 0x4d2c6dfc, 0x53380d13, 0x650a7354, 0x766a0abb, 0x81c2c92e, 0x92722c85,
    0xa2bfe8a1, 0xa81a664b, 0xc24b8b70, 0xc76c51a3, 0xd192e819, 0xd6990624, 0xf40e3585, 0x106aa070,
    0x19a4c116, 0x1e376c08, 0x2748774c, 0x34b0bcb5, 0x391c0cb3, 0x4ed8aa4a, 0x5b9cca4f, 0x682e6ff3,
    0x748f82ee, 0x78a5636f, 0x84c87814, 0x8cc70208, 0x90befffa, 0xa4506ceb, 0xbef9a3f7, 0xc67178f2]

/-- The eight words that a digest is computed in. -/
structure State where
  a : UInt32
  b : UInt32
  c : UInt32
  d : UInt32
  e : UInt32
  f : UInt32
  g : UInt32
  h : UInt32

/-- The state before the first block: the first bits of the fractional parts of the square roots
of the first eight primes. -/
def initial : State :=
  ⟨0x6a09e667, 0xbb67ae85, 0x3c6ef372, 0xa54ff53a, 0x510e527f, 0x9b05688c, 0x1f83d9ab, 0x5be0cd19⟩

/-- Turns the bits of a word to the right. -/
def rotate (word : UInt32) (count : UInt32) : UInt32 :=
  (word >>> count) ||| (word <<< (32 - count))

/-- The message with a one bit, zeros up to a whole number of blocks and its length in bits. -/
def pad (message : List UInt8) : List UInt8 :=
  let bits := message.length * 8
  let zeros := (119 - message.length % 64) % 64
  let lengthBytes := (List.range 8).map fun i => (bits / Nat.pow 256 (7 - i) % 256).toUInt8
  message ++ 0x80 :: List.replicate zeros 0 ++ lengthBytes

/-- The words of a list of bytes, the high byte of each first. -/
def words : List UInt8 → List UInt32
  | b3 :: b2 :: b1 :: b0 :: rest =>
    (b3.toUInt32 <<< 24 ||| b2.toUInt32 <<< 16 ||| b1.toUInt32 <<< 8 ||| b0.toUInt32) :: words rest
  | _ => []

/-- The next word of a stretched block from the words before it, the newest first. -/
def stretchOne (newestFirst : List UInt32) : UInt32 :=
  let word (back : Nat) := newestFirst.getD (back - 1) 0
  let w15 := word 15
  let w2 := word 2
  let s0 := rotate w15 7 ^^^ rotate w15 18 ^^^ (w15 >>> 3)
  let s1 := rotate w2 17 ^^^ rotate w2 19 ^^^ (w2 >>> 10)
  word 16 + s0 + word 7 + s1

/-- A block of sixteen words stretched to sixty-four. -/
def stretch (block : List UInt32) : List UInt32 :=
  ((List.range 48).foldl (fun newestFirst _ => stretchOne newestFirst :: newestFirst)
    block.reverse).reverse

/-- One round, with its constant and its word. -/
def round (s : State) (constant word : UInt32) : State :=
  let s1 := rotate s.e 6 ^^^ rotate s.e 11 ^^^ rotate s.e 25
  let choice := (s.e &&& s.f) ^^^ (~~~s.e &&& s.g)
  let t1 := s.h + s1 + choice + constant + word
  let s0 := rotate s.a 2 ^^^ rotate s.a 13 ^^^ rotate s.a 22
  let majority := (s.a &&& s.b) ^^^ (s.a &&& s.c) ^^^ (s.b &&& s.c)
  ⟨t1 + s0 + majority, s.a, s.b, s.c, s.d + t1, s.e, s.f, s.g⟩

/-- Mixes one block into the state. -/
def absorb (s : State) (block : List UInt32) : State :=
  let t := (roundConstants.zip (stretch block)).foldl (fun t (constant, word) =>
    round t constant word) s
  ⟨s.a + t.a, s.b + t.b, s.c + t.c, s.d + t.d, s.e + t.e, s.f + t.f, s.g + t.g, s.h + t.h⟩

/-- Mixes the blocks of sixteen words into the state, one after the other. -/
def absorbAll (s : State) (message : List UInt32) : State :=
  if message.isEmpty then s else absorbAll (absorb s (message.take 16)) (message.drop 16)
termination_by message.length
decreasing_by
  cases message with
  | nil => contradiction
  | cons word rest => simp only [List.length_drop, List.length_cons]; omega

/-- The digest of a list of bytes in hexadecimal. -/
def digest (message : List UInt8) : Text :=
  let s := absorbAll initial (words (pad message))
  [s.a, s.b, s.c, s.d, s.e, s.f, s.g, s.h].flatMap fun word => Text.hex 8 word.toNat

end Sha256

end LuauReference
