/-!
# The SHA-256 digest

The digest of a byte string: padded to whole blocks of sixteen words, each block is worked into
eight words by sixty-four rounds.
-/

namespace StakeSnapshot.Digest.Sha256

/-- The round constants. -/
def roundConstants : List UInt32 := [
  0x428a2f98, 0x71374491, 0xb5c0fbcf, 0xe9b5dba5, 0x3956c25b, 0x59f111f1, 0x923f82a4, 0xab1c5ed5,
  0xd807aa98, 0x12835b01, 0x243185be, 0x550c7dc3, 0x72be5d74, 0x80deb1fe, 0x9bdc06a7, 0xc19bf174,
  0xe49b69c1, 0xefbe4786, 0x0fc19dc6, 0x240ca1cc, 0x2de92c6f, 0x4a7484aa, 0x5cb0a9dc, 0x76f988da,
  0x983e5152, 0xa831c66d, 0xb00327c8, 0xbf597fc7, 0xc6e00bf3, 0xd5a79147, 0x06ca6351, 0x14292967,
  0x27b70a85, 0x2e1b2138, 0x4d2c6dfc, 0x53380d13, 0x650a7354, 0x766a0abb, 0x81c2c92e, 0x92722c85,
  0xa2bfe8a1, 0xa81a664b, 0xc24b8b70, 0xc76c51a3, 0xd192e819, 0xd6990624, 0xf40e3585, 0x106aa070,
  0x19a4c116, 0x1e376c08, 0x2748774c, 0x34b0bcb5, 0x391c0cb3, 0x4ed8aa4a, 0x5b9cca4f, 0x682e6ff3,
  0x748f82ee, 0x78a5636f, 0x84c87814, 0x8cc70208, 0x90befffa, 0xa4506ceb, 0xbef9a3f7, 0xc67178f2]

/-- The eight words that a message is worked into. -/
structure Words where
  (a b c d e f g h : UInt32)

/-- The words before the first block. -/
def Words.first : Words where
  a := 0x6a09e667
  b := 0xbb67ae85
  c := 0x3c6ef372
  d := 0xa54ff53a
  e := 0x510e527f
  f := 0x9b05688c
  g := 0x1f83d9ab
  h := 0x5be0cd19

/-- Word by word sum. -/
def Words.add (x y : Words) : Words where
  a := x.a + y.a
  b := x.b + y.b
  c := x.c + y.c
  d := x.d + y.d
  e := x.e + y.e
  f := x.f + y.f
  g := x.g + y.g
  h := x.h + y.h

/-- The words in order. -/
def Words.toList (x : Words) : List UInt32 := [x.a, x.b, x.c, x.d, x.e, x.f, x.g, x.h]

/-- Rotates a word to the right. -/
def rotate (n x : UInt32) : UInt32 := (x >>> n) ||| (x <<< (32 - n))

/-- One round with the sum of a round constant and a message word. -/
def round (s : Words) (input : UInt32) : Words :=
  let mix := rotate 6 s.e ^^^ rotate 11 s.e ^^^ rotate 25 s.e
  let choice := (s.e &&& s.f) ^^^ ((~~~ s.e) &&& s.g)
  let t := s.h + mix + choice + input
  let turn := rotate 2 s.a ^^^ rotate 13 s.a ^^^ rotate 22 s.a
  let majority := (s.a &&& s.b) ^^^ (s.a &&& s.c) ^^^ (s.b &&& s.c)
  { a := t + (turn + majority), b := s.a, c := s.b, d := s.c
    e := s.d + t, f := s.e, g := s.f, h := s.g }

/-- The message word sixteen places on, from the sixteen words before it. -/
def nextWord (window : List UInt32) : UInt32 :=
  let x := window.getD 1 0
  let y := window.getD 14 0
  window.getD 0 0 + (rotate 7 x ^^^ rotate 18 x ^^^ (x >>> 3)) + window.getD 9 0
    + (rotate 17 y ^^^ rotate 19 y ^^^ (y >>> 10))

/-- The rounds for the given constants, with a window of sixteen message words. -/
def rounds : List UInt32 → (window : List UInt32) → Words → Words
  | [], _, s => s
  | k :: ks, window, s =>
    rounds ks (window.drop 1 ++ [nextWord window]) (round s (k + window.headD 0))

/-- Works one block of sixteen words into the eight. -/
def compress (s : Words) (block : List UInt32) : Words :=
  s.add (rounds roundConstants block s)

/-- A number of `width` bytes, most significant first. -/
def bigEndian : (width : Nat) → Nat → List UInt8
  | 0, _ => []
  | width + 1, n => bigEndian width (n / 256) ++ [UInt8.ofNat n]

/-- A message with a one bit, zeros and its length in bits behind it: whole blocks. -/
def padded (message : List UInt8) : List UInt8 :=
  message ++ 0x80 :: List.replicate ((119 - message.length % 64) % 64) 0
    ++ bigEndian 8 (8 * message.length)

/-- The words of four bytes each. -/
def wordsOf : List UInt8 → List UInt32
  | a :: b :: c :: d :: rest =>
    (a.toUInt32 <<< 24 ||| b.toUInt32 <<< 16 ||| c.toUInt32 <<< 8 ||| d.toUInt32) :: wordsOf rest
  | _ => []

/-- Works the blocks of a message into the eight words; `count` bounds the number of blocks. -/
def absorb : (count : Nat) → List UInt32 → Words → Words
  | 0, _, s => s
  | count + 1, message, s => absorb count (message.drop 16) (compress s (message.take 16))

end Sha256

/-- The SHA-256 digest of a message, of 32 bytes. -/
def sha256 (message : List UInt8) : List UInt8 :=
  let words := Sha256.wordsOf (Sha256.padded message)
  (Sha256.absorb (words.length / 16) words .first).toList.flatMap
    fun w => Sha256.bigEndian 4 w.toNat

theorem length_sha256 (message : List UInt8) : (sha256 message).length = 32 := by
  rw [sha256, Sha256.Words.toList]
  simp [Sha256.bigEndian]

end StakeSnapshot.Digest
