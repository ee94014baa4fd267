/-!
# The Keccak digest

The digest of 256 bits that contracts use for the names of their entries: a sponge of twenty-five
lanes of 64 bits, with the padding that precedes the final standard.
-/

namespace StakeSnapshot.Digest.Keccak

/-- The lanes of the sponge; the lane in column `x` and row `y` stands at `x + 5 * y`. -/
abbrev Lanes := Array UInt64

/-- The lane in a column and a row, both counted modulo five. -/
def lane (s : Lanes) (x y : Nat) : UInt64 := s.getD (x % 5 + 5 * (y % 5)) 0

/-- The lanes with the given contents by column and row. -/
def tabulate (f : Nat → Nat → UInt64) : Lanes :=
  Array.ofFn fun i : Fin 25 => f (i.val % 5) (i.val / 5)

/-- The constants that the rounds add to the first lane. -/
def roundConstants : List UInt64 := [
  0x0000000000000001, 0x0000000000008082, 0x800000000000808a, 0x8000000080008000,
  0x000000000000808b, 0x0000000080000001, 0x8000000080008081, 0x8000000000008009,
  0x000000000000008a, 0x0000000000000088, 0x0000000080008009, 0x000000008000000a,
  0x000000008000808b, 0x800000000000008b, 0x8000000000008089, 0x8000000000008003,
  0x8000000000008002, 0x8000000000000080, 0x000000000000800a, 0x800000008000000a,
  0x8000000080008081, 0x8000000000008080, 0x0000000080000001, 0x8000000080008008]

/-- How far each lane is rotated. -/
def rotations : Array UInt64 := #[
  0, 1, 62, 28, 27,
  36, 44, 6, 55, 20,
  3, 10, 43, 25, 39,
  41, 45, 15, 21, 8,
  18, 2, 61, 56, 14]

/-- Rotates a lane to the left. -/
def rotate (n x : UInt64) : UInt64 :=
  if n = 0 then x else (x <<< n) ||| (x >>> (64 - n))

/-- Adds to each lane the parities of two neighbouring columns. -/
def theta (s : Lanes) : Lanes :=
  let parity (x : Nat) : UInt64 :=
    lane s x 0 ^^^ lane s x 1 ^^^ lane s x 2 ^^^ lane s x 3 ^^^ lane s x 4
  let mix := Array.ofFn fun x : Fin 5 => parity (x.val + 4) ^^^ rotate 1 (parity (x.val + 1))
  tabulate fun x y => lane s x y ^^^ mix.getD x 0

/-- Rotates each lane and moves it to another place. -/
def rhoPi (s : Lanes) : Lanes :=
  tabulate fun x y =>
    let source := x + 3 * y
    rotate (lane rotations source x) (lane s source x)

/-- Combines each lane with the two to its right. -/
def chi (s : Lanes) : Lanes :=
  tabulate fun x y => lane s x y ^^^ ((~~~ lane s (x + 1) y) &&& lane s (x + 2) y)

/-- One round with its constant. -/
def round (s : Lanes) (constant : UInt64) : Lanes :=
  let t := chi (rhoPi (theta s))
  tabulate fun x y => if x = 0 ∧ y = 0 then lane t x y ^^^ constant else lane t x y

/-- The number of bytes that the sponge takes up at a time. -/
def rate : Nat := 136

/-- A message with its padding: whole blocks. -/
def padded (message : List UInt8) : List UInt8 :=
  let gap := rate - message.length % rate
  if gap = 1 then message ++ [0x81]
  else message ++ 0x01 :: List.replicate (gap - 2) 0 ++ [0x80]

/-- A lane from at most eight bytes, least significant first. -/
def laneOf (octets : List UInt8) : UInt64 :=
  octets.foldr (fun b x => (x <<< 8) ||| b.toUInt64) 0

/-- The bytes of a lane, least significant first. -/
def octetsOf (x : UInt64) : List UInt8 :=
  (List.range 8).map fun i => (x >>> UInt64.ofNat (8 * i)).toUInt8

/-- Takes up one block. -/
def takeUp (s : Lanes) (block : List UInt8) : Lanes :=
  roundConstants.foldl round
    (tabulate fun x y => lane s x y ^^^ laneOf ((block.drop (8 * (x + 5 * y))).take 8))

/-- Takes up the blocks of a message; `count` bounds their number. -/
def absorb : (count : Nat) → List UInt8 → Lanes → Lanes
  | 0, _, s => s
  | count + 1, message, s => absorb count (message.drop rate) (takeUp s (message.take rate))

end Keccak

/-- The Keccak digest of a message, of 32 bytes. -/
def keccak256 (message : List UInt8) : List UInt8 :=
  let octets := Keccak.padded message
  let s := Keccak.absorb (octets.length / Keccak.rate) octets (Keccak.tabulate fun _ _ => 0)
  (s.toList.flatMap Keccak.octetsOf).take 32

end StakeSnapshot.Digest
