import DefiActions.Bytes

/-!
# Hashes

Keccak-256, which names contracts' functions and pools, and SHA-256 with its keyed
form, which signs requests.
-/

namespace DefiActions.Keccak

/-! ## Keccak-256

The sponge over the 1600-bit permutation with a rate of 136 octets. Padding sets
the first bit after the message and the last bit of the block; there is no
domain mark in between. The state is 25 lanes, the lane of column `x` and row
`y` at place `x + 5 * y`. -/

abbrev Lanes := Array UInt64

def rotate (w : UInt64) (n : Nat) : UInt64 :=
  if n % 64 = 0 then w else (w <<< UInt64.ofNat (n % 64)) ||| (w >>> UInt64.ofNat (64 - n % 64))

def roundConstants : List UInt64 :=
  [0x0000000000000001, 0x0000000000008082, 0x800000000000808A, 0x8000000080008000, 0x000000000000808B,
    0x0000000080000001, 0x8000000080008081, 0x8000000000008009, 0x000000000000008A, 0x0000000000000088,
    0x0000000080008009, 0x000000008000000A, 0x000000008000808B, 0x800000000000008B, 0x8000000000008089,
    0x8000000000008003, 0x8000000000008002, 0x8000000000000080, 0x000000000000800A, 0x800000008000000A,
    0x8000000080008081, 0x8000000000008080, 0x0000000080000001, 0x8000000080008008]

/-- The rotation of each lane, by place. -/
def rotations : Array Nat :=
  #[0, 1, 62, 28, 27, 36, 44, 6, 55, 20, 3, 10, 43, 25, 39, 41, 45, 15, 21, 8, 18, 2, 61, 56, 14]

def lane (s : Lanes) (x y : Nat) : UInt64 := s.getD (x % 5 + 5 * (y % 5)) 0

def build (f : Nat → Nat → UInt64) : Lanes := (Array.range 25).map fun i => f (i % 5) (i / 5)

/-- Adds to every lane the parities of two neighbouring columns. -/
def theta (s : Lanes) : Lanes :=
  let parity := (Array.range 5).map fun x =>
    lane s x 0 ^^^ lane s x 1 ^^^ lane s x 2 ^^^ lane s x 3 ^^^ lane s x 4
  let mixed := (Array.range 5).map fun x =>
    parity.getD ((x + 4) % 5) 0 ^^^ rotate (parity.getD ((x + 1) % 5) 0) 1
  build fun x y => lane s x y ^^^ mixed.getD x 0

/-- Rotates the lanes and moves them to new places. -/
def rhoPi (s : Lanes) : Lanes :=
  build fun x y =>
    let x' := (x + 3 * y) % 5
    rotate (lane s x' x) (rotations.getD (x' + 5 * x) 0)

def chi (s : Lanes) : Lanes :=
  build fun x y => lane s x y ^^^ ((lane s (x + 1) y ^^^ 0xFFFFFFFFFFFFFFFF) &&& lane s (x + 2) y)

def iota (s : Lanes) (c : UInt64) : Lanes := s.set! 0 (s.getD 0 0 ^^^ c)

def permute (s : Lanes) : Lanes := roundConstants.foldl (fun s c => iota (chi (rhoPi (theta s))) c) s

/-! ## Sponge -/

def rate : Nat := 136

def pad (bs : Bytes) : Bytes :=
  let gap := rate - bs.length % rate
  if gap = 1 then bs ++ [0x81] else bs ++ 0x01 :: Bytes.zeros (gap - 2) ++ [0x80]

/-- The lane of eight octets, least significant first. -/
def ofOctets (bs : Bytes) : UInt64 := UInt64.ofNat (Bytes.toNat bs.reverse)

def toOctets (w : UInt64) : Bytes := (Bytes.ofNat 8 w.toNat).reverse

def absorb (s : Lanes) (block : Bytes) : Lanes :=
  permute (s.mapIdx fun i w => if i < 17 then w ^^^ ofOctets ((block.drop (8 * i)).take 8) else w)

/-- Absorbs `count` blocks from the front. -/
def absorbAll : (count : Nat) → Bytes → Lanes → Lanes
  | 0, _, s => s
  | count + 1, bs, s => absorbAll count (bs.drop rate) (absorb s (bs.take rate))

def hash (bs : Bytes) : Bytes :=
  let padded := pad bs
  let s := absorbAll (padded.length / rate) padded (Array.replicate 25 0)
  (s.toList.take 4).flatMap toOctets

end DefiActions.Keccak

namespace DefiActions.Sha256

/-! ## SHA-256

Blocks of 64 octets are compressed into eight words. Padding is one set bit,
zeros, and the length of the message in bits as eight octets. -/

def constants : List UInt32 :=
  [0x428A2F98, 0x71374491, 0xB5C0FBCF, 0xE9B5DBA5, 0x3956C25B, 0x59F111F1, 0x923F82A4, 0xAB1C5ED5,
    0xD807AA98, 0x12835B01, 0x243185BE, 0x550C7DC3, 0x72BE5D74, 0x80DEB1FE, 0x9BDC06A7, 0xC19BF174,
    0xE49B69C1, 0xEFBE4786, 0x0FC19DC6, 0x240CA1CC, 0x2DE92C6F, 0x4A7484AA, 0x5CB0A9DC, 0x76F988DA,
    0x983E5152, 0xA831C66D, 0xB00327C8, 0xBF597FC7, 0xC6E00BF3, 0xD5A79147, 0x06CA6351, 0x14292967,
    0x27B70A85, 0x2E1B2138, 0x4D2C6DFC, 0x53380D13, 0x650A7354, 0x766A0ABB, 0x81C2C92E, 0x92722C85,
    0xA2BFE8A1, 0xA81A664B, 0xC24B8B70, 0xC76C51A3, 0xD192E819, 0xD6990624, 0xF40E3585, 0x106AA070,
    0x19A4C116, 0x1E376C08, 0x2748774C, 0x34B0BCB5, 0x391C0CB3, 0x4ED8AA4A, 0x5B9CCA4F, 0x682E6FF3,
    0x748F82EE, 0x78A5636F, 0x84C87814, 0x8CC70208, 0x90BEFFFA, 0xA4506CEB, 0xBEF9A3F7, 0xC67178F2]

structure Chain where
  a : UInt32
  b : UInt32
  c : UInt32
  d : UInt32
  e : UInt32
  f : UInt32
  g : UInt32
  h : UInt32

namespace Chain

def start : Chain :=
  ⟨0x6A09E667, 0xBB67AE85, 0x3C6EF372, 0xA54FF53A, 0x510E527F, 0x9B05688C, 0x1F83D9AB, 0x5BE0CD19⟩

def add (s t : Chain) : Chain :=
  ⟨s.a + t.a, s.b + t.b, s.c + t.c, s.d + t.d, s.e + t.e, s.f + t.f, s.g + t.g, s.h + t.h⟩

def toBytes (s : Chain) : Bytes :=
  [s.a, s.b, s.c, s.d, s.e, s.f, s.g, s.h].flatMap fun w => Bytes.ofNat 4 w.toNat

end Chain

def rotate (w n : UInt32) : UInt32 := (w >>> n) ||| (w <<< (32 - n))

/-- One round with the sum of the round's constant and its schedule word. -/
def step (s : Chain) (kw : UInt32) : Chain :=
  let big1 := rotate s.e 6 ^^^ rotate s.e 11 ^^^ rotate s.e 25
  let choice := (s.e &&& s.f) ^^^ ((s.e ^^^ 0xFFFFFFFF) &&& s.g)
  let t1 := s.h + big1 + choice + kw
  let big0 := rotate s.a 2 ^^^ rotate s.a 13 ^^^ rotate s.a 22
  let majority := (s.a &&& s.b) ^^^ (s.a &&& s.c) ^^^ (s.b &&& s.c)
  ⟨t1 + (big0 + majority), s.a, s.b, s.c, s.d + t1, s.e, s.f, s.g⟩

/-- Adds `count` words to a schedule of at least sixteen. -/
def extend : (count : Nat) → Array UInt32 → Array UInt32
  | 0, w => w
  | count + 1, w =>
    let at_ (back : Nat) := w.getD (w.size - back) 0
    let s0 := rotate (at_ 15) 7 ^^^ rotate (at_ 15) 18 ^^^ (at_ 15 >>> 3)
    let s1 := rotate (at_ 2) 17 ^^^ rotate (at_ 2) 19 ^^^ (at_ 2 >>> 10)
    extend count (w.push (at_ 16 + s0 + at_ 7 + s1))

/-- The big-endian words of `count` groups of four octets. -/
def words : (count : Nat) → Bytes → List UInt32
  | 0, _ => []
  | count + 1, bs => UInt32.ofNat (Bytes.toNat (bs.take 4)) :: words count (bs.drop 4)

def compress (s : Chain) (block : Bytes) : Chain :=
  let schedule := extend 48 (words 16 block).toArray
  s.add ((List.zipWith (· + ·) constants schedule.toList).foldl step s)

def pad (bs : Bytes) : Bytes :=
  bs ++ 0x80 :: Bytes.zeros ((119 - bs.length % 64) % 64) ++ Bytes.ofNat 8 (8 * bs.length)

/-- Compresses `count` blocks from the front. -/
def compressAll : (count : Nat) → Bytes → Chain → Chain
  | 0, _, s => s
  | count + 1, bs, s => compressAll count (bs.drop 64) (compress s (bs.take 64))

def hash (bs : Bytes) : Bytes :=
  let padded := pad bs
  (compressAll (padded.length / 64) padded .start).toBytes

/-! ## Keyed hash -/

/-- The key as one block: long keys are hashed first, short ones filled with zeros. -/
def keyBlock (key : Bytes) : Bytes :=
  let key := if 64 < key.length then hash key else key
  key ++ Bytes.zeros (64 - key.length)

def hmac (key message : Bytes) : Bytes :=
  let block := keyBlock key
  hash (block.map (· ^^^ 0x5C) ++ hash (block.map (· ^^^ 0x36) ++ message))

end DefiActions.Sha256
