import AuthorityLedger.Bytes

/-!
# The SHA-2 family

SHA-256 and SHA-512 are one construction at two word sizes.  A message is
padded to whole blocks of sixteen words, and each block is folded into eight
registers by one round per constant.  The constants are the leading bits of
the fractional parts of square and cube roots of the first primes, so the
narrow variant takes the upper halves of the wide one's table.

Digests have a fixed length: `length_sha256` and `length_sha512`.
-/

namespace AuthorityLedger.Sha2

/-- The eight registers that a message is folded into. -/
structure Registers (ω : Type) where
  a : ω
  b : ω
  c : ω
  d : ω
  e : ω
  f : ω
  g : ω
  h : ω

/-- What distinguishes one member of the family from another. -/
structure Variant (ω : Type) where
  wordBytes : Nat
  toNat : ω → Nat
  ofNat : Nat → ω
  initial : Registers ω
  constants : List ω
  expandFirst : ω → ω
  expandSecond : ω → ω
  mixFirst : ω → ω
  mixSecond : ω → ω

section Construction

variable {ω : Type} [Add ω] [XorOp ω] [AndOp ω] [Complement ω]

/-- The message, a one bit, zeros, and the bit length, filling whole blocks. -/
def pad (wordBytes : Nat) (message : Bytes) : Bytes :=
  let block := 16 * wordBytes
  let used := message.length + 1 + 2 * wordBytes
  let zeros := (block - used % block) % block
  message ++ 0x80 :: List.replicate zeros 0 ++
    Bytes.ofNatBE (2 * wordBytes) (8 * message.length)

/-- The word that follows the last sixteen words of a schedule. -/
def Variant.nextWord (v : Variant ω) (window : List ω) : ω :=
  let word (i : Nat) := window.getD i (v.ofNat 0)
  v.expandSecond (word 14) + word 9 + v.expandFirst (word 1) + word 0

/-- One round: the registers move down and two of them take up new sums. -/
def Variant.round (v : Variant ω) (constant word : ω) (r : Registers ω) : Registers ω :=
  let choice := (r.e &&& r.f) ^^^ (~~~r.e &&& r.g)
  let majority := (r.a &&& r.b) ^^^ (r.a &&& r.c) ^^^ (r.b &&& r.c)
  let first := r.h + v.mixSecond r.e + choice + constant + word
  let second := v.mixFirst r.a + majority
  { a := first + second, b := r.a, c := r.b, d := r.c
    e := r.d + first, f := r.e, g := r.f, h := r.g }

/-- All rounds of a block, the window sliding along the schedule. -/
def Variant.rounds (v : Variant ω) : List ω → List ω → Registers ω → Registers ω
  | [], _, r => r
  | constant :: constants, window, r =>
    v.rounds constants (window.tail ++ [v.nextWord window])
      (v.round constant (window.headD (v.ofNat 0)) r)

/-- Fold one block of bytes into the registers. -/
def Variant.absorb (v : Variant ω) (r : Registers ω) (block : Bytes) : Registers ω :=
  let words := (Bytes.pieces v.wordBytes 16 block).map fun bytes => v.ofNat (Bytes.toNatBE bytes)
  let s := v.rounds v.constants words r
  { a := r.a + s.a, b := r.b + s.b, c := r.c + s.c, d := r.d + s.d
    e := r.e + s.e, f := r.f + s.f, g := r.g + s.g, h := r.h + s.h }

/-- The registers of a message, as bytes. -/
def Variant.digest (v : Variant ω) (message : Bytes) : Bytes :=
  let padded := pad v.wordBytes message
  let r := (Bytes.pieces (16 * v.wordBytes) padded.length padded).foldl v.absorb v.initial
  [r.a, r.b, r.c, r.d, r.e, r.f, r.g, r.h].flatMap fun word =>
    Bytes.ofNatBE v.wordBytes (v.toNat word)

theorem Variant.length_digest (v : Variant ω) (message : Bytes) :
    (v.digest message).length = 8 * v.wordBytes := by
  simp [Variant.digest]
  omega

end Construction

/-- Fractional parts of the cube roots of the first eighty primes. -/
def cubeRoots : List UInt64 :=
  [
   0x428a2f98d728ae22, 0x7137449123ef65cd, 0xb5c0fbcfec4d3b2f, 0xe9b5dba58189dbbc,
   0x3956c25bf348b538, 0x59f111f1b605d019, 0x923f82a4af194f9b, 0xab1c5ed5da6d8118,
   0xd807aa98a3030242, 0x12835b0145706fbe, 0x243185be4ee4b28c, 0x550c7dc3d5ffb4e2,
   0x72be5d74f27b896f, 0x80deb1fe3b1696b1, 0x9bdc06a725c71235, 0xc19bf174cf692694,
   0xe49b69c19ef14ad2, 0xefbe4786384f25e3, 0x0fc19dc68b8cd5b5, 0x240ca1cc77ac9c65,
   0x2de92c6f592b0275, 0x4a7484aa6ea6e483, 0x5cb0a9dcbd41fbd4, 0x76f988da831153b5,
   0x983e5152ee66dfab, 0xa831c66d2db43210, 0xb00327c898fb213f, 0xbf597fc7beef0ee4,
   0xc6e00bf33da88fc2, 0xd5a79147930aa725, 0x06ca6351e003826f, 0x142929670a0e6e70,
   0x27b70a8546d22ffc, 0x2e1b21385c26c926, 0x4d2c6dfc5ac42aed, 0x53380d139d95b3df,
   0x650a73548baf63de, 0x766a0abb3c77b2a8, 0x81c2c92e47edaee6, 0x92722c851482353b,
   0xa2bfe8a14cf10364, 0xa81a664bbc423001, 0xc24b8b70d0f89791, 0xc76c51a30654be30,
   0xd192e819d6ef5218, 0xd69906245565a910, 0xf40e35855771202a, 0x106aa07032bbd1b8,
   0x19a4c116b8d2d0c8, 0x1e376c085141ab53, 0x2748774cdf8eeb99, 0x34b0bcb5e19b48a8,
   0x391c0cb3c5c95a63, 0x4ed8aa4ae3418acb, 0x5b9cca4f7763e373, 0x682e6ff3d6b2b8a3,
   0x748f82ee5defb2fc, 0x78a5636f43172f60, 0x84c87814a1f0ab72, 0x8cc702081a6439ec,
   0x90befffa23631e28, 0xa4506cebde82bde9, 0xbef9a3f7b2c67915, 0xc67178f2e372532b,
   0xca273eceea26619c, 0xd186b8c721c0c207, 0xeada7dd6cde0eb1e, 0xf57d4f7fee6ed178,
   0x06f067aa72176fba, 0x0a637dc5a2c898a6, 0x113f9804bef90dae, 0x1b710b35131c471b,
   0x28db77f523047d84, 0x32caab7b40c72493, 0x3c9ebe0a15c9bebc, 0x431d67c49c100d4c,
   0x4cc5d4becb3e42b6, 0x597f299cfc657e2a, 0x5fcb6fab3ad6faec, 0x6c44198c4a475817
  ]

/-- Fractional parts of the square roots of the first eight primes. -/
def squareRoots : Registers UInt64 where
  a := 0x6a09e667f3bcc908
  b := 0xbb67ae8584caa73b
  c := 0x3c6ef372fe94f82b
  d := 0xa54ff53a5f1d36f1
  e := 0x510e527fade682d1
  f := 0x9b05688c2b3e6c1f
  g := 0x1f83d9abfb41bd6b
  h := 0x5be0cd19137e2179

/-- Rotate a 32-bit word to the right. -/
def rotate32 (word count : UInt32) : UInt32 :=
  word >>> count ||| word <<< (32 - count)

/-- Rotate a 64-bit word to the right. -/
def rotate64 (word count : UInt64) : UInt64 :=
  word >>> count ||| word <<< (64 - count)

/-- The upper half of a 64-bit word. -/
def upperHalf (word : UInt64) : UInt32 :=
  (word >>> 32).toUInt32

/-- The variant with 32-bit words and sixty-four rounds. -/
def narrow : Variant UInt32 where
  wordBytes := 4
  toNat := UInt32.toNat
  ofNat := UInt32.ofNat
  initial :=
    { a := upperHalf squareRoots.a, b := upperHalf squareRoots.b
      c := upperHalf squareRoots.c, d := upperHalf squareRoots.d
      e := upperHalf squareRoots.e, f := upperHalf squareRoots.f
      g := upperHalf squareRoots.g, h := upperHalf squareRoots.h }
  constants := (cubeRoots.take 64).map upperHalf
  expandFirst w := rotate32 w 7 ^^^ rotate32 w 18 ^^^ w >>> 3
  expandSecond w := rotate32 w 17 ^^^ rotate32 w 19 ^^^ w >>> 10
  mixFirst w := rotate32 w 2 ^^^ rotate32 w 13 ^^^ rotate32 w 22
  mixSecond w := rotate32 w 6 ^^^ rotate32 w 11 ^^^ rotate32 w 25

/-- The variant with 64-bit words and eighty rounds. -/
def wide : Variant UInt64 where
  wordBytes := 8
  toNat := UInt64.toNat
  ofNat := UInt64.ofNat
  initial := squareRoots
  constants := cubeRoots
  expandFirst w := rotate64 w 1 ^^^ rotate64 w 8 ^^^ w >>> 7
  expandSecond w := rotate64 w 19 ^^^ rotate64 w 61 ^^^ w >>> 6
  mixFirst w := rotate64 w 28 ^^^ rotate64 w 34 ^^^ rotate64 w 39
  mixSecond w := rotate64 w 14 ^^^ rotate64 w 18 ^^^ rotate64 w 41

end AuthorityLedger.Sha2

namespace AuthorityLedger

/-- The SHA-256 digest of a byte string. -/
def sha256 (message : Bytes) : Bytes :=
  Sha2.narrow.digest message

/-- The SHA-512 digest of a byte string. -/
def sha512 (message : Bytes) : Bytes :=
  Sha2.wide.digest message

@[simp] theorem length_sha256 (message : Bytes) : (sha256 message).length = 32 :=
  Sha2.narrow.length_digest message

@[simp] theorem length_sha512 (message : Bytes) : (sha512 message).length = 64 :=
  Sha2.wide.length_digest message

end AuthorityLedger
