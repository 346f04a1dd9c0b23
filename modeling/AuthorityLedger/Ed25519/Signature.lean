import AuthorityLedger.Ed25519.Curve
import AuthorityLedger.Hash.Sha2

/-!
# Ed25519 signatures

A 32-byte seed gives a scalar and a nonce prefix; the public key is the
scalar's multiple of the base point.  A signature is the encoding of a nonce
point followed by a scalar below the group order.

Verification recomputes the nonce point from the public key, the message and
the signature's scalar and compares encodings byte for byte.  The cofactor is
not cleared, points of small order are accepted, and a scalar that is not
below the group order is refused.
-/

namespace AuthorityLedger.Ed25519

/-- The signing scalar and the nonce prefix of a seed. -/
def expand (seed : Bytes) : Nat × Bytes :=
  let hash := sha512 seed
  let low := Bytes.toNatLE (hash.take 32)
  (low % Nat.pow 2 254 / 8 * 8 + Nat.pow 2 254, hash.drop 32)

/-- The public key of a seed. -/
def publicKey (seed : Bytes) : Bytes :=
  (Point.base.scale (expand seed).1).encode

/-- The challenge that binds a nonce point to a key and a message. -/
def challenge (nonce publicKey message : Bytes) : Nat :=
  Bytes.toNatLE (sha512 (nonce ++ publicKey ++ message)) % order

/-- The signature of a message under a seed. -/
def sign (seed message : Bytes) : Bytes :=
  let (scalar, nonceKey) := expand seed
  let nonce := Bytes.toNatLE (sha512 (nonceKey ++ message)) % order
  let point := (Point.base.scale nonce).encode
  let k := challenge point (publicKey seed) message
  point ++ Bytes.ofNatLE 32 ((nonce + k * scalar) % order)

/-- Whether a signature of a message verifies under a public key. -/
def verify (publicKey message signature : Bytes) : Bool :=
  match Point.decode? publicKey with
  | none => false
  | some key =>
    let nonce := signature.take 32
    let scalar := Bytes.toNatLE (signature.drop 32)
    if signature.length = 64 ∧ scalar < order then
      let k := challenge nonce publicKey message
      ((Point.base.scale scalar).add (key.negate.scale k)).encode == nonce
    else false

@[simp] theorem length_sign (seed message : Bytes) : (sign seed message).length = 64 := by
  simp [sign]

end AuthorityLedger.Ed25519
