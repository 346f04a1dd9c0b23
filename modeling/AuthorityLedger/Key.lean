import AuthorityLedger.Ed25519.Signature
import AuthorityLedger.ErrorKind
import AuthorityLedger.Hash.Blake3
import AuthorityLedger.Hex

/-!
# Keys

A key always verifies and signs only when its private half is held here.  It
is known by an identifier that is derived from its public half alone, so a key
and its verify-only copy are the same party: `id_publicOnly`.

A signature that `sign` makes is never empty (`length_of_sign`), which is what
lets a signed record be told from an unsigned one.
-/

namespace AuthorityLedger

/-- How many bytes of the public key's digest an identifier shows. -/
def keyIdLength : Nat := 20

/-- The identifier of a public key. -/
def keyId (publicKey : Bytes) : String :=
  "0x" ++ Hex.encode ((Blake3.digest publicKey).take keyIdLength)

/-- A public key, with the private seed if it is held. -/
structure Key where
  publicKey : Bytes
  seed? : Option Bytes
  /-- The public half is that of the seed. -/
  agrees : ∀ seed ∈ seed?, publicKey = Ed25519.publicKey seed
  deriving DecidableEq, Repr

namespace Key

/-- Why a key cannot be made or used. -/
inductive Error where
  /-- The bytes are no point of the curve. -/
  | invalidPublicKey
  /-- The bytes are not a seed. -/
  | invalidPrivateKey
  /-- The named key holds no private half. -/
  | cannotSign (id : String)
  deriving DecidableEq, Repr

/-- The wording of a key failure. -/
def Error.message : Error → String
  | .invalidPublicKey => "invalid public key"
  | .invalidPrivateKey => "invalid private key"
  | .cannotSign id => "key " ++ id ++ " holds no private half and cannot sign"

/-- The kind of a key failure. -/
def Error.kind : Error → ErrorKind
  | .cannotSign _ => .permissionDenied
  | _ => .invalidArgument

/-- The key pair of a private seed. -/
def ofSeed (seed : Bytes) : Key where
  publicKey := Ed25519.publicKey seed
  seed? := some seed
  agrees := by simp

/-- The key pair of a private seed, which must have 32 bytes. -/
def ofPrivate (seed : Bytes) : Except Error Key :=
  if seed.length = 32 then .ok (ofSeed seed) else .error .invalidPrivateKey

/-- A verify-only key; the bytes must be a point of the curve. -/
def ofPublic (bytes : Bytes) : Except Error Key :=
  match Ed25519.Point.decode? bytes with
  | some _ => .ok ⟨bytes, none, by simp⟩
  | none => .error .invalidPublicKey

/-- The key without its private half. -/
def publicOnly (key : Key) : Key where
  publicKey := key.publicKey
  seed? := none
  agrees := by simp

/-- The identifier of a key. -/
def id (key : Key) : String :=
  keyId key.publicKey

/-- Whether the private half is held. -/
def canSign (key : Key) : Bool :=
  key.seed?.isSome

/-- Sign a message. -/
def sign (key : Key) (message : Bytes) : Except Error Bytes :=
  match key.seed? with
  | some seed => .ok (Ed25519.sign seed message)
  | none => .error (.cannotSign key.id)

/-- Whether a signature of a message verifies under this key. -/
def verify (key : Key) (message signature : Bytes) : Bool :=
  Ed25519.verify key.publicKey message signature

/-- The description of a key, which never shows its private half. -/
def describe (key : Key) : String :=
  let able := if key.canSign then "true" else "false"
  "Ed25519Key \x7b id: \"" ++ key.id ++ "\", can_sign: " ++ able ++ " \x7d"

@[simp] theorem id_publicOnly (key : Key) : key.publicOnly.id = key.id := rfl

theorem length_of_sign {key : Key} {message signature : Bytes}
    (h : key.sign message = .ok signature) : signature.length = 64 := by
  unfold sign at h
  split at h
  · obtain rfl := Except.ok.inj h
    exact Ed25519.length_sign _ _
  · cases h

end Key

end AuthorityLedger
