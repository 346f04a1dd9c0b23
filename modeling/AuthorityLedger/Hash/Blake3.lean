import AuthorityLedger.Hash.Sha2

/-!
# BLAKE3

The hash behind key identifiers.  A message is cut into chunks of 1024 bytes,
each chunk into blocks of 64; the chunks are the leaves of a binary tree whose
left subtrees are the largest complete ones.  Every leaf and every inner node
ends in one pending compression, and the node at the top is finished with the
root flag.
-/

namespace AuthorityLedger.Blake3

/-- The eight words passed from one compression to the next. -/
abbrev Chaining := Vector UInt32 8

/-- The initial chaining value, shared with the narrow SHA-2 variant. -/
def initial : Chaining :=
  let r := Sha2.narrow.initial
  #v[r.a, r.b, r.c, r.d, r.e, r.f, r.g, r.h]

/-- Domain flags of a compression. -/
def chunkStart : UInt32 := 1

/-- Set on the last block of a chunk. -/
def chunkEnd : UInt32 := 2

/-- Set on an inner node. -/
def parent : UInt32 := 4

/-- Set on the final compression. -/
def root : UInt32 := 8

/-- The reordering of message words between rounds. -/
def permute (m : Vector UInt32 16) : Vector UInt32 16 :=
  #v[m[2], m[6], m[3], m[10], m[7], m[0], m[4], m[13],
     m[1], m[11], m[12], m[5], m[9], m[14], m[15], m[8]]

/-- Mix two message words into one column or diagonal of the state. -/
def mix (v : Vector UInt32 16) (a b c d : Fin 16) (x y : UInt32) : Vector UInt32 16 :=
  let va := v[a] + v[b] + x
  let vd := Sha2.rotate32 (v[d] ^^^ va) 16
  let vc := v[c] + vd
  let vb := Sha2.rotate32 (v[b] ^^^ vc) 12
  let va := va + vb + y
  let vd := Sha2.rotate32 (vd ^^^ va) 8
  let vc := vc + vd
  let vb := Sha2.rotate32 (vb ^^^ vc) 7
  (((v.set a va).set b vb).set c vc).set d vd

/-- One round: the four columns, then the four diagonals. -/
def round (v m : Vector UInt32 16) : Vector UInt32 16 :=
  let v := mix v 0 4 8 12 m[0] m[1]
  let v := mix v 1 5 9 13 m[2] m[3]
  let v := mix v 2 6 10 14 m[4] m[5]
  let v := mix v 3 7 11 15 m[6] m[7]
  let v := mix v 0 5 10 15 m[8] m[9]
  let v := mix v 1 6 11 12 m[10] m[11]
  let v := mix v 2 7 8 13 m[12] m[13]
  mix v 3 4 9 14 m[14] m[15]

/-- The given number of rounds, the message permuted after each. -/
def rounds : Nat → Vector UInt32 16 → Vector UInt32 16 → Vector UInt32 16
  | 0, v, _ => v
  | n + 1, v, m => rounds n (round v m) (permute m)

/-- A compression whose flags are not yet final. -/
structure Node where
  chaining : Chaining
  words : Vector UInt32 16
  counter : Nat
  size : Nat
  flags : UInt32

/-- Run a node's compression with extra flags. -/
def Node.finish (node : Node) (extra : UInt32) : Chaining :=
  let h := node.chaining
  let v := #v[h[0], h[1], h[2], h[3], h[4], h[5], h[6], h[7],
    initial[0], initial[1], initial[2], initial[3],
    UInt32.ofNat node.counter, UInt32.ofNat (node.counter / 4294967296),
    UInt32.ofNat node.size, node.flags ||| extra]
  let v := rounds 7 v node.words
  #v[v[0] ^^^ v[8], v[1] ^^^ v[9], v[2] ^^^ v[10], v[3] ^^^ v[11],
     v[4] ^^^ v[12], v[5] ^^^ v[13], v[6] ^^^ v[14], v[7] ^^^ v[15]]

/-- The words of a block, filled up with zeros. -/
def blockWords (block : Bytes) : Vector UInt32 16 :=
  Vector.ofFn fun i => UInt32.ofNat (Bytes.toNatLE ((block.drop (4 * i)).take 4))

/-- The pending last block of a chunk, after the blocks before it. -/
def chunkBlocks (counter : Nat) : Chaining → UInt32 → List Bytes → Node
  | h, flags, [] => ⟨h, blockWords [], counter, 0, flags ||| chunkEnd⟩
  | h, flags, [block] => ⟨h, blockWords block, counter, block.length, flags ||| chunkEnd⟩
  | h, flags, block :: rest =>
    let node : Node := ⟨h, blockWords block, counter, block.length, flags⟩
    chunkBlocks counter (node.finish 0) 0 rest

/-- The node of one chunk. -/
def chunk (counter : Nat) (bytes : Bytes) : Node :=
  chunkBlocks counter initial chunkStart (Bytes.pieces 64 16 bytes)

/-- The node above two subtrees. -/
def join (left right : Node) : Node :=
  let l := left.finish 0
  let r := right.finish 0
  ⟨initial, #v[l[0], l[1], l[2], l[3], l[4], l[5], l[6], l[7],
    r[0], r[1], r[2], r[3], r[4], r[5], r[6], r[7]], 0, 64, parent⟩

/-- The size of the left subtree over more than one chunk. -/
def leftSize (chunks : Nat) : Nat :=
  Nat.pow 2 (Nat.log2 (chunks - 1))

/-- The tree over a list of chunks, whose depth the first argument bounds. -/
def tree : Nat → Nat → List Bytes → Node
  | 0, counter, chunks => chunk counter (chunks.headD [])
  | depth + 1, counter, chunks =>
    if chunks.length ≤ 1 then chunk counter (chunks.headD [])
    else
      let left := leftSize chunks.length
      join (tree depth counter (chunks.take left))
        (tree depth (counter + left) (chunks.drop left))

/-- The 32-byte digest of a message. -/
def digest (message : Bytes) : Bytes :=
  let chunks := Bytes.pieces 1024 message.length message
  let words := (tree chunks.length 0 chunks).finish root
  words.toList.flatMap fun word => Bytes.ofNatLE 4 word.toNat

@[simp] theorem length_digest (message : Bytes) : (digest message).length = 32 := by
  simp [digest, List.map_const']

end AuthorityLedger.Blake3
