import ServiceCall.Text.Utf8
/-!
# BLAKE3-256

The digest of a byte string. The input is cut into chunks of 1024 bytes and a chunk
into blocks of 64. A chunk is the chain of its blocks; two neighbouring subtrees of
equal size are joined by a parent as soon as a further chunk follows them, and what
is left at the end is joined from the right. The last node compressed is the root.
-/

namespace ServiceCall.Blake3

/-- A chaining value: eight words. -/
abbrev Chain := Vector UInt32 8

/-- The initial chaining value. -/
def start : Chain :=
  #v[0x6A09E667, 0xBB67AE85, 0x3C6EF372, 0xA54FF53A, 0x510E527F, 0x9B05688C, 0x1F83D9AB, 0x5BE0CD19]

/-- The place each message word is taken from for the next round. -/
def reorder : Vector (Fin 16) 16 := #v[2, 6, 3, 10, 7, 0, 4, 13, 1, 11, 12, 5, 9, 14, 15, 8]

/-- A word rotated right by `n` bits, for `n` from 1 to 31. -/
def rotate (w n : UInt32) : UInt32 := (w >>> n) ||| (w <<< (32 - n))

/-- Mixes two message words into four words of the state. -/
def mix (v : Vector UInt32 16) (a b c d : Fin 16) (x y : UInt32) : Vector UInt32 16 :=
  let v := v.set a (v[a] + v[b] + x)
  let v := v.set d (rotate (v[d] ^^^ v[a]) 16)
  let v := v.set c (v[c] + v[d])
  let v := v.set b (rotate (v[b] ^^^ v[c]) 12)
  let v := v.set a (v[a] + v[b] + y)
  let v := v.set d (rotate (v[d] ^^^ v[a]) 8)
  let v := v.set c (v[c] + v[d])
  v.set b (rotate (v[b] ^^^ v[c]) 7)

/-- One round: the four columns, then the four diagonals. -/
def round (v m : Vector UInt32 16) : Vector UInt32 16 :=
  let v := mix v 0 4 8 12 m[0] m[1]
  let v := mix v 1 5 9 13 m[2] m[3]
  let v := mix v 2 6 10 14 m[4] m[5]
  let v := mix v 3 7 11 15 m[6] m[7]
  let v := mix v 0 5 10 15 m[8] m[9]
  let v := mix v 1 6 11 12 m[10] m[11]
  let v := mix v 2 7 8 13 m[12] m[13]
  mix v 3 4 9 14 m[14] m[15]

/-- The given number of rounds, the message reordered between them. -/
def rounds : Nat → Vector UInt32 16 → Vector UInt32 16 → Vector UInt32 16
  | 0, v, _ => v
  | n + 1, v, m => rounds n (round v m) (reorder.map (m[·]))

/-- A node that is still to be compressed. -/
structure Node where
  chain : Chain
  block : Vector UInt32 16
  counter : UInt64
  length : UInt32
  flags : UInt32

namespace Node

/-- The compression function, of which half the state is kept. -/
def compress (n : Node) : Chain :=
  let v : Vector UInt32 16 :=
    n.chain ++ #v[start[0], start[1], start[2], start[3],
      n.counter.toUInt32, (n.counter >>> 32).toUInt32, n.length, n.flags]
  let v := rounds 7 v n.block
  Vector.ofFn fun i : Fin 8 => v[i.val] ^^^ v[i.val + 8]

/-- The parent of two subtrees. -/
def parent (left right : Chain) : Node := ⟨start, left ++ right, 0, 64, 4⟩

/-- The chaining value of the root. -/
def root (n : Node) : Chain := { n with counter := 0, flags := n.flags ||| 8 }.compress

end Node

/-- Sixteen words of a block, low bytes first, with zeros after its end. -/
def words (block : Bytes) : Vector UInt32 16 :=
  let bytes := block.toArray
  let byte (i : Nat) : UInt32 := (bytes.getD i 0).toUInt32
  Vector.ofFn fun i : Fin 16 =>
    byte (4 * i) ||| (byte (4 * i + 1) <<< 8) ||| (byte (4 * i + 2) <<< 16) |||
      (byte (4 * i + 3) <<< 24)

/-- Pieces of `n` bytes, the last one shorter, and never no piece at all. -/
def pieces (n : Nat) : Nat → Bytes → List Bytes
  | 0, bytes => [bytes]
  | fuel + 1, bytes =>
    if bytes.length ≤ n then [bytes] else bytes.take n :: pieces n fuel (bytes.drop n)

/-- The chain of a chunk's blocks, up to its last block. -/
def chunkNode (counter : UInt64) (flags : UInt32) : Chain → List Bytes → Node
  | chain, [] => ⟨chain, words [], counter, 0, flags ||| 2⟩
  | chain, [block] => ⟨chain, words block, counter, block.length.toUInt32, flags ||| 2⟩
  | chain, block :: rest =>
    chunkNode counter 0 (Node.mk chain (words block) counter 64 flags).compress rest

/-- The node of a chunk, given its place. -/
def chunk (counter : UInt64) (bytes : Bytes) : Node :=
  chunkNode counter 1 start (pieces 64 bytes.length bytes)

/-- Finished subtrees, the smallest first, each with the logarithm of its size. -/
abbrev Stack := List (Nat × Chain)

/-- Puts a subtree on the stack and joins subtrees of equal size. -/
def push (level : Nat) (chain : Chain) : Stack → Stack
  | (size, left) :: rest =>
    if size = level then push (level + 1) (Node.parent left chain).compress rest
    else (level, chain) :: (size, left) :: rest
  | [] => [(level, chain)]

/-- The root node of the chunks from `counter` on. -/
def rootNode (counter : UInt64) : Stack → List Bytes → Node
  | stack, [] =>
    stack.foldl (fun right left => Node.parent left.2 right.compress) (chunk counter [])
  | stack, [last] =>
    stack.foldl (fun right left => Node.parent left.2 right.compress) (chunk counter last)
  | stack, first :: rest =>
    rootNode (counter + 1) (push 0 (chunk counter first).compress stack) rest

/-- The digest: 32 bytes, each word of the root low byte first. -/
def digest (input : Bytes) : Vector UInt8 32 :=
  let root := (rootNode 0 [] (pieces 1024 input.length input)).root
  Vector.ofFn fun i : Fin 32 =>
    (root.get ⟨i.val / 4, by omega⟩ >>> (8 * (i.val % 4)).toUInt32).toUInt8

end ServiceCall.Blake3
