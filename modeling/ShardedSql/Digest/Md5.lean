/-
**The message digest of 128 bits, MD5.**

The message is filled up with one set bit, zeros and its length in bits to whole blocks of 64
bytes, and each block is worked into four words over 64 steps.

Main definitions:

* `ShardedSql.Digest.padded` — the message filled up to whole blocks;
* `ShardedSql.Digest.md5Step` — one of the 64 steps;
* `ShardedSql.Digest.md5` — the sixteen bytes of the digest.

Main results:

* `ShardedSql.Digest.md5_length` — **a digest has sixteen bytes**.
-/

set_option relaxedAutoImplicit false
set_option autoImplicit false

namespace ShardedSql.Digest

/-- The four words that the steps work on. -/
structure Words where
  a : UInt32
  b : UInt32
  c : UInt32
  d : UInt32

/-- The words before the first block. -/
def Words.start : Words := ⟨0x67452301, 0xEFCDAB89, 0x98BADCFE, 0x10325476⟩

/-- How far each step of a round turns its word. -/
def md5Shifts (step : Nat) : UInt32 :=
  let row : List UInt32 :=
    if step < 16 then [7, 12, 17, 22]
    else if step < 32 then [5, 9, 14, 20]
    else if step < 48 then [4, 11, 16, 23]
    else [6, 10, 15, 21]
  row.getD (step % 4) 0

/-- The constants of the steps: the whole parts of `2 ^ 32 * |sin (step + 1)|`. -/
def md5Constants : List UInt32 :=
  [0xd76aa478, 0xe8c7b756, 0x242070db, 0xc1bdceee, 0xf57c0faf, 0x4787c62a, 0xa8304613, 0xfd469501,
   0x698098d8, 0x8b44f7af, 0xffff5bb1, 0x895cd7be, 0x6b901122, 0xfd987193, 0xa679438e, 0x49b40821,
   0xf61e2562, 0xc040b340, 0x265e5a51, 0xe9b6c7aa, 0xd62f105d, 0x02441453, 0xd8a1e681, 0xe7d3fbc8,
   0x21e1cde6, 0xc33707d6, 0xf4d50d87, 0x455a14ed, 0xa9e3e905, 0xfcefa3f8, 0x676f02d9, 0x8d2a4c8a,
   0xfffa3942, 0x8771f681, 0x6d9d6122, 0xfde5380c, 0xa4beea44, 0x4bdecfa9, 0xf6bb4b60, 0xbebfbc70,
   0x289b7ec6, 0xeaa127fa, 0xd4ef3085, 0x04881d05, 0xd9d4d039, 0xe6db99e5, 0x1fa27cf8, 0xc4ac5665,
   0xf4292244, 0x432aff97, 0xab9423a7, 0xfc93a039, 0x655b59c3, 0x8f0ccc92, 0xffeff47d, 0x85845dd1,
   0x6fa87e4f, 0xfe2ce6e0, 0xa3014314, 0x4e0811a1, 0xf7537e82, 0xbd3af235, 0x2ad7d2bb, 0xeb86d391]

/-- A word turned to the left. -/
def rotateLeft (w k : UInt32) : UInt32 := (w <<< k) ||| (w >>> (32 - k))

/-- One step over the sixteen words of a block. -/
def md5Step (block : Array UInt32) (w : Words) (step : Nat) : Words :=
  let (f, g) : UInt32 × Nat :=
    if step < 16 then ((w.b &&& w.c) ||| (~~~w.b &&& w.d), step)
    else if step < 32 then ((w.d &&& w.b) ||| (~~~w.d &&& w.c), (5 * step + 1) % 16)
    else if step < 48 then (w.b ^^^ w.c ^^^ w.d, (3 * step + 5) % 16)
    else (w.c ^^^ (w.b ||| ~~~w.d), (7 * step) % 16)
  let sum := f + w.a + md5Constants.getD step 0 + block.getD g 0
  ⟨w.d, w.b + rotateLeft sum (md5Shifts step), w.b, w.c⟩

/-- A number as `n` bytes, the lowest first. -/
def littleEndian : Nat → Nat → List UInt8
  | 0, _ => []
  | n + 1, v => UInt8.ofNat (v % 256) :: littleEndian n (v / 256)

/-- The message filled up to whole blocks of 64 bytes. -/
def padded (message : List UInt8) : List UInt8 :=
  let zeros := (119 - message.length % 64) % 64
  message ++ 0x80 :: List.replicate zeros 0 ++ littleEndian 8 (8 * message.length)

/-- Bytes as words of four, the lowest first. -/
def wordsOf : List UInt8 → List UInt32
  | a :: b :: c :: d :: rest =>
      (a.toUInt32 ||| (b.toUInt32 <<< 8) ||| (c.toUInt32 <<< 16) ||| (d.toUInt32 <<< 24)) ::
        wordsOf rest
  | _ => []

/-- Works one block into the words. -/
def md5Block (w : Words) (block : Array UInt32) : Words :=
  let v := (List.range 64).foldl (md5Step block) w
  ⟨w.a + v.a, w.b + v.b, w.c + v.c, w.d + v.d⟩

/-- Works `n` blocks of sixteen words into the words. -/
def md5Blocks : Nat → Words → List UInt32 → Words
  | 0, w, _ => w
  | n + 1, w, words => md5Blocks n (md5Block w (words.take 16).toArray) (words.drop 16)

/-- The digest of a message. -/
def md5 (message : List UInt8) : List UInt8 :=
  let words := wordsOf (padded message)
  let w := md5Blocks (words.length / 16) .start words
  [w.a, w.b, w.c, w.d].flatMap fun x => littleEndian 4 x.toNat

theorem littleEndian_length (n v : Nat) : (littleEndian n v).length = n := by
  induction n generalizing v with
  | zero => rfl
  | succ n ih => simp [littleEndian, ih]

theorem md5_length (message : List UInt8) : (md5 message).length = 16 := by
  simp [md5, littleEndian_length]

end ShardedSql.Digest
