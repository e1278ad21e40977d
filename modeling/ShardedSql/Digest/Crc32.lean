/-
**The cyclic redundancy check of 32 bits.**

Main definitions:

* `ShardedSql.Digest.crc32` — the checksum of some bytes under the reflected polynomial
  `0xEDB88320`, started from and finished with all ones.
-/

set_option relaxedAutoImplicit false
set_option autoImplicit false

namespace ShardedSql.Digest

/-- The remainder after `n` more bits. -/
def crcBits : Nat → UInt32 → UInt32
  | 0, r => r
  | n + 1, r => crcBits n (if r &&& 1 = 1 then (r >>> 1) ^^^ 0xEDB88320 else r >>> 1)

/-- The remainder after one more byte. -/
def crcByte (r : UInt32) (b : UInt8) : UInt32 := crcBits 8 (r ^^^ b.toUInt32)

/-- The checksum of some bytes. -/
def crc32 (bytes : List UInt8) : UInt32 :=
  bytes.foldl crcByte 0xFFFFFFFF ^^^ 0xFFFFFFFF

end ShardedSql.Digest
