/-
**The stream cipher RC4.**

A key shuffles the 256 bytes of a state; the state then yields one byte after another, each of
which is combined with a byte of the data.  Applying the same key twice gives the data back.

Main definitions:

* `ShardedSql.Cipher.State` — the shuffled bytes and the two places in them;
* `ShardedSql.Cipher.State.ofKey` — the state that a key begins with;
* `ShardedSql.Cipher.keystream` — the next bytes of a state;
* `ShardedSql.Cipher.rc4` — the data combined with the bytes of a key.

Main results:

* `ShardedSql.Cipher.rc4_length` — the data keeps its length;
* `ShardedSql.Cipher.rc4_rc4` — **applying a key twice changes nothing**.
-/

set_option relaxedAutoImplicit false
set_option autoImplicit false

namespace ShardedSql.Cipher

/-- The state of the cipher. -/
structure State where
  /-- The 256 bytes in their present order. -/
  table : Array UInt8
  /-- The place that moves by one. -/
  i : UInt8
  /-- The place that moves by what is read. -/
  j : UInt8

/-- The byte of a table at a place. -/
def byteAt (table : Array UInt8) (i : UInt8) : UInt8 := table.getD i.toNat 0

/-- The table with two places exchanged. -/
def exchange (table : Array UInt8) (i j : UInt8) : Array UInt8 :=
  (table.setIfInBounds i.toNat (byteAt table j)).setIfInBounds j.toNat (byteAt table i)

/-- One step of the shuffle by a key. -/
def shuffleStep (key : Array UInt8) (s : Array UInt8 × UInt8) (n : Nat) : Array UInt8 × UInt8 :=
  let i := UInt8.ofNat n
  let j := s.2 + byteAt s.1 i + key.getD (n % key.size) 0
  (exchange s.1 i j, j)

/-- The state that a key begins with. -/
def State.ofKey (key : List UInt8) : State :=
  let start := ((List.range 256).map UInt8.ofNat).toArray
  ⟨((List.range 256).foldl (shuffleStep key.toArray) (start, 0)).1, 0, 0⟩

/-- The next byte of a state, and the state after it. -/
def State.next (s : State) : UInt8 × State :=
  let i := s.i + 1
  let j := s.j + byteAt s.table i
  let table := exchange s.table i j
  (byteAt table (byteAt table i + byteAt table j), ⟨table, i, j⟩)

/-- The next `n` bytes of a state. -/
def keystream : Nat → State → List UInt8
  | 0, _ => []
  | n + 1, s => s.next.1 :: keystream n s.next.2

/-- The data combined with the bytes of a key. -/
def rc4 (key data : List UInt8) : List UInt8 :=
  List.zipWith (· ^^^ ·) data (keystream data.length (.ofKey key))

@[simp] theorem keystream_length (n : Nat) (s : State) : (keystream n s).length = n := by
  induction n generalizing s with
  | zero => rfl
  | succ n ih => simp [keystream, ih]

@[simp] theorem rc4_length (key data : List UInt8) : (rc4 key data).length = data.length := by
  simp [rc4]

theorem zipWith_xor_twice (data stream : List UInt8) (h : data.length = stream.length) :
    List.zipWith (· ^^^ ·) (List.zipWith (· ^^^ ·) data stream) stream = data := by
  induction data generalizing stream with
  | nil => simp
  | cons d rest ih =>
      cases stream with
      | nil => simp at h
      | cons s stream =>
          simp only [List.zipWith_cons_cons, List.cons.injEq]
          exact ⟨by rw [UInt8.xor_assoc, UInt8.xor_self, UInt8.xor_zero],
            ih stream (by simpa using h)⟩

theorem rc4_rc4 (key data : List UInt8) : rc4 key (rc4 key data) = data := by
  rw [rc4, rc4_length, rc4]
  exact zipWith_xor_twice _ _ (by simp)

end ShardedSql.Cipher
