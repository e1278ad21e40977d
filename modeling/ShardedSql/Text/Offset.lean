/-
**Places in a text, counted in bytes of UTF-8.**

A place that falls within the bytes of one character, or behind the end, splits nothing.

Main definitions:

* `ShardedSql.Text.byteLength` — how many bytes some characters have;
* `ShardedSql.Text.splitAtByte` — the characters before and after a place;
* `ShardedSql.Text.slice?` — the characters between two places.

Main results:

* `ShardedSql.Text.splitAtByte_append` — **the parts are the whole, cut where asked**.
-/

set_option relaxedAutoImplicit false
set_option autoImplicit false

namespace ShardedSql.Text

/-- The number of bytes of some characters. -/
def byteLength : List Char → Nat
  | [] => 0
  | c :: rest => c.utf8Size + byteLength rest

/-- The characters before and after the place `n`, when it is the boundary of a character. -/
def splitAtByte (n : Nat) : List Char → Option (List Char × List Char)
  | [] => if n = 0 then some ([], []) else none
  | c :: rest =>
      if n = 0 then some ([], c :: rest)
      else if c.utf8Size ≤ n then
        (splitAtByte (n - c.utf8Size) rest).map fun p => (c :: p.1, p.2)
      else none

/-- The characters from the place `start` up to the place `stop`. -/
def slice? (start stop : Nat) (cs : List Char) : Option (List Char) := do
  let (_, rest) ← splitAtByte start cs
  if stop < start then none
  else
    let (part, _) ← splitAtByte (stop - start) rest
    some part

@[simp] theorem byteLength_nil : byteLength [] = 0 := rfl

@[simp] theorem byteLength_cons (c : Char) (cs : List Char) :
    byteLength (c :: cs) = c.utf8Size + byteLength cs := rfl

@[simp] theorem byteLength_append (a b : List Char) :
    byteLength (a ++ b) = byteLength a + byteLength b := by
  induction a with
  | nil => simp
  | cons c rest ih => simp [ih, Nat.add_assoc]

theorem splitAtByte_append {n : Nat} {cs before after : List Char}
    (h : splitAtByte n cs = some (before, after)) :
    cs = before ++ after ∧ byteLength before = n := by
  induction cs generalizing n before after with
  | nil =>
      simp only [splitAtByte] at h
      split at h
      · rename_i hn
        cases h
        exact ⟨rfl, hn.symm⟩
      · cases h
  | cons c rest ih =>
      simp only [splitAtByte] at h
      split at h
      · rename_i hn
        cases h
        exact ⟨rfl, hn.symm⟩
      · split at h
        · rename_i hle
          obtain ⟨⟨p, q⟩, hp, heq⟩ := Option.map_eq_some_iff.1 h
          cases heq
          obtain ⟨hrest, hlen⟩ := ih hp
          refine ⟨by simp [hrest], ?_⟩
          simp only [byteLength_cons, hlen]
          omega
        · cases h

end ShardedSql.Text
