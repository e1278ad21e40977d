/-
**What a stream cipher keeps of a value.**

A value is encrypted as the text that it is shown as, so the cipher gives back that text and no
more.  The text tells booleans, integers and texts apart.  Of binary data it shows the number of
bytes only, so the cipher of binary data does not tell which bytes were written.

Main results:

* `ShardedSql.Encryptor.decryptStream_streamText` — a text is read back from its cipher;
* `ShardedSql.Encryptor.stream_cipher_undone` — **decryption gives the text of every value that was
  encrypted**, whatever its length and its characters;
* `ShardedSql.Encryptor.stream_ciphers_distinct` — **which values a cipher tells apart**;
* `ShardedSql.Encryptor.binary_ciphers_collide` — two binary values with one cipher.
-/

import Mathlib
import ShardedSql.Encryptor
import ShardedSql.Proofs.Text.Base64
import ShardedSql.Proofs.Text.Utf8

set_option relaxedAutoImplicit false
set_option autoImplicit false

namespace ShardedSql

/-! ### Texts of values -/

namespace Value

theorem render_bool_inj {a b : Bool} : (bool a).render = (bool b).render ↔ a = b := by
  revert a b
  decide

theorem render_int_inj {m n : Int64} : (int m).render = (int n).render ↔ m = n := by
  constructor
  · intro h
    exact Int64.toInt_inj.1 (Int.repr_inj.1 h)
  · rintro rfl
    rfl

/-- Binary data is shown by its length. -/
theorem render_bytes_inj {bs cs : List UInt8} :
    (bytes bs).render = (bytes cs).render ↔ bs.length = cs.length := by
  constructor
  · intro h
    have hdigits : toString bs.length = toString cs.length :=
      String.append_right_inj _ |>.1 (String.append_left_inj _ |>.1 h)
    exact Nat.repr_inj.1 hdigits
  · intro h
    rw [render, render, h]

end Value

namespace Encryptor

/-! ### The way back -/

variable {key : List UInt8}

/-- The keystream is taken off again, and both encodings are undone. -/
theorem decryptStream_streamText (key : List UInt8) (plain : String) :
    decryptStream key (streamText key plain) = .ok (.text plain) := by
  simp only [decryptStream, streamText, Text.ofBase64_toBase64, Cipher.rc4_rc4, Text.ofUtf8_utf8]

theorem streamText_inj {s t : String} : streamText key s = streamText key t ↔ s = t := by
  constructor
  · intro h
    have hplain := decryptStream_streamText key s
    rw [h, decryptStream_streamText] at hplain
    exact (Value.text.inj (Except.ok.inj hplain)).symm
  · rintro rfl
    rfl

theorem encrypt_rc4 {v : Value} (h : v ≠ .null) :
    (rc4 key).encrypt v = .ok (.text (streamText key v.render)) := by
  cases v with
  | null => exact absurd rfl h
  | _ => rfl

/-- A cipher tells as much as the text of the value. -/
theorem encrypt_rc4_inj {v w : Value} (hv : v ≠ .null) (hw : w ≠ .null) :
    (rc4 key).encrypt v = (rc4 key).encrypt w ↔ v.render = w.render := by
  rw [encrypt_rc4 hv, encrypt_rc4 hw, ← @streamText_inj key]
  constructor
  · intro h
    exact Value.text.inj (Except.ok.inj h)
  · intro h
    rw [h]

/-- **A cipher is undone.**  Every key of an allowed length makes an encryptor.  It encrypts every
value other than null, its ciphers are padded Base64 of the standard alphabet, and decryption gives
the text of the value. -/
theorem stream_cipher_undone (key : List UInt8) (hmin : 5 ≤ key.length)
    (hmax : key.length ≤ 255) :
    (∀ props text, props.get? "rc4-key-value" = some text → Text.utf8 text = key →
      EncryptorType.rc4.make props = .ok (.rc4 key)) ∧
    ∀ v : Value, v ≠ .null → ∃ cipher, (rc4 key).encrypt v = .ok (.text cipher) ∧
      Text.IsBase64 cipher.toList ∧ (rc4 key).decrypt (.text cipher) = .ok (.text v.render) := by
  constructor
  · rintro props text hprops rfl
    have hlength : ¬((Text.utf8 text).length < 5 ∨ 255 < (Text.utf8 text).length) := by omega
    simp only [EncryptorType.make, EncryptorType.makeRc4, hprops]
    rw [if_neg hlength]
  · intro v hv
    exact ⟨streamText key v.render, encrypt_rc4 hv, Text.isBase64_toBase64 _,
      decryptStream_streamText key v.render⟩

/-- A telephone number under a key of eight bytes. -/
theorem stream_cipher_undone_number :
    (5 ≤ (Text.utf8 "test-key").length ∧ (Text.utf8 "test-key").length ≤ 255) ∧
    EncryptorType.rc4.make ⟨[("rc4-key-value", "test-key")]⟩ =
      .ok (.rc4 (Text.utf8 "test-key")) ∧
    ∃ cipher, (rc4 (Text.utf8 "test-key")).encrypt (.text "13800138000") = .ok (.text cipher) ∧
      Text.IsBase64 cipher.toList ∧
      (rc4 (Text.utf8 "test-key")).decrypt (.text cipher) = .ok (.text "13800138000") := by
  have hmin : 5 ≤ (Text.utf8 "test-key").length := by decide +kernel
  have hmax : (Text.utf8 "test-key").length ≤ 255 := by decide +kernel
  obtain ⟨hmake, hundone⟩ := stream_cipher_undone (Text.utf8 "test-key") hmin hmax
  exact ⟨⟨hmin, hmax⟩, hmake _ "test-key" (by decide) rfl, hundone (.text "13800138000") nofun⟩

/-! ### What a cipher tells -/

/-- **Which values a cipher tells apart.**  Two booleans, integers or texts have one cipher only if
they are the same.  Binary values have one cipher when they have the same number of bytes. -/
theorem stream_ciphers_distinct (key : List UInt8) :
    (∀ a b : Bool, (rc4 key).encrypt (.bool a) = (rc4 key).encrypt (.bool b) ↔ a = b) ∧
    (∀ m n : Int64, (rc4 key).encrypt (.int m) = (rc4 key).encrypt (.int n) ↔ m = n) ∧
    (∀ s t : String, (rc4 key).encrypt (.text s) = (rc4 key).encrypt (.text t) ↔ s = t) ∧
    (∀ bs cs : List UInt8,
      (rc4 key).encrypt (.bytes bs) = (rc4 key).encrypt (.bytes cs) ↔ bs.length = cs.length) := by
  refine ⟨fun a b => ?bools, fun m n => ?ints, fun s t => ?texts, fun bs cs => ?binary⟩
  case bools => exact (encrypt_rc4_inj (by nofun) (by nofun)).trans Value.render_bool_inj
  case ints => exact (encrypt_rc4_inj (by nofun) (by nofun)).trans Value.render_int_inj
  case texts => exact encrypt_rc4_inj (by nofun) (by nofun)
  case binary => exact (encrypt_rc4_inj (by nofun) (by nofun)).trans Value.render_bytes_inj

/-- Two binary values of one byte each have the same cipher. -/
theorem binary_ciphers_collide :
    Value.bytes [1] ≠ .bytes [2] ∧
      (rc4 (Text.utf8 "test-key")).encrypt (.bytes [1]) =
        (rc4 (Text.utf8 "test-key")).encrypt (.bytes [2]) :=
  ⟨by decide, (encrypt_rc4_inj (by nofun) (by nofun)).2 (Value.render_bytes_inj.2 rfl)⟩

end Encryptor

end ShardedSql
