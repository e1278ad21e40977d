/-
**Encryptors of single values.**

Two encryptors are built in, and any other may be registered.  Nothing is known of such a one but
that the same value always has the same cipher.

Main definitions:

* `ShardedSql.Encryptor` — a one-way digest, a stream cipher with a key, and what is registered;
* `ShardedSql.Encryptor.encrypt`, `ShardedSql.Encryptor.decrypt` — the two directions;
* `ShardedSql.EncryptorType.make` — an encryptor from its properties.
-/

import ShardedSql.Config
import ShardedSql.Value
import ShardedSql.Digest.Md5
import ShardedSql.Cipher.Rc4
import ShardedSql.Text.Base64

set_option relaxedAutoImplicit false
set_option autoImplicit false

namespace ShardedSql

/-- A way to encrypt values. -/
inductive Encryptor where
  /-- The digest MD5 in hexadecimal digits, which cannot be undone. -/
  | md5
  /-- The stream cipher RC4, written in Base64. -/
  | rc4 (key : List UInt8)
  /-- Any other encryptor, with the name of its type and its two directions. -/
  | registered (type : String) (encrypt decrypt : Value → Outcome Value)

/-- The types of encryptor. -/
inductive EncryptorType where
  | md5
  | rc4
  /-- Any other type, with its name and the encryptor that it makes of properties. -/
  | registered (name : String) (make : Properties → Outcome Encryptor)

/-- The name of a type of encryptor. -/
def EncryptorType.name : EncryptorType → String
  | .md5 => "MD5"
  | .rc4 => "RC4"
  | .registered name _ => name

instance : Repr EncryptorType := ⟨fun t _ => t.name⟩

namespace Encryptor

/-- Registered encryptors are the same when their functions are, which cannot be computed. -/
noncomputable instance : DecidableEq Encryptor
  | .md5, .md5 => isTrue rfl
  | .rc4 key, .rc4 other => decidable_of_iff (key = other) (by simp)
  | .registered .., .registered .. => Classical.propDecidable _
  | .md5, .rc4 _ => isFalse nofun
  | .md5, .registered .. => isFalse nofun
  | .rc4 _, .md5 => isFalse nofun
  | .rc4 _, .registered .. => isFalse nofun
  | .registered .., .md5 => isFalse nofun
  | .registered .., .rc4 _ => isFalse nofun

/-- The type of an encryptor.  That of a registered one makes it of any properties. -/
def type : Encryptor → EncryptorType
  | .md5 => .md5
  | .rc4 _ => .rc4
  | .registered name encrypt decrypt =>
      .registered name fun _ => .ok (.registered name encrypt decrypt)

/-- A key is not shown. -/
instance : Repr Encryptor := ⟨fun e _ => e.type.name⟩

/-- The cipher of a value that is encrypted as the text it is shown as.  Null stays null. -/
def encryptShown (cipher : String → String) (plain : Value) : Value :=
  if plain.isNull then .null else .text (cipher plain.render)

/-- The text of a digest. -/
def digestText (plain : String) : String := Text.hexLower (Digest.md5 (Text.utf8 plain))

/-- The text that a stream cipher makes of a text. -/
def streamText (key : List UInt8) (plain : String) : String :=
  Text.toBase64 (Cipher.rc4 key (Text.utf8 plain))

/-- The cipher of a value. -/
def encrypt (e : Encryptor) (plain : Value) : Outcome Value :=
  match e with
  | .md5 => .ok (encryptShown digestText plain)
  | .rc4 key => .ok (encryptShown (streamText key) plain)
  | .registered _ encrypt _ => encrypt plain

/-- The text that a stream cipher was made of. -/
def decryptStream (key : List UInt8) (cipher : String) : Outcome Value :=
  match Text.ofBase64 cipher with
  | .error e =>
      .error ((Fault.internal "Failed to decode RC4 cipher text").becauseText e.text)
  | .ok bytes =>
      match Text.ofUtf8 (Cipher.rc4 key bytes) with
      | .error e =>
          .error ((Fault.internal "RC4 plain text is not utf8").becauseText e.text)
      | .ok plain => .ok (.text plain)

/-- The value that a cipher was made of; a digest is given back as it is. -/
def decrypt (e : Encryptor) (cipher : Value) : Outcome Value :=
  match e, cipher with
  | .md5, v => .ok v
  | .registered _ _ decrypt, v => decrypt v
  | .rc4 _, .null => .ok .null
  | .rc4 key, .text s => decryptStream key s
  | .rc4 _, v =>
      .error ((Fault.internal "RC4 cipher value must be a string").note "value" v.render)

end Encryptor

/-- The stream cipher with the key among some properties. -/
def EncryptorType.makeRc4 (props : Properties) : Outcome Encryptor :=
  match props.get? "rc4-key-value" with
  | none => .error (Fault.config "Missing required property 'rc4-key-value'")
  | some s =>
      let key := Text.utf8 s
      if key.length < 5 ∨ 255 < key.length then
        .error ((Fault.config "RC4 key length must be between 5 and 255 bytes").note
          "length" (toString key.length))
      else .ok (.rc4 key)

/-- The encryptor of a type with some properties. -/
def EncryptorType.make (t : EncryptorType) (props : Properties) : Outcome Encryptor :=
  match t with
  | .md5 => .ok .md5
  | .rc4 => makeRc4 props
  | .registered _ make => make props

end ShardedSql
