import NotificationPlatform.Base64.Url
import NotificationPlatform.Utf16.Utf8

/-!
# Secrets that can be read back

`packages/security/src/encryption.ts`. The cipher is a parameter; what is stored is the
initialisation vector, the authentication tag and the cipher text, in this order. The random bytes of
the vector are an argument.
-/

namespace NotificationPlatform

namespace Security

open Utf16 (Text IsUnicode)

abbrev Buffer := List UInt8

def INITIALISATION_VECTOR_BYTES : Nat := 12

def AUTHENTICATION_TAG_BYTES : Nat := 16

/-- What the cipher makes of a plain text. -/
structure Enciphered where
  cipherText : Buffer
  authenticationTag : Buffer

/-- `aes-256-gcm` under a key and an initialisation vector. A cipher text is not deciphered under a
tag that is not its own. -/
structure Aes256Gcm where
  encrypt : (key initialisationVector plainText : Buffer) → Enciphered
  decrypt : (key initialisationVector : Buffer) → Enciphered → Option Buffer

/-- What is relied on. -/
structure Aes256Gcm.Lawful (cipher : Aes256Gcm) : Prop where
  tag_length : ∀ key iv plainText,
    (cipher.encrypt key iv plainText).authenticationTag.length = AUTHENTICATION_TAG_BYTES
  decrypt_encrypt : ∀ key iv plainText,
    cipher.decrypt key iv (cipher.encrypt key iv plainText) = some plainText

/-- The length of the key that the algorithm takes; another one throws. -/
def KEY_BYTES : Nat := 32

def encryptSecret (cipher : Aes256Gcm) (plainText encryptionKey : Text)
    (initialisationVector : Buffer) : Option Buffer :=
  let key := Base64.decode encryptionKey
  if key.length = KEY_BYTES then
    let enciphered := cipher.encrypt key initialisationVector (Utf16.toUtf8 plainText)
    some (initialisationVector ++ enciphered.authenticationTag ++ enciphered.cipherText)
  else none

def decryptSecret (cipher : Aes256Gcm) (payload : Buffer) (encryptionKey : Text) : Option Text :=
  let key := Base64.decode encryptionKey
  let initialisationVector := payload.take INITIALISATION_VECTOR_BYTES
  let authenticationTag :=
    (payload.drop INITIALISATION_VECTOR_BYTES).take AUTHENTICATION_TAG_BYTES
  let cipherText := payload.drop (INITIALISATION_VECTOR_BYTES + AUTHENTICATION_TAG_BYTES)
  if key.length = KEY_BYTES then
    (cipher.decrypt key initialisationVector ⟨cipherText, authenticationTag⟩).map Utf16.ofUtf8
  else none

variable {cipher : Aes256Gcm} {plainText encryptionKey : Text} {iv payload : Buffer}

/-- The stored layout is taken apart where it was put together. -/
theorem layout {tag : Buffer} (cipherText : Buffer) (hiv : iv.length = INITIALISATION_VECTOR_BYTES)
    (htag : tag.length = AUTHENTICATION_TAG_BYTES) :
    (iv ++ tag ++ cipherText).take INITIALISATION_VECTOR_BYTES = iv ∧
      ((iv ++ tag ++ cipherText).drop INITIALISATION_VECTOR_BYTES).take
        AUTHENTICATION_TAG_BYTES = tag ∧
      (iv ++ tag ++ cipherText).drop
        (INITIALISATION_VECTOR_BYTES + AUTHENTICATION_TAG_BYTES) = cipherText := by
  have hrest : (iv ++ tag ++ cipherText).drop INITIALISATION_VECTOR_BYTES = tag ++ cipherText := by
    rw [List.append_assoc, ← hiv, List.drop_left]
  refine ⟨?_, ?_, ?_⟩
  · rw [List.append_assoc, ← hiv, List.take_left]
  · rw [hrest, ← htag, List.take_left]
  · rw [← List.drop_drop, hrest, ← htag, List.drop_left]

/-- What was encrypted is decrypted. -/
theorem decryptSecret_encryptSecret (hcipher : cipher.Lawful) (htext : IsUnicode plainText)
    (hiv : iv.length = INITIALISATION_VECTOR_BYTES)
    (h : encryptSecret cipher plainText encryptionKey iv = some payload) :
    decryptSecret cipher payload encryptionKey = some plainText := by
  simp only [encryptSecret, Option.ite_none_right_eq_some, Option.some.injEq] at h
  obtain ⟨hkey, rfl⟩ := h
  have htag := hcipher.tag_length (Base64.decode encryptionKey) iv (Utf16.toUtf8 plainText)
  obtain ⟨hvector, htagged, hcipherText⟩ :=
    layout (cipher.encrypt (Base64.decode encryptionKey) iv
      (Utf16.toUtf8 plainText)).cipherText hiv htag
  simp only [decryptSecret, hkey, if_true, hvector, htagged, hcipherText, hcipher.decrypt_encrypt,
    Option.map_some, Utf16.ofUtf8_toUtf8 htext]

end Security

end NotificationPlatform
