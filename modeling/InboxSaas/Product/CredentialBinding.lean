import InboxSaas.Reasoning.Aead
import InboxSaas.Product.TenantCredentials

/-!
# Credentials bound to their workspace

A cipher gives back the credentials it encrypted, whatever strings they are, and only to the
workspace they were encrypted for: the additional data of two contexts differ as soon as their
workspace ids do.
-/

namespace InboxSaas.Product

open Reasoning

/-! ## The platform -/

/-- AES-256-GCM of the platform; what is sealed is the ciphertext and its tag. -/
def Platform.aes256Gcm (platform : Platform) : Aead Bytes Bytes Bytes Bytes (Bytes × Bytes) where
  sealed := platform.aes256GcmEncrypt
  unsealed key iv additionalData value :=
    platform.aes256GcmDecrypt key iv additionalData value.1 value.2

/-- The text of a buffer is the text it was made from. -/
def Platform.DecodesUtf8 (platform : Platform) : Prop :=
  ∀ text : List Char, platform.utf8Text (text.flatMap String.utf8EncodeChar) = text

/-- The most code units a string of the engine has, `buffer.constants.MAX_STRING_LENGTH`. -/
def maxStringLength : Nat := 0x1FFFFFE8

/-! ## The additional data -/

theorem updateEncodedField_of_lt {value : JsString}
    (h : (Encoding.utf8 value).length < 0x100000000) (written : Bytes) :
    updateEncodedField written value =
      .ok (written ++ Encoding.lengthPrefixed (Encoding.utf8 value)) :=
  if_neg (Nat.not_le_of_lt h)

theorem length_operationText (operation : JobOperation) :
    (Encoding.utf8 (operationText operation)).length < 0x100000000 := by
  cases operation
  decide

/-- The fields of a context in the order they are written. -/
def contextFields (context : TenantCredentialContext) : List Bytes :=
  [Encoding.utf8 context.workspaceId, Encoding.utf8 (operationText context.operation)]

def additionalData (context : TenantCredentialContext) : Bytes :=
  Encoding.utf8 (js "inbox-saas:tenant-credentials:v1\x00") ++
    Encoding.fields (contextFields context)

theorem credentialAdditionalAuthenticatedData_of_lt {context : TenantCredentialContext}
    (h : (Encoding.utf8 context.workspaceId).length < 0x100000000) :
    credentialAdditionalAuthenticatedData context = .ok (additionalData context) := by
  have hoperation := length_operationText context.operation
  simp only [credentialAdditionalAuthenticatedData, bind, Except.bind,
    updateEncodedField_of_lt h, updateEncodedField_of_lt hoperation, additionalData, contextFields,
    Encoding.fields, List.flatMap_cons, List.flatMap_nil, List.append_nil, List.append_assoc]

theorem credentialAdditionalAuthenticatedData_of_le {context : TenantCredentialContext}
    (h : 0x100000000 ≤ (Encoding.utf8 context.workspaceId).length) :
    credentialAdditionalAuthenticatedData context = .error outOfRange := by
  have hfield : ∀ written, updateEncodedField written context.workspaceId = .error outOfRange :=
    fun written => if_pos h
  simp only [credentialAdditionalAuthenticatedData, bind, Except.bind, hfield]

/-- Whatever the lengths of two ids are, their additional data say which id it is. -/
theorem additionalData_ne {context context' : TenantCredentialContext}
    (hwell : Encoding.isWellFormed context.workspaceId = true)
    (hwell' : Encoding.isWellFormed context'.workspaceId = true)
    (hlength : (Encoding.utf8 context.workspaceId).length < 0x100000000)
    (hlength' : (Encoding.utf8 context'.workspaceId).length < 0x100000000)
    (hne : context'.workspaceId ≠ context.workspaceId) :
    additionalData context' ≠ additionalData context := by
  intro hsame
  have hfields := List.append_cancel_left hsame
  have hid := (Encoding.lengthPrefixed_append hlength' hlength hfields).1
  have hids := Encoding.utf8_eq_iff.mp hid
  rw [Encoding.toWellFormed_of_isWellFormed hwell,
    Encoding.toWellFormed_of_isWellFormed hwell'] at hids
  exact hne hids

/-! ## The two operations -/

def plaintext (credentials : TenantCredentials) : Bytes :=
  (Encoding.stringify (credentialsJson credentials)).flatMap String.utf8EncodeChar

/-- What the plaintext says is read back by the schema. -/
theorem parseTenantCredentials_credentialsJson (credentials : TenantCredentials) :
    parseTenantCredentials (credentialsJson credentials) = some credentials := by
  have hemail : (credentialsJson credentials).field (js "email") =
      some (.string credentials.email) := by
    have hne : ¬ js "password" = js "email" := by decide
    simp [credentialsJson, Encoding.Json.field, hne]
  have hpassword : (credentialsJson credentials).field (js "password") =
      some (.string credentials.password) := by
    simp [credentialsJson, Encoding.Json.field]
  rw [parseTenantCredentials, hemail, hpassword]

section

variable {platform : Platform} {key : Bytes} {keyVersion : JsString}
  {cipher : TenantCredentialCipher}

theorem createTenantCredentialCipher_ok (hkey : key.length = 32) (hversion : trim keyVersion ≠ []) :
    ∃ cipher, createTenantCredentialCipher platform key keyVersion = .ok cipher := by
  have hvalid : validateKey key = .ok key := if_neg (not_not_intro hkey)
  rw [createTenantCredentialCipher, hvalid]
  exact ⟨_, if_neg hversion⟩

theorem encrypt_of_additionalData
    (hcipher : createTenantCredentialCipher platform key keyVersion = .ok cipher)
    {context : TenantCredentialContext} {data : Bytes}
    (hdata : credentialAdditionalAuthenticatedData context = .ok data)
    (credentials : TenantCredentials) (iv : Bytes) :
    cipher.encrypt credentials context iv =
      let value := platform.aes256Gcm.sealed key iv data (plaintext credentials)
      .ok ⟨value.1, iv, value.2, keyVersion⟩ := by
  unfold createTenantCredentialCipher at hcipher
  have ⟨cipherKey, hkey, hcipher⟩ := bind_eq_ok.mp hcipher
  split at hcipher
  · cases hcipher
  · cases hcipher
    rw [validateKey_eq hkey]
    simp only [hdata, bind, Except.bind]
    rfl

theorem decrypt_of_error
    (hcipher : createTenantCredentialCipher platform key keyVersion = .ok cipher)
    {context : TenantCredentialContext} {error : JsError}
    (hdata : credentialAdditionalAuthenticatedData context = .error error)
    (encrypted : EncryptedTenantCredentials) : cipher.decrypt encrypted context = .error error := by
  unfold createTenantCredentialCipher at hcipher
  have ⟨cipherKey, hkey, hcipher⟩ := bind_eq_ok.mp hcipher
  split at hcipher
  · cases hcipher
  · cases hcipher
    simp only [hdata, bind, Except.bind]

theorem decrypt_of_none
    (hcipher : createTenantCredentialCipher platform key keyVersion = .ok cipher)
    {context : TenantCredentialContext} {data : Bytes}
    (hdata : credentialAdditionalAuthenticatedData context = .ok data)
    {encrypted : EncryptedTenantCredentials}
    (hnone : platform.aes256Gcm.unsealed key encrypted.iv data
      (encrypted.ciphertext, encrypted.authTag) = none) :
    cipher.decrypt encrypted context = .error unauthenticated := by
  change platform.aes256GcmDecrypt key encrypted.iv data encrypted.ciphertext encrypted.authTag =
    none at hnone
  unfold createTenantCredentialCipher at hcipher
  have ⟨cipherKey, hkey, hcipher⟩ := bind_eq_ok.mp hcipher
  split at hcipher
  · cases hcipher
  · cases hcipher
    rw [validateKey_eq hkey]
    simp only [hdata, bind, Except.bind, hnone]
    rfl

/-- The plaintext of credentials decrypts to them. -/
theorem decrypt_of_plaintext
    (hcipher : createTenantCredentialCipher platform key keyVersion = .ok cipher)
    (htext : platform.DecodesUtf8) {context : TenantCredentialContext} {data : Bytes}
    (hdata : credentialAdditionalAuthenticatedData context = .ok data)
    {encrypted : EncryptedTenantCredentials} {credentials : TenantCredentials}
    (hsome : platform.aes256Gcm.unsealed key encrypted.iv data
      (encrypted.ciphertext, encrypted.authTag) = some (plaintext credentials)) :
    cipher.decrypt encrypted context = .ok credentials := by
  change platform.aes256GcmDecrypt key encrypted.iv data encrypted.ciphertext encrypted.authTag =
    some (plaintext credentials) at hsome
  have hparse : Encoding.parse (platform.utf8Text (plaintext credentials)) =
      some (credentialsJson credentials) := by
    rw [plaintext, htext, Encoding.parse_stringify]
  unfold createTenantCredentialCipher at hcipher
  have ⟨cipherKey, hkey, hcipher⟩ := bind_eq_ok.mp hcipher
  split at hcipher
  · cases hcipher
  · cases hcipher
    rw [validateKey_eq hkey]
    simp only [hdata, bind, Except.bind, hsome, hparse, parseTenantCredentials_credentialsJson]
    rfl

end

/-- Encryption is undone by decryption under the same context, and by no decryption for another
workspace. -/
theorem credentials_bound {platform : Platform} {key : Bytes} {keyVersion : JsString}
    (hkey : key.length = 32) (hversion : trim keyVersion ≠ []) (htext : platform.DecodesUtf8)
    (hideal : platform.aes256Gcm.Ideal key) :
    ∃ cipher, createTenantCredentialCipher platform key keyVersion = .ok cipher ∧
      ∀ iv credentials context, Encoding.isWellFormed context.workspaceId = true →
        context.workspaceId.length ≤ maxStringLength →
        ∃ encrypted, cipher.encrypt credentials context iv = .ok encrypted ∧
          cipher.decrypt encrypted context = .ok credentials ∧
          ∀ context', Encoding.isWellFormed context'.workspaceId = true →
            context'.workspaceId ≠ context.workspaceId →
            ∃ error, cipher.decrypt encrypted context' = .error error := by
  have ⟨cipher, hcipher⟩ := @createTenantCredentialCipher_ok platform key keyVersion hkey hversion
  refine ⟨cipher, hcipher, fun iv credentials context hwell hstring => ?_⟩
  have hbytes := Encoding.length_utf8_le context.workspaceId
  have hlength : (Encoding.utf8 context.workspaceId).length < 0x100000000 := by
    unfold maxStringLength at hstring
    omega
  have hdata := credentialAdditionalAuthenticatedData_of_lt hlength
  refine ⟨_, encrypt_of_additionalData hcipher hdata credentials iv, ?_, ?_⟩
  · exact decrypt_of_plaintext hcipher htext hdata (hideal.opens iv _ _)
  · intro context' hwell' hne
    -- an id that is too long for its length field is refused before anything is decrypted
    by_cases hlength' : (Encoding.utf8 context'.workspaceId).length < 0x100000000
    · have hdata' := credentialAdditionalAuthenticatedData_of_lt hlength'
      have hother := additionalData_ne hwell hwell' hlength hlength' hne
      exact ⟨unauthenticated,
        decrypt_of_none hcipher hdata' (hideal.unsealed_other iv hother _)⟩
    · have hdata' := credentialAdditionalAuthenticatedData_of_le (Nat.le_of_not_lt hlength')
      exact ⟨outOfRange, decrypt_of_error hcipher hdata' _⟩

/-! ## Sample credentials -/

namespace SealedSample

def key : Bytes := List.replicate 32 7

def iv : Bytes := List.replicate 12 1

def context : TenantCredentialContext :=
  ⟨js "6f1f6e1c-2b6a-4c1e-9d2f-0a1b2c3d4e5f", .tenantValidation⟩

def otherContext : TenantCredentialContext :=
  ⟨js "6F1F6E1C-2B6A-4C1E-9D2F-0A1B2C3D4E5F", .tenantValidation⟩

/-- A password with a quote, U+0000 and an unpaired surrogate. -/
def credentials : TenantCredentials := ⟨js "admin@contoso.com", [0x22, 0, 0xD800]⟩

example : plaintext credentials = Encoding.utf8 (js
    "\x7b\"email\":\"admin@contoso.com\",\"password\":\"\\\"\\u0000\\ud800\"\x7d") := by
  decide +kernel

/-- AES-256-GCM of the sample plaintext under the sample key, vector and additional data. -/
def value : Bytes × Bytes :=
  (Encoding.bigEndian 57
      (0x0dc3ecdaf1d6802cebf6bd451d5e1e71cb947a8077e4543d3b5e2e404a <<< 224 +
        0x9646dab1c17fdfee77a7ba7c2e6a57b44edea9be479c66658ecf7ddf),
    Encoding.bigEndian 16 0xb6d4e8f5c9b355cfb7120f75603990bd)

/-- The message that the sample value seals. -/
def IsSample (key' iv' data plain : Bytes) : Prop :=
  key' = key ∧ iv' = iv ∧ data = additionalData context ∧ plain = plaintext credentials

instance (key' iv' data plain : Bytes) : Decidable (IsSample key' iv' data plain) :=
  inferInstanceAs (Decidable (_ ∧ _))

/-- The platform on the sample message; elsewhere the tag is the additional data, marked. -/
def platform : Platform where
  hmacSha256 _ message := message
  aes256GcmEncrypt key' iv' data plain :=
    if IsSample key' iv' data plain then value else (plain, 0 :: data)
  aes256GcmDecrypt key' iv' data ciphertext authTag :=
    if IsSample key' iv' data (plaintext credentials) ∧ (ciphertext, authTag) = value then
      some (plaintext credentials)
    else if authTag = 0 :: data ∧ ¬ IsSample key' iv' data ciphertext then some ciphertext
    else none
  utf8Text bytes := (Encoding.utf8Decode? bytes).getD []

theorem decodesUtf8 : platform.DecodesUtf8 := by
  intro text
  change (Encoding.utf8Decode? _).getD [] = text
  rw [Encoding.utf8Decode?_encode, Option.getD_some]

/-- The tag of the sample value is not a marked one. -/
theorem value_ne (plain data : Bytes) : value ≠ (plain, 0 :: data) := by
  intro h
  have htag : value.2.head? = some 0 := congrArg (fun v => v.2.head?) h
  exact absurd htag (by decide)

theorem ideal : platform.aes256Gcm.Ideal key := by
  constructor
  · intro iv' data v plain
    obtain ⟨ciphertext, authTag⟩ := v
    change (if IsSample key iv' data (plaintext credentials) ∧ (ciphertext, authTag) = value then
      some (plaintext credentials)
      else if authTag = 0 :: data ∧ ¬ IsSample key iv' data ciphertext then some ciphertext
      else none) = some plain ↔
        (if IsSample key iv' data plain then value else (plain, 0 :: data)) = (ciphertext, authTag)
    -- the sample value opens to the sample plaintext; all others carry their data as a mark
    by_cases hvalue : IsSample key iv' data (plaintext credentials) ∧ (ciphertext, authTag) = value
    · rw [if_pos hvalue, Option.some.injEq]
      constructor
      · intro hplain
        rw [← hplain, if_pos hvalue.1, hvalue.2]
      · intro hsealed
        split at hsealed
        · rename_i hsample
          exact hsample.2.2.2.symm
        · exact absurd (hsealed.trans hvalue.2).symm (value_ne plain data)
    · rw [if_neg hvalue]
      constructor
      · intro hplain
        split at hplain
        · rename_i hmarked
          cases hplain
          rw [if_neg hmarked.2, hmarked.1]
        · cases hplain
      · intro hsealed
        split at hsealed
        · rename_i hsample
          exact absurd ⟨hsample.2.2.2 ▸ hsample, hsealed.symm⟩ hvalue
        · rename_i hsample
          cases hsealed
          rw [if_pos ⟨rfl, hsample⟩]
  · intro iv' data data' plain plain' hsame
    change (if IsSample key iv' data plain then value else (plain, 0 :: data)) =
      (if IsSample key iv' data' plain' then value else (plain', 0 :: data')) at hsame
    split at hsame
    · split at hsame
      · rename_i h h'
        exact h.2.2.1.trans h'.2.2.1.symm
      · exact absurd hsame (value_ne plain' data')
    · split at hsame
      · exact absurd hsame.symm (value_ne plain data)
      · cases hsame
        rfl

end SealedSample

open SealedSample in
/-- The stored form of the sample credentials is the sample value, which gives them back to their
workspace and to no other spelling of its id. -/
theorem credentials_bound_sample :
    ∃ cipher, createTenantCredentialCipher platform key (js "v1") = .ok cipher ∧
      ∃ encrypted, cipher.encrypt credentials context iv = .ok encrypted ∧
        cipher.decrypt encrypted context = .ok credentials ∧
        ∃ error, cipher.decrypt encrypted otherContext = .error error := by
  have ⟨cipher, hcipher, hbound⟩ :=
    @credentials_bound platform key (js "v1") rfl (by decide) decodesUtf8 ideal
  have ⟨encrypted, hencrypt, hdecrypt, hother⟩ :=
    hbound iv credentials context (by decide +kernel) (by decide +kernel)
  exact ⟨cipher, hcipher, encrypted, hencrypt, hdecrypt,
    hother otherContext (by decide +kernel) (by decide +kernel)⟩

end InboxSaas.Product
