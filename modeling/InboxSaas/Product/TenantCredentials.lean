import InboxSaas.Product.Text
import InboxSaas.Product.Statements

/-!
# Tenant credentials

The cipher that stores the credentials of a tenant administrator and fingerprints the payload of a
request.  HMAC-SHA-256, AES-256-GCM and the text of a buffer come from the platform, which is a
parameter.
-/

namespace InboxSaas.Product

open Reasoning

structure TenantCredentials where
  email : JsString
  password : JsString
  deriving DecidableEq, Repr

structure EncryptedTenantCredentials where
  ciphertext : Bytes
  iv : Bytes
  authTag : Bytes
  keyVersion : JsString
  deriving DecidableEq, Repr

structure TenantCredentialContext where
  workspaceId : JsString
  operation : JobOperation
  deriving DecidableEq, Repr

structure TenantCredentialFingerprintInput where
  credentials : TenantCredentials
  workspaceId : JsString
  operation : JobOperation
  deriving DecidableEq, Repr

/-- The interface of a cipher; the random initialization vector of `encrypt` is an argument. -/
structure TenantCredentialCipher where
  encrypt : TenantCredentials → TenantCredentialContext → Bytes →
    Except JsError EncryptedTenantCredentials
  decrypt : EncryptedTenantCredentials → TenantCredentialContext → Except JsError TenantCredentials
  fingerprint : TenantCredentialFingerprintInput → Except JsError JsString

/-- What the code takes from the platform. -/
structure Platform where
  hmacSha256 : (key message : Bytes) → Bytes
  /-- Ciphertext and authentication tag of a plaintext. -/
  aes256GcmEncrypt : (key iv additionalData plaintext : Bytes) → Bytes × Bytes
  aes256GcmDecrypt : (key iv additionalData ciphertext authTag : Bytes) → Option Bytes
  /-- `Buffer.toString("utf8")` -/
  utf8Text : Bytes → List Char

def operationText : JobOperation → JsString
  | .tenantValidation => js "tenant_validation"

def validateKey (key : Bytes) : Except JsError Bytes :=
  if key.length ≠ 32 then
    .error (.new "Tenant credential cipher key must be exactly 32 bytes")
  else .ok key

/-- The error of `writeUInt32BE`. -/
def outOfRange : JsError :=
  .error "The value of \"value\" is out of range" (some "ERR_OUT_OF_RANGE")

/-- The bytes a field adds to what was written before it. -/
def updateEncodedField (written : Bytes) (value : JsString) : Except JsError Bytes :=
  let encoded := Encoding.utf8 value
  if 0x100000000 ≤ encoded.length then .error outOfRange
  else .ok (written ++ Encoding.lengthPrefixed encoded)

def credentialAdditionalAuthenticatedData (context : TenantCredentialContext) :
    Except JsError Bytes := do
  let chunks := Encoding.utf8 (js "inbox-saas:tenant-credentials:v1\x00")
  let chunks ← updateEncodedField chunks context.workspaceId
  updateEncodedField chunks (operationText context.operation)

def fingerprintTenantValidationPayload (platform : Platform) (key : Bytes)
    (input : TenantCredentialFingerprintInput) : Except JsError JsString := do
  let key ← validateKey key
  let message := Encoding.utf8 (js "inbox-saas:tenant-validation-payload:v1\x00")
  let message ← updateEncodedField message input.workspaceId
  let message ← updateEncodedField message (operationText input.operation)
  let message ← updateEncodedField message input.credentials.email
  let message ← updateEncodedField message input.credentials.password
  return hexText (platform.hmacSha256 key message)

/-- `tenantCredentialsSchema.safeParse` -/
def parseTenantCredentials (value : Encoding.Json) : Option TenantCredentials :=
  match value.field (js "email"), value.field (js "password") with
  | some (.string email), some (.string password) => some ⟨email, password⟩
  | _, _ => none

def credentialsJson (credentials : TenantCredentials) : Encoding.Json :=
  .object [(js "email", .string credentials.email), (js "password", .string credentials.password)]

/-- The error of `decipher.final()`. -/
def unauthenticated : JsError := .new "Unsupported state or unable to authenticate data"

/-- The error of `JSON.parse`, whose text depends on the position. -/
def syntaxError : JsError := .new "Unexpected token"

def invalidCiphertext : JsError := .new "Tenant credential ciphertext is invalid"

def createTenantCredentialCipher (platform : Platform) (key : Bytes) (keyVersion : JsString) :
    Except JsError TenantCredentialCipher := do
  let cipherKey ← validateKey key
  if trim keyVersion = [] then
    throw (.new "Tenant credential cipher key version is required")
  else
    return {
      encrypt := fun credentials context iv => do
        let additionalData ← credentialAdditionalAuthenticatedData context
        let plaintext :=
          (Encoding.stringify (credentialsJson credentials)).flatMap String.utf8EncodeChar
        let (ciphertext, authTag) := platform.aes256GcmEncrypt cipherKey iv additionalData plaintext
        return ⟨ciphertext, iv, authTag, keyVersion⟩
      decrypt := fun credentials context => do
        let additionalData ← credentialAdditionalAuthenticatedData context
        match platform.aes256GcmDecrypt cipherKey credentials.iv additionalData credentials.ciphertext
            credentials.authTag with
        | none => throw unauthenticated
        | some plaintext =>
            match Encoding.parse (platform.utf8Text plaintext) with
            | none => throw syntaxError
            | some value =>
                match parseTenantCredentials value with
                | none => throw invalidCiphertext
                | some parsed => return parsed
      fingerprint := fingerprintTenantValidationPayload platform cipherKey }

/-- A key that is valid is used as it is. -/
theorem validateKey_eq {key cipherKey : Bytes} (h : validateKey key = .ok cipherKey) :
    cipherKey = key := by
  unfold validateKey at h
  split at h
  · cases h
  · exact (Except.ok.inj h).symm

/-! ## The message under a fingerprint -/

theorem updateEncodedField_ok {written message : Bytes} {value : JsString}
    (h : updateEncodedField written value = .ok message) :
    (Encoding.utf8 value).length < 0x100000000 ∧
      message = written ++ Encoding.lengthPrefixed (Encoding.utf8 value) := by
  unfold updateEncodedField at h
  dsimp only at h
  split at h
  · cases h
  · rename_i hlength
    exact ⟨Nat.lt_of_not_le hlength, (Except.ok.inj h).symm⟩

/-- The fields of a payload in the order they are hashed. -/
def payloadFields (input : TenantCredentialFingerprintInput) : List Bytes :=
  [Encoding.utf8 input.workspaceId, Encoding.utf8 (operationText input.operation),
    Encoding.utf8 input.credentials.email, Encoding.utf8 input.credentials.password]

theorem createTenantCredentialCipher_fingerprint {platform : Platform} {key : Bytes}
    {keyVersion : JsString} {cipher : TenantCredentialCipher}
    (h : createTenantCredentialCipher platform key keyVersion = .ok cipher) :
    cipher.fingerprint = fingerprintTenantValidationPayload platform key := by
  unfold createTenantCredentialCipher at h
  obtain ⟨cipherKey, hkey, h⟩ := bind_eq_ok.mp h
  split at h
  · cases h
  · cases h
    rw [validateKey_eq hkey]

/-- What a fingerprint is the digest of. -/
theorem fingerprint_ok {platform : Platform} {key : Bytes}
    {input : TenantCredentialFingerprintInput} {fingerprint : JsString}
    (h : fingerprintTenantValidationPayload platform key input = .ok fingerprint) :
    (∀ field ∈ payloadFields input, field.length < 0x100000000) ∧
      fingerprint = hexText (platform.hmacSha256 key
        (Encoding.utf8 (js "inbox-saas:tenant-validation-payload:v1\x00") ++
          Encoding.fields (payloadFields input))) := by
  unfold fingerprintTenantValidationPayload at h
  obtain ⟨key', hkey, h⟩ := bind_eq_ok.mp h
  obtain ⟨m₁, h₁, h⟩ := bind_eq_ok.mp h
  obtain ⟨m₂, h₂, h⟩ := bind_eq_ok.mp h
  obtain ⟨m₃, h₃, h⟩ := bind_eq_ok.mp h
  obtain ⟨m₄, h₄, h⟩ := bind_eq_ok.mp h
  have hkeys := validateKey_eq hkey
  obtain ⟨hl₁, e₁⟩ := updateEncodedField_ok h₁
  obtain ⟨hl₂, e₂⟩ := updateEncodedField_ok h₂
  obtain ⟨hl₃, e₃⟩ := updateEncodedField_ok h₃
  obtain ⟨hl₄, e₄⟩ := updateEncodedField_ok h₄
  constructor
  · intro field hfield
    simp only [payloadFields, List.mem_cons, List.not_mem_nil, or_false] at hfield
    rcases hfield with rfl | rfl | rfl | rfl <;> assumption
  · have hmessage : m₄ = Encoding.utf8 (js "inbox-saas:tenant-validation-payload:v1\x00") ++
        Encoding.fields (payloadFields input) := by
      rw [e₄, e₃, e₂, e₁]
      simp [Encoding.fields, payloadFields, List.append_assoc]
    rw [← hmessage, ← hkeys]
    exact (Except.ok.inj h).symm

end InboxSaas.Product
