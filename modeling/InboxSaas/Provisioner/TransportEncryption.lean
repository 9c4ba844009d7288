import InboxSaas.Encoding.Base64
import InboxSaas.Encoding.Json
import InboxSaas.Provisioner.RequestAuth

/-!
# The encrypted request of the private transport

The contract models and `decrypt_tenant_validation_request`.  The models validate the JSON text of
a body: every string has to be text, no field may be missing or unknown, and lengths count
characters.  The validator of email addresses and the decryption of AES-256-GCM are parameters.
-/

namespace InboxSaas.Provisioner

open Encoding (Json units)

/-- `EmailStr`: the normalized address, of at most 254 characters. -/
structure EmailStr where
  validate : PyString → Option PyString
  bounded {text email : PyString} (h : validate text = some email) : email.length ≤ 254

/-- `AESGCM(key).decrypt(iv, data, None)`, where the tag is at the end of the data. -/
abbrev AesGcm := (key iv data : Bytes) → Option Bytes

structure TenantCredentials where
  email : PyString
  password : PyString
  deriving DecidableEq

structure TenantValidationRequest where
  jobId : PyString
  tenantConnectionId : PyString
  credentials : TenantCredentials
  deriving DecidableEq

structure ProvisionerTransportEnvelope where
  iv : PyString
  ciphertext : PyString
  authTag : PyString
  deriving DecidableEq

def tenantValidationMaxBodyBytes : Nat := 4 * 1024

/-! ## Models -/

/-- The value of a JSON text; a string with an unpaired surrogate is an error. -/
def parseJson (raw : Bytes) : Option Json := do
  let text ← Encoding.utf8Decode? raw
  let value ← Encoding.parse text
  if value.isText then some value else none

/-- `extra="forbid"` -/
def onlyFields (names : List (List UInt16)) : Json → Bool
  | .object fields => fields.all (fun field => names.contains field.1)
  | _ => false

/-- A string field with bounds on its length. -/
def strField (name : List UInt16) (minLength maxLength : Nat) (value : Json) : Option PyString :=
  match value.field name with
  | some (.string text) =>
      if minLength ≤ (Encoding.chars text).length ∧ (Encoding.chars text).length ≤ maxLength then
        some (Encoding.chars text)
      else none
  | _ => none

def emailField (emailStr : EmailStr) (name : List UInt16) (maxLength : Nat) (value : Json) :
    Option PyString :=
  match value.field name with
  | some (.string text) =>
      (emailStr.validate (Encoding.chars text)).filter (fun email => email.length ≤ maxLength)
  | _ => none

/-- `Literal[...]` -/
def isLiteral (name : List UInt16) (expected : PyString) (value : Json) : Bool :=
  match value.field name with
  | some (.string text) => Encoding.chars text = expected
  | _ => false

def tenantCredentials (emailStr : EmailStr) (value : Json) : Option TenantCredentials :=
  if onlyFields [units "email", units "password"] value then do
    let email ← emailField emailStr (units "email") 254 value
    let password ← strField (units "password") 1 1024 value
    return ⟨email, password⟩
  else none

def tenantValidationRequest (emailStr : EmailStr) (value : Json) :
    Option TenantValidationRequest :=
  if onlyFields [units "contractVersion", units "jobId", units "tenantConnectionId",
      units "credentials"] value && isLiteral (units "contractVersion") "v1".toList value then do
    let jobId ← strField (units "jobId") 1 36 value
    let tenantConnectionId ← strField (units "tenantConnectionId") 1 36 value
    let credentials ← (value.field (units "credentials")).bind (tenantCredentials emailStr)
    return ⟨jobId, tenantConnectionId, credentials⟩
  else none

def provisionerTransportEnvelope (value : Json) : Option ProvisionerTransportEnvelope :=
  if onlyFields [units "iv", units "ciphertext", units "authTag"] value then do
    let iv ← strField (units "iv") 16 16 value
    let ciphertext ← strField (units "ciphertext") 4 4096 value
    let authTag ← strField (units "authTag") 24 24 value
    return ⟨iv, ciphertext, authTag⟩
  else none

/-! ## Decryption -/

/-- Every failure of a step makes the result `None`. -/
def decryptTenantValidationRequest (emailStr : EmailStr) (aesGcm : AesGcm) (rawEnvelope : Bytes)
    (transportEncryptionKey : Bytes) : Option TenantValidationRequest := do
  let envelope ← (parseJson rawEnvelope).bind provisionerTransportEnvelope
  let iv ← Encoding.base64Decode envelope.iv
  let ciphertext ← Encoding.base64Decode envelope.ciphertext
  let authTag ← Encoding.base64Decode envelope.authTag
  if iv.length ≠ 12 ∨ authTag.length ≠ 16 ∨ ciphertext = [] then none
  else
    let plaintext ← aesGcm transportEncryptionKey iv (ciphertext ++ authTag)
    (parseJson plaintext).bind (tenantValidationRequest emailStr)

/-! ## What the models accept -/

section

variable {text : PyString} {value : Json}

/-- A value that was written as text is read back, if all its strings are text. -/
theorem parseJson_stringify (value : Json) :
    parseJson ((Encoding.stringify value).flatMap String.utf8EncodeChar) =
      if value.isText then some value else none := by
  unfold parseJson
  rw [Encoding.utf8Decode?_encode, Option.bind_eq_bind, Option.bind_some,
    Encoding.parse_stringify, Option.bind_eq_bind, Option.bind_some]

theorem strField_string {name : List UInt16} {minLength maxLength : Nat} {content : List UInt16}
    (h : value.field name = some (.string content)) :
    strField name minLength maxLength value =
      if minLength ≤ (Encoding.chars content).length ∧
          (Encoding.chars content).length ≤ maxLength then some (Encoding.chars content)
      else none := by
  rw [strField, h]

theorem emailField_string {emailStr : EmailStr} {name : List UInt16} {content : List UInt16}
    (h : value.field name = some (.string content)) {email : PyString}
    (hemail : emailStr.validate (Encoding.chars content) = some email) :
    emailField emailStr name 254 value = some email := by
  have hlength := emailStr.bounded hemail
  rw [emailField, h]
  dsimp only
  rw [hemail, Option.filter_some, if_pos (by simpa using hlength)]

end

end InboxSaas.Provisioner
