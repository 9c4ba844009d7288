import InboxSaas.Encoding.Base64
import InboxSaas.Worker.TenantValidationWorker

/-!
# What the worker sends to the provisioner

The body of the request that `HttpTenantValidationProvisioner.validateTenant` makes: the JSON text of
the request, encrypted, in an envelope of Base64 text.
-/

namespace InboxSaas.Worker

open Reasoning Product

structure ProvisionerTransportEnvelope where
  iv : JsString
  ciphertext : JsString
  authTag : JsString
  deriving DecidableEq

/-- `buffer.toString("base64")` -/
def base64 (bytes : Bytes) : JsString :=
  (Encoding.base64Encode bytes).flatMap Encoding.encodeChar

def provisionerContractVersion : JsString := js "v1"

/-- The request as `JSON.stringify` sees it. -/
def TenantValidationRequest.json (request : TenantValidationRequest) : Encoding.Json :=
  .object [(js "contractVersion", .string provisionerContractVersion),
    (js "jobId", .string (uuidOut request.jobId)),
    (js "tenantConnectionId", .string (uuidOut request.tenantConnectionId)),
    (js "credentials", credentialsJson request.credentials)]

/-- The plaintext of a request. -/
def TenantValidationRequest.bytes (request : TenantValidationRequest) : Bytes :=
  (Encoding.stringify request.json).flatMap String.utf8EncodeChar

def ProvisionerTransportEnvelope.json (envelope : ProvisionerTransportEnvelope) : Encoding.Json :=
  .object [(js "iv", .string envelope.iv), (js "ciphertext", .string envelope.ciphertext),
    (js "authTag", .string envelope.authTag)]

/-- The random initialization vector is an argument. -/
def encryptProvisionerRequest (platform : Platform) (key : Bytes)
    (request : TenantValidationRequest) (iv : Bytes) :
    Except JsError ProvisionerTransportEnvelope :=
  if key.length ≠ 32 then
    .error (.new "Provisioner transport encryption key must be 32 bytes")
  else
    let (ciphertext, authTag) := platform.aes256GcmEncrypt key iv [] request.bytes
    .ok ⟨base64 iv, base64 ciphertext, base64 authTag⟩

/-- The body that `validateTenant` sends. -/
def validateTenantBody (platform : Platform) (transportEncryptionKey : Bytes)
    (request : TenantValidationRequest) (iv : Bytes) : Except JsError Bytes := do
  let envelope ← encryptProvisionerRequest platform transportEncryptionKey request iv
  return (Encoding.stringify envelope.json).flatMap String.utf8EncodeChar

/-! ## The size of a body -/

/-- Base64 text needs no escape, and each of its characters is one byte. -/
theorem base64_plain (bytes : Bytes) : ∀ c ∈ Encoding.base64Encode bytes,
    Encoding.escape (.scalar c) = [c] ∧ c.toNat < 0x80 :=
  Encoding.forall_base64Encode (by decide) (by decide) bytes

theorem quote_base64 (bytes : Bytes) :
    Encoding.quote (base64 bytes) = '"' :: (Encoding.base64Encode bytes ++ ['"']) :=
  Encoding.quote_plain fun c hc => (base64_plain bytes c hc).1

theorem envelope_text (iv ciphertext authTag : Bytes) :
    Encoding.stringify (ProvisionerTransportEnvelope.json
      ⟨base64 iv, base64 ciphertext, base64 authTag⟩) =
    "\x7b\"iv\":\"".toList ++ Encoding.base64Encode iv ++ "\",\"ciphertext\":\"".toList ++
      Encoding.base64Encode ciphertext ++ "\",\"authTag\":\"".toList ++
      Encoding.base64Encode authTag ++ "\"\x7d".toList := by
  have hiv : Encoding.quote (js "iv") = "\"iv\"".toList := by decide +kernel
  have hciphertext : Encoding.quote (js "ciphertext") = "\"ciphertext\"".toList := by
    decide +kernel
  have hauthTag : Encoding.quote (js "authTag") = "\"authTag\"".toList := by decide +kernel
  simp only [ProvisionerTransportEnvelope.json, Encoding.stringify, Encoding.stringifyFields,
    hiv, hciphertext, hauthTag, quote_base64]
  simp

theorem ascii_of_all {l : List Char} (h : l.all (fun c => decide (c.toNat < 0x80)) = true) :
    ∀ c ∈ l, c.toNat < 0x80 :=
  fun c hc => of_decide_eq_true (List.all_eq_true.mp h c hc)

/-- The names and the punctuation of an envelope are 38 bytes. -/
theorem length_envelope (iv ciphertext authTag : Bytes) :
    ((Encoding.stringify (ProvisionerTransportEnvelope.json
      ⟨base64 iv, base64 ciphertext, base64 authTag⟩)).flatMap String.utf8EncodeChar).length =
    38 + (iv.length + 2) / 3 * 4 + (ciphertext.length + 2) / 3 * 4 +
      (authTag.length + 2) / 3 * 4 := by
  have hascii : ∀ c ∈ Encoding.stringify (ProvisionerTransportEnvelope.json
      ⟨base64 iv, base64 ciphertext, base64 authTag⟩), c.toNat < 0x80 := by
    intro c hc
    rw [envelope_text] at hc
    simp only [List.mem_append] at hc
    rcases hc with ((((((hc | hc) | hc) | hc) | hc) | hc) | hc)
    · exact ascii_of_all (by decide +kernel : "\x7b\"iv\":\"".toList.all _ = true) c hc
    · exact (base64_plain iv c hc).2
    · exact ascii_of_all (by decide +kernel : "\",\"ciphertext\":\"".toList.all _ = true) c hc
    · exact (base64_plain ciphertext c hc).2
    · exact ascii_of_all (by decide +kernel : "\",\"authTag\":\"".toList.all _ = true) c hc
    · exact (base64_plain authTag c hc).2
    · exact ascii_of_all (by decide +kernel : "\"\x7d".toList.all _ = true) c hc
  rw [Encoding.length_utf8_of_ascii hascii, envelope_text]
  simp only [List.length_append, Encoding.length_base64Encode]
  have hopen : "\x7b\"iv\":\"".toList.length = 7 := by decide +kernel
  have hmiddle : "\",\"ciphertext\":\"".toList.length = 16 := by decide +kernel
  have hlast : "\",\"authTag\":\"".toList.length = 13 := by decide +kernel
  have hclose : "\"\x7d".toList.length = 2 := by decide +kernel
  omega

end InboxSaas.Worker
