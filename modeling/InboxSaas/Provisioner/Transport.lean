import InboxSaas.Api.V1
import InboxSaas.Provisioner.TransportEncryption
import InboxSaas.Worker.ProvisionerTransport

/-!
# The private transport

What the worker encrypts is what the provisioner reads, within the limits of the two contracts:
`transport_carries` says exactly which requests of the public route get through.
-/

namespace InboxSaas.Provisioner

open Encoding (units)

open Product (Platform JsString uuidOut)

/-- The two implementations of AES-256-GCM agree: the ciphertext has the length of the plaintext,
the tag 16 bytes, and decryption inverts encryption. -/
structure Agree (platform : Platform) (aesGcm : AesGcm) : Prop where
  ciphertext {key iv : Bytes} (hkey : key.length = 32) (hiv : iv.length = 12) (plaintext : Bytes) :
    (platform.aes256GcmEncrypt key iv [] plaintext).1.length = plaintext.length
  authTag {key iv : Bytes} (hkey : key.length = 32) (hiv : iv.length = 12) (plaintext : Bytes) :
    (platform.aes256GcmEncrypt key iv [] plaintext).2.length = 16
  decrypts {key iv : Bytes} (hkey : key.length = 32) (hiv : iv.length = 12) (plaintext : Bytes) :
    aesGcm key iv ((platform.aes256GcmEncrypt key iv [] plaintext).1 ++
      (platform.aes256GcmEncrypt key iv [] plaintext).2) = some plaintext

/-- A JavaScript string and a Python string are the same text. -/
def SameText (string : JsString) (text : PyString) : Prop :=
  string = text.flatMap Encoding.encodeChar

/-- The body is within the limit and is decrypted to the request it was made from. -/
def Carried (emailStr : EmailStr) (aesGcm : AesGcm) (key body : Bytes)
    (request : Worker.TenantValidationRequest) : Prop :=
  body.length ≤ tenantValidationMaxBodyBytes ∧
    ∃ received, decryptTenantValidationRequest emailStr aesGcm body key = some received ∧
      SameText (uuidOut request.jobId) received.jobId ∧
      SameText (uuidOut request.tenantConnectionId) received.tenantConnectionId ∧
      SameText request.credentials.email received.credentials.email ∧
      SameText request.credentials.password received.credentials.password

/-! ## Uuids -/

theorem forall_uuidText {P : UInt16 → Prop} (hdigit : ∀ n < 16, P (Product.hexDigit n))
    (hhyphen : P 45) (bytes value : Nat) : ∀ unit ∈ Product.uuidText bytes value, P unit := by
  induction bytes with
  | zero => exact fun unit hunit => by cases hunit
  | succ bytes ih =>
      intro unit hunit
      rw [Product.uuidText, List.mem_append, List.mem_append] at hunit
      rcases hunit with (hunit | hunit) | hunit
      · simp only [List.mem_cons, List.not_mem_nil, or_false] at hunit
        have hbyte : (value >>> (8 * bytes)) % 256 < 256 := Nat.mod_lt _ (by decide)
        rcases hunit with rfl | rfl
        · exact hdigit _ (by omega)
        · exact hdigit _ (by omega)
      · split at hunit
        · rw [List.mem_singleton.mp hunit]
          exact hhyphen
        · cases hunit
      · exact ih unit hunit

theorem uuidOut_lt (id : Product.Uuid) : ∀ unit ∈ uuidOut id, unit.toNat < 0xD800 :=
  forall_uuidText (by decide) (by decide) 16 id.toNat

theorem isWellFormed_uuidOut (id : Product.Uuid) : Encoding.isWellFormed (uuidOut id) = true :=
  Encoding.isWellFormed_of_lt (uuidOut_lt id)

theorem length_uuidOut (id : Product.Uuid) : (Encoding.chars (uuidOut id)).length = 36 := by
  rw [Encoding.length_chars_of_lt (uuidOut_lt id)]
  rfl

/-! ## Texts -/

theorem sameText_chars {string : JsString} (h : Encoding.isWellFormed string = true) :
    SameText string (Encoding.chars string) :=
  (Encoding.toWellFormed_of_isWellFormed h).symm

theorem SameText.isWellFormed {string : JsString} {text : PyString} (h : SameText string text) :
    Encoding.isWellFormed string = true := by
  rw [h, Encoding.isWellFormed_flatMap]

theorem SameText.chars {string : JsString} {text : PyString} (h : SameText string text) :
    text = Encoding.chars string := by
  rw [h, Encoding.chars_flatMap_encodeChar]

/-! ## The request -/

section

variable {emailStr : EmailStr} {request : Worker.TenantValidationRequest}

/-- The strings of a request are text when its credentials are. -/
theorem isText_request (request : Worker.TenantValidationRequest) : request.json.isText =
    (Encoding.isWellFormed request.credentials.email &&
      Encoding.isWellFormed request.credentials.password) := by
  have hnames : ∀ text : String, Encoding.isWellFormed (Product.js text) = true :=
    fun text => Encoding.isWellFormed_flatMap text.toList
  simp only [Worker.TenantValidationRequest.json, Product.credentialsJson, Encoding.Json.isText,
    Encoding.fieldsAreText, hnames, isWellFormed_uuidOut, Worker.provisionerContractVersion,
    Bool.true_and, Bool.and_true]

/-- The contract accepts a request whose password is short enough. -/
theorem tenantValidationRequest_json
    (hemail : emailStr.validate (Encoding.chars request.credentials.email) =
      some (Encoding.chars request.credentials.email))
    (hpassword : 1 ≤ (Encoding.chars request.credentials.password).length) :
    tenantValidationRequest emailStr request.json =
      if (Encoding.chars request.credentials.password).length ≤ 1024 then
        some ⟨Encoding.chars (uuidOut request.jobId),
          Encoding.chars (uuidOut request.tenantConnectionId),
          ⟨Encoding.chars request.credentials.email, Encoding.chars request.credentials.password⟩⟩
      else none := by
  have hjob : strField (units "jobId") 1 36 request.json =
      some (Encoding.chars (uuidOut request.jobId)) := by
    rw [strField_string rfl, if_pos (by rw [length_uuidOut]; decide)]
  have hconnection : strField (units "tenantConnectionId") 1 36 request.json =
      some (Encoding.chars (uuidOut request.tenantConnectionId)) := by
    rw [strField_string rfl, if_pos (by rw [length_uuidOut]; decide)]
  have hfields : (onlyFields [units "contractVersion", units "jobId",
      units "tenantConnectionId", units "credentials"] request.json &&
      isLiteral (units "contractVersion") "v1".toList request.json) = true := rfl
  have hcredentials : (request.json.field (units "credentials")).bind
      (tenantCredentials emailStr) =
      if (Encoding.chars request.credentials.password).length ≤ 1024 then
        some ⟨Encoding.chars request.credentials.email,
          Encoding.chars request.credentials.password⟩
      else none := by
    change tenantCredentials emailStr (Product.credentialsJson request.credentials) = _
    have hnames : onlyFields [units "email", units "password"]
        (Product.credentialsJson request.credentials) = true := rfl
    unfold tenantCredentials
    rw [if_pos hnames, emailField_string rfl hemail, strField_string rfl, Option.bind_eq_bind,
      Option.bind_some]
    by_cases hshort : (Encoding.chars request.credentials.password).length ≤ 1024
    · rw [if_pos ⟨hpassword, hshort⟩, if_pos hshort]
      rfl
    · rw [if_neg fun h => hshort h.2, if_neg hshort]
      rfl
  unfold tenantValidationRequest
  rw [if_pos hfields, hjob, hconnection, hcredentials]
  by_cases hshort : (Encoding.chars request.credentials.password).length ≤ 1024
  · rw [if_pos hshort, if_pos hshort]
    rfl
  · rw [if_neg hshort, if_neg hshort]
    rfl

end

/-! ## The envelope -/

theorem chars_base64 (bytes : Bytes) :
    Encoding.chars (Worker.base64 bytes) = Encoding.base64Encode bytes :=
  Encoding.chars_flatMap_encodeChar _

theorem isText_envelope (iv ciphertext authTag : Bytes) :
    (Worker.ProvisionerTransportEnvelope.json ⟨Worker.base64 iv, Worker.base64 ciphertext,
      Worker.base64 authTag⟩).isText = true := by
  have hnames : ∀ text : String, Encoding.isWellFormed (Product.js text) = true :=
    fun text => Encoding.isWellFormed_flatMap text.toList
  have hbase64 : ∀ bytes, Encoding.isWellFormed (Worker.base64 bytes) = true :=
    fun bytes => Encoding.isWellFormed_flatMap _
  simp only [Worker.ProvisionerTransportEnvelope.json, Encoding.Json.isText,
    Encoding.fieldsAreText, hnames, hbase64, Bool.and_self]

/-- An envelope of the right parts is accepted. -/
theorem envelope_json {iv ciphertext authTag : Bytes} (hiv : iv.length = 12)
    (hauthTag : authTag.length = 16) (hlow : 1 ≤ ciphertext.length)
    (hhigh : ciphertext.length ≤ 3072) :
    provisionerTransportEnvelope (Worker.ProvisionerTransportEnvelope.json ⟨Worker.base64 iv,
      Worker.base64 ciphertext, Worker.base64 authTag⟩) =
    some ⟨Encoding.base64Encode iv, Encoding.base64Encode ciphertext,
      Encoding.base64Encode authTag⟩ := by
  have hnames : onlyFields [units "iv", units "ciphertext", units "authTag"]
      (Worker.ProvisionerTransportEnvelope.json ⟨Worker.base64 iv, Worker.base64 ciphertext,
        Worker.base64 authTag⟩) = true := rfl
  unfold provisionerTransportEnvelope
  rw [if_pos hnames, strField_string rfl, strField_string rfl, strField_string rfl]
  simp only [chars_base64, Encoding.length_base64Encode, hiv, hauthTag]
  rw [if_pos (by decide), if_pos (by omega), if_pos (by decide)]
  rfl

/-! ## A sample request -/

namespace SampleTransport

def credentials (password : JsString) : Product.TenantCredentials :=
  ⟨Product.js "admin@contoso.com", password⟩

def request (password : JsString) : Worker.TenantValidationRequest :=
  ⟨11, 10, credentials password⟩

/-- The body of the public request with these credentials. -/
def publicBody (password : JsString) : Encoding.Json :=
  .object [(Product.js "credentials", Product.credentialsJson (credentials password))]

def password : JsString := Product.js "correct horse"

/-- A password of one character too many. -/
def longPassword : JsString := List.replicate 1025 97

def key : Bytes := List.replicate 32 7

def iv : Bytes := List.replicate 12 1

/-- AES-256-GCM of the sample request. -/
def ciphertext : Bytes :=
  Encoding.bigEndian 32 0x0dc3ead8fecb9e6fb2a08a440244195ec6d92ed66ea6193f7a5b2c002fd01481 ++
  Encoding.bigEndian 32 0xe0823880ac23b5b06e5f783bf14ec3a9be2bd92f6d8ecf6f8f729738e612b5a5 ++
  Encoding.bigEndian 32 0x99d76e006cee1a0f173d7701c55042f73de1065477a3744365553bcb9aa8ef3e ++
  Encoding.bigEndian 32 0x3dec2fa79dea2cfd043f5f99508a73c32a45f303fe5a3da39093b314a959a9a8 ++
  Encoding.bigEndian 32 0x3d2e816cb466e2a107a7f53b0d2c70d034fe4e3424f737ca07ee0347c5457d21 ++
  Encoding.bigEndian 32 0x98295956ce41627bf4ab865f49ee1e9e4f20341d6cac8635f5c0a5a775905794 ++
  Encoding.bigEndian 10 0x78d93857bea83e37a240

def authTag : Bytes := Encoding.bigEndian 16 0xb1d633a71ff7d1acd951f189d57199a7

/-- A tag that stands for encryption elsewhere. -/
def otherTag : Bytes := List.replicate 16 0

/-- The platform on the sample request; elsewhere it does not encrypt. -/
def platform : Platform where
  hmacSha256 _ message := message
  aes256GcmEncrypt _ _ _ plaintext :=
    if plaintext = (request password).bytes then (ciphertext, authTag) else (plaintext, otherTag)
  aes256GcmDecrypt _ _ _ _ _ := none
  utf8Text _ := []

def aesGcm : AesGcm := fun _ _ data =>
  if data = ciphertext ++ authTag then some (request password).bytes
  else some (data.take (data.length - 16))

theorem agree : Agree platform aesGcm where
  ciphertext := by
    intro key iv _ _ plaintext
    by_cases h : plaintext = (request password).bytes
    · simp only [platform, if_pos h]
      rw [h]
      decide +kernel
    · simp only [platform, if_neg h]
  authTag := by
    intro key iv _ _ plaintext
    by_cases h : plaintext = (request password).bytes
    · simp only [platform, if_pos h]
      rfl
    · simp only [platform, if_neg h]
      rfl
  decrypts := by
    intro key iv _ _ plaintext
    by_cases h : plaintext = (request password).bytes
    · simp only [platform, aesGcm, if_pos h]
      rw [if_pos trivial, h]
    · have hother : plaintext ++ otherTag ≠ ciphertext ++ authTag := by
        intro he
        have htags := List.append_inj_right' he rfl
        exact absurd htags (by decide +kernel)
      simp only [platform, aesGcm, if_neg h]
      rw [if_neg hother, List.length_append, otherTag, List.length_replicate, Nat.add_sub_cancel,
        List.take_left']
      rfl

def email : PyString := "admin@contoso.com".toList

/-- A validator that knows the sample address. -/
def emailStr : EmailStr where
  validate text := if text = email then some email else none
  bounded := by
    intro text email' h
    split at h
    · cases h
      decide +kernel
    · cases h

/-- The body of the sample request. -/
def body : Bytes :=
  (Encoding.stringify (Worker.ProvisionerTransportEnvelope.json
    ⟨Worker.base64 iv, Worker.base64 ciphertext, Worker.base64 authTag⟩)).flatMap
      String.utf8EncodeChar

end SampleTransport

/-! ## The limits -/

theorem request_bytes_pos (request : Worker.TenantValidationRequest) :
    1 ≤ request.bytes.length := by
  obtain ⟨c, rest, htext, -, -⟩ := Encoding.stringify_cons request.json
  have hfirst : 0 < (String.utf8EncodeChar c).length := by
    rw [String.length_utf8EncodeChar]
    exact Char.utf8Size_pos c
  rw [Worker.TenantValidationRequest.bytes, htext, List.flatMap_cons, List.length_append]
  omega

section

variable {platform : Platform} {aesGcm : AesGcm} {emailStr : EmailStr} {key iv body : Bytes}
  {request : Worker.TenantValidationRequest}

/-- The body is an envelope of the encrypted request. -/
theorem validateTenantBody_ok
    (h : Worker.validateTenantBody platform key request iv = .ok body) :
    body = (Encoding.stringify (Worker.ProvisionerTransportEnvelope.json ⟨Worker.base64 iv,
      Worker.base64 (platform.aes256GcmEncrypt key iv [] request.bytes).1,
      Worker.base64 (platform.aes256GcmEncrypt key iv [] request.bytes).2⟩)).flatMap
        String.utf8EncodeChar := by
  unfold Worker.validateTenantBody at h
  obtain ⟨envelope, henvelope, h⟩ := Reasoning.bind_eq_ok.mp h
  unfold Worker.encryptProvisionerRequest at henvelope
  split at henvelope
  · cases henvelope
  · cases henvelope
    exact (Except.ok.inj h).symm

/-- The envelope, an initialization vector and a tag take 78 bytes. -/
theorem length_body (hagree : Agree platform aesGcm) (hkey : key.length = 32)
    (hiv : iv.length = 12) (h : Worker.validateTenantBody platform key request iv = .ok body) :
    body.length = 78 + (request.bytes.length + 2) / 3 * 4 := by
  rw [validateTenantBody_ok h, Worker.length_envelope, hagree.ciphertext hkey hiv,
    hagree.authTag hkey hiv, hiv]
  omega

/-- A body that is not too long is decrypted to what its plaintext says. -/
theorem decrypt_body (hagree : Agree platform aesGcm) (hkey : key.length = 32)
    (hiv : iv.length = 12) (h : Worker.validateTenantBody platform key request iv = .ok body)
    (hshort : request.bytes.length ≤ 3012) :
    decryptTenantValidationRequest emailStr aesGcm body key =
      if request.json.isText then tenantValidationRequest emailStr request.json else none := by
  have hciphertext := hagree.ciphertext hkey hiv request.bytes
  have hauthTag := hagree.authTag hkey hiv request.bytes
  have hpos := request_bytes_pos request
  have henvelope := envelope_json hiv hauthTag (by rw [hciphertext]; exact hpos)
    (by rw [hciphertext]; omega)
  have hparts : ¬ (iv.length ≠ 12 ∨
      (platform.aes256GcmEncrypt key iv [] request.bytes).2.length ≠ 16 ∨
      (platform.aes256GcmEncrypt key iv [] request.bytes).1 = []) := by
    rintro (hne | hne | hnil)
    · exact hne hiv
    · exact hne hauthTag
    · rw [hnil, List.length_nil] at hciphertext
      omega
  rw [validateTenantBody_ok h]
  unfold decryptTenantValidationRequest
  rw [parseJson_stringify, if_pos (isText_envelope _ _ _), Option.bind_some, henvelope,
    Option.bind_eq_bind, Option.bind_some]
  dsimp only
  simp only [Encoding.base64Decode_base64Encode, Option.bind_eq_bind, Option.bind_some]
  rw [if_neg hparts, hagree.decrypts hkey hiv, Option.bind_some]
  have hplaintext := parseJson_stringify request.json
  change parseJson request.bytes = _ at hplaintext
  rw [hplaintext]
  split <;> rfl

/-- What gets through is within the limits. -/
theorem Carried.limits (hagree : Agree platform aesGcm) (hkey : key.length = 32)
    (hiv : iv.length = 12)
    (htext : Encoding.isWellFormed request.credentials.email = true)
    (hpassword : 1 ≤ (Encoding.chars request.credentials.password).length)
    (hemail : emailStr.validate (Encoding.chars request.credentials.email) =
      some (Encoding.chars request.credentials.email))
    (hbody : Worker.validateTenantBody platform key request iv = .ok body)
    (h : Carried emailStr aesGcm key body request) :
    Encoding.isWellFormed request.credentials.password = true ∧
      (Encoding.chars request.credentials.password).length ≤ 1024 ∧
      request.bytes.length ≤ 3012 := by
  obtain ⟨hlimit, received, hdecrypt, -, -, -, hsame⟩ := h
  have hlength := length_body hagree hkey hiv hbody
  have hshort : request.bytes.length ≤ 3012 := by
    unfold tenantValidationMaxBodyBytes at hlimit
    omega
  have hwf := hsame.isWellFormed
  rw [decrypt_body hagree hkey hiv hbody hshort, isText_request, htext, hwf,
    tenantValidationRequest_json hemail hpassword] at hdecrypt
  refine ⟨hwf, ?_, hshort⟩
  by_contra hlong
  rw [if_neg hlong] at hdecrypt
  cases hdecrypt

/-- A request of the public route gets through exactly when its password has at most 1024
characters and no unpaired surrogate, and its plaintext at most 3012 bytes. -/
theorem transport_carries (hagree : Agree platform aesGcm) (hkey : key.length = 32)
    (hiv : iv.length = 12) {publicBody : Encoding.Json}
    (hpublic : Api.parseTenantValidationRequest publicBody = some request.credentials)
    (htext : Encoding.isWellFormed request.credentials.email = true)
    (hemail : emailStr.validate (Encoding.chars request.credentials.email) =
      some (Encoding.chars request.credentials.email))
    (hbody : Worker.validateTenantBody platform key request iv = .ok body) :
    Carried emailStr aesGcm key body request ↔
      Encoding.isWellFormed request.credentials.password = true ∧
      (Encoding.chars request.credentials.password).length ≤ 1024 ∧
      request.bytes.length ≤ 3012 := by
  have hpassword : 1 ≤ (Encoding.chars request.credentials.password).length :=
    List.length_pos_iff.mpr
      (Encoding.chars_ne_nil (Api.parseTenantValidationRequest_eq_some hpublic).2)
  constructor
  · exact Carried.limits hagree hkey hiv htext hpassword hemail hbody
  · rintro ⟨hwf, hchars, hshort⟩
    have hlength := length_body hagree hkey hiv hbody
    constructor
    · unfold tenantValidationMaxBodyBytes
      omega
    · refine ⟨⟨_, _, ⟨_, _⟩⟩, ?_, sameText_chars (isWellFormed_uuidOut request.jobId),
        sameText_chars (isWellFormed_uuidOut request.tenantConnectionId), sameText_chars htext,
        sameText_chars hwf⟩
      rw [decrypt_body hagree hkey hiv hbody hshort, isText_request, htext, hwf,
        tenantValidationRequest_json hemail hpassword, if_pos hchars]
      exact if_pos rfl

end

open SampleTransport

/-- The sample request gets through. -/
theorem transport_carries_sample :
    Carried emailStr aesGcm key body (request password) := by
  have hpublic : Api.parseTenantValidationRequest (publicBody password) =
      some (request password).credentials := by decide +kernel
  have hbody : Worker.validateTenantBody platform key (request password) iv = .ok body := by
    decide +kernel
  exact (transport_carries SampleTransport.agree rfl rfl hpublic (by decide +kernel) (by decide +kernel)
    hbody).mpr ⟨by decide +kernel, by decide +kernel, by decide +kernel⟩

/-- The route accepts a password of 1025 characters, and no envelope carries it. -/
theorem long_password_refused :
    Api.parseTenantValidationRequest (publicBody longPassword) =
      some (credentials longPassword) ∧
    ¬ ∃ platform aesGcm emailStr key iv body, Agree platform aesGcm ∧ key.length = 32 ∧
      iv.length = 12 ∧ emailStr.validate email = some email ∧
      Worker.validateTenantBody platform key (request longPassword) iv = .ok body ∧
      Carried emailStr aesGcm key body (request longPassword) := by
  refine ⟨by decide +kernel, ?_⟩
  rintro ⟨platform, aesGcm, emailStr, key, iv, body, hagree, hkey, hiv, hemail, hbody, hcarried⟩
  have hchars : Encoding.chars (request longPassword).credentials.email =
      email := by decide +kernel
  rw [← hchars] at hemail
  have hlimits := hcarried.limits hagree hkey hiv (by decide +kernel) (by decide +kernel) hemail
    hbody
  exact absurd hlimits.2.1 (by decide +kernel)

end InboxSaas.Provisioner
