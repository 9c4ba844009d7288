import InboxSaas.Product.CredentialBinding
import InboxSaas.Worker.RuntimeConfig

/-!
# Starting the worker and the server

`parseTenantValidationWorkerConfig` reads the variables of its environment one after the other, and
`createRuntimeCredentialCipher` makes the cipher of the server.  The `URL` constructor is a
parameter.
-/

namespace InboxSaas.Worker

open Reasoning InboxSaas.Product

/-- `process.env` -/
abbrev Environment : Type := String → Option JsString

/-- What is read of a `URL`. -/
structure Url where
  protocol : JsString
  username : JsString
  password : JsString

/-- `new URL(value)`, which throws where there is none. -/
abbrev NewUrl : Type := JsString → Option Url

structure TenantValidationWorkerConfig where
  databaseUrl : JsString
  credentialKey : Bytes
  credentialKeyVersion : JsString
  provisionerBaseUrl : JsString
  provisionerSigningSecret : Bytes
  provisionerTransportEncryptionKey : Bytes
  deriving DecidableEq

structure FakeTenantValidationWorkerConfig where
  databaseUrl : JsString
  credentialKey : Bytes
  credentialKeyVersion : JsString
  microsoftTenantId : JsString
  deriving DecidableEq

/-! ## The worker -/

def requiredValue (environment : Environment) (name : String) : Except JsError JsString :=
  match environment name with
  | some value =>
      if trim value = [] then .error (.new (name ++ " must be configured")) else .ok value
  | none => .error (.new (name ++ " must be configured"))

def parseDatabaseUrl (newUrl : NewUrl) (value : JsString) : Except JsError JsString :=
  match newUrl value with
  | some url =>
      if url.protocol ≠ js "postgres:" ∧ url.protocol ≠ js "postgresql:" then
        .error (.new "DATABASE_URL must be a valid PostgreSQL URL")
      else .ok value
  | none => .error (.new "DATABASE_URL must be a valid PostgreSQL URL")

def parseProvisionerBaseUrl (newUrl : NewUrl) (value : JsString) : Except JsError JsString :=
  match newUrl value with
  | some url =>
      if (url.protocol ≠ js "http:" ∧ url.protocol ≠ js "https:") ∨ url.username ≠ [] ∨
          url.password ≠ [] then
        .error
          (.new "PROVISIONER_BASE_URL must be a valid HTTP or HTTPS URL without credentials")
      else .ok value
  | none =>
      .error (.new "PROVISIONER_BASE_URL must be a valid HTTP or HTTPS URL without credentials")

/-- The text for a credential key that is refused. -/
def credentialKeyError : String :=
  "TENANT_CREDENTIAL_ENCRYPTION_KEY must be a base64-encoded 32-byte key and " ++
    "TENANT_CREDENTIAL_ENCRYPTION_KEY_VERSION must be non-empty"

def parseTenantValidationWorkerConfig (newUrl : NewUrl) (environment : Environment) :
    Except JsError TenantValidationWorkerConfig := do
  let databaseUrl ← parseDatabaseUrl newUrl (← requiredValue environment "DATABASE_URL")
  let encodedKey ← requiredValue environment "TENANT_CREDENTIAL_ENCRYPTION_KEY"
  let credentialKeyVersion ← requiredValue environment "TENANT_CREDENTIAL_ENCRYPTION_KEY_VERSION"
  let provisionerBaseUrl ←
    parseProvisionerBaseUrl newUrl (← requiredValue environment "PROVISIONER_BASE_URL")
  let provisionerSigningSecret ←
    parseBase64Key (← requiredValue environment "INBOX_PROVISIONER_SIGNING_SECRET")
      "INBOX_PROVISIONER_SIGNING_SECRET must be a base64-encoded 32-byte key"
  let provisionerTransportEncryptionKey ←
    parseBase64Key (← requiredValue environment "INBOX_PROVISIONER_TRANSPORT_ENCRYPTION_KEY")
      "INBOX_PROVISIONER_TRANSPORT_ENCRYPTION_KEY must be a base64-encoded 32-byte key"
  let credentialKey ← parseBase64Key encodedKey credentialKeyError
  return {
    databaseUrl
    credentialKey
    credentialKeyVersion
    provisionerBaseUrl
    provisionerSigningSecret
    provisionerTransportEncryptionKey }

def parseFakeTenantValidationWorkerConfig (newUrl : NewUrl) (environment : Environment) :
    Except JsError FakeTenantValidationWorkerConfig := do
  if environment "NODE_ENV" = some (js "production") then
    throw (.new "The fake tenant-validation worker cannot run in production")
  else if environment "TENANT_VALIDATION_PROVISIONER" ≠ some (js "fake") then
    throw (.new "TENANT_VALIDATION_PROVISIONER must be set to fake")
  else
    let databaseUrl ← parseDatabaseUrl newUrl (← requiredValue environment "DATABASE_URL")
    let encodedKey ← requiredValue environment "TENANT_CREDENTIAL_ENCRYPTION_KEY"
    let credentialKeyVersion ← requiredValue environment "TENANT_CREDENTIAL_ENCRYPTION_KEY_VERSION"
    let microsoftTenantId ← requiredValue environment "FAKE_MICROSOFT_TENANT_ID"
    let credentialKey ← parseBase64Key encodedKey credentialKeyError
    return { databaseUrl, credentialKey, credentialKeyVersion, microsoftTenantId }

/-! ## The server -/

/-- The cipher of the server; the empty string counts as no value. -/
def createRuntimeCredentialCipher (platform : Platform) (environment : Environment) :
    Except JsError TenantCredentialCipher :=
  let encodedKey := (environment "TENANT_CREDENTIAL_ENCRYPTION_KEY").getD []
  let keyVersion := (environment "TENANT_CREDENTIAL_ENCRYPTION_KEY_VERSION").getD []
  if encodedKey = [] ∨ keyVersion = [] then
    .error (.new ("TENANT_CREDENTIAL_ENCRYPTION_KEY and " ++
      "TENANT_CREDENTIAL_ENCRYPTION_KEY_VERSION must be configured"))
  else if !isBase64 encodedKey then .error (.new credentialKeyError)
  else
    match createTenantCredentialCipher platform (bufferFromBase64 encodedKey) keyVersion with
    | .ok cipher => .ok cipher
    | .error _ => .error (.new credentialKeyError)

/-! ## One variable at a time -/

/-- The variables that the worker reads. -/
inductive Variable where
  | databaseUrl
  | credentialKey
  | credentialKeyVersion
  | provisionerBaseUrl
  | provisionerSigningSecret
  | provisionerTransportEncryptionKey
  deriving DecidableEq

namespace Variable

def name : Variable → String
  | databaseUrl => "DATABASE_URL"
  | credentialKey => "TENANT_CREDENTIAL_ENCRYPTION_KEY"
  | credentialKeyVersion => "TENANT_CREDENTIAL_ENCRYPTION_KEY_VERSION"
  | provisionerBaseUrl => "PROVISIONER_BASE_URL"
  | provisionerSigningSecret => "INBOX_PROVISIONER_SIGNING_SECRET"
  | provisionerTransportEncryptionKey => "INBOX_PROVISIONER_TRANSPORT_ENCRYPTION_KEY"

/-- The value has the form that is asked for. -/
def Accepts (newUrl : NewUrl) (value : JsString) : Variable → Prop
  | databaseUrl => parseDatabaseUrl newUrl value = .ok value
  | credentialKey => ∃ key, parseBase64Key value credentialKeyError = .ok key
  | credentialKeyVersion => True
  | provisionerBaseUrl => parseProvisionerBaseUrl newUrl value = .ok value
  | provisionerSigningSecret => ∃ key, parseBase64Key value
      "INBOX_PROVISIONER_SIGNING_SECRET must be a base64-encoded 32-byte key" = .ok key
  | provisionerTransportEncryptionKey => ∃ key, parseBase64Key value
      "INBOX_PROVISIONER_TRANSPORT_ENCRYPTION_KEY must be a base64-encoded 32-byte key" = .ok key

def Fits (newUrl : NewUrl) (environment : Environment) (v : Variable) : Prop :=
  ∃ value, requiredValue environment v.name = .ok value ∧ v.Accepts newUrl value

/-- The error says what the variable must be. -/
def Named (v : Variable) (e : JsError) : Prop :=
  ∃ rest, e = .new (v.name ++ " must be " ++ rest)

end Variable

theorem requiredValue_eq_ok {environment : Environment} {name : String} {value : JsString} :
    requiredValue environment name = .ok value ↔
      environment name = some value ∧ trim value ≠ [] := by
  unfold requiredValue
  constructor
  · intro h
    split at h
    · rename_i found hfound
      split at h
      · cases h
      · rename_i hne
        cases h
        exact ⟨hfound, hne⟩
    · cases h
  · intro h
    have ⟨hfound, hne⟩ := h
    rw [hfound]
    exact if_neg hne

theorem requiredValue_error {environment : Environment} {name : String} {e : JsError}
    (h : requiredValue environment name = .error e) : e = .new (name ++ " must be configured") := by
  unfold requiredValue at h
  split at h
  · split at h
    · exact (Except.error.inj h).symm
    · cases h
  · exact (Except.error.inj h).symm

theorem parseDatabaseUrl_cases (newUrl : NewUrl) (value : JsString) :
    parseDatabaseUrl newUrl value = .ok value ∨ parseDatabaseUrl newUrl value =
      .error (.new ("DATABASE_URL" ++ " must be " ++ "a valid PostgreSQL URL")) := by
  unfold parseDatabaseUrl
  split
  · split
    · exact .inr (by decide)
    · exact .inl rfl
  · exact .inr (by decide)

theorem parseProvisionerBaseUrl_cases (newUrl : NewUrl) (value : JsString) :
    parseProvisionerBaseUrl newUrl value = .ok value ∨ parseProvisionerBaseUrl newUrl value =
      .error (.new ("PROVISIONER_BASE_URL" ++ " must be " ++
        "a valid HTTP or HTTPS URL without credentials")) := by
  unfold parseProvisionerBaseUrl
  split
  · split
    · exact .inr (by decide)
    · exact .inl rfl
  · exact .inr (by decide)

theorem parseBase64Key_error {encodedValue : JsString} {errorMessage : String} {e : JsError}
    (h : parseBase64Key encodedValue errorMessage = .error e) : e = .new errorMessage := by
  unfold parseBase64Key at h
  split at h
  · exact (Except.error.inj h).symm
  · dsimp only at h
    split at h
    · exact (Except.error.inj h).symm
    · cases h

section

variable {newUrl : NewUrl} {environment environment' : Environment} {e : JsError}

namespace Variable

/-- Only the variable itself matters. -/
theorem Fits.congr {v : Variable} (h : v.Fits newUrl environment)
    (hsame : environment' v.name = environment v.name) : v.Fits newUrl environment' := by
  have ⟨value, hvalue, haccepts⟩ := h
  rw [requiredValue_eq_ok, ← hsame, ← requiredValue_eq_ok] at hvalue
  exact ⟨value, hvalue, haccepts⟩

/-- The variable is to blame for the error. -/
def Blamed (newUrl : NewUrl) (environment : Environment) (e : JsError) (v : Variable) : Prop :=
  v.Named e ∧ ¬ v.Fits newUrl environment

theorem blamed_missing (v : Variable) (h : requiredValue environment v.name = .error e) :
    v.Blamed newUrl environment e := by
  constructor
  · refine ⟨"configured", (requiredValue_error h).trans ?_⟩
    cases v <;> decide
  · intro hfits
    have ⟨value, hvalue, _⟩ := hfits
    cases hvalue.symm.trans h

theorem blamed_refused (v : Variable) {value : JsString}
    (hvalue : requiredValue environment v.name = .ok value) (hnamed : v.Named e)
    (hnot : ¬ v.Accepts newUrl value) : v.Blamed newUrl environment e := by
  refine ⟨hnamed, fun hfits => ?_⟩
  have ⟨value', hvalue', haccepts⟩ := hfits
  cases hvalue.symm.trans hvalue'
  exact hnot haccepts

end Variable

open Variable in
/-- An error is the fault of one variable, which it names. -/
theorem parseTenantValidationWorkerConfig_error
    (h : parseTenantValidationWorkerConfig newUrl environment = .error e) :
    ∃ v : Variable, v.Blamed newUrl environment e := by
  unfold parseTenantValidationWorkerConfig at h
  rcases bind_eq_error.mp h with h | ⟨databaseUrl, hdatabaseUrl, h⟩
  · exact ⟨.databaseUrl, blamed_missing _ h⟩
  rcases bind_eq_error.mp h with h | ⟨_, _, h⟩
  · rcases parseDatabaseUrl_cases newUrl databaseUrl with hok | herror
    · cases hok.symm.trans h
    · cases herror.symm.trans h
      exact ⟨.databaseUrl, blamed_refused _ hdatabaseUrl ⟨_, rfl⟩ fun hok => by
        cases hok.symm.trans h⟩
  rcases bind_eq_error.mp h with h | ⟨encodedKey, hencodedKey, h⟩
  · exact ⟨.credentialKey, blamed_missing _ h⟩
  rcases bind_eq_error.mp h with h | ⟨_, _, h⟩
  · exact ⟨.credentialKeyVersion, blamed_missing _ h⟩
  rcases bind_eq_error.mp h with h | ⟨baseUrl, hbaseUrl, h⟩
  · exact ⟨.provisionerBaseUrl, blamed_missing _ h⟩
  rcases bind_eq_error.mp h with h | ⟨_, _, h⟩
  · rcases parseProvisionerBaseUrl_cases newUrl baseUrl with hok | herror
    · cases hok.symm.trans h
    · cases herror.symm.trans h
      exact ⟨.provisionerBaseUrl, blamed_refused _ hbaseUrl ⟨_, rfl⟩ fun hok => by
        cases hok.symm.trans h⟩
  rcases bind_eq_error.mp h with h | ⟨secret, hsecret, h⟩
  · exact ⟨.provisionerSigningSecret, blamed_missing _ h⟩
  rcases bind_eq_error.mp h with h | ⟨_, _, h⟩
  · exact ⟨.provisionerSigningSecret, blamed_refused _ hsecret
      ⟨"a base64-encoded 32-byte key", (parseBase64Key_error h).trans (by decide)⟩ fun hok => by
        have ⟨_, hok⟩ := hok
        cases hok.symm.trans h⟩
  rcases bind_eq_error.mp h with h | ⟨key, hkey, h⟩
  · exact ⟨.provisionerTransportEncryptionKey, blamed_missing _ h⟩
  rcases bind_eq_error.mp h with h | ⟨_, _, h⟩
  · exact ⟨.provisionerTransportEncryptionKey, blamed_refused _ hkey
      ⟨"a base64-encoded 32-byte key", (parseBase64Key_error h).trans (by decide)⟩ fun hok => by
        have ⟨_, hok⟩ := hok
        cases hok.symm.trans h⟩
  rcases bind_eq_error.mp h with h | ⟨_, _, h⟩
  · exact ⟨.credentialKey, blamed_refused _ hencodedKey
      ⟨"a base64-encoded 32-byte key and " ++
        "TENANT_CREDENTIAL_ENCRYPTION_KEY_VERSION must be non-empty",
        (parseBase64Key_error h).trans (by decide)⟩ fun hok => by
        have ⟨_, hok⟩ := hok
        cases hok.symm.trans h⟩
  · cases h

/-- The key and the key version that the environment holds. -/
structure HoldsCredentialKey (environment : Environment) (key : Bytes) (keyVersion : JsString) :
    Prop where
  encoded : ∃ encodedKey, requiredValue environment "TENANT_CREDENTIAL_ENCRYPTION_KEY" =
    .ok encodedKey ∧ parseBase64Key encodedKey credentialKeyError = .ok key
  version : requiredValue environment "TENANT_CREDENTIAL_ENCRYPTION_KEY_VERSION" = .ok keyVersion

theorem HoldsCredentialKey.congr {key : Bytes} {keyVersion : JsString}
    (h : HoldsCredentialKey environment key keyVersion)
    (hkey : environment' "TENANT_CREDENTIAL_ENCRYPTION_KEY" =
      environment "TENANT_CREDENTIAL_ENCRYPTION_KEY")
    (hversion : environment' "TENANT_CREDENTIAL_ENCRYPTION_KEY_VERSION" =
      environment "TENANT_CREDENTIAL_ENCRYPTION_KEY_VERSION") :
    HoldsCredentialKey environment' key keyVersion := by
  have ⟨encodedKey, hencoded, hparse⟩ := h.encoded
  rw [requiredValue_eq_ok, ← hkey, ← requiredValue_eq_ok] at hencoded
  have hkeyVersion := h.version
  rw [requiredValue_eq_ok, ← hversion, ← requiredValue_eq_ok] at hkeyVersion
  exact ⟨⟨encodedKey, hencoded, hparse⟩, hkeyVersion⟩

/-- A worker that starts has every variable it asks for. -/
theorem parseTenantValidationWorkerConfig_ok {config : TenantValidationWorkerConfig}
    (h : parseTenantValidationWorkerConfig newUrl environment = .ok config) :
    (∀ v : Variable, v.Fits newUrl environment) ∧
      HoldsCredentialKey environment config.credentialKey config.credentialKeyVersion := by
  unfold parseTenantValidationWorkerConfig at h
  have ⟨databaseUrl, hdatabaseUrl, h⟩ := bind_eq_ok.mp h
  have ⟨databaseUrl', hpostgres, h⟩ := bind_eq_ok.mp h
  have ⟨encodedKey, hencodedKey, h⟩ := bind_eq_ok.mp h
  have ⟨keyVersion, hkeyVersion, h⟩ := bind_eq_ok.mp h
  have ⟨baseUrl, hbaseUrl, h⟩ := bind_eq_ok.mp h
  have ⟨baseUrl', hhttp, h⟩ := bind_eq_ok.mp h
  have ⟨encodedSecret, hencodedSecret, h⟩ := bind_eq_ok.mp h
  have ⟨secret, hsecret, h⟩ := bind_eq_ok.mp h
  have ⟨encodedTransportKey, hencodedTransportKey, h⟩ := bind_eq_ok.mp h
  have ⟨transportKey, htransportKey, h⟩ := bind_eq_ok.mp h
  have ⟨key, hkey, h⟩ := bind_eq_ok.mp h
  cases h
  constructor
  · intro v
    cases v with
    | databaseUrl =>
        rcases parseDatabaseUrl_cases newUrl databaseUrl with hok | herror
        · exact ⟨databaseUrl, hdatabaseUrl, hok⟩
        · cases hpostgres.symm.trans herror
    | credentialKey => exact ⟨encodedKey, hencodedKey, key, hkey⟩
    | credentialKeyVersion => exact ⟨keyVersion, hkeyVersion, trivial⟩
    | provisionerBaseUrl =>
        rcases parseProvisionerBaseUrl_cases newUrl baseUrl with hok | herror
        · exact ⟨baseUrl, hbaseUrl, hok⟩
        · cases hhttp.symm.trans herror
    | provisionerSigningSecret => exact ⟨encodedSecret, hencodedSecret, secret, hsecret⟩
    | provisionerTransportEncryptionKey =>
        exact ⟨encodedTransportKey, hencodedTransportKey, transportKey, htransportKey⟩
  · exact ⟨⟨encodedKey, hencodedKey, hkey⟩, hkeyVersion⟩

theorem parseFakeTenantValidationWorkerConfig_ok {config : FakeTenantValidationWorkerConfig}
    (h : parseFakeTenantValidationWorkerConfig newUrl environment = .ok config) :
    environment "NODE_ENV" ≠ some (js "production") ∧
      HoldsCredentialKey environment config.credentialKey config.credentialKeyVersion := by
  unfold parseFakeTenantValidationWorkerConfig at h
  split at h
  · cases h
  · rename_i hproduction
    split at h
    · cases h
    · have ⟨_, _, h⟩ := bind_eq_ok.mp h
      have ⟨_, _, h⟩ := bind_eq_ok.mp h
      have ⟨encodedKey, hencodedKey, h⟩ := bind_eq_ok.mp h
      have ⟨keyVersion, hkeyVersion, h⟩ := bind_eq_ok.mp h
      have ⟨_, _, h⟩ := bind_eq_ok.mp h
      have ⟨key, hkey, h⟩ := bind_eq_ok.mp h
      cases h
      exact ⟨hproduction, ⟨encodedKey, hencodedKey, hkey⟩, hkeyVersion⟩

/-! ## The cipher of either side -/

theorem createTenantCredentialCipher_isOk (platform : Platform) {key : Bytes}
    {keyVersion : JsString} (hkey : key.length = 32) (hversion : trim keyVersion ≠ []) :
    ∃ cipher, createTenantCredentialCipher platform key keyVersion = .ok cipher := by
  cases h : createTenantCredentialCipher platform key keyVersion with
  | ok cipher => exact ⟨cipher, rfl⟩
  | error e =>
      unfold createTenantCredentialCipher at h
      rcases bind_eq_error.mp h with h | ⟨_, _, h⟩
      · unfold validateKey at h
        rw [if_neg (not_not.mpr hkey)] at h
        cases h
      · rw [if_neg hversion] at h
        cases h

theorem createTenantCredentialCipher_ok {platform : Platform} {key : Bytes} {keyVersion : JsString}
    {cipher : TenantCredentialCipher}
    (h : createTenantCredentialCipher platform key keyVersion = .ok cipher) :
    key.length = 32 ∧ trim keyVersion ≠ [] := by
  unfold createTenantCredentialCipher at h
  have ⟨cipherKey, hkey, h⟩ := bind_eq_ok.mp h
  split at h
  · cases h
  · rename_i hversion
    unfold validateKey at hkey
    split at hkey
    · cases hkey
    · rename_i hlength
      exact ⟨not_not.mp hlength, hversion⟩

theorem parseBase64Key_ok {encodedValue : JsString} {errorMessage : String} {key : Bytes}
    (h : parseBase64Key encodedValue errorMessage = .ok key) :
    isBase64 encodedValue = true ∧ bufferFromBase64 encodedValue = key ∧ key.length = 32 := by
  unfold parseBase64Key at h
  split at h
  · cases h
  · rename_i hbase64
    dsimp only at h
    split at h
    · cases h
    · rename_i hlength
      cases h
      exact ⟨by simpa using hbase64, rfl, not_not.mp hlength⟩

theorem trim_nil : trim [] = [] := rfl

/-- Base 64 has no white space that could be trimmed away. -/
theorem trim_of_isBase64 {text : JsString} (h : isBase64 text = true) : trim text ≠ [] := by
  unfold isBase64 at h
  rw [Bool.and_eq_true, decide_eq_true_iff] at h
  cases text with
  | nil => exact absurd rfl h.1
  | cons unit rest =>
      have hunit : isBase64Unit unit = true := by
        by_contra hnot
        rw [List.takeWhile_cons_of_neg hnot] at h
        exact h.1 rfl
      have hspace : isWhiteSpace unit = false := by
        have hlt := lt_of_isBase64Unit hunit
        have hall : ∀ n < 128, isBase64Unit (UInt16.ofNat n) = true →
            isWhiteSpace (UInt16.ofNat n) = false := by decide +kernel
        have hchar := hall unit.toNat hlt
        rw [UInt16.ofNat_toNat] at hchar
        exact hchar hunit
      intro htrim
      unfold trim at htrim
      rw [List.dropWhile_cons_of_neg (by rw [hspace]; decide), List.reverse_eq_nil_iff,
        List.dropWhile_eq_nil_iff] at htrim
      have hme := htrim unit (List.mem_reverse.mpr List.mem_cons_self)
      rw [hspace] at hme
      cases hme

/-- The server starts with the cipher that a worker makes of the same variables. -/
theorem HoldsCredentialKey.cipher {key : Bytes} {keyVersion : JsString}
    (h : HoldsCredentialKey environment key keyVersion) (platform : Platform) :
    ∃ cipher, createTenantCredentialCipher platform key keyVersion = .ok cipher ∧
      createRuntimeCredentialCipher platform environment = .ok cipher := by
  have ⟨encodedKey, hencoded, hkey⟩ := h.encoded
  have ⟨hfound, hne⟩ := requiredValue_eq_ok.mp hencoded
  have ⟨hversion, hversionNe⟩ := requiredValue_eq_ok.mp h.version
  have ⟨hbase64, hbuffer, hlength⟩ := parseBase64Key_ok hkey
  have ⟨cipher, hcipher⟩ := createTenantCredentialCipher_isOk platform hlength hversionNe
  refine ⟨cipher, hcipher, ?_⟩
  have hnotEmpty : ¬ (encodedKey = [] ∨ keyVersion = []) := by
    intro hempty
    rcases hempty with he | he
    · exact hne (he ▸ trim_nil)
    · exact hversionNe (he ▸ trim_nil)
  unfold createRuntimeCredentialCipher
  rw [hfound, hversion]
  dsimp only [Option.getD_some]
  rw [if_neg hnotEmpty, hbase64, hbuffer, hcipher]
  rfl

theorem createRuntimeCredentialCipher_ok {platform : Platform} {cipher : TenantCredentialCipher}
    (h : createRuntimeCredentialCipher platform environment = .ok cipher) :
    ∃ key keyVersion, HoldsCredentialKey environment key keyVersion := by
  have hfound : ∀ name value, (environment name).getD [] = value → value ≠ [] →
      environment name = some value := by
    intro name value hvalue hne
    cases henvironment : environment name with
    | none =>
        rw [henvironment] at hvalue
        exact absurd hvalue.symm hne
    | some found =>
        rw [henvironment] at hvalue
        exact congrArg some hvalue
  unfold createRuntimeCredentialCipher at h
  generalize hkey : (environment "TENANT_CREDENTIAL_ENCRYPTION_KEY").getD [] = encodedKey at h
  generalize hversion :
    (environment "TENANT_CREDENTIAL_ENCRYPTION_KEY_VERSION").getD [] = keyVersion at h
  dsimp only at h
  split at h
  · cases h
  · rename_i hnotEmpty
    have ⟨hkeyNe, hversionNe⟩ := not_or.mp hnotEmpty
    split at h
    · cases h
    · rename_i hnot
      have hbase64 : isBase64 encodedKey = true := by simpa using hnot
      split at h
      · rename_i hcipher
        have ⟨hlength, htrim⟩ := createTenantCredentialCipher_ok hcipher
        refine ⟨bufferFromBase64 encodedKey, keyVersion, ⟨encodedKey, ?_, ?_⟩, ?_⟩
        · exact requiredValue_eq_ok.mpr ⟨hfound _ _ hkey hkeyNe, trim_of_isBase64 hbase64⟩
        · unfold parseBase64Key
          rw [hbase64]
          exact if_neg (not_not.mpr hlength)
        · exact requiredValue_eq_ok.mpr ⟨hfound _ _ hversion hversionNe, htrim⟩
      · cases h

/-- A server and a worker that have the same credential key and key version.  If the worker starts,
or the fake one does, then so does the server, with the cipher that the worker makes.  If the worker
does not start, its error names a variable that has to change before it does, and this is not the
key or its version where the server starts. -/
theorem started_alike (platform : Platform) (newUrl : NewUrl) {server worker : Environment}
    (hkey : server "TENANT_CREDENTIAL_ENCRYPTION_KEY" = worker "TENANT_CREDENTIAL_ENCRYPTION_KEY")
    (hversion : server "TENANT_CREDENTIAL_ENCRYPTION_KEY_VERSION" =
      worker "TENANT_CREDENTIAL_ENCRYPTION_KEY_VERSION") :
    (∀ config, parseTenantValidationWorkerConfig newUrl worker = .ok config → ∃ cipher,
      createTenantCredentialCipher platform config.credentialKey config.credentialKeyVersion =
        .ok cipher ∧ createRuntimeCredentialCipher platform server = .ok cipher) ∧
    (∀ config, parseFakeTenantValidationWorkerConfig newUrl worker = .ok config →
      worker "NODE_ENV" ≠ some (js "production") ∧ ∃ cipher,
        createTenantCredentialCipher platform config.credentialKey config.credentialKeyVersion =
          .ok cipher ∧ createRuntimeCredentialCipher platform server = .ok cipher) ∧
    ∀ e, parseTenantValidationWorkerConfig newUrl worker = .error e → ∃ v : Variable, v.Named e ∧
      (∀ environment : Environment, environment v.name = worker v.name →
        ∀ config, parseTenantValidationWorkerConfig newUrl environment ≠ .ok config) ∧
      ∀ cipher, createRuntimeCredentialCipher platform server = .ok cipher →
        v ≠ .credentialKey ∧ v ≠ .credentialKeyVersion := by
  refine ⟨fun config h => ?_, fun config h => ?_, fun e h => ?_⟩
  · have ⟨_, hholds⟩ := parseTenantValidationWorkerConfig_ok h
    exact (hholds.congr hkey hversion).cipher platform
  · have ⟨hproduction, hholds⟩ := parseFakeTenantValidationWorkerConfig_ok h
    exact ⟨hproduction, (hholds.congr hkey hversion).cipher platform⟩
  -- the error names the check that failed, which a configuration that parses passes
  · have ⟨v, hnamed, hnot⟩ := parseTenantValidationWorkerConfig_error h
    refine ⟨v, hnamed, fun environment hsame config hok => ?_, fun cipher hcipher => ?_⟩
    · exact hnot (((parseTenantValidationWorkerConfig_ok hok).1 v).congr hsame.symm)
    · have ⟨key, keyVersion, hserver⟩ := createRuntimeCredentialCipher_ok hcipher
      have hworker := hserver.congr hkey.symm hversion.symm
      have ⟨encodedKey, hencoded, hparse⟩ := hworker.encoded
      constructor
      · intro hv
        subst hv
        exact hnot ⟨encodedKey, hencoded, key, hparse⟩
      · intro hv
        subst hv
        exact hnot ⟨keyVersion, hworker.version, trivial⟩

end

namespace Sample

/-- The protocol of a URL without credentials. -/
def newUrl : NewUrl := fun value => some ⟨value.takeWhile (· ≠ 58) ++ [58], [], []⟩

/-- A complete environment; both keys are the bytes from 0 to 31. -/
def environment : Environment
  | "DATABASE_URL" => some (js "postgres://localhost/inbox")
  | "TENANT_CREDENTIAL_ENCRYPTION_KEY" => some (js "AAECAwQFBgcICQoLDA0ODxAREhMUFRYXGBkaGxwdHh8=")
  | "TENANT_CREDENTIAL_ENCRYPTION_KEY_VERSION" => some (js "v1")
  | "PROVISIONER_BASE_URL" => some (js "http://localhost:8000")
  | "INBOX_PROVISIONER_SIGNING_SECRET" => some (js "AAECAwQFBgcICQoLDA0ODxAREhMUFRYXGBkaGxwdHh8=")
  | "INBOX_PROVISIONER_TRANSPORT_ENCRYPTION_KEY" =>
      some (js "AAECAwQFBgcICQoLDA0ODxAREhMUFRYXGBkaGxwdHh8=")
  | _ => none

/-- The same without the URL of the provisioner. -/
def unreachable : Environment := fun name =>
  if name = "PROVISIONER_BASE_URL" then none else environment name

end Sample

open Sample SealedSample in
/-- The server starts in both environments, the worker only in the first. -/
theorem started_alike_sample :
    (∃ config cipher, parseTenantValidationWorkerConfig newUrl environment = .ok config ∧
      createTenantCredentialCipher platform config.credentialKey config.credentialKeyVersion =
        .ok cipher ∧ createRuntimeCredentialCipher platform environment = .ok cipher) ∧
    ∃ v : Variable, v.Named (.new "PROVISIONER_BASE_URL must be configured") ∧
      ∀ environment : Environment, environment v.name = unreachable v.name →
        ∀ config, parseTenantValidationWorkerConfig newUrl environment ≠ .ok config := by
  constructor
  · cases hconfig : parseTenantValidationWorkerConfig newUrl environment with
    | ok config =>
        have ⟨cipher, hcipher⟩ := (started_alike platform newUrl rfl rfl).1 config hconfig
        exact ⟨config, cipher, rfl, hcipher⟩
    | error e =>
        have hok : (parseTenantValidationWorkerConfig newUrl environment).toOption.isSome := by
          decide +kernel
        rw [hconfig] at hok
        cases hok
  · have herror : parseTenantValidationWorkerConfig newUrl unreachable =
        .error (.new "PROVISIONER_BASE_URL must be configured") := by decide +kernel
    have hkey : environment "TENANT_CREDENTIAL_ENCRYPTION_KEY" =
      unreachable "TENANT_CREDENTIAL_ENCRYPTION_KEY" := by decide +kernel
    have hversion : environment "TENANT_CREDENTIAL_ENCRYPTION_KEY_VERSION" =
      unreachable "TENANT_CREDENTIAL_ENCRYPTION_KEY_VERSION" := by decide +kernel
    have ⟨v, hnamed, hblamed, _⟩ := (started_alike platform newUrl hkey hversion).2.2 _ herror
    exact ⟨v, hnamed, hblamed⟩

end InboxSaas.Worker
