import InboxSaas.Api.V1
import InboxSaas.Product.Idempotency

/-!
# What the fingerprint of a payload identifies

Two requests have the same fingerprint exactly when their workspace ids are spelled the same and
their credentials agree after unpaired surrogates are replaced (`fingerprint_eq_iff`).  That is not
quite having the same payload: the id is matched with a row whatever the case of its letters, and
credentials can differ in the surrogates alone.  `payload_identity` is the exact condition.
-/

namespace InboxSaas.Api

open InboxSaas.Product Reasoning

/-! ## Fingerprints -/

theorem hexDigit?_lt {unit : UInt16} (h : (hexDigit? unit).isSome = true) :
    unit.toNat < 0xD800 := by
  unfold hexDigit? at h
  split at h
  · rename_i hdigit
    have hle : unit.toNat ≤ 57 := hdigit.2
    omega
  split at h
  · rename_i hlower
    have hle : unit.toNat ≤ 102 := hlower.2
    omega
  split at h
  · rename_i hupper
    have hle : unit.toNat ≤ 70 := hupper.2
    omega
  · cases h

/-- A path parameter that passes the check has no surrogates. -/
theorem toWellFormed_of_isUuid {value : JsString} (h : isUuid value = true) :
    Encoding.toWellFormed value = value := by
  apply Encoding.toWellFormed_of_isWellFormed
  apply Encoding.isWellFormed_of_lt
  intro unit hunit
  rw [isUuid, Bool.and_eq_true, List.all_eq_true] at h
  obtain ⟨i, hi, rfl⟩ := List.mem_iff_getElem.mp hunit
  have hcheck := h.2 (value[i], i) (by
    rw [List.mem_iff_getElem]
    exact ⟨i, by simpa using hi, by simp⟩)
  dsimp only at hcheck
  split at hcheck
  · have h45 : value[i] = 45 := by simpa using hcheck
    rw [h45]
    decide
  · exact hexDigit?_lt hcheck

/-- Requests with the same fingerprint: what is hashed is the UTF-8 text of each field. -/
theorem fingerprint_eq_iff {platform : Platform} {key : Bytes}
    (hmac : Function.Injective (platform.hmacSha256 key)) {input input' : StartTenantValidationInput}
    (huuid : isUuid input.workspaceId = true) (huuid' : isUuid input'.workspaceId = true)
    {fingerprint fingerprint' : JsString}
    (hf : fingerprintTenantValidationPayload platform key
      ⟨input.credentials, input.workspaceId, .tenantValidation⟩ = .ok fingerprint)
    (hf' : fingerprintTenantValidationPayload platform key
      ⟨input'.credentials, input'.workspaceId, .tenantValidation⟩ = .ok fingerprint') :
    fingerprint = fingerprint' ↔ input.workspaceId = input'.workspaceId ∧
      Encoding.toWellFormed input.credentials.email =
        Encoding.toWellFormed input'.credentials.email ∧
      Encoding.toWellFormed input.credentials.password =
        Encoding.toWellFormed input'.credentials.password := by
  obtain ⟨hlt, hhash⟩ := fingerprint_ok hf
  obtain ⟨hlt', hhash'⟩ := fingerprint_ok hf'
  rw [hhash, hhash', hexText_injective.eq_iff, hmac.eq_iff, List.append_cancel_left_eq]
  constructor
  · intro h
    have hfields := Encoding.fields_injective hlt hlt' h
    simp only [payloadFields, List.cons.injEq, Encoding.utf8_eq_iff, and_true, true_and] at hfields
    rw [toWellFormed_of_isUuid huuid, toWellFormed_of_isUuid huuid'] at hfields
    exact hfields
  · rintro ⟨hid, hemail, hpassword⟩
    have hfields : payloadFields ⟨input.credentials, input.workspaceId, .tenantValidation⟩ =
        payloadFields ⟨input'.credentials, input'.workspaceId, .tenantValidation⟩ := by
      simp only [payloadFields, hid, Encoding.utf8_eq_iff.mpr hemail,
        Encoding.utf8_eq_iff.mpr hpassword]
    rw [hfields]

/-! ## Payloads -/

/-- The handler accepts the request and `startTenantValidation` brings it to its transaction. -/
structure Processed (db : Store) (cipher : TenantCredentialCipher) (grant : AccessGrant)
    (request : PostTenantConnectionRequest) (draws : StartDraws)
    (input : StartTenantValidationInput) (workspace : Workspace) (fingerprint : JsString) :
    Prop where
  accepted : accepted request = some input
  admits : ∃ encryptedCredentials, Admits db [grant] input cipher draws workspace
    encryptedCredentials fingerprint

/-- The same workspace row, and the same credentials as JavaScript strings. -/
def SamePayload (workspace workspace' : Workspace) (credentials credentials' : TenantCredentials) :
    Prop :=
  workspace = workspace' ∧ credentials.email = credentials'.email ∧
    credentials.password = credentials'.password

/-- Equal payloads are spelled alike, and payloads that are hashed alike are equal. -/
structure Unambiguous (input input' : StartTenantValidationInput) : Prop where
  /-- The ids of one workspace, with equal credentials, have the same letter case. -/
  letterCase : uuidIn input.workspaceId = uuidIn input'.workspaceId →
    input.credentials = input'.credentials → input.workspaceId = input'.workspaceId
  /-- With one id, credentials that agree but for unpaired surrogates agree. -/
  surrogates : input.workspaceId = input'.workspaceId →
    Encoding.toWellFormed input.credentials.email =
      Encoding.toWellFormed input'.credentials.email →
    Encoding.toWellFormed input.credentials.password =
      Encoding.toWellFormed input'.credentials.password →
    input.credentials = input'.credentials

/-- What idempotency promises of two requests: their fingerprints tell whether the payload is the
same, and after the first one created a job, the second one under its key conflicts, whenever it is
made, exactly when the payload changed. -/
structure Identified (db : Store) (cipher : TenantCredentialCipher) (grant grant' : AccessGrant)
    (request' : PostTenantConnectionRequest) (draws draws' : StartDraws)
    (input input' : StartTenantValidationInput) (workspace workspace' : Workspace)
    (fingerprint fingerprint' : JsString) : Prop where
  fingerprints : fingerprint = fingerprint' ↔
    SamePayload workspace workspace' input.credentials input'.credentials
  repeats {db₁ db₂ : Store} {history : List Entry} {connection : TenantConnectionDto} {job : Job}
    (hcreated : (Call.start [grant] input cipher draws).run db =
      (.ok (.accepted connection job false), db₁))
    (hlater : Run db₁ history db₂)
    (horganization : workspace.organizationId = workspace'.organizationId)
    (hkey : input.idempotencyKey = input'.idempotencyKey) :
    (postgres.run (postTenantConnection grant' request' cipher draws') db₂ .idle).1 =
        .ok .idempotencyConflict ↔
      ¬ SamePayload workspace workspace' input.credentials input'.credentials

/-- Two ids find the same row when they are the same uuid. -/
theorem workspace_eq_iff {workspaces : Table Workspace} {id id' : JsString}
    {workspace workspace' : Workspace}
    (h : (uuidIn id).bind workspaces.find = some workspace)
    (h' : (uuidIn id').bind workspaces.find = some workspace') :
    workspace = workspace' ↔ uuidIn id = uuidIn id' := by
  rw [Option.bind_eq_some_iff] at h h'
  obtain ⟨uuid, hid, hfind⟩ := h
  obtain ⟨uuid', hid', hfind'⟩ := h'
  rw [hid, hid', Option.some.injEq]
  constructor
  · intro he
    rw [← Table.key_of_find hfind, ← Table.key_of_find hfind', he]
  · intro he
    rw [he] at hfind
    exact Option.some.inj (hfind.symm.trans hfind')

theorem respond_eq_conflict {key : JsString} {o : Except JsError StartTenantValidationResult} :
    o.map (respond key) = .ok .idempotencyConflict ↔ o = .ok .idempotencyConflict := by
  cases o with
  | error e => exact iff_of_false (fun h => by cases h) (fun h => by cases h)
  | ok result =>
      cases result with
      | notFound => exact iff_of_false (fun h => by cases h) (fun h => by cases h)
      | idempotencyConflict => exact iff_of_true rfl rfl
      | accepted => exact iff_of_false (fun h => by cases h) (fun h => by cases h)

/-- Without failures the handler answers with the result of the call. -/
theorem postTenantConnection_run {grant : AccessGrant} {request : PostTenantConnectionRequest}
    {cipher : TenantCredentialCipher} {draws : StartDraws} {input : StartTenantValidationInput}
    (h : accepted request = some input) (db : Store) :
    (postgres.run (postTenantConnection grant request cipher draws) db .idle).1 =
      ((Call.start [grant] input cipher draws).run db).1.map (respond input.idempotencyKey) := by
  unfold postTenantConnection
  rw [h]
  exact Engine.run_map postgres _ _ db .idle

/-- Calls leave the workspaces alone, so what is admitted once is admitted later. -/
theorem admits_later {db db' : Store} {grants : List AccessGrant}
    {input : StartTenantValidationInput} {cipher : TenantCredentialCipher} {draws : StartDraws}
    {workspace : Workspace} {encryptedCredentials : EncryptedTenantCredentials}
    {fingerprint : JsString}
    (h : Admits db grants input cipher draws workspace encryptedCredentials fingerprint)
    (hw : db'.workspaces = db.workspaces) :
    Admits db' grants input cipher draws workspace encryptedCredentials fingerprint where
  checked := h.checked
  found := by rw [hw]; exact h.found
  authorized := h.authorized
  encrypted := h.encrypted
  fingerprint := h.fingerprint

/-! ## Sample requests -/

namespace Sample

def workspace : Workspace := ⟨0x6f1f6e1c2b6a4c1e9d2f0a1b2c3d4e5f, 2⟩

def db : Store := .empty ⟨[workspace], by decide⟩

def grant : AccessGrant := ⟨2, .write, .organization⟩

def email : JsString := js "admin@contoso.com"

def request (workspaceId password : String) : PostTenantConnectionRequest where
  idempotencyKey := some (js "k1")
  contentType := some (js "application/json")
  workspaceId := js workspaceId
  body := some (.object [(js "credentials",
    .object [(js "email", .string email), (js "password", .string (js password))])])

def input (workspaceId password : String) : StartTenantValidationInput :=
  ⟨js workspaceId, js "k1", ⟨email, js password⟩⟩

def lowerId : String := "6f1f6e1c-2b6a-4c1e-9d2f-0a1b2c3d4e5f"

def upperId : String := "6F1F6E1C-2B6A-4C1E-9D2F-0A1B2C3D4E5F"

def draws (iv : UInt8) (id : Uuid) : StartDraws :=
  ⟨List.replicate 12 iv, id, id + 1, id + 2, id + 3, 0⟩

def key : Bytes := List.replicate 32 7

def message (workspaceId password : String) : Bytes :=
  Encoding.utf8 (js "inbox-saas:tenant-validation-payload:v1\x00") ++
    Encoding.fields (payloadFields ⟨(input workspaceId password).credentials, js workspaceId,
      .tenantValidation⟩)

/-- HMAC-SHA-256 of the sample messages under the sample key. -/
def digests : List (Bytes × Bytes) := [
  (message lowerId "correct horse",
    Encoding.bigEndian 32 0x3fb03be928e00a4811f0f5a404335c3bfbe79e40826f851c54fda02de8741c06),
  (message upperId "correct horse",
    Encoding.bigEndian 32 0x652933885ee69bd56a1ea3dc9ebac88d09519bab13e212a581448e989d335971),
  (message lowerId "battery staple",
    Encoding.bigEndian 32 0xce0da77a4ededbfec2fa10a8b1e95991cb5104ca062072a452080f29ed178449)]

/-- AES-256-GCM under the sample key, of the sample credentials by initialization vector. -/
def ciphertexts : List (Bytes × Bytes × Bytes) := [
  (List.replicate 12 1,
    Encoding.bigEndian 56 (0x0dc3ecdaf1d6802cebf6bd451d5e1e71cb947a8077e4543d3b5e2e40 <<< 224 +
      0x4a9646dab1c17fdfee77a7ba7c112779b31b8dedae7386702edbdd22),
    Encoding.bigEndian 16 0x546d5e45479f50c5bff07fd14d5da5c6),
  (List.replicate 12 2,
    Encoding.bigEndian 56 (0x61968c6a3a82d9052072e7d38feba23aa97c068e1fc5459aa5659e6b <<< 224 +
      0x36b3cb12f1a5e1ee419c1ea9e1d59e94e68ae35d921a6675fb924bcb),
    Encoding.bigEndian 16 0x6abab94091e4350917ca5e4bf3d4af03),
  (List.replicate 12 3,
    Encoding.bigEndian 57 (0x5edcc66e3b41326040622238863e914c8e538e9bdbe6fb5e4cb1ea93cf <<< 224 +
      0xc730d9c2d40a4de99f877aecea2a71f9ab953c075767a5f9ee585551),
    Encoding.bigEndian 16 0x867b8af8de5b83549843dead1d53c57b)]

/-- The platform on the sample messages; it is injective everywhere. -/
def platform : Platform where
  hmacSha256 _ message :=
    match digests.find? (fun entry => entry.1 = message) with
    | some entry => entry.2
    | none => message ++ List.replicate 33 0
  aes256GcmEncrypt _ iv _ plaintext :=
    match ciphertexts.find? (fun entry => entry.1 = iv) with
    | some entry => entry.2
    | none => (plaintext, List.replicate 16 0)
  aes256GcmDecrypt _ _ _ _ _ := none
  utf8Text _ := []

theorem digests_injective : ∀ entry ∈ digests, ∀ other ∈ digests, entry.2 = other.2 →
    entry.1 = other.1 := by decide +kernel

theorem digests_length : ∀ entry ∈ digests, entry.2.length = 32 := by decide +kernel

theorem hmacSha256_injective : Function.Injective (platform.hmacSha256 key) := by
  have hfound : ∀ {message : Bytes} {entry : Bytes × Bytes},
      digests.find? (fun entry => entry.1 = message) = some entry →
      entry ∈ digests ∧ entry.1 = message := by
    intro message entry hfind
    exact ⟨List.mem_of_find?_eq_some hfind, by simpa using List.find?_some hfind⟩
  intro m m' h
  simp only [platform] at h
  cases hm : digests.find? (fun entry => entry.1 = m) with
  | some entry =>
      cases hm' : digests.find? (fun entry => entry.1 = m') with
      | some other =>
          rw [hm, hm'] at h
          rw [← (hfound hm).2, ← (hfound hm').2]
          exact digests_injective entry (hfound hm).1 other (hfound hm').1 h
      | none =>
          rw [hm, hm'] at h
          have hlength := congrArg List.length h
          dsimp only at hlength
          rw [digests_length entry (hfound hm).1, List.length_append, List.length_replicate] at hlength
          omega
  | none =>
      cases hm' : digests.find? (fun entry => entry.1 = m') with
      | some other =>
          rw [hm, hm'] at h
          have hlength := congrArg List.length h
          dsimp only at hlength
          rw [digests_length other (hfound hm').1, List.length_append, List.length_replicate] at hlength
          omega
      | none =>
          rw [hm, hm'] at h
          exact List.append_cancel_right h

/-- The cipher of the sample key. -/
def cipher : TenantCredentialCipher :=
  (createTenantCredentialCipher platform key (js "v1")).toOption.getD InboxSaas.Product.Sample.cipher

theorem cipher_eq : createTenantCredentialCipher platform key (js "v1") = .ok cipher := rfl

def fingerprint (workspaceId password : String) : JsString :=
  hexText (platform.hmacSha256 key (message workspaceId password))

def encrypted (iv : UInt8) (password : String) : EncryptedTenantCredentials :=
  ((cipher.encrypt ⟨email, js password⟩ ⟨js lowerId, .tenantValidation⟩
    (List.replicate 12 iv)).toOption).getD ⟨[], [], [], []⟩

/-- The request that starts the validation. -/
theorem processed_first : Processed db cipher grant (request lowerId "correct horse") (draws 1 10)
    (input lowerId "correct horse") workspace (fingerprint lowerId "correct horse") where
  accepted := by decide +kernel
  admits := ⟨encrypted 1 "correct horse", by decide +kernel, by decide +kernel, by decide +kernel,
    by decide +kernel, by decide +kernel⟩

/-- The same request with the id in capitals. -/
theorem processed_capitals : Processed db cipher grant (request upperId "correct horse")
    (draws 2 20) (input upperId "correct horse") workspace
    (fingerprint upperId "correct horse") where
  accepted := by decide +kernel
  admits := ⟨encrypted 2 "correct horse", by decide +kernel, by decide +kernel, by decide +kernel,
    by decide +kernel, by decide +kernel⟩

/-- The same request with another password. -/
theorem processed_changed : Processed db cipher grant (request lowerId "battery staple")
    (draws 3 30) (input lowerId "battery staple") workspace
    (fingerprint lowerId "battery staple") where
  accepted := by decide +kernel
  admits := ⟨encrypted 3 "battery staple", by decide +kernel, by decide +kernel, by decide +kernel,
    by decide +kernel, by decide +kernel⟩

end Sample

/-! ## The condition -/

/-- Two requests of one cipher are identified by their fingerprints exactly when their payloads are
unambiguous. -/
theorem payload_identity {platform : Platform} {key : Bytes} {keyVersion : JsString}
    {cipher : TenantCredentialCipher}
    (hcipher : createTenantCredentialCipher platform key keyVersion = .ok cipher)
    (hmac : Function.Injective (platform.hmacSha256 key)) {db : Store} (hdb : Reachable db)
    {grant grant' : AccessGrant} {request request' : PostTenantConnectionRequest}
    {draws draws' : StartDraws} {input input' : StartTenantValidationInput}
    {workspace workspace' : Workspace} {fingerprint fingerprint' : JsString}
    (h : Processed db cipher grant request draws input workspace fingerprint)
    (h' : Processed db cipher grant' request' draws' input' workspace' fingerprint') :
    Identified db cipher grant grant' request' draws draws' input input' workspace workspace'
      fingerprint fingerprint' ↔ Unambiguous input input' := by
  obtain ⟨encryptedCredentials, hadmits⟩ := h.admits
  obtain ⟨encryptedCredentials', hadmits'⟩ := h'.admits
  have hf := hadmits.fingerprint
  have hf' := hadmits'.fingerprint
  rw [createTenantCredentialCipher_fingerprint hcipher] at hf hf'
  have hspelled := fingerprint_eq_iff hmac (accepted_eq_some h.accepted).2.1
    (accepted_eq_some h'.accepted).2.1 hf hf'
  have hrow := workspace_eq_iff hadmits.found hadmits'.found
  have hcredentials : input.credentials = input'.credentials ↔
      input.credentials.email = input'.credentials.email ∧
        input.credentials.password = input'.credentials.password := by
    cases input.credentials
    cases input'.credentials
    exact TenantCredentials.mk.injEq _ _ _ _ ▸ Iff.rfl
  constructor
  · intro hidentified
    have hiff := hidentified.fingerprints
    constructor
    · intro huuid hc
      have hsame := hcredentials.mp hc
      exact (hspelled.mp (hiff.mpr ⟨hrow.mpr huuid, hsame⟩)).1
    · intro hid hemail hpassword
      exact hcredentials.mpr (hiff.mp (hspelled.mpr ⟨hid, hemail, hpassword⟩)).2
  · intro hunambiguous
    have hiff : fingerprint = fingerprint' ↔
        SamePayload workspace workspace' input.credentials input'.credentials := by
      constructor
      · intro he
        obtain ⟨hid, hemail, hpassword⟩ := hspelled.mp he
        have hc := hunambiguous.surrogates hid hemail hpassword
        exact ⟨hrow.mpr (by rw [hid]), hcredentials.mp hc⟩
      · rintro ⟨hw, hemail, hpassword⟩
        have hid := hunambiguous.letterCase (hrow.mp hw) (hcredentials.mpr ⟨hemail, hpassword⟩)
        exact hspelled.mpr ⟨hid, by rw [hemail], by rw [hpassword]⟩
    refine ⟨hiff, ?_⟩
    intro db₁ db₂ history connection job hcreated hlater horganization hkey
    have hc := hdb.consistent
    -- the record of the first call is still there when the second one is made
    have hrecord := hadmits.created hc hcreated
    have hcall : Call.Runs (.start [grant] input cipher draws) db
        (.ok (.accepted connection job false)) db₁ := by
      have hruns := (Call.start [grant] input cipher draws).runs_run db
      rwa [hcreated] at hruns
    have hc₁ := hc.call hcall
    have hstored := hlater.record hc₁ hrecord
    have hw : db₂.workspaces = db.workspaces :=
      (hlater.workspaces hc₁).trans ((Run.single hcall).workspaces hc)
    rw [horganization, hkey] at hstored
    have hconflict := (admits_later hadmits' hw).conflict_iff (hlater.consistent hc₁) hstored
    rw [postTenantConnection_run h'.accepted, respond_eq_conflict, hconflict, ← hiff]
    rfl

/-- A request with another password is told apart. -/
theorem payload_identity_changed :
    Identified Sample.db Sample.cipher Sample.grant Sample.grant
      (Sample.request Sample.lowerId "battery staple") (Sample.draws 1 10) (Sample.draws 3 30)
      (Sample.input Sample.lowerId "correct horse") (Sample.input Sample.lowerId "battery staple")
      Sample.workspace Sample.workspace (Sample.fingerprint Sample.lowerId "correct horse")
      (Sample.fingerprint Sample.lowerId "battery staple") :=
  (payload_identity Sample.cipher_eq Sample.hmacSha256_injective (.empty _) Sample.processed_first
    Sample.processed_changed).mpr
    ⟨fun _ _ => rfl, fun _ _ h => absurd h (by decide +kernel)⟩

/-- The same workspace and credentials under the same key conflict when the id of the path is
written in capitals. -/
theorem letter_case_conflict :
    Processed Sample.db Sample.cipher Sample.grant (Sample.request Sample.lowerId "correct horse")
      (Sample.draws 1 10) (Sample.input Sample.lowerId "correct horse") Sample.workspace
      (Sample.fingerprint Sample.lowerId "correct horse") ∧
    Processed Sample.db Sample.cipher Sample.grant (Sample.request Sample.upperId "correct horse")
      (Sample.draws 2 20) (Sample.input Sample.upperId "correct horse") Sample.workspace
      (Sample.fingerprint Sample.upperId "correct horse") ∧
    SamePayload Sample.workspace Sample.workspace
      (Sample.input Sample.lowerId "correct horse").credentials
      (Sample.input Sample.upperId "correct horse").credentials ∧
    Sample.fingerprint Sample.lowerId "correct horse" ≠
      Sample.fingerprint Sample.upperId "correct horse" ∧
    (postgres.run (postTenantConnection Sample.grant
        (Sample.request Sample.upperId "correct horse") Sample.cipher (Sample.draws 2 20))
      ((Call.start [Sample.grant] (Sample.input Sample.lowerId "correct horse") Sample.cipher
        (Sample.draws 1 10)).run Sample.db).2 .idle).1 = .ok .idempotencyConflict :=
  ⟨Sample.processed_first, Sample.processed_capitals, ⟨rfl, rfl, rfl⟩, by decide +kernel,
    by decide +kernel⟩

end InboxSaas.Api
