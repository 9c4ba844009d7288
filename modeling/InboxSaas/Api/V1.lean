import InboxSaas.Product.Calls

/-!
# The public route that starts a tenant validation

`POST /workspaces/:workspaceId/tenant-connections`, after the API key of the caller was resolved to
its grant.  A request holds what the handler reads of it: two headers, the path parameter, and the
value `JSON.parse` made of the body, if it made one.
-/

namespace InboxSaas.Api

open InboxSaas.Product Reasoning

structure PostTenantConnectionRequest where
  idempotencyKey : Option JsString
  contentType : Option JsString
  workspaceId : JsString
  body : Option Encoding.Json

inductive PublicJobStatus where
  | processing
  | completed
  | failed
  deriving DecidableEq, Repr

structure PublicTenantValidationJob where
  id : Uuid
  operation : JobOperation
  status : PublicJobStatus
  failureCode : Option FailureCode
  retryable : Option Bool
  deriving DecidableEq, Repr

inductive PostTenantConnectionResponse where
  | invalidRequest
  | notFound
  | idempotencyConflict
  | accepted (idempotencyKey : JsString) (job : PublicTenantValidationJob)
      (tenantConnection : TenantConnectionDto)
  deriving DecidableEq, Repr

/-! ## Checks -/

/-- Digits in groups of 8-4-4-4-12, in either letter case. -/
def isUuid (value : JsString) : Bool :=
  value.length = 36 && value.zipIdx.all (fun (unit, i) =>
    if i = 8 ∨ i = 13 ∨ i = 18 ∨ i = 23 then unit = 45 else (hexDigit? unit).isSome)

def asciiLower (unit : UInt16) : UInt16 :=
  if 65 ≤ unit ∧ unit ≤ 90 then unit + 32 else unit

/-- `/^application\/json(?:;|$)/i` -/
def isJsonContentType (contentType : JsString) : Bool :=
  let name := js "application/json"
  (contentType.take name.length).map asciiLower = name &&
    match contentType.drop name.length with
    | [] => true
    | unit :: _ => unit == 59

/-- `/^[^\s@]+@[^\s@]+\.[^\s@]+$/`: one `@` between nonempty parts, no white space, and a dot inside
the second part. -/
def emailMatches (email : JsString) : Bool :=
  match email.dropWhile (· ≠ 64) with
  | [] => false
  | _ :: domain =>
      email.takeWhile (· ≠ 64) ≠ [] && !domain.contains 64 && !email.any isWhiteSpace &&
        (domain.drop 1).dropLast.contains 46

/-- `tenantValidationRequestSchema.safeParse` -/
def parseTenantValidationRequest (body : Encoding.Json) : Option TenantCredentials :=
  match body.field (js "credentials") with
  | some credentials =>
      match credentials.field (js "email"), credentials.field (js "password") with
      | some (.string email), some (.string password) =>
          if trim email ≠ [] ∧ emailMatches email ∧ 1 ≤ password.length then
            some ⟨email, password⟩
          else none
      | _, _ => none
  | none => none

/-- What the handler passes on, or nothing where it answers `invalid_request`. -/
def accepted (request : PostTenantConnectionRequest) : Option StartTenantValidationInput :=
  match request.idempotencyKey, request.contentType with
  | some idempotencyKey, some contentType =>
      if trim idempotencyKey = [] ∨ !isJsonContentType contentType ∨ !isUuid request.workspaceId then
        none
      else
        match request.body with
        | none => none
        | some body =>
            match parseTenantValidationRequest body with
            | none => none
            | some credentials => some ⟨request.workspaceId, idempotencyKey, credentials⟩
  | _, _ => none

/-! ## The handler -/

def publicStatus : JobState → PublicJobStatus
  | .queued => .processing
  | .running => .processing
  | .completed => .completed
  | .failed => .failed
  | .cancelled => .failed

def toPublicTenantValidationJob (job : Job) : PublicTenantValidationJob :=
  ⟨job.id, job.operation, publicStatus job.state, job.failureCode, job.retryable⟩

def respond (idempotencyKey : JsString) :
    StartTenantValidationResult → PostTenantConnectionResponse
  | .notFound => .notFound
  | .idempotencyConflict => .idempotencyConflict
  | .accepted tenantConnection job _ =>
      .accepted idempotencyKey (toPublicTenantValidationJob job) tenantConnection

def postTenantConnection (grant : AccessGrant) (request : PostTenantConnectionRequest)
    (cipher : TenantCredentialCipher) (draws : StartDraws) :
    DatabaseProgram PostTenantConnectionResponse :=
  match accepted request with
  | none => return .invalidRequest
  | some input => do
      let result ← startTenantValidation [grant] input cipher draws
      return respond input.idempotencyKey result

/-! ## Accepted requests -/

theorem parseTenantValidationRequest_eq_some {body : Encoding.Json}
    {credentials : TenantCredentials} (h : parseTenantValidationRequest body = some credentials) :
    emailMatches credentials.email = true ∧ credentials.password ≠ [] := by
  unfold parseTenantValidationRequest at h
  split at h
  · split at h
    · split at h
      · rename_i hcredentials
        cases h
        exact ⟨hcredentials.2.1, List.ne_nil_of_length_pos hcredentials.2.2⟩
      · cases h
    · cases h
  · cases h

theorem accepted_eq_some {request : PostTenantConnectionRequest}
    {input : StartTenantValidationInput} (h : accepted request = some input) :
    input.workspaceId = request.workspaceId ∧ isUuid input.workspaceId = true ∧
      trim input.idempotencyKey ≠ [] ∧ emailMatches input.credentials.email = true ∧
      input.credentials.password ≠ [] := by
  unfold accepted at h
  split at h
  · split at h
    · cases h
    rename_i hchecks
    simp only [not_or, Bool.not_eq_true', Bool.not_eq_false] at hchecks
    split at h
    · cases h
    split at h
    · cases h
    rename_i hparse
    cases h
    exact ⟨rfl, hchecks.2.2, hchecks.1, parseTenantValidationRequest_eq_some hparse⟩
  · cases h

end InboxSaas.Api
