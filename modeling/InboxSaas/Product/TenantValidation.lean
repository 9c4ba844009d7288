import InboxSaas.Product.Access
import InboxSaas.Product.Statements
import InboxSaas.Product.TenantCredentials

/-!
# Tenant validation

The functions of the product package that start a tenant validation, lease its job to a worker and
apply the worker's result, statement by statement.  What the code leaves to chance is an argument:
generated ids, lease tokens, initialization vectors and the database's clock for column defaults.
-/

namespace InboxSaas.Product

open Reasoning

structure TenantConnectionDto where
  id : Uuid
  organizationId : Uuid
  workspaceId : Uuid
  state : TenantConnectionState
  microsoftTenantId : Option JsString
  deriving DecidableEq, Repr

structure StartTenantValidationInput where
  workspaceId : JsString
  idempotencyKey : JsString
  credentials : TenantCredentials
  deriving DecidableEq, Repr

inductive StartTenantValidationResult where
  | notFound
  | idempotencyConflict
  | accepted (tenantConnection : TenantConnectionDto) (job : Job) (reused : Bool)
  deriving DecidableEq, Repr

inductive ApplyTenantValidationResult where
  | notFound
  | stale
  | applied (tenantConnection : TenantConnectionDto) (job : Job) (reused : Bool)
  deriving DecidableEq, Repr

inductive ClaimTenantValidationJobResult where
  | notFound
  | claimed (tenantConnection : TenantConnectionDto) (job : Job)
  deriving DecidableEq, Repr

/-- The result of the provisioner contract. -/
inductive TenantValidationResult where
  | success (microsoftTenantId : JsString)
  | failure (code : TenantValidationFailureCode) (retryable : Bool)
  deriving DecidableEq, Repr

/-- The generated values of the rows one `startTenantValidation` inserts. -/
structure StartDraws where
  iv : Bytes
  tenantConnectionId : Uuid
  jobId : Uuid
  idempotencyRecordId : Uuid
  outboxEventId : Uuid
  now : Time

/-- The generated columns of one outbox event. -/
structure OutboxDefaults where
  id : Uuid
  createdAt : Time

def retryDelaysMs : List Int := [60000, 300000]

def noRemainingRetryDelay : JsError := .new "Tenant validation job has no remaining retry delay"

/-- `retryDelaysMs[attemptCount - 1]`; the index of a job that was never claimed is out of range. -/
def retryAvailableAt (attemptCount : Nat) (now : Time) : Except JsError Time :=
  match attemptCount with
  | 0 => .error noRemainingRetryDelay
  | attempts + 1 =>
      match retryDelaysMs[attempts]? with
      | none => .error noRemainingRetryDelay
      | some delayMs => .ok (now + delayMs)

def toTenantConnectionDto (connection : TenantConnection) : TenantConnectionDto :=
  ⟨connection.id, connection.organizationId, connection.workspaceId, connection.state,
    connection.microsoftTenantId⟩

def assertStartInput (input : StartTenantValidationInput) : Except JsError Unit :=
  if input.idempotencyKey = [] then .error (.new "Idempotency key is required")
  else if input.credentials.email = [] ∨ input.credentials.password = [] then
    .error (.new "Tenant administrator email and password are required")
  else .ok ()

def missingTenantConnection : JsError := .new "Tenant validation job has no tenant connection"

def missingJob : JsError := .new "Idempotency record has no job"

/-- The event that wakes a worker up for a job. -/
def tenantValidationRequested (jobId : Uuid) (availableAt : Time) (defaults : OutboxDefaults) :
    OutboxEvent where
  id := defaults.id
  jobId := jobId
  type := .tenantValidationRequested
  payload := ⟨jobId⟩
  dispatchedAt := none
  availableAt := availableAt
  createdAt := defaults.createdAt

def getJobWithTenant (jobId : Uuid) : DatabaseProgram (Option (TenantConnection × Job)) := do
  match ← execute (.selectJob jobId) with
  | none => return none
  | some storedJob =>
      match ← execute (.selectTenantConnection storedJob.tenantConnectionId) with
      | none => throw missingTenantConnection
      | some connection => return some (connection, storedJob)

/-! ## Starting a validation -/

section

variable (targetWorkspace : Workspace) (idempotencyKey : JsString)
  (encryptedCredentials : EncryptedTenantCredentials) (payloadFingerprint : JsString)
  (draws : StartDraws)

def newTenantConnection : TenantConnection where
  id := draws.tenantConnectionId
  organizationId := targetWorkspace.organizationId
  workspaceId := targetWorkspace.id
  state := .validating
  microsoftTenantId := none
  credentialCiphertext := encryptedCredentials.ciphertext
  credentialIv := encryptedCredentials.iv
  credentialAuthTag := encryptedCredentials.authTag
  credentialKeyVersion := encryptedCredentials.keyVersion

def newJob (tenantConnectionId : Uuid) : Job where
  id := draws.jobId
  tenantConnectionId := tenantConnectionId
  state := .queued
  operation := .tenantValidation
  failureCode := none
  retryable := none
  attemptCount := 0
  availableAt := draws.now
  leaseExpiresAt := none
  leaseToken := none

def newIdempotencyRecord (jobId : Uuid) : IdempotencyRecord where
  id := draws.idempotencyRecordId
  organizationId := targetWorkspace.organizationId
  key := idempotencyKey
  operation := .tenantValidation
  payloadFingerprint := payloadFingerprint
  jobId := jobId

/-- The transaction of `startTenantValidation`. -/
def startTransaction : TransactionProgram StartTenantValidationResult := do
  match ← query (.selectIdempotencyRecord targetWorkspace.organizationId idempotencyKey) with
  | some existingRecord =>
      -- the key was used before: for the same request the stored job is answered again
      if existingRecord.operation ≠ .tenantValidation ∨
          existingRecord.payloadFingerprint ≠ payloadFingerprint then
        return .idempotencyConflict
      else
        match ← query (.selectJob existingRecord.jobId) with
        | none => throw missingJob
        | some existingJob =>
            match ← query (.selectTenantConnection existingJob.tenantConnectionId) with
            | none => throw missingTenantConnection
            | some existingTenantConnection =>
                return .accepted (toTenantConnectionDto existingTenantConnection) existingJob true
  | none =>
      -- a new key: the four rows are inserted in one transaction, or none of them
      match ← query (.insertTenantConnection
          (newTenantConnection targetWorkspace encryptedCredentials draws)) with
      | none => throw (.new "Failed to create tenant connection")
      | some newTenantConnection =>
          match ← query (.insertJob (newJob draws newTenantConnection.id)) with
          | none => throw (.new "Failed to create tenant validation job")
          | some newJob =>
              query (.insertIdempotencyRecord (newIdempotencyRecord targetWorkspace idempotencyKey
                payloadFingerprint draws newJob.id))
              query (.insertOutboxEvent (tenantValidationRequested newJob.id draws.now
                ⟨draws.outboxEventId, draws.now⟩))
              return .accepted (toTenantConnectionDto newTenantConnection) newJob false

/-- What `startTenantValidation` does when its transaction lost a race for the key. -/
def startAfterViolation : DatabaseProgram StartTenantValidationResult := do
  -- outside the transaction, which was rolled back: what the winner committed is read
  match ← execute (.selectIdempotencyRecord targetWorkspace.organizationId idempotencyKey) with
  | none => return .idempotencyConflict
  | some existingRecord =>
      if existingRecord.operation ≠ .tenantValidation ∨
          existingRecord.payloadFingerprint ≠ payloadFingerprint then
        return .idempotencyConflict
      else
        match ← getJobWithTenant existingRecord.jobId with
        | none => throw missingJob
        | some (connection, storedJob) =>
            return .accepted (toTenantConnectionDto connection) storedJob true

end

def startTenantValidation (grants : List AccessGrant) (input : StartTenantValidationInput)
    (cipher : TenantCredentialCipher) (draws : StartDraws) :
    DatabaseProgram StartTenantValidationResult := do
  Program.ofExcept (assertStartInput input)
  match ← execute (.selectWorkspace input.workspaceId) with
  | none => return .notFound
  | some targetWorkspace =>
      -- a workspace that the caller may not write is answered like one that does not exist
      if !isAuthorized grants
          ⟨targetWorkspace.organizationId, .write, .workspace targetWorkspace.id⟩ then
        return .notFound
      else
        let entitlement ← Program.ofExcept
          (getOrganizationEntitlement (uuidOut targetWorkspace.organizationId))
        if !entitlement.entitled then
          throw (.new "Organization is not entitled to validate tenants")
        else
          let encryptedCredentials ← Program.ofExcept (cipher.encrypt input.credentials
            ⟨uuidOut targetWorkspace.id, .tenantValidation⟩ draws.iv)
          let payloadFingerprint ← Program.ofExcept (cipher.fingerprint
            ⟨input.credentials, input.workspaceId, .tenantValidation⟩)
          -- only the report of a unique violation is a lost race; every other error goes on
          tryCatch
            (transaction (startTransaction targetWorkspace input.idempotencyKey
              encryptedCredentials payloadFingerprint draws))
            (fun error =>
              if !isUniqueViolation error then throw error
              else startAfterViolation targetWorkspace input.idempotencyKey payloadFingerprint)

/-! ## Leases -/

def invalidLeaseDuration : JsError := .new "Lease duration must be a positive finite number"

/-- The lease of a running job is over; a null column is never `<=`. -/
def leaseExpired (now : Time) (job : Job) : Bool :=
  job.state = .running && job.leaseExpiresAt.any (· ≤ now)

/-- The job is running under the token and its lease is not over. -/
def leaseValid (leaseToken : Uuid) (now : Time) (job : Job) : Bool :=
  job.state = .running && job.leaseToken = some leaseToken && job.leaseExpiresAt.any (now < ·)

def claimable (now : Time) (job : Job) : Bool :=
  (job.state = .queued && job.availableAt ≤ now) || leaseExpired now job

def claimTenantValidationJob (jobId : Uuid) (now : Time) (leaseDurationMs : Int)
    (leaseToken : Uuid) : DatabaseProgram ClaimTenantValidationJobResult := do
  if leaseDurationMs ≤ 0 then throw invalidLeaseDuration
  else
    -- one conditional `UPDATE … RETURNING`: of two claims only one finds the row claimable
    match ← execute (.updateJob jobId (claimable now) (fun job =>
        { job with
          attemptCount := job.attemptCount + 1
          availableAt := now
          leaseExpiresAt := some (now + leaseDurationMs)
          leaseToken := some leaseToken
          state := .running })) with
    | none => return .notFound
    | some claimedJob =>
        match ← execute (.selectTenantConnection claimedJob.tenantConnectionId) with
        | none => throw missingTenantConnection
        | some connection => return .claimed (toTenantConnectionDto connection) claimedJob

def renewTenantValidationJobLease (jobId leaseToken : Uuid) (now : Time) (leaseDurationMs : Int) :
    DatabaseProgram Bool := do
  if leaseDurationMs ≤ 0 then throw invalidLeaseDuration
  else
    -- the token and the old expiry are checked by the statement that writes the new expiry
    let renewed : Option Job ← execute (.updateJob jobId (leaseValid leaseToken now) (fun job =>
      { job with leaseExpiresAt := some (now + leaseDurationMs) }))
    return renewed.isSome

/-- The loop of `recoverExpiredTenantValidationJobs` over the jobs it selected. -/
def recoverEach (now : Time) (defaults : Uuid → OutboxDefaults) :
    List Uuid → Nat → TransactionProgram Nat
  | [], recoveredCount => return recoveredCount
  | expiredJob :: rest, recoveredCount => do
      -- the job was selected without a lock, so the update checks again that its lease is over
      match ← query (.updateJob expiredJob (leaseExpired now) (fun job =>
          { job with
            availableAt := now
            leaseExpiresAt := none
            leaseToken := none
            state := .queued })) with
      | none => recoverEach now defaults rest recoveredCount
      | some recoveredJob =>
          query (.insertOutboxEvent
            (tenantValidationRequested recoveredJob.id now (defaults recoveredJob.id)))
          recoverEach now defaults rest (recoveredCount + 1)

/-- The generated columns of the event for each job are given by `defaults`. -/
def recoverExpiredTenantValidationJobs (now : Time) (defaults : Uuid → OutboxDefaults) :
    DatabaseProgram Nat :=
  transaction do
    let expiredJobs ← query (.selectExpiredJobs .tenantValidation now)
    recoverEach now defaults expiredJobs 0

/-! ## Results -/

/-- The check of the row that `applyTenantValidationResult` reads. -/
def resultStale (leaseToken : Uuid) (now : Time) (currentJob : Job) : Bool :=
  currentJob.state ≠ .running || currentJob.leaseToken ≠ some leaseToken ||
    match currentJob.leaseExpiresAt with
    | none => true
    | some leaseExpiresAt => leaseExpiresAt ≤ now

def shouldRetry (result : TenantValidationResult) (currentJob : Job) : Bool :=
  match result with
  | .success _ => false
  | .failure _ retryable => retryable && currentJob.attemptCount < 3

/-- The result with what the columns hold of it. -/
def storedResult : TenantValidationResult → Except JsError TenantValidationResult
  | .success microsoftTenantId => (storedText microsoftTenantId).map .success
  | .failure code retryable => .ok (.failure code retryable)

theorem storedResult_of_ok {microsoftTenantId text : JsString}
    (h : storedText microsoftTenantId = .ok text) :
    storedResult (.success microsoftTenantId) = .ok (.success text) :=
  congrArg (Except.map TenantValidationResult.success) h

theorem storedResult_of_error {microsoftTenantId : JsString} {e : JsError}
    (h : storedText microsoftTenantId = .error e) :
    storedResult (.success microsoftTenantId) = .error e :=
  congrArg (Except.map TenantValidationResult.success) h

def tenantUpdate (result : TenantValidationResult) (retry : Bool) (connection : TenantConnection) :
    TenantConnection :=
  match result with
  | .success microsoftTenantId =>
      { connection with microsoftTenantId := some microsoftTenantId, state := .active }
  | .failure _ _ => { connection with state := if retry then .validating else .validationFailed }

def jobUpdate (result : TenantValidationResult) (retry : Bool) (availableAt : Time) (job : Job) :
    Job :=
  match result with
  | .success _ =>
      { job with
        availableAt := availableAt
        failureCode := none
        leaseExpiresAt := none
        leaseToken := none
        retryable := none
        state := .completed }
  | .failure code retryable =>
      -- the delay is spent in the queue: the job can be claimed again at `availableAt`
      if retry then
        { job with
          availableAt := availableAt
          failureCode := some (.reported code)
          leaseExpiresAt := none
          leaseToken := none
          retryable := some true
          state := .queued }
      else
        { job with
          availableAt := availableAt
          failureCode := some (.reported code)
          leaseExpiresAt := none
          leaseToken := none
          retryable := some retryable
          state := .failed }

/-- The main transaction of `applyTenantValidationResult`. -/
def applyTransaction (jobId leaseToken : Uuid) (result : TenantValidationResult) (now : Time)
    (defaults : OutboxDefaults) : TransactionProgram ApplyTenantValidationResult := do
  match ← query (.selectJob jobId) with
  | none => return .notFound
  | some currentJob =>
      -- a read without a lock: it decides on a retry, and the update below checks the lease again
      if resultStale leaseToken now currentJob then return .stale
      else
        match ← query (.selectTenantConnection currentJob.tenantConnectionId) with
        | none => throw missingTenantConnection
        | some currentConnection =>
            let retry := shouldRetry result currentJob
            let availableAt ← Program.ofExcept
              (if retry then retryAvailableAt currentJob.attemptCount now else .ok now)
            match ← query (.updateJob currentJob.id (leaseValid leaseToken now)
                (jobUpdate result retry availableAt)) with
            | none => return .stale
            | some updatedJob =>
                let stored ← Program.ofExcept (storedResult result)
                match ← query (.updateTenantConnection currentConnection.id
                    (tenantUpdate stored retry)) with
                | none => throw (.new "Failed to apply tenant validation result")
                | some updatedConnection =>
                    -- both rows are updated; the event that makes a worker claim again goes with them
                    if retry then
                      query (.insertOutboxEvent
                        (tenantValidationRequested updatedJob.id availableAt defaults))
                    return .applied (toTenantConnectionDto updatedConnection) updatedJob false

/-- The transaction that fails the job of a tenant another connection already has. -/
def collisionTransaction (jobId leaseToken : Uuid) (now : Time) :
    TransactionProgram ApplyTenantValidationResult := do
  match ← query (.selectJob jobId) with
  | none => return .notFound
  | some currentJob =>
      if resultStale leaseToken now currentJob then return .stale
      else
        match ← query (.selectTenantConnection currentJob.tenantConnectionId) with
        | none => throw missingTenantConnection
        | some _ =>
            match ← query (.updateJob currentJob.id (leaseValid leaseToken now) (fun job =>
                { job with
                  availableAt := now
                  failureCode := some .tenantAlreadyConnected
                  leaseExpiresAt := none
                  leaseToken := none
                  retryable := some false
                  state := .failed })) with
            | none => return .stale
            | some updatedJob =>
                match ← query (.updateTenantConnection currentJob.tenantConnectionId
                    (fun connection => { connection with state := .validationFailed })) with
                | none => throw (.new "Failed to apply tenant validation collision result")
                | some updatedConnection =>
                    return .applied (toTenantConnectionDto updatedConnection) updatedJob false

def TenantValidationResult.isSuccess : TenantValidationResult → Bool
  | .success _ => true
  | .failure _ _ => false

def applyTenantValidationResult (jobId leaseToken : Uuid) (result : TenantValidationResult)
    (now : Time) (defaults : OutboxDefaults) : DatabaseProgram ApplyTenantValidationResult :=
  tryCatch (transaction (applyTransaction jobId leaseToken result now defaults))
    (fun error =>
      if !isUniqueViolation error || !result.isSuccess then throw error
      else transaction (collisionTransaction jobId leaseToken now))

end InboxSaas.Product
