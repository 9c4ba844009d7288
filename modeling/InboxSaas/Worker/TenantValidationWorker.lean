import InboxSaas.Product.Calls

/-!
# The tenant-validation worker

The functions of the worker as programs over what they await: the database, the queue, the
provisioner, the limiter, the clock and the renewal timer.  A tick recovers expired leases and
dispatches pending outbox events; a handler takes one message and processes its job.
-/

namespace InboxSaas.Worker

open Reasoning Product

structure TenantValidationRequest where
  jobId : Uuid
  tenantConnectionId : Uuid
  credentials : TenantCredentials

/-- The queries of the worker itself. -/
inductive WorkerQuery where
  | selectTenantConnection (id : Uuid)
  | selectPendingOutboxEvents (now : Time)
  | setDispatchedAt (id : Uuid) (dispatchedAt : Time)

def WorkerQuery.statement : WorkerQuery → Statement
  | .selectTenantConnection id => .selectTenantConnection id
  | .selectPendingOutboxEvents now => .selectPendingOutboxEvents .tenantValidationRequested now
  | .setDispatchedAt id dispatchedAt =>
      .updateOutboxEvent id (fun row => { row with dispatchedAt := some dispatchedAt })

inductive WorkerOp where
  /-- `new Date()` -/
  | now
  | query (workerQuery : WorkerQuery)
  | startTenantValidation (grants : List AccessGrant) (input : StartTenantValidationInput)
      (cipher : TenantCredentialCipher)
  | claimTenantValidationJob (jobId : Uuid) (now : Time) (leaseDurationMs : Int)
  | renewTenantValidationJobLease (jobId leaseToken : Uuid) (now : Time) (leaseDurationMs : Int)
  | recoverExpiredTenantValidationJobs (now : Time)
  | applyTenantValidationResult (jobId leaseToken : Uuid) (result : TenantValidationResult)
      (now : Time)
  /-- `queue.enqueue` -/
  | enqueue (jobId : Uuid)
  /-- pg-boss hands a message to a registered handler -/
  | receive
  /-- `setInterval(renewLease, leaseRenewalIntervalMs)` -/
  | startRenewals (jobId leaseToken : Uuid)
  | stopRenewals
  /-- reads the flag that a failed renewal sets -/
  | leaseLost
  | loseLease
  | acquire (organizationId : Uuid)
  | release (organizationId : Uuid)
  /-- the provisioner's answer after `tenantValidationResultSchema.parse` -/
  | validateTenant (request : TenantValidationRequest)

@[reducible] def WorkerOp.Reply : WorkerOp → Type
  | .now => Time
  | .query workerQuery => workerQuery.statement.Reply
  | .startTenantValidation _ _ _ => StartTenantValidationResult
  | .claimTenantValidationJob _ _ _ => ClaimTenantValidationJobResult
  | .renewTenantValidationJobLease _ _ _ _ => Bool
  | .recoverExpiredTenantValidationJobs _ => Nat
  | .applyTenantValidationResult _ _ _ _ => ApplyTenantValidationResult
  | .enqueue _ => Unit
  | .receive => Uuid
  | .startRenewals _ _ => Unit
  | .stopRenewals => Unit
  | .leaseLost => Bool
  | .loseLease => Unit
  | .acquire _ => Unit
  | .release _ => Unit
  | .validateTenant _ => TenantValidationResult

abbrev WorkerProgram (α : Type) : Type := Program WorkerOp WorkerOp.Reply JsError α

def await (op : WorkerOp) : WorkerProgram op.Reply :=
  Program.perform op

/-- `now ?? new Date()` -/
def dateOr : Option Time → WorkerProgram Time
  | some now => return now
  | none => await .now

def leaseDurationMs : Int := 60000

/-- The loop of `dispatchPendingTenantValidationOutboxEvents`; a failed event stays pending. -/
def dispatchEach : List OutboxEvent → WorkerProgram Unit
  | [] => return ()
  | event :: rest => do
      tryCatch
        (do
          await (.enqueue event.payload.jobId)
          let dispatchedAt ← await .now
          await (.query (.setDispatchedAt event.id dispatchedAt)))
        (fun _ => return ())
      dispatchEach rest

def dispatchPendingTenantValidationOutboxEvents (now : Time) : WorkerProgram Unit := do
  let events ← await (.query (.selectPendingOutboxEvents now))
  dispatchEach events

def runTenantValidationWorkerTick (now : Option Time) : WorkerProgram Unit := do
  let now ← dateOr now
  let _ ← await (.recoverExpiredTenantValidationJobs now)
  dispatchPendingTenantValidationOutboxEvents now

inductive ProcessTenantValidationJobResult where
  | notClaimed
  | leaseLost
  | result (applied : ApplyTenantValidationResult)
  deriving DecidableEq

def claimFailed : JsError := .new "Tenant validation job claim failed"

def processingFailed : JsError := .new "Tenant validation job processing failed"

/-- A renewal that is refused or fails means that the lease is lost. -/
def renewLease (jobId leaseToken : Uuid) (renewedAt : Time) : WorkerProgram Bool :=
  tryCatch
    (do
      let renewed ← await (.renewTenantValidationJobLease jobId leaseToken renewedAt leaseDurationMs)
      if !renewed then
        await .loseLease
        return false
      else
        return true)
    (fun _ => do
      await .loseLease
      return false)

/-- What any failure of the provisioner counts as. -/
def unexpectedFailure : TenantValidationResult := .failure .unexpectedFailure true

/-- The part of a handler that holds a permit. -/
def validateUnderPermit (jobId tenantConnectionId leaseToken : Uuid)
    (credentials : TenantCredentials) (now : Option Time) :
    WorkerProgram ProcessTenantValidationJobResult := do
  if ← await .leaseLost then
    return .leaseLost
  else
    let renewed ← renewLease jobId leaseToken (← dateOr now)
    if !renewed then
      return .leaseLost
    else
      let result ← tryCatch
        (await (.validateTenant ⟨jobId, tenantConnectionId, credentials⟩))
        (fun _ => return unexpectedFailure)
      let applied ← await (.applyTenantValidationResult jobId leaseToken result (← dateOr now))
      return .result applied

/-- The part of a handler that runs while its lease is being renewed. -/
def processClaimedJob (cipher : TenantCredentialCipher) (credentialKeyVersion : JsString)
    (jobId leaseToken : Uuid) (connection : TenantConnectionDto) (now : Option Time) :
    WorkerProgram ProcessTenantValidationJobResult := do
  match ← await (.query (.selectTenantConnection connection.id)) with
  | none => throw (.new "Tenant connection credentials are missing")
  | some encryptedCredentials =>
      if encryptedCredentials.credentialKeyVersion ≠ credentialKeyVersion then
        throw (.new
          "Tenant connection credential key version does not match the worker cipher")
      else
        let credentials ← Program.ofExcept (cipher.decrypt
          ⟨encryptedCredentials.credentialCiphertext, encryptedCredentials.credentialIv,
            encryptedCredentials.credentialAuthTag, encryptedCredentials.credentialKeyVersion⟩
          ⟨uuidOut encryptedCredentials.workspaceId, .tenantValidation⟩)
        await (.acquire connection.organizationId)
        let outcome ← tryCatch
          (validateUnderPermit jobId connection.id leaseToken credentials now)
          (fun error => do
            await (.release connection.organizationId)
            throw error)
        await (.release connection.organizationId)
        return outcome

def processTenantValidationJob (cipher : TenantCredentialCipher)
    (credentialKeyVersion : JsString) (jobId : Uuid) (now : Option Time) :
    WorkerProgram ProcessTenantValidationJobResult := do
  let claimedAt ← dateOr now
  let claimed ← tryCatch (await (.claimTenantValidationJob jobId claimedAt leaseDurationMs))
    (fun _ => throw claimFailed)
  match claimed with
  | .notFound => return .notClaimed
  | .claimed connection job =>
      match job.leaseToken with
      | none => throw (.new "Claimed tenant validation job has no lease token")
      | some leaseToken =>
          await (.startRenewals jobId leaseToken)
          let outcome ← tryCatch
            (processClaimedJob cipher credentialKeyVersion jobId leaseToken connection now)
            (fun _ => do
              await .stopRenewals
              throw processingFailed)
          await .stopRenewals
          return outcome

end InboxSaas.Worker
