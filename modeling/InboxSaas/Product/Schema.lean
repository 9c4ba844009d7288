import InboxSaas.Reasoning.Table

/-!
# The product schema

The rows of the tables that tenant validation reads and writes, with the columns it uses: audit
columns that no statement reads (`created_at`, `updated_at`, a workspace's name) are left out.
Identifiers are `uuid` columns.  Every id or token that reaches a statement was produced by the
database or by `crypto.randomUUID()`, in canonical form, so it is the `Uuid` itself; the workspace
id of a request is the exception, and is parsed where the statement compares it.

A JavaScript string is the sequence of its UTF-16 code units, a `Date` its milliseconds.
-/

namespace InboxSaas.Product

open Reasoning

abbrev Uuid := BitVec 128

abbrev Time := Int

abbrev JsString := List UInt16

abbrev Bytes := List UInt8

inductive TenantConnectionState where
  | validating
  | active
  | validationFailed
  | detached
  deriving DecidableEq, Repr

inductive JobState where
  | queued
  | running
  | completed
  | failed
  | cancelled
  deriving DecidableEq, Repr

inductive JobOperation where
  | tenantValidation
  deriving DecidableEq, Repr

inductive OutboxEventType where
  | tenantValidationRequested
  deriving DecidableEq, Repr

/-- The failure codes of the provisioner contract. -/
inductive TenantValidationFailureCode where
  | invalidCredentials
  | authenticationChallenge
  | microsoftUnavailable
  | unexpectedFailure
  deriving DecidableEq, Repr

/-- `job.failure_code`: a code of the contract, or the one Product gives a tenant collision. -/
inductive FailureCode where
  | reported (code : TenantValidationFailureCode)
  | tenantAlreadyConnected
  deriving DecidableEq, Repr

structure Organization where
  id : Uuid
  name : JsString
  deriving DecidableEq, Repr

structure Workspace where
  id : Uuid
  organizationId : Uuid
  deriving DecidableEq, Repr

structure TenantConnection where
  id : Uuid
  organizationId : Uuid
  workspaceId : Uuid
  state : TenantConnectionState
  microsoftTenantId : Option JsString
  credentialCiphertext : Bytes
  credentialIv : Bytes
  credentialAuthTag : Bytes
  credentialKeyVersion : JsString
  deriving DecidableEq, Repr

structure Job where
  id : Uuid
  tenantConnectionId : Uuid
  state : JobState
  operation : JobOperation
  failureCode : Option FailureCode
  retryable : Option Bool
  attemptCount : Nat
  availableAt : Time
  leaseExpiresAt : Option Time
  leaseToken : Option Uuid
  deriving DecidableEq, Repr

structure IdempotencyRecord where
  id : Uuid
  organizationId : Uuid
  key : JsString
  operation : JobOperation
  payloadFingerprint : JsString
  jobId : Uuid
  deriving DecidableEq, Repr

structure OutboxPayload where
  jobId : Uuid
  deriving DecidableEq, Repr

structure OutboxEvent where
  id : Uuid
  jobId : Uuid
  type : OutboxEventType
  payload : OutboxPayload
  dispatchedAt : Option Time
  availableAt : Time
  createdAt : Time
  deriving DecidableEq, Repr

instance : Keyed Organization Uuid := ⟨Organization.id⟩

instance : Keyed Workspace Uuid := ⟨Workspace.id⟩

instance : Keyed TenantConnection Uuid := ⟨TenantConnection.id⟩

instance : Keyed Job Uuid := ⟨Job.id⟩

instance : Keyed IdempotencyRecord Uuid := ⟨IdempotencyRecord.id⟩

instance : Keyed OutboxEvent Uuid := ⟨OutboxEvent.id⟩

@[simp] theorem key_organization (r : Organization) : key r = r.id := rfl

@[simp] theorem key_workspace (r : Workspace) : key r = r.id := rfl

@[simp] theorem key_tenantConnection (r : TenantConnection) : key r = r.id := rfl

@[simp] theorem key_job (r : Job) : key r = r.id := rfl

@[simp] theorem key_idempotencyRecord (r : IdempotencyRecord) : key r = r.id := rfl

@[simp] theorem key_outboxEvent (r : OutboxEvent) : key r = r.id := rfl

/-- The committed contents of the database. -/
structure Store where
  workspaces : Table Workspace
  tenantConnections : Table TenantConnection
  jobs : Table Job
  idempotencyRecords : Table IdempotencyRecord
  outboxEvents : Table OutboxEvent

theorem Store.job_id {db : Store} {id : Uuid} {job : Job} (h : db.jobs.find id = some job) :
    job.id = id :=
  Table.key_of_find h

theorem Store.tenantConnection_id {db : Store} {id : Uuid} {connection : TenantConnection}
    (h : db.tenantConnections.find id = some connection) : connection.id = id :=
  Table.key_of_find h

/-- A store in which no validation was ever started. -/
def Store.empty (workspaces : Table Workspace) : Store :=
  ⟨workspaces, ∅, ∅, ∅, ∅⟩

/-- The predicate of `job_non_terminal_tenant_connection_uidx`. -/
def Job.nonTerminal (job : Job) : Bool :=
  job.state = .queued || job.state = .running

/-- The predicate of `tenant_connection_active_microsoft_tenant_uidx`; null ids never collide. -/
def TenantConnection.indexed (connection : TenantConnection) : Bool :=
  connection.state = .active && connection.microsoftTenantId.isSome

end InboxSaas.Product
