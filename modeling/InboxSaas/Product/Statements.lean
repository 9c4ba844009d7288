import InboxSaas.Encoding.Utf16
import InboxSaas.Reasoning.Transaction
import InboxSaas.Product.UuidText

/-!
# The statements of the product database

Every query the product code issues is one `Statement`: its `WHERE` and `SET` are the functions the
statement carries, and `exec` gives its reply, the rows it writes and what it locks, with the
primary keys, foreign keys and unique indexes of the schema.  A statement sees the committed store
with its own transaction's writes, which is READ COMMITTED.

Whether the unique index on the Microsoft tenant of active connections rejects a row is the
parameter `rejects`; `postgres` is the engine whose index looks at the stored rows.
-/

namespace InboxSaas.Product

open Reasoning

/-- A thrown value: its message, its SQLSTATE when a driver set one, and what caused it. -/
inductive JsError where
  | error (message : String) (code : Option String)
  | causedBy (message : String) (code : Option String) (cause : JsError)
  deriving DecidableEq, Repr

def JsError.new (message : String) : JsError := .error message none

/-- A unique violation anywhere along the chain of causes. -/
def isUniqueViolation : JsError → Bool
  | .error _ code => code == some "23505"
  | .causedBy _ code cause => code == some "23505" || isUniqueViolation cause

/-- The driver's error as the query builder throws it. -/
def databaseError (message code : String) : JsError :=
  .causedBy "Failed query" none (.error message (some code))

def uniqueViolation : JsError :=
  databaseError "duplicate key value violates unique constraint" "23505"

def foreignKeyViolation : JsError :=
  databaseError "insert or update on table violates foreign key constraint" "23503"

def invalidTextRepresentation : JsError :=
  databaseError "invalid input syntax for type uuid" "22P02"

def invalidByteSequence : JsError :=
  databaseError "invalid byte sequence for encoding \"UTF8\": 0x00" "22021"

/-- What a `text` column is given by a parameter: the driver sends it as UTF-8, which has no
unpaired surrogate, and the server refuses U+0000. -/
def storedText (value : JsString) : Except JsError JsString :=
  if 0 ∈ value then .error invalidByteSequence else .ok (Encoding.toWellFormed value)

theorem storedText_of_mem {value : JsString} (h : 0 ∈ value) :
    storedText value = .error invalidByteSequence := if_pos h

theorem storedText_of_not_mem {value : JsString} (h : 0 ∉ value) :
    storedText value = .ok (Encoding.toWellFormed value) := if_neg h

theorem storedText_error {value : JsString} {e : JsError} (h : storedText value = .error e) :
    e = invalidByteSequence := by
  by_cases hmem : 0 ∈ value
  · rw [storedText_of_mem hmem] at h
    cases h
    rfl
  · rw [storedText_of_not_mem hmem] at h
    cases h

@[simp] theorem isUniqueViolation_uniqueViolation : isUniqueViolation uniqueViolation = true := rfl

@[simp] theorem isUniqueViolation_foreignKeyViolation :
    isUniqueViolation foreignKeyViolation = false := rfl

@[simp] theorem isUniqueViolation_invalidTextRepresentation :
    isUniqueViolation invalidTextRepresentation = false := rfl

@[simp] theorem isUniqueViolation_invalidByteSequence :
    isUniqueViolation invalidByteSequence = false := rfl

@[simp] theorem isUniqueViolation_new (message : String) :
    isUniqueViolation (.new message) = false := rfl

inductive Statement where
  | selectWorkspace (id : JsString)
  | selectIdempotencyRecord (organizationId : Uuid) (key : JsString)
  | selectJob (id : Uuid)
  | selectTenantConnection (id : Uuid)
  | selectExpiredJobs (operation : JobOperation) (now : Time)
  | selectPendingOutboxEvents (type : OutboxEventType) (now : Time)
  | insertTenantConnection (row : TenantConnection)
  | insertJob (row : Job)
  | insertIdempotencyRecord (row : IdempotencyRecord)
  | insertOutboxEvent (row : OutboxEvent)
  | updateJob (id : Uuid) (guard : Job → Bool) (set : Job → Job)
  | updateTenantConnection (id : Uuid) (set : TenantConnection → TenantConnection)
  | updateOutboxEvent (id : Uuid) (set : OutboxEvent → OutboxEvent)

/-- The rows a statement returns; a query by primary key returns at most one. -/
@[reducible] def Statement.Reply : Statement → Type
  | .selectWorkspace _ => Option Workspace
  | .selectIdempotencyRecord _ _ => Option IdempotencyRecord
  | .selectJob _ => Option Job
  | .selectTenantConnection _ => Option TenantConnection
  | .selectExpiredJobs _ _ => List Uuid
  | .selectPendingOutboxEvents _ _ => List OutboxEvent
  | .insertTenantConnection _ => Option TenantConnection
  | .insertJob _ => Option Job
  | .insertIdempotencyRecord _ => Unit
  | .insertOutboxEvent _ => Unit
  | .updateJob _ _ _ => Option Job
  | .updateTenantConnection _ _ => Option TenantConnection
  | .updateOutboxEvent _ _ => Unit

/-- A row version that a statement leaves behind. -/
inductive Write where
  | tenantConnection (row : TenantConnection)
  | job (row : Job)
  | idempotencyRecord (row : IdempotencyRecord)
  | outboxEvent (row : OutboxEvent)
  deriving DecidableEq

/-- What a transaction holds until it ends: its rows, and its entries in the unique indexes. -/
inductive Lock where
  | tenantConnection (id : Uuid)
  | job (id : Uuid)
  | idempotencyRecord (id : Uuid)
  | outboxEvent (id : Uuid)
  | idempotencyKey (organizationId : Uuid) (key : JsString)
  | activeTenant (microsoftTenantId : Option JsString)
  | nonTerminalJob (tenantConnectionId : Uuid)
  deriving DecidableEq

namespace Store

def write : Write → Store → Store
  | .tenantConnection row, db => { db with tenantConnections := db.tenantConnections.put row }
  | .job row, db => { db with jobs := db.jobs.put row }
  | .idempotencyRecord row, db => { db with idempotencyRecords := db.idempotencyRecords.put row }
  | .outboxEvent row, db => { db with outboxEvents := db.outboxEvents.put row }

def workspace (db : Store) (id organizationId : Uuid) : Option Workspace :=
  (db.workspaces.find id).filter (fun row => row.organizationId = organizationId)

/-- `idempotency_record_organization_key_unique` makes this the only such record. -/
def idempotencyRecord (db : Store) (organizationId : Uuid) (key : JsString) :
    Option IdempotencyRecord :=
  db.idempotencyRecords.rows.find? (fun row => row.organizationId = organizationId && row.key = key)

/-- The row loses against another active connection of its Microsoft tenant. -/
def activeElsewhere (db : Store) (row : TenantConnection) : Bool :=
  db.tenantConnections.rows.any (fun other =>
    other.id ≠ row.id && other.indexed && other.microsoftTenantId = row.microsoftTenantId)

/-- The row loses against another unfinished job of its tenant connection. -/
def nonTerminalElsewhere (db : Store) (row : Job) : Bool :=
  db.jobs.rows.any (fun other =>
    other.id ≠ row.id && other.nonTerminal && other.tenantConnectionId = row.tenantConnectionId)

end Store

def jobLocks (row : Job) : List Lock :=
  .job row.id :: if row.nonTerminal then [.nonTerminalJob row.tenantConnectionId] else []

def tenantConnectionLocks (row : TenantConnection) : List Lock :=
  .tenantConnection row.id :: if row.indexed then [.activeTenant row.microsoftTenantId] else []

section

variable (rejects : Store → TenantConnection → Bool)

/-- One statement on the store its transaction sees. -/
def exec : (statement : Statement) → Store →
    Except JsError statement.Reply × List Write × List Lock
  | .selectWorkspace id, db =>
      match uuidIn id with
      | some id => (.ok (db.workspaces.find id), [], [])
      | none => (.error invalidTextRepresentation, [], [])
  | .selectIdempotencyRecord organizationId key, db =>
      (.ok (db.idempotencyRecord organizationId key), [], [])
  | .selectJob id, db => (.ok (db.jobs.find id), [], [])
  | .selectTenantConnection id, db => (.ok (db.tenantConnections.find id), [], [])
  | .selectExpiredJobs operation now, db =>
      (.ok ((db.jobs.rows.filter (fun row => row.operation = operation && row.state = .running &&
        row.leaseExpiresAt.any (· ≤ now))).map Job.id), [], [])
  | .selectPendingOutboxEvents type now, db =>
      (.ok ((db.outboxEvents.rows.filter (fun row => row.type = type && row.dispatchedAt.isNone &&
        row.availableAt ≤ now)).mergeSort (fun a b => a.createdAt ≤ b.createdAt)), [], [])
  | .insertTenantConnection row, db =>
      if (db.tenantConnections.find row.id).isSome || (row.indexed && rejects db row) then
        (.error uniqueViolation, [], tenantConnectionLocks row)
      else if (db.workspace row.workspaceId row.organizationId).isNone then
        (.error foreignKeyViolation, [], tenantConnectionLocks row)
      else (.ok (some row), [.tenantConnection row], tenantConnectionLocks row)
  | .insertJob row, db =>
      if (db.jobs.find row.id).isSome || (row.nonTerminal && db.nonTerminalElsewhere row) then
        (.error uniqueViolation, [], jobLocks row)
      else if (db.tenantConnections.find row.tenantConnectionId).isNone then
        (.error foreignKeyViolation, [], jobLocks row)
      else (.ok (some row), [.job row], jobLocks row)
  | .insertIdempotencyRecord row, db =>
      let locks := [.idempotencyRecord row.id, .idempotencyKey row.organizationId row.key]
      if (db.idempotencyRecords.find row.id).isSome ||
          (db.idempotencyRecord row.organizationId row.key).isSome then
        (.error uniqueViolation, [], locks)
      else if (db.jobs.find row.jobId).isNone then (.error foreignKeyViolation, [], locks)
      else (.ok (), [.idempotencyRecord row], locks)
  | .insertOutboxEvent row, db =>
      if (db.outboxEvents.find row.id).isSome then
        (.error uniqueViolation, [], [.outboxEvent row.id])
      else if (db.jobs.find row.jobId).isNone then
        (.error foreignKeyViolation, [], [.outboxEvent row.id])
      else (.ok (), [.outboxEvent row], [.outboxEvent row.id])
  | .updateJob id guard set, db =>
      match (db.jobs.find id).filter guard with
      | none => (.ok none, [], [])
      | some row =>
          -- no `SET` of the code assigns a primary key
          let row := { set row with id := id }
          if row.nonTerminal && db.nonTerminalElsewhere row then
            (.error uniqueViolation, [], jobLocks row)
          else (.ok (some row), [.job row], jobLocks row)
  | .updateTenantConnection id set, db =>
      match db.tenantConnections.find id with
      | none => (.ok none, [], [])
      | some row =>
          let row := { set row with id := id }
          if row.indexed && rejects db row then
            (.error uniqueViolation, [], tenantConnectionLocks row)
          else (.ok (some row), [.tenantConnection row], tenantConnectionLocks row)
  | .updateOutboxEvent id set, db =>
      match db.outboxEvents.find id with
      | none => (.ok (), [], [])
      | some row => (.ok (), [.outboxEvent { set row with id := id }], [.outboxEvent id])

def engine : Engine Statement Statement.Reply JsError Store Write Lock :=
  ⟨exec rejects, Store.write⟩

end

/-- The database: the index compares a row with the rows it sees. -/
abbrev postgres : Engine Statement Statement.Reply JsError Store Write Lock :=
  engine Store.activeElsewhere

/-- A function that talks to the database. -/
abbrev DatabaseProgram (α : Type) : Type := Sql Statement Statement.Reply JsError α

/-- The callback of `database.transaction`. -/
abbrev TransactionProgram (α : Type) : Type := Program Statement Statement.Reply JsError α

/-- A statement on `database`, outside a transaction. -/
def execute (statement : Statement) : DatabaseProgram statement.Reply :=
  autocommit statement

/-- A statement on `transaction`. -/
def query (statement : Statement) : TransactionProgram statement.Reply :=
  Program.perform statement

/-- What an infrastructure failure may throw: anything but the report of a unique violation. -/
def Infrastructure (error : JsError) : Prop :=
  isUniqueViolation error = false

end InboxSaas.Product
