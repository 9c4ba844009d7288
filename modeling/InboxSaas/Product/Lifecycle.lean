import InboxSaas.Product.TenantValidation

/-!
# The life cycle of a tenant-validation job

The abstract model: what any operation can do to a store is one of seven moves, each on one job.
`Move.Step` says when a move is possible and what the store is after it.  `Consistent` relates the
rows of a job and its tenant connection, and every move preserves it.
-/

namespace InboxSaas.Product

open Reasoning

/-! ## Moves -/

inductive Move where
  | started (targetWorkspace : Workspace) (idempotencyKey : JsString)
      (encryptedCredentials : EncryptedTenantCredentials) (payloadFingerprint : JsString)
      (draws : StartDraws)
  | claimed (jobId leaseToken : Uuid) (now leaseExpiresAt : Time)
  | renewed (jobId leaseToken : Uuid) (now leaseExpiresAt : Time)
  | recovered (jobId : Uuid) (now : Time) (defaults : OutboxDefaults)
  | retried (jobId leaseToken : Uuid) (code : TenantValidationFailureCode) (now availableAt : Time)
      (defaults : OutboxDefaults)
  | completed (jobId leaseToken : Uuid) (microsoftTenantId : JsString) (now : Time)
  | failed (jobId leaseToken : Uuid) (code : FailureCode) (retryable : Bool) (now : Time)

def Move.jobId : Move → Uuid
  | .started _ _ _ _ draws => draws.jobId
  | .claimed jobId _ _ _ => jobId
  | .renewed jobId _ _ _ => jobId
  | .recovered jobId _ _ => jobId
  | .retried jobId _ _ _ _ _ => jobId
  | .completed jobId _ _ _ => jobId
  | .failed jobId _ _ _ _ => jobId

namespace Job

def claim (leaseToken : Uuid) (now leaseExpiresAt : Time) (job : Job) : Job :=
  { job with
    attemptCount := job.attemptCount + 1
    availableAt := now
    leaseExpiresAt := some leaseExpiresAt
    leaseToken := some leaseToken
    state := .running }

def renew (leaseExpiresAt : Time) (job : Job) : Job :=
  { job with leaseExpiresAt := some leaseExpiresAt }

def recover (now : Time) (job : Job) : Job :=
  { job with
    availableAt := now
    leaseExpiresAt := none
    leaseToken := none
    state := .queued }

def retry (code : TenantValidationFailureCode) (availableAt : Time) (job : Job) : Job :=
  { job with
    availableAt := availableAt
    failureCode := some (.reported code)
    leaseExpiresAt := none
    leaseToken := none
    retryable := some true
    state := .queued }

def complete (now : Time) (job : Job) : Job :=
  { job with
    availableAt := now
    failureCode := none
    leaseExpiresAt := none
    leaseToken := none
    retryable := none
    state := .completed }

def fail (code : FailureCode) (retryable : Bool) (now : Time) (job : Job) : Job :=
  { job with
    availableAt := now
    failureCode := some code
    leaseExpiresAt := none
    leaseToken := none
    retryable := some retryable
    state := .failed }

end Job

namespace TenantConnection

def activate (microsoftTenantId : JsString) (connection : TenantConnection) : TenantConnection :=
  { connection with microsoftTenantId := some microsoftTenantId, state := .active }

def revalidate (connection : TenantConnection) : TenantConnection :=
  { connection with state := .validating }

def reject (connection : TenantConnection) : TenantConnection :=
  { connection with state := .validationFailed }

end TenantConnection

namespace Store

def putJob (job : Job) (db : Store) : Store :=
  { db with jobs := db.jobs.put job }

def putTenantConnection (connection : TenantConnection) (db : Store) : Store :=
  { db with tenantConnections := db.tenantConnections.put connection }

def putIdempotencyRecord (record : IdempotencyRecord) (db : Store) : Store :=
  { db with idempotencyRecords := db.idempotencyRecords.put record }

def putOutboxEvent (event : OutboxEvent) (db : Store) : Store :=
  { db with outboxEvents := db.outboxEvents.put event }

end Store

/-- One move on a store: when it can happen, and the rows it leaves. -/
inductive Move.Step (db : Store) : Move → Store → Prop where
  | started {targetWorkspace : Workspace} {idempotencyKey : JsString}
      {encryptedCredentials : EncryptedTenantCredentials} {payloadFingerprint : JsString}
      {draws : StartDraws}
      (hconnection : db.tenantConnections.find draws.tenantConnectionId = none)
      (hjob : db.jobs.find draws.jobId = none)
      (hrecord : db.idempotencyRecords.find draws.idempotencyRecordId = none)
      (hkey : db.idempotencyRecord targetWorkspace.organizationId idempotencyKey = none)
      (hevent : db.outboxEvents.find draws.outboxEventId = none) :
      Move.Step db
        (.started targetWorkspace idempotencyKey encryptedCredentials payloadFingerprint draws)
        ((((db.putTenantConnection
              (newTenantConnection targetWorkspace encryptedCredentials draws)).putJob
            (newJob draws draws.tenantConnectionId)).putIdempotencyRecord
          (newIdempotencyRecord targetWorkspace idempotencyKey payloadFingerprint draws
            draws.jobId)).putOutboxEvent
        (tenantValidationRequested draws.jobId draws.now ⟨draws.outboxEventId, draws.now⟩))
  | claimed {jobId leaseToken : Uuid} {now leaseExpiresAt : Time} {job : Job}
      (hjob : db.jobs.find jobId = some job) (hguard : claimable now job)
      (hduration : now < leaseExpiresAt) :
      Move.Step db (.claimed jobId leaseToken now leaseExpiresAt)
        (db.putJob (job.claim leaseToken now leaseExpiresAt))
  | renewed {jobId leaseToken : Uuid} {now leaseExpiresAt : Time} {job : Job}
      (hjob : db.jobs.find jobId = some job) (hguard : leaseValid leaseToken now job)
      (hduration : now < leaseExpiresAt) :
      Move.Step db (.renewed jobId leaseToken now leaseExpiresAt)
        (db.putJob (job.renew leaseExpiresAt))
  | recovered {jobId : Uuid} {now : Time} {defaults : OutboxDefaults} {job : Job}
      (hjob : db.jobs.find jobId = some job) (hguard : leaseExpired now job)
      (hevent : db.outboxEvents.find defaults.id = none) :
      Move.Step db (.recovered jobId now defaults)
        ((db.putJob (job.recover now)).putOutboxEvent
          (tenantValidationRequested jobId now defaults))
  | retried {jobId leaseToken : Uuid} {code : TenantValidationFailureCode}
      {now availableAt : Time} {defaults : OutboxDefaults} {job : Job}
      {connection : TenantConnection}
      (hjob : db.jobs.find jobId = some job) (hguard : leaseValid leaseToken now job)
      (hconnection : db.tenantConnections.find job.tenantConnectionId = some connection)
      (hattempts : job.attemptCount < 3)
      (hdelay : retryAvailableAt job.attemptCount now = .ok availableAt)
      (hevent : db.outboxEvents.find defaults.id = none) :
      Move.Step db (.retried jobId leaseToken code now availableAt defaults)
        (((db.putJob (job.retry code availableAt)).putTenantConnection
            connection.revalidate).putOutboxEvent
          (tenantValidationRequested jobId availableAt defaults))
  | completed {jobId leaseToken : Uuid} {microsoftTenantId : JsString} {now : Time} {job : Job}
      {connection : TenantConnection}
      (hjob : db.jobs.find jobId = some job) (hguard : leaseValid leaseToken now job)
      (hconnection : db.tenantConnections.find job.tenantConnectionId = some connection)
      (hindex : db.activeElsewhere (connection.activate microsoftTenantId) = false) :
      Move.Step db (.completed jobId leaseToken microsoftTenantId now)
        ((db.putJob (job.complete now)).putTenantConnection
          (connection.activate microsoftTenantId))
  | failed {jobId leaseToken : Uuid} {code : FailureCode} {retryable : Bool} {now : Time}
      {job : Job} {connection : TenantConnection}
      (hjob : db.jobs.find jobId = some job) (hguard : leaseValid leaseToken now job)
      (hconnection : db.tenantConnections.find job.tenantConnectionId = some connection) :
      Move.Step db (.failed jobId leaseToken code retryable now)
        ((db.putJob (job.fail code retryable now)).putTenantConnection connection.reject)

/-- A sequence of moves. -/
inductive Moves : Store → List Move → Store → Prop where
  | nil (db : Store) : Moves db [] db
  | cons {db db₁ db' : Store} {m : Move} {ms : List Move} (head : Move.Step db m db₁)
      (tail : Moves db₁ ms db') : Moves db (m :: ms) db'

theorem Moves.single {db db' : Store} {m : Move} (h : Move.Step db m db') : Moves db [m] db' :=
  .cons h (.nil db')

/-- What every move preserves, a sequence of moves preserves. -/
theorem Moves.preserve {P : Store → Prop} (hstep : ∀ db m db', P db → Move.Step db m db' → P db')
    {db db' : Store} {ms : List Move} (h : Moves db ms db') (hp : P db) : P db' := by
  induction h with
  | nil => exact hp
  | cons head _ ih => exact ih (hstep _ _ _ hp head)

/-- What each of the moves preserves, the sequence preserves. -/
theorem Moves.preserve_mem {P : Store → Prop} {db db' : Store} {ms : List Move}
    (h : Moves db ms db') (hstep : ∀ m ∈ ms, ∀ db db', P db → Move.Step db m db' → P db')
    (hp : P db) : P db' := by
  induction h with
  | nil => exact hp
  | cons head _ ih =>
      exact ih (fun m hm => hstep m (List.mem_cons_of_mem _ hm))
        (hstep _ List.mem_cons_self _ _ hp head)

/-! ## The rows after a move -/

section

variable (db : Store) (job : Job) (connection : TenantConnection) (record : IdempotencyRecord)
  (event : OutboxEvent)

@[simp] theorem putJob_jobs : (db.putJob job).jobs = db.jobs.put job := rfl

@[simp] theorem putJob_tenantConnections :
    (db.putJob job).tenantConnections = db.tenantConnections := rfl

@[simp] theorem putJob_idempotencyRecords :
    (db.putJob job).idempotencyRecords = db.idempotencyRecords := rfl

@[simp] theorem putJob_outboxEvents : (db.putJob job).outboxEvents = db.outboxEvents := rfl

@[simp] theorem putTenantConnection_jobs : (db.putTenantConnection connection).jobs = db.jobs := rfl

@[simp] theorem putTenantConnection_tenantConnections :
    (db.putTenantConnection connection).tenantConnections =
      db.tenantConnections.put connection := rfl

@[simp] theorem putTenantConnection_idempotencyRecords :
    (db.putTenantConnection connection).idempotencyRecords = db.idempotencyRecords := rfl

@[simp] theorem putTenantConnection_outboxEvents :
    (db.putTenantConnection connection).outboxEvents = db.outboxEvents := rfl

@[simp] theorem putIdempotencyRecord_jobs : (db.putIdempotencyRecord record).jobs = db.jobs := rfl

@[simp] theorem putIdempotencyRecord_tenantConnections :
    (db.putIdempotencyRecord record).tenantConnections = db.tenantConnections := rfl

@[simp] theorem putIdempotencyRecord_idempotencyRecords :
    (db.putIdempotencyRecord record).idempotencyRecords = db.idempotencyRecords.put record := rfl

@[simp] theorem putIdempotencyRecord_outboxEvents :
    (db.putIdempotencyRecord record).outboxEvents = db.outboxEvents := rfl

@[simp] theorem putOutboxEvent_jobs : (db.putOutboxEvent event).jobs = db.jobs := rfl

@[simp] theorem putOutboxEvent_tenantConnections :
    (db.putOutboxEvent event).tenantConnections = db.tenantConnections := rfl

@[simp] theorem putOutboxEvent_idempotencyRecords :
    (db.putOutboxEvent event).idempotencyRecords = db.idempotencyRecords := rfl

@[simp] theorem putOutboxEvent_outboxEvents :
    (db.putOutboxEvent event).outboxEvents = db.outboxEvents.put event := rfl

end

/-! ## Consistency -/

/-- The rows of a job and of its tenant connection fit together. -/
structure Agrees (job : Job) (connection : TenantConnection) : Prop where
  validating : (job.state = .queued ∨ job.state = .running) ↔ connection.state = .validating
  active : job.state = .completed ↔ connection.state = .active
  validationFailed : job.state = .failed ↔ connection.state = .validationFailed
  tenant : connection.microsoftTenantId ≠ none ↔ connection.state = .active
  queued : job.state = .queued → job.leaseToken = none ∧ job.leaseExpiresAt = none
  running : job.state = .running →
    job.leaseToken ≠ none ∧ job.leaseExpiresAt ≠ none ∧ 1 ≤ job.attemptCount
  completed : job.state = .completed → job.failureCode = none ∧ job.retryable = none ∧
    job.leaseToken = none ∧ job.leaseExpiresAt = none
  failed : job.state = .failed → job.failureCode ≠ none ∧ job.retryable ≠ none ∧
    job.leaseToken = none ∧ job.leaseExpiresAt = none
  cancelled : job.state ≠ .cancelled

structure Consistent (db : Store) : Prop where
  connection {job : Job} {id : Uuid} (h : db.jobs.find id = some job) :
    ∃ connection, db.tenantConnections.find job.tenantConnectionId = some connection ∧
      Agrees job connection
  job {connection : TenantConnection} {id : Uuid}
    (h : db.tenantConnections.find id = some connection) :
    ∃ jobId job, db.jobs.find jobId = some job ∧ job.tenantConnectionId = id
  unique {a b : Uuid} {job job' : Job} (ha : db.jobs.find a = some job)
    (hb : db.jobs.find b = some job') (h : job.tenantConnectionId = job'.tenantConnectionId) : a = b

theorem leaseExpired_running {now : Time} {job : Job} (h : leaseExpired now job = true) :
    job.state = .running := by
  unfold leaseExpired at h
  rw [Bool.and_eq_true, decide_eq_true_iff] at h
  exact h.1

theorem leaseValid_running {leaseToken : Uuid} {now : Time} {job : Job}
    (h : leaseValid leaseToken now job = true) : job.state = .running := by
  unfold leaseValid at h
  rw [Bool.and_eq_true, Bool.and_eq_true, decide_eq_true_iff] at h
  exact h.1.1

theorem leaseValid_token {leaseToken : Uuid} {now : Time} {job : Job}
    (h : leaseValid leaseToken now job = true) : job.leaseToken = some leaseToken := by
  unfold leaseValid at h
  rw [Bool.and_eq_true, Bool.and_eq_true, decide_eq_true_iff, decide_eq_true_iff] at h
  exact h.1.2

theorem claimable_open {now : Time} {job : Job} (h : claimable now job = true) :
    job.state = .queued ∨ job.state = .running := by
  unfold claimable at h
  rw [Bool.or_eq_true, Bool.and_eq_true, decide_eq_true_iff] at h
  rcases h with h | h
  · exact .inl h.1
  · exact .inr (leaseExpired_running h)

namespace Agrees

variable {job : Job} {connection : TenantConnection}

theorem claim (h : Agrees job connection) {leaseToken : Uuid} {now leaseExpiresAt : Time}
    (hg : claimable now job = true) : Agrees (job.claim leaseToken now leaseExpiresAt) connection := by
  have hv := h.validating.mp (claimable_open hg)
  have ht := h.tenant
  rw [hv] at ht
  constructor <;> simp [Job.claim, hv, ht]

theorem renew (h : Agrees job connection) {leaseToken : Uuid} {now leaseExpiresAt : Time}
    (hg : leaseValid leaseToken now job = true) : Agrees (job.renew leaseExpiresAt) connection := by
  have hr := leaseValid_running hg
  have hv := h.validating.mp (.inr hr)
  have hk := (h.running hr).1
  have hc := (h.running hr).2.2
  have ht := h.tenant
  rw [hv] at ht
  constructor <;> simp [Job.renew, hr, hv, ht, hk, hc]

theorem recover (h : Agrees job connection) {now : Time} (hg : leaseExpired now job = true) :
    Agrees (job.recover now) connection := by
  have hv := h.validating.mp (.inr (leaseExpired_running hg))
  have ht := h.tenant
  rw [hv] at ht
  constructor <;> simp [Job.recover, hv, ht]

/-- An unfinished job's connection has no Microsoft tenant. -/
theorem tenant_of_running (h : Agrees job connection) (hr : job.state = .running) :
    connection.microsoftTenantId = none := by
  have hv := h.validating.mp (.inr hr)
  have ht := h.tenant
  rw [hv] at ht
  simpa using ht

theorem retry (h : Agrees job connection) {code : TenantValidationFailureCode} {availableAt : Time}
    (hr : job.state = .running) : Agrees (job.retry code availableAt) connection.revalidate := by
  have ht := h.tenant_of_running hr
  constructor <;> simp [Job.retry, TenantConnection.revalidate, ht]

theorem complete (job : Job) (connection : TenantConnection) (microsoftTenantId : JsString)
    (now : Time) : Agrees (job.complete now) (connection.activate microsoftTenantId) := by
  constructor <;> simp [Job.complete, TenantConnection.activate]

theorem fail (h : Agrees job connection) {code : FailureCode} {retryable : Bool} {now : Time}
    (hr : job.state = .running) : Agrees (job.fail code retryable now) connection.reject := by
  have ht := h.tenant_of_running hr
  constructor <;> simp [Job.fail, TenantConnection.reject, ht]

end Agrees

namespace Consistent

theorem empty (workspaces : Table Workspace) : Consistent (.empty workspaces) where
  connection h := by cases h
  job h := by cases h
  unique ha := by cases ha

/-- A job and its connection are rewritten together. -/
theorem update {db : Store} (h : Consistent db) {job job' : Job}
    {connection' : TenantConnection} (hjob : db.jobs.find job.id = some job)
    (hid : job'.id = job.id) (htc : job'.tenantConnectionId = job.tenantConnectionId)
    (hcid : connection'.id = job.tenantConnectionId) (ha : Agrees job' connection') :
    Consistent ((db.putJob job').putTenantConnection connection') where
  connection {other id} ho := by
    simp only [putTenantConnection_jobs, putJob_jobs, Table.find_put, key_job, hid] at ho
    simp only [putTenantConnection_tenantConnections, putJob_tenantConnections, Table.find_put,
      key_tenantConnection, hcid]
    split at ho
    · cases ho
      exact ⟨connection', by rw [if_pos htc.symm], ha⟩
    · rename_i hne
      obtain ⟨c, hc, hac⟩ := h.connection ho
      -- two jobs have two connections, so the other ones are untouched
      have hne' : job.tenantConnectionId ≠ other.tenantConnectionId := by
        intro he
        exact hne (h.unique hjob ho he)
      exact ⟨c, by rw [if_neg hne', hc], hac⟩
  job {c id} hc := by
    simp only [putTenantConnection_tenantConnections, putJob_tenantConnections, Table.find_put,
      key_tenantConnection, hcid] at hc
    simp only [putTenantConnection_jobs, putJob_jobs, Table.find_put, key_job, hid]
    split at hc
    · rename_i he
      exact ⟨job.id, job', by rw [if_pos rfl], htc.trans he⟩
    · rename_i hne
      obtain ⟨jobId, other, ho, he⟩ := h.job hc
      have hne' : job.id ≠ jobId := by
        intro hi
        rw [← hi, hjob] at ho
        cases ho
        exact hne he
      exact ⟨jobId, other, by rw [if_neg hne', ho], he⟩
  unique {a b x y} hx hy he := by
    simp only [putTenantConnection_jobs, putJob_jobs, Table.find_put, key_job, hid] at hx hy
    split at hx
    · cases hx
      rename_i hxa
      split at hy
      · rename_i hyb
        exact hxa.symm.trans hyb
      · rw [htc] at he
        exact hxa ▸ h.unique hjob hy he
    · split at hy
      · cases hy
        rename_i hyb
        rw [htc] at he
        exact hyb ▸ h.unique hx hjob he
      · exact h.unique hx hy he

/-- Only the job is rewritten. -/
theorem updateJob {db : Store} (h : Consistent db) {job job' : Job} {connection : TenantConnection}
    (hjob : db.jobs.find job.id = some job) (hid : job'.id = job.id)
    (htc : job'.tenantConnectionId = job.tenantConnectionId)
    (hconnection : db.tenantConnections.find job.tenantConnectionId = some connection)
    (ha : Agrees job' connection) : Consistent (db.putJob job') := by
  have hu := h.update hjob hid htc (Table.key_of_find hconnection) ha
  have hsame : (db.putJob job').putTenantConnection connection = db.putJob job' := by
    change { db.putJob job' with tenantConnections := db.tenantConnections.put connection } = _
    rw [Table.put_of_find hconnection]
    rfl
  rwa [hsame] at hu

/-- A new connection with its new job. -/
theorem start {db : Store} (h : Consistent db) {targetWorkspace : Workspace}
    {encryptedCredentials : EncryptedTenantCredentials} {draws : StartDraws}
    (hconnection : db.tenantConnections.find draws.tenantConnectionId = none)
    (hjob : db.jobs.find draws.jobId = none) :
    Consistent ((db.putTenantConnection
      (newTenantConnection targetWorkspace encryptedCredentials draws)).putJob
      (newJob draws draws.tenantConnectionId)) where
  connection {other id} ho := by
    simp only [putJob_jobs, putTenantConnection_jobs, Table.find_put] at ho
    simp only [putJob_tenantConnections, putTenantConnection_tenantConnections, Table.find_put]
    split at ho
    · cases ho
      exact ⟨_, if_pos rfl, by constructor <;> simp [newJob, newTenantConnection]⟩
    · obtain ⟨c, hc, ha⟩ := h.connection ho
      have hne : draws.tenantConnectionId ≠ other.tenantConnectionId := by
        intro he
        rw [← he, hconnection] at hc
        cases hc
      exact ⟨c, (if_neg hne).trans hc, ha⟩
  job {c id} hc := by
    simp only [putJob_tenantConnections, putTenantConnection_tenantConnections,
      Table.find_put] at hc
    simp only [putJob_jobs, putTenantConnection_jobs, Table.find_put]
    split at hc
    · rename_i he
      exact ⟨draws.jobId, _, if_pos rfl, he⟩
    · obtain ⟨jobId, other, ho, he⟩ := h.job hc
      have hne : draws.jobId ≠ jobId := by
        intro hi
        rw [← hi, hjob] at ho
        cases ho
      exact ⟨jobId, other, (if_neg hne).trans ho, he⟩
  unique {a b x y} hx hy he := by
    simp only [putJob_jobs, putTenantConnection_jobs, Table.find_put] at hx hy
    -- a stored job's connection is stored, so it is not the new one
    have hold : ∀ {other : Job} {id : Uuid}, db.jobs.find id = some other →
        other.tenantConnectionId ≠ draws.tenantConnectionId := by
      intro other id ho hi
      obtain ⟨c, hc, _⟩ := h.connection ho
      rw [hi, hconnection] at hc
      cases hc
    split at hx
    · cases hx
      rename_i hxa
      split at hy
      · rename_i hyb
        exact hxa.symm.trans hyb
      · exact absurd he.symm (hold hy)
    · split at hy
      · cases hy
        exact absurd he (hold hx)
      · exact h.unique hx hy he

/-- Records and events do not matter to jobs and connections. -/
theorem congr {db db' : Store} (h : Consistent db) (hjobs : db'.jobs = db.jobs)
    (hconnections : db'.tenantConnections = db.tenantConnections) : Consistent db' := by
  constructor <;> rw [hjobs] <;> try rw [hconnections]
  · exact h.connection
  · exact h.job
  · exact h.unique

/-- No index stops a job that is rewritten under its own connection. -/
theorem nonTerminalElsewhere {db : Store} (h : Consistent db) {job job' : Job}
    (hjob : db.jobs.find job.id = some job) (hid : job'.id = job.id)
    (htc : job'.tenantConnectionId = job.tenantConnectionId) :
    db.nonTerminalElsewhere job' = false := by
  rw [Store.nonTerminalElsewhere, List.any_eq_false]
  intro other ho
  have hfo := Table.find_of_mem (Table.mem_def.mpr ho)
  by_cases he : other.tenantConnectionId = job'.tenantConnectionId
  · have hkey : other.id = job.id := h.unique hfo hjob (he.trans htc)
    simp [hkey, hid]
  · simp [he]

/-- Every move keeps jobs and connections in step. -/
theorem step {db db' : Store} {m : Move} (h : Consistent db) (hs : m.Step db db') :
    Consistent db' := by
  cases hs with
  | started hconnection hjob => exact (h.start hconnection hjob).congr rfl rfl
  | claimed hjob hguard =>
      rename_i job _
      obtain ⟨connection, hc, ha⟩ := h.connection hjob
      rw [← Table.key_of_find hjob] at hjob
      exact h.updateJob hjob rfl rfl hc (ha.claim hguard)
  | renewed hjob hguard =>
      rename_i job _
      obtain ⟨connection, hc, ha⟩ := h.connection hjob
      rw [← Table.key_of_find hjob] at hjob
      exact h.updateJob hjob rfl rfl hc (ha.renew hguard)
  | recovered hjob hguard =>
      rename_i now defaults job _
      obtain ⟨connection, hc, ha⟩ := h.connection hjob
      rw [← Table.key_of_find hjob] at hjob
      have hu : Consistent (db.putJob (job.recover now)) :=
        h.updateJob hjob rfl rfl hc (ha.recover hguard)
      exact hu.congr rfl rfl
  | retried hjob hguard hconnection =>
      rename_i code now availableAt defaults job connection _ _ _
      obtain ⟨c, hc, ha⟩ := h.connection hjob
      rw [hconnection] at hc
      cases hc
      rw [← Table.key_of_find hjob] at hjob
      have hu : Consistent ((db.putJob (job.retry code availableAt)).putTenantConnection
          connection.revalidate) :=
        h.update hjob rfl rfl (Table.key_of_find hconnection) (ha.retry (leaseValid_running hguard))
      exact hu.congr rfl rfl
  | completed hjob hguard hconnection =>
      rw [← Table.key_of_find hjob] at hjob
      exact h.update hjob rfl rfl (Table.key_of_find hconnection) (.complete _ _ _ _)
  | failed hjob hguard hconnection =>
      obtain ⟨c, hc, ha⟩ := h.connection hjob
      rw [hconnection] at hc
      cases hc
      rw [← Table.key_of_find hjob] at hjob
      exact h.update hjob rfl rfl (Table.key_of_find hconnection)
        (ha.fail (leaseValid_running hguard))

theorem moves {db db' : Store} {ms : List Move} (h : Consistent db) (hs : Moves db ms db') :
    Consistent db' :=
  hs.preserve (fun _ _ _ hc hm => hc.step hm) h

end Consistent

/-! ## The row of one job -/

/-- What a move does to the row of its job. -/
inductive Move.Row : Move → Option Job → Option Job → Prop where
  | started {targetWorkspace : Workspace} {idempotencyKey : JsString}
      {encryptedCredentials : EncryptedTenantCredentials} {payloadFingerprint : JsString}
      {draws : StartDraws} :
      Move.Row (.started targetWorkspace idempotencyKey encryptedCredentials payloadFingerprint
        draws) none (some (newJob draws draws.tenantConnectionId))
  | claimed {jobId leaseToken : Uuid} {now leaseExpiresAt : Time} {job : Job}
      (hguard : claimable now job = true) :
      Move.Row (.claimed jobId leaseToken now leaseExpiresAt) (some job)
        (some (job.claim leaseToken now leaseExpiresAt))
  | renewed {jobId leaseToken : Uuid} {now leaseExpiresAt : Time} {job : Job}
      (hguard : leaseValid leaseToken now job = true) :
      Move.Row (.renewed jobId leaseToken now leaseExpiresAt) (some job)
        (some (job.renew leaseExpiresAt))
  | recovered {jobId : Uuid} {now : Time} {defaults : OutboxDefaults} {job : Job}
      (hguard : leaseExpired now job = true) :
      Move.Row (.recovered jobId now defaults) (some job) (some (job.recover now))
  | retried {jobId leaseToken : Uuid} {code : TenantValidationFailureCode}
      {now availableAt : Time} {defaults : OutboxDefaults} {job : Job}
      (hguard : leaseValid leaseToken now job = true) (hattempts : job.attemptCount < 3) :
      Move.Row (.retried jobId leaseToken code now availableAt defaults) (some job)
        (some (job.retry code availableAt))
  | completed {jobId leaseToken : Uuid} {microsoftTenantId : JsString} {now : Time} {job : Job}
      (hguard : leaseValid leaseToken now job = true) :
      Move.Row (.completed jobId leaseToken microsoftTenantId now) (some job)
        (some (job.complete now))
  | failed {jobId leaseToken : Uuid} {code : FailureCode} {retryable : Bool} {now : Time}
      {job : Job} (hguard : leaseValid leaseToken now job = true) :
      Move.Row (.failed jobId leaseToken code retryable now) (some job)
        (some (job.fail code retryable now))

theorem Move.Row.written {m : Move} {before after : Option Job} (h : m.Row before after) :
    ∃ job, after = some job := by
  cases h <;> exact ⟨_, rfl⟩

/-- A row is written back under the id it was found by. -/
theorem find_put_job {db : Store} {id : Uuid} {job job' : Job} (h : db.jobs.find id = some job)
    (hid : job'.id = job.id) : (db.jobs.put job').find id = some job' := by
  have hkey : key job' = id := hid.trans (Store.job_id h)
  rw [Table.find_put, if_pos hkey]

theorem Move.Row.of_eq {m : Move} {a b x y : Option Job} (h : m.Row a b) (hx : x = a) (hy : y = b) :
    m.Row x y := by
  rwa [hx, hy]

theorem Move.Step.row {db db' : Store} {m : Move} (h : m.Step db db') :
    m.Row (db.jobs.find m.jobId) (db'.jobs.find m.jobId) := by
  cases h with
  | started hconnection hjob => exact Row.started.of_eq hjob (Table.find_put_self _ _)
  | claimed hjob hguard => exact (Row.claimed hguard).of_eq hjob (find_put_job hjob rfl)
  | renewed hjob hguard => exact (Row.renewed hguard).of_eq hjob (find_put_job hjob rfl)
  | recovered hjob hguard => exact (Row.recovered hguard).of_eq hjob (find_put_job hjob rfl)
  | retried hjob hguard hconnection hattempts =>
      exact (Row.retried hguard hattempts).of_eq hjob (find_put_job hjob rfl)
  | completed hjob hguard => exact (Row.completed hguard).of_eq hjob (find_put_job hjob rfl)
  | failed hjob hguard => exact (Row.failed hguard).of_eq hjob (find_put_job hjob rfl)

/-! ## The outbox -/

/-- The event a move inserts. -/
def Move.event : Move → Option OutboxEvent
  | .started _ _ _ _ draws =>
      some (tenantValidationRequested draws.jobId draws.now ⟨draws.outboxEventId, draws.now⟩)
  | .recovered jobId now defaults => some (tenantValidationRequested jobId now defaults)
  | .retried jobId _ _ _ availableAt defaults =>
      some (tenantValidationRequested jobId availableAt defaults)
  | _ => none

theorem Move.Step.outbox {db db' : Store} {m : Move} (h : m.Step db db') :
    (m.event = none ∧ db'.outboxEvents = db.outboxEvents) ∨
      ∃ event, m.event = some event ∧ db.outboxEvents.find event.id = none ∧
        db'.outboxEvents = db.outboxEvents.put event := by
  cases h with
  | started hconnection hjob hrecord hkey hevent => exact .inr ⟨_, rfl, hevent, rfl⟩
  | claimed => exact .inl ⟨rfl, rfl⟩
  | renewed => exact .inl ⟨rfl, rfl⟩
  | recovered hjob hguard hevent => exact .inr ⟨_, rfl, hevent, rfl⟩
  | retried hjob hguard hconnection hattempts hdelay hevent => exact .inr ⟨_, rfl, hevent, rfl⟩
  | completed => exact .inl ⟨rfl, rfl⟩
  | failed => exact .inl ⟨rfl, rfl⟩

/-- An event id that no move uses stays unused. -/
theorem Moves.undrawn {db db' : Store} {ms : List Move} (h : Moves db ms db') {id : Uuid}
    (hnone : db.outboxEvents.find id = none)
    (hne : ∀ m ∈ ms, ∀ event, m.event = some event → event.id ≠ id) :
    db'.outboxEvents.find id = none := by
  refine h.preserve_mem (P := fun db => db.outboxEvents.find id = none)
    (fun m hm db db' hp hs => ?_) hnone
  rcases hs.outbox with ⟨-, hsame⟩ | ⟨event, hevent, -, hput⟩
  · rw [hsame, hp]
  · rw [hput, Table.find_put_ne _ (hne m hm event hevent), hp]

/-- A new event is pending, is for the job of the move and carries its id. -/
theorem Move.event_eq {m : Move} {event : OutboxEvent} (h : m.event = some event) :
    event.jobId = m.jobId ∧ event.payload.jobId = m.jobId ∧ event.dispatchedAt = none ∧
      event.type = .tenantValidationRequested := by
  cases m with
  | started => cases h; exact ⟨rfl, rfl, rfl, rfl⟩
  | recovered => cases h; exact ⟨rfl, rfl, rfl, rfl⟩
  | retried => cases h; exact ⟨rfl, rfl, rfl, rfl⟩
  | claimed => cases h
  | renewed => cases h
  | completed => cases h
  | failed => cases h

/-- A move that leaves its job queued wakes a worker up when the job is due. -/
theorem Move.Row.event {m : Move} {before : Option Job} {job : Job}
    (h : m.Row before (some job)) (hq : job.state = .queued) :
    ∃ event, m.event = some event ∧ event.availableAt = job.availableAt := by
  cases h with
  | started => exact ⟨_, rfl, rfl⟩
  | recovered => exact ⟨_, rfl, rfl⟩
  | retried => exact ⟨_, rfl, rfl⟩
  | claimed => cases hq
  | renewed hguard => exact absurd hq (by simp [Job.renew, leaseValid_running hguard])
  | completed => cases hq
  | failed => cases hq

end InboxSaas.Product
