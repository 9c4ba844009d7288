import InboxSaas.Product.ControlPlane
import InboxSaas.Product.Operations
import InboxSaas.Product.Calls

/-!
# References between rows

What the foreign keys of the schema promise holds after every call: no call deletes a row, and a
call that adds one has found what it refers to.
-/

namespace InboxSaas.Product

open Reasoning

/-- The same organizations and names with other product tables. -/
def ControlPlaneStore.withProduct (db : ControlPlaneStore) (product : Store) : ControlPlaneStore :=
  { db with product := product }

namespace ForeignKeys

variable {db : ControlPlaneStore} {product product' : Store}

/-! ## One row -/

theorem putJob (h : ForeignKeys (db.withProduct product)) (job : Job)
    (hconnection : ∃ connection ∈ product.tenantConnections,
      connection.id = job.tenantConnectionId) :
    ForeignKeys (db.withProduct (product.putJob job)) where
  workspace_organization := h.workspace_organization
  tenantConnection_organization := h.tenantConnection_organization
  tenantConnection_workspace := h.tenantConnection_workspace
  job_tenantConnection row hrow := by
    rcases Table.mem_put.mp hrow with rfl | ⟨hold, -⟩
    · exact hconnection
    · exact h.job_tenantConnection row hold
  idempotencyRecord_organization := h.idempotencyRecord_organization
  idempotencyRecord_job row hrow := Table.exists_key_put (h.idempotencyRecord_job row hrow)
  outboxEvent_job row hrow := Table.exists_key_put (h.outboxEvent_job row hrow)

theorem putTenantConnection (h : ForeignKeys (db.withProduct product)) (row : TenantConnection)
    (hworkspace : ∃ workspace ∈ product.workspaces,
      workspace.id = row.workspaceId ∧ workspace.organizationId = row.organizationId) :
    ForeignKeys (db.withProduct (product.putTenantConnection row)) where
  workspace_organization := h.workspace_organization
  tenantConnection_organization other hother := by
    rcases Table.mem_put.mp hother with rfl | ⟨hold, -⟩
    · obtain ⟨workspace, hmem, -, horganization⟩ := hworkspace
      rw [← horganization]
      exact h.workspace_organization workspace hmem
    · exact h.tenantConnection_organization other hold
  tenantConnection_workspace other hother := by
    rcases Table.mem_put.mp hother with rfl | ⟨hold, -⟩
    · exact hworkspace
    · exact h.tenantConnection_workspace other hold
  job_tenantConnection other hother := Table.exists_key_put (h.job_tenantConnection other hother)
  idempotencyRecord_organization := h.idempotencyRecord_organization
  idempotencyRecord_job := h.idempotencyRecord_job
  outboxEvent_job := h.outboxEvent_job

theorem putIdempotencyRecord (h : ForeignKeys (db.withProduct product)) (row : IdempotencyRecord)
    (horganization : ∃ organization ∈ db.organizations, organization.id = row.organizationId)
    (hjob : ∃ job ∈ product.jobs, job.id = row.jobId) :
    ForeignKeys (db.withProduct (product.putIdempotencyRecord row)) where
  workspace_organization := h.workspace_organization
  tenantConnection_organization := h.tenantConnection_organization
  tenantConnection_workspace := h.tenantConnection_workspace
  job_tenantConnection := h.job_tenantConnection
  idempotencyRecord_organization other hother := by
    rcases Table.mem_put.mp hother with rfl | ⟨hold, -⟩
    · exact horganization
    · exact h.idempotencyRecord_organization other hold
  idempotencyRecord_job other hother := by
    rcases Table.mem_put.mp hother with rfl | ⟨hold, -⟩
    · exact hjob
    · exact h.idempotencyRecord_job other hold
  outboxEvent_job := h.outboxEvent_job

theorem putOutboxEvent (h : ForeignKeys (db.withProduct product)) (row : OutboxEvent)
    (hjob : ∃ job ∈ product.jobs, job.id = row.jobId) :
    ForeignKeys (db.withProduct (product.putOutboxEvent row)) where
  workspace_organization := h.workspace_organization
  tenantConnection_organization := h.tenantConnection_organization
  tenantConnection_workspace := h.tenantConnection_workspace
  job_tenantConnection := h.job_tenantConnection
  idempotencyRecord_organization := h.idempotencyRecord_organization
  idempotencyRecord_job := h.idempotencyRecord_job
  outboxEvent_job other hother := by
    rcases Table.mem_put.mp hother with rfl | ⟨hold, -⟩
    · exact hjob
    · exact h.outboxEvent_job other hold

/-- A stored job is rewritten with the connection it has. -/
theorem rewriteJob (h : ForeignKeys (db.withProduct product)) {id : Uuid} {job : Job}
    (hjob : product.jobs.find id = some job) (job' : Job)
    (hconnection : job'.tenantConnectionId = job.tenantConnectionId) :
    ForeignKeys (db.withProduct (product.putJob job')) :=
  h.putJob job' (hconnection ▸ h.job_tenantConnection job (Table.mem_of_find hjob))

/-- A stored connection is rewritten in its workspace. -/
theorem rewriteTenantConnection (h : ForeignKeys (db.withProduct product)) {id : Uuid}
    {row : TenantConnection} (hrow : product.tenantConnections.find id = some row)
    (row' : TenantConnection) (hworkspace : row'.workspaceId = row.workspaceId)
    (horganization : row'.organizationId = row.organizationId) :
    ForeignKeys (db.withProduct (product.putTenantConnection row')) := by
  apply h.putTenantConnection row'
  rw [hworkspace, horganization]
  exact h.tenantConnection_workspace row (Table.mem_of_find hrow)

/-! ## Moves and calls -/

theorem step (h : ForeignKeys (db.withProduct product)) {m : Move} (hstep : m.Step product product')
    (hstarted : ∀ w k e f d, m = .started w k e f d → w ∈ product.workspaces) :
    ForeignKeys (db.withProduct product') := by
  cases hstep with
  | @started targetWorkspace idempotencyKey encryptedCredentials payloadFingerprint draws =>
      have hmem := hstarted _ _ _ _ _ rfl
      have hconnection := h.putTenantConnection
        (newTenantConnection targetWorkspace encryptedCredentials draws)
        ⟨targetWorkspace, hmem, rfl, rfl⟩
      have hjob := hconnection.putJob (newJob draws draws.tenantConnectionId)
        ⟨_, Table.mem_put_self _ _, rfl⟩
      have hrecord := hjob.putIdempotencyRecord
        (newIdempotencyRecord targetWorkspace idempotencyKey payloadFingerprint draws draws.jobId)
        (h.workspace_organization targetWorkspace hmem) ⟨_, Table.mem_put_self _ _, rfl⟩
      exact hrecord.putOutboxEvent _ ⟨_, Table.mem_put_self _ _, rfl⟩
  | claimed hjob => exact h.rewriteJob hjob _ rfl
  | renewed hjob => exact h.rewriteJob hjob _ rfl
  | @recovered jobId now defaults job hjob =>
      have hid : job.id = jobId := Store.job_id hjob
      exact (h.rewriteJob hjob (job.recover now) rfl).putOutboxEvent _
        ⟨_, Table.mem_put_self _ _, hid⟩
  | @retried jobId leaseToken code now availableAt defaults job connection hjob _ hconnection =>
      have hid : job.id = jobId := Store.job_id hjob
      exact ((h.rewriteJob hjob (job.retry code availableAt) rfl).rewriteTenantConnection hconnection
        connection.revalidate rfl rfl).putOutboxEvent _ ⟨_, Table.mem_put_self _ _, hid⟩
  | @completed _ _ microsoftTenantId now job connection hjob _ hconnection =>
      exact (h.rewriteJob hjob (job.complete now) rfl).rewriteTenantConnection hconnection
        (connection.activate microsoftTenantId) rfl rfl
  | @failed _ _ code retryable now job connection hjob _ hconnection =>
      exact (h.rewriteJob hjob (job.fail code retryable now) rfl).rewriteTenantConnection hconnection
        connection.reject rfl rfl

theorem call (h : ForeignKeys (db.withProduct product)) (hc : Consistent product) {call : Call}
    {o : Except JsError call.Result} (hruns : call.Runs product o product') :
    ForeignKeys (db.withProduct product') := by
  have hother : call.isStart = false → ForeignKeys (db.withProduct product') := by
    intro hcall
    refine hruns.preserve (P := fun p => ForeignKeys (db.withProduct p)) hc hcall ?_ h
    rintro m p p' hnot hp hstep
    refine hp.step hstep fun w k e f d hm => ?_
    subst hm
    exact absurd trivial hnot
  cases call with
  | start grants input cipher draws =>
      obtain ⟨s', hrun⟩ := hruns
      rcases runs_start_cases hrun with ⟨-, rfl, -⟩ |
        ⟨targetWorkspace, encryptedCredentials, payloadFingerprint, hadmits, htx⟩
      · exact h
      · obtain ⟨-, hcommit⟩ := runs_startTransaction (fun _ he => he) hc htx
        obtain ⟨id, -, hfind⟩ := Option.bind_eq_some_iff.mp hadmits.found
        cases hcommit with
        | unchanged => exact h
        | created hmove =>
            refine h.step hmove fun w k e f d he => ?_
            cases he
            exact Table.mem_of_find hfind
  | claim => exact hother rfl
  | renew => exact hother rfl
  | recover => exact hother rfl
  | apply => exact hother rfl

end ForeignKeys

end InboxSaas.Product
