import InboxSaas.Product.Idempotency
import InboxSaas.Product.JobRows

/-!
# What every call keeps

No call deletes a row or moves one to another owner: workspaces and idempotency records stay as they
are, a job keeps its connection, and a connection its workspace.  Claims, renewals, recoveries and
results do more: they only rewrite stored rows and add events, whatever the order of their
statements.
-/

namespace InboxSaas.Product

open Reasoning

/-- What no call ever takes back. -/
structure Keeps (db db' : Store) : Prop where
  workspaces : db'.workspaces = db.workspaces
  record {organizationId : Uuid} {key : JsString} {record : IdempotencyRecord}
    (h : db.idempotencyRecord organizationId key = some record) :
    db'.idempotencyRecord organizationId key = some record
  job {id : Uuid} {job : Job} (h : db.jobs.find id = some job) :
    ∃ job', db'.jobs.find id = some job' ∧ job'.tenantConnectionId = job.tenantConnectionId
  connection {id : Uuid} {connection : TenantConnection}
    (h : db.tenantConnections.find id = some connection) :
    ∃ connection', db'.tenantConnections.find id = some connection' ∧
      connection'.workspaceId = connection.workspaceId ∧
      connection'.organizationId = connection.organizationId
  event {id : Uuid} (h : (db.outboxEvents.find id).isSome = true) :
    (db'.outboxEvents.find id).isSome = true

namespace Keeps

theorem refl (db : Store) : Keeps db db where
  workspaces := rfl
  record h := h
  job h := ⟨_, h, rfl⟩
  connection h := ⟨_, h, rfl, rfl⟩
  event h := h

theorem trans {db db₁ db' : Store} (h : Keeps db db₁) (h' : Keeps db₁ db') : Keeps db db' where
  workspaces := h'.workspaces.trans h.workspaces
  record hr := h'.record (h.record hr)
  job hj := by
    obtain ⟨job₁, hjob₁, htc₁⟩ := h.job hj
    obtain ⟨job', hjob', htc'⟩ := h'.job hjob₁
    exact ⟨job', hjob', htc'.trans htc₁⟩
  connection hc := by
    obtain ⟨c₁, hc₁, hw₁, ho₁⟩ := h.connection hc
    obtain ⟨c', hc', hw', ho'⟩ := h'.connection hc₁
    exact ⟨c', hc', hw'.trans hw₁, ho'.trans ho₁⟩
  event he := h'.event (h.event he)

/-- One job is written over itself, or is new. -/
theorem putJob {db : Store} {row : Job}
    (h : ∀ job, db.jobs.find row.id = some job → row.tenantConnectionId = job.tenantConnectionId) :
    Keeps db (db.putJob row) where
  workspaces := rfl
  record hr := hr
  job {id job} hj := by
    by_cases hid : row.id = id
    · subst hid
      exact ⟨row, Table.find_put_self _ _, h job hj⟩
    · exact ⟨job, (Table.find_put_ne _ hid).trans hj, rfl⟩
  connection hc := ⟨_, hc, rfl, rfl⟩
  event he := he

theorem putTenantConnection {db : Store} {row : TenantConnection}
    (h : ∀ connection, db.tenantConnections.find row.id = some connection →
      row.workspaceId = connection.workspaceId ∧ row.organizationId = connection.organizationId) :
    Keeps db (db.putTenantConnection row) where
  workspaces := rfl
  record hr := hr
  job hj := ⟨_, hj, rfl⟩
  connection {id connection} hc := by
    by_cases hid : row.id = id
    · subst hid
      exact ⟨row, Table.find_put_self _ _, h connection hc⟩
    · exact ⟨connection, (Table.find_put_ne _ hid).trans hc, rfl, rfl⟩
  event he := he

theorem putIdempotencyRecord {db : Store} {row : IdempotencyRecord}
    (h : db.idempotencyRecords.find row.id = none) : Keeps db (db.putIdempotencyRecord row) where
  workspaces := rfl
  record hr := by
    refine (idempotencyRecord_put h _ _).trans ?_
    rw [hr, Option.some_or]
  job hj := ⟨_, hj, rfl⟩
  connection hc := ⟨_, hc, rfl, rfl⟩
  event he := he

theorem putOutboxEvent (db : Store) (row : OutboxEvent) : Keeps db (db.putOutboxEvent row) where
  workspaces := rfl
  record hr := hr
  job hj := ⟨_, hj, rfl⟩
  connection hc := ⟨_, hc, rfl, rfl⟩
  event {id} he := by
    change ((db.outboxEvents.put row).find id).isSome = true
    rw [Table.find_put]
    split
    · rfl
    · exact he

end Keeps

/-! ## Rewriting stored rows -/

/-- Keys stay as they are, but for events with one of the ids `drawn`. -/
structure Rewritten (drawn : Uuid → Prop) (db db' : Store) : Prop extends Keeps db db' where
  connectionIds : db'.tenantConnections.rows.map key = db.tenantConnections.rows.map key
  jobIds : db'.jobs.rows.map key = db.jobs.rows.map key
  records : db'.idempotencyRecords = db.idempotencyRecords
  events {id : Uuid} (h : (db'.outboxEvents.find id).isSome = true) :
    (db.outboxEvents.find id).isSome = true ∨ drawn id

namespace Rewritten

variable {drawn : Uuid → Prop}

theorem refl (db : Store) : Rewritten drawn db db where
  toKeeps := .refl db
  connectionIds := rfl
  jobIds := rfl
  records := rfl
  events h := .inl h

theorem trans {db db₁ db' : Store} (h : Rewritten drawn db db₁) (h' : Rewritten drawn db₁ db') :
    Rewritten drawn db db' where
  toKeeps := h.toKeeps.trans h'.toKeeps
  connectionIds := h'.connectionIds.trans h.connectionIds
  jobIds := h'.jobIds.trans h.jobIds
  records := h'.records.trans h.records
  events he := by
    rcases h'.events he with he | hd
    · exact h.events he
    · exact .inr hd

end Rewritten

/-- The write is a new version of a stored row, or an event with one of the ids `drawn`. -/
def Write.Rewrites (drawn : Uuid → Prop) (db : Store) : Write → Prop
  | .tenantConnection row => ∃ connection, db.tenantConnections.find row.id = some connection ∧
      row.workspaceId = connection.workspaceId ∧ row.organizationId = connection.organizationId
  | .job row => ∃ job, db.jobs.find row.id = some job ∧
      row.tenantConnectionId = job.tenantConnectionId
  | .idempotencyRecord _ => False
  | .outboxEvent row => drawn row.id

namespace Write.Rewrites

variable {drawn : Uuid → Prop} {db db' : Store} {w : Write}

theorem mono (h : w.Rewrites drawn db) (hk : Keeps db db') : w.Rewrites drawn db' := by
  cases w with
  | tenantConnection row =>
      obtain ⟨c, hc, hw, ho⟩ := h
      obtain ⟨c', hc', hw', ho'⟩ := hk.connection hc
      exact ⟨c', hc', hw.trans hw'.symm, ho.trans ho'.symm⟩
  | job row =>
      obtain ⟨job, hjob, htc⟩ := h
      obtain ⟨job', hjob', htc'⟩ := hk.job hjob
      exact ⟨job', hjob', htc.trans htc'.symm⟩
  | idempotencyRecord row => exact h
  | outboxEvent row => exact h

theorem rewritten (h : w.Rewrites drawn db) : Rewritten drawn db (Store.write w db) := by
  cases w with
  | tenantConnection row =>
      obtain ⟨c, hc, hw, ho⟩ := h
      refine ⟨.putTenantConnection fun other hother => ?_, ?_, rfl, rfl, fun he => .inl he⟩
      · rw [hc] at hother
        cases hother
        exact ⟨hw, ho⟩
      · exact Table.keys_put_of_find_some hc
  | job row =>
      obtain ⟨job, hjob, htc⟩ := h
      refine ⟨.putJob fun other hother => ?_, rfl, ?_, rfl, fun he => .inl he⟩
      · rw [hjob] at hother
        cases hother
        exact htc
      · exact Table.keys_put_of_find_some hjob
  | idempotencyRecord row => exact absurd h not_false
  | outboxEvent row =>
      refine ⟨.putOutboxEvent db row, rfl, rfl, rfl, fun {id} he => ?_⟩
      change ((db.outboxEvents.put row).find id).isSome = true at he
      rw [Table.find_put] at he
      split at he
      · rename_i hid
        exact .inr (hid ▸ h)
      · exact .inl he

/-- What rewrites a row of the rewritten store rewrites that row of the store. -/
theorem back (h : w.Rewrites drawn db') (hr : Rewritten drawn db db') : w.Rewrites drawn db := by
  cases w with
  | tenantConnection row =>
      obtain ⟨c', hc', hw, ho⟩ := h
      have hkey : (db.tenantConnections.find row.id).isSome = true := by
        rw [← Table.mem_keys, ← hr.connectionIds, Table.mem_keys, hc']
        rfl
      obtain ⟨c, hc⟩ := Option.isSome_iff_exists.mp hkey
      obtain ⟨other, hother, hw', ho'⟩ := hr.connection hc
      rw [hc'] at hother
      cases hother
      exact ⟨c, hc, hw.trans hw', ho.trans ho'⟩
  | job row =>
      obtain ⟨job', hjob', htc⟩ := h
      have hkey : (db.jobs.find row.id).isSome = true := by
        rw [← Table.mem_keys, ← hr.jobIds, Table.mem_keys, hjob']
        rfl
      obtain ⟨job, hjob⟩ := Option.isSome_iff_exists.mp hkey
      obtain ⟨other, hother, htc'⟩ := hr.job hjob
      rw [hjob'] at hother
      cases hother
      exact ⟨job, hjob, htc.trans htc'⟩
  | idempotencyRecord row => exact h
  | outboxEvent row => exact h

/-- Several such writes. -/
theorem writes {rejects : Store → TenantConnection → Bool} {ws : List Write}
    (h : ∀ w ∈ ws, w.Rewrites drawn db) : Rewritten drawn db ((engine rejects).writes ws db) := by
  induction ws generalizing db with
  | nil => exact .refl db
  | cons w rest ih =>
      have hw := (h w List.mem_cons_self).rewritten
      exact hw.trans (ih fun v hv => (h v (List.mem_cons_of_mem w hv)).mono hw.toKeeps)

end Write.Rewrites

/-- The statement reads, rewrites a stored row, or inserts an event with one of the ids `drawn`. -/
def Statement.Rewrites (drawn : Uuid → Prop) : Statement → Prop
  | .insertTenantConnection _ => False
  | .insertJob _ => False
  | .insertIdempotencyRecord _ => False
  | .insertOutboxEvent row => drawn row.id
  | .updateJob _ _ set => ∀ job, (set job).tenantConnectionId = job.tenantConnectionId
  | .updateTenantConnection _ set => ∀ connection,
      (set connection).workspaceId = connection.workspaceId ∧
        (set connection).organizationId = connection.organizationId
  | .updateOutboxEvent _ _ => False
  | _ => True

theorem Statement.Rewrites.exec {drawn : Uuid → Prop} {statement : Statement}
    (h : statement.Rewrites drawn) (rejects : Store → TenantConnection → Bool) (db : Store) :
    ∀ w ∈ (exec rejects statement db).2.1, w.Rewrites drawn db := by
  intro w hw
  cases statement with
  | insertTenantConnection row => exact absurd h not_false
  | insertJob row => exact absurd h not_false
  | insertIdempotencyRecord row => exact absurd h not_false
  | updateOutboxEvent id set => exact absurd h not_false
  | insertOutboxEvent row =>
      rw [Product.exec] at hw
      split at hw
      · cases hw
      · split at hw
        · cases hw
        · rw [List.mem_singleton.mp hw]
          exact h
  | updateJob id guard set =>
      cases hf : (db.jobs.find id).filter guard with
      | none =>
          simp only [Product.exec, hf] at hw
          cases hw
      | some job =>
          simp only [Product.exec, hf] at hw
          split at hw
          · cases hw
          · rw [List.mem_singleton.mp hw]
            exact ⟨job, (filter_find hf).1, h job⟩
  | updateTenantConnection id set =>
      cases hf : db.tenantConnections.find id with
      | none =>
          simp only [Product.exec, hf] at hw
          cases hw
      | some connection =>
          simp only [Product.exec, hf] at hw
          split at hw
          · cases hw
          · rw [List.mem_singleton.mp hw]
            exact ⟨connection, hf, h connection⟩
  | selectWorkspace id =>
      rw [exec_selectWorkspace] at hw
      cases hw
  | selectIdempotencyRecord => cases hw
  | selectJob => cases hw
  | selectTenantConnection => cases hw
  | selectExpiredJobs => cases hw
  | selectPendingOutboxEvents => cases hw

/-! ## The calls that start nothing -/

theorem issues_recoverEach {now : Time} {defaults : Uuid → OutboxDefaults} (ids : List Uuid)
    (n : Nat) : (recoverEach now defaults ids n).Issues
      (Statement.Rewrites (Call.recover now defaults).DrawsEvent) := by
  induction ids generalizing n with
  | nil => exact trivial
  | cons id rest ih =>
      apply Program.issues_perform_bind
      · exact fun job => rfl
      · intro recovered
        cases recovered with
        | none => exact ih n
        | some job => exact Program.issues_perform_bind ⟨job.id, rfl⟩ fun _ => ih (n + 1)

theorem issues_applyTransaction (jobId leaseToken : Uuid) (result : TenantValidationResult)
    (now : Time) (defaults : OutboxDefaults) :
    (applyTransaction jobId leaseToken result now defaults).Issues
      (Statement.Rewrites (Call.apply jobId leaseToken result now defaults).DrawsEvent) := by
  have hjob : ∀ retry availableAt job,
      (jobUpdate result retry availableAt job).tenantConnectionId = job.tenantConnectionId := by
    intro retry availableAt job
    cases result <;> cases retry <;> rfl
  have hconnection : ∀ stored retry connection,
      (tenantUpdate stored retry connection).workspaceId = connection.workspaceId ∧
        (tenantUpdate stored retry connection).organizationId = connection.organizationId := by
    intro stored retry connection
    cases stored <;> exact ⟨rfl, rfl⟩
  unfold applyTransaction
  refine Program.issues_perform_bind trivial fun currentJob => ?_
  split
  · exact trivial
  split
  · exact trivial
  refine Program.issues_perform_bind trivial fun currentConnection => ?_
  split
  · exact trivial
  refine Program.issues_ofExcept_bind fun availableAt => ?_
  refine Program.issues_perform_bind (hjob _ _) fun updatedJob => ?_
  split
  · exact trivial
  refine Program.issues_ofExcept_bind fun stored => ?_
  refine Program.issues_perform_bind (hconnection _ _) fun updatedConnection => ?_
  split
  · exact trivial
  split
  · rename_i hretry
    refine Program.issues_perform_bind ⟨?_, rfl⟩ fun _ => trivial
    -- only a retryable failure is retried
    cases result with
    | success => cases hretry
    | failure code retryable =>
        rw [shouldRetry, Bool.and_eq_true] at hretry
        exact ⟨code, by rw [hretry.1]⟩
  · exact trivial

theorem issues_collisionTransaction (jobId leaseToken : Uuid) (now : Time) (drawn : Uuid → Prop) :
    (collisionTransaction jobId leaseToken now).Issues (Statement.Rewrites drawn) := by
  unfold collisionTransaction
  refine Program.issues_perform_bind trivial fun currentJob => ?_
  split
  · exact trivial
  split
  · exact trivial
  refine Program.issues_perform_bind trivial fun currentConnection => ?_
  split
  · exact trivial
  refine Program.issues_perform_bind (fun _ => rfl) fun updatedJob => ?_
  split
  · exact trivial
  refine Program.issues_perform_bind (fun _ => ⟨rfl, rfl⟩) fun updatedConnection => ?_
  split <;> exact trivial

/-- A call that is no start rewrites stored rows and adds events of its own. -/
theorem Call.issues_rewrites {call : Call} (h : call.isStart = false) :
    call.program.Issues (Command.Sends (Statement.Rewrites call.DrawsEvent)) := by
  cases call with
  | start => cases h
  | claim jobId now leaseDurationMs leaseToken =>
      change (claimTenantValidationJob jobId now leaseDurationMs leaseToken).Issues _
      unfold claimTenantValidationJob
      split
      · exact trivial
      apply Program.issues_perform_bind
      · exact fun job => rfl
      · intro claimed
        split
        · exact trivial
        · refine Program.issues_perform_bind trivial fun connection => ?_
          split <;> exact trivial
  | renew jobId leaseToken now leaseDurationMs =>
      change (renewTenantValidationJobLease jobId leaseToken now leaseDurationMs).Issues _
      unfold renewTenantValidationJobLease
      split
      · exact trivial
      · exact Program.issues_perform_bind (fun job => rfl) fun renewed => trivial
  | recover now defaults =>
      have hbody : (query (.selectExpiredJobs .tenantValidation now) >>= fun ids =>
          recoverEach now defaults ids 0).Issues
          (Statement.Rewrites (Call.recover now defaults).DrawsEvent) :=
        Program.issues_perform_bind trivial fun ids => issues_recoverEach ids 0
      exact hbody.transaction
  | apply jobId leaseToken result now defaults =>
      refine (issues_applyTransaction jobId leaseToken result now defaults).transaction.handle
        fun e => ?_
      split
      · exact trivial
      · exact (issues_collisionTransaction jobId leaseToken now _).transaction

end InboxSaas.Product
