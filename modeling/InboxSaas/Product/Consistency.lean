import InboxSaas.Product.Calls

/-!
# Jobs and connections stay in step

Every store that calls lead to is consistent, so an attempt that may be retried always has a delay
left.
-/

namespace InboxSaas.Product

open Reasoning

theorem Consistent.unique_job {db : Store} (hc : Consistent db) {connection : TenantConnection}
    (h : connection ∈ db.tenantConnections) :
    ∃ job ∈ db.jobs, job.tenantConnectionId = connection.id ∧
      (∀ other ∈ db.jobs, other.tenantConnectionId = connection.id → other = job) ∧
      Agrees job connection := by
  have hfind := Table.find_of_mem h
  obtain ⟨jobId, job, hjob, htc⟩ := hc.job hfind
  have htc' : job.tenantConnectionId = connection.id := htc
  obtain ⟨stored, hstored, ha⟩ := hc.connection hjob
  have hsame : stored = connection := by
    rw [htc'] at hstored
    exact Option.some.inj (hstored.symm.trans hfind)
  rw [hsame] at ha
  refine ⟨job, Table.mem_of_find hjob, htc', fun other ho he => ?_, ha⟩
  have hid := hc.unique (Table.find_of_mem ho) hjob (he.trans htc'.symm)
  exact Option.some.inj ((hid ▸ Table.find_of_mem ho).symm.trans hjob)

/-- A row that passes the check of `applyTenantValidationResult` has a retry delay when it may be
retried. -/
theorem Consistent.retryAvailableAt {db : Store} (hc : Consistent db) {job : Job}
    (hjob : job ∈ db.jobs) {leaseToken : Uuid} {result : TenantValidationResult} {now : Time}
    (hstale : resultStale leaseToken now job = false) (hretry : shouldRetry result job = true) :
    ∃ availableAt, retryAvailableAt job.attemptCount now = .ok availableAt := by
  obtain ⟨connection, _, ha⟩ := hc.connection (Table.find_of_mem hjob)
  rw [resultStale_eq, Bool.not_eq_false'] at hstale
  cases result with
  | success => cases hretry
  | failure code retryable =>
      unfold shouldRetry at hretry
      rw [Bool.and_eq_true, decide_eq_true_iff] at hretry
      exact retryAvailableAt_ok (ha.running (leaseValid_running hstale)).2.2 hretry.2 now

/-- Without an infrastructure failure the only errors are a unique violation and a tenant id that
no `text` column takes. -/
theorem Consistent.apply_error {db : Store} (hc : Consistent db) {jobId leaseToken : Uuid}
    {result : TenantValidationResult} {now : Time} {defaults : OutboxDefaults} {e : JsError}
    (h : ((Call.apply jobId leaseToken result now defaults).run db).1 = .error e) :
    e = uniqueViolation ∨ e = invalidByteSequence := by
  have hruns := Engine.runs_run postgres (fun _ => False)
    (applyTenantValidationResult jobId leaseToken result now defaults) db .idle
  change (postgres.run (applyTenantValidationResult jobId leaseToken result now defaults) db
    .idle).1 = .error e at h
  generalize postgres.run (applyTenantValidationResult jobId leaseToken result now defaults) db
    .idle = r at hruns h
  obtain ⟨o, db', s'⟩ := r
  dsimp only at hruns h
  subst h
  obtain ⟨_, hrun⟩ := runs_apply (fun _ he => absurd he not_false) hc hruns
  cases hrun with
  | failed hf => exact absurd hf not_false
  | violated hbody => exact hbody.error_eq
  | ended hbody ho =>
      rcases ho with ho | ⟨_, hf, _⟩
      · cases ho
      · exact absurd hf not_false
  | collided _ _ _ ho =>
      rcases ho with ho | ⟨_, hf, _⟩
      · cases ho
      · exact absurd hf not_false

/-- In every reachable store each connection has exactly one job, the two agree, and
`retryAvailableAt` does not throw where `applyTenantValidationResult` calls it. -/
theorem reachable_consistent {db : Store} (h : Reachable db) :
    (∀ connection ∈ db.tenantConnections, ∃ job ∈ db.jobs,
      job.tenantConnectionId = connection.id ∧
      (∀ other ∈ db.jobs, other.tenantConnectionId = connection.id → other = job) ∧
      Agrees job connection) ∧
    (∀ job ∈ db.jobs, ∀ leaseToken result now, resultStale leaseToken now job = false →
      shouldRetry result job = true →
      ∃ availableAt, retryAvailableAt job.attemptCount now = .ok availableAt) ∧
    ∀ jobId leaseToken result now defaults,
      ((Call.apply jobId leaseToken result now defaults).run db).1 ≠
        .error noRemainingRetryDelay := by
  have hc := h.consistent
  refine ⟨fun connection hm => hc.unique_job hm,
    fun job hm leaseToken result now hs hr => hc.retryAvailableAt hm hs hr,
    fun jobId leaseToken result now defaults he => ?_⟩
  rcases hc.apply_error he with h | h <;> exact absurd h (by decide)

/-- One connection was started, and its job was claimed and failed for good. -/
theorem reachable_consistent_failed :
    let db := runAll (.empty Sample.workspaces) [Sample.start, .claim 11 5 60000 20,
      .apply 11 20 (.failure .invalidCredentials false) 6 ⟨14, 6⟩]
    db.tenantConnections.rows.length = 1 ∧
    ∀ connection ∈ db.tenantConnections, ∃ job ∈ db.jobs,
      job.tenantConnectionId = connection.id ∧
      (∀ other ∈ db.jobs, other.tenantConnectionId = connection.id → other = job) ∧
      Agrees job connection :=
  ⟨by decide +kernel, (reachable_consistent ((Reachable.empty Sample.workspaces).runAll _)).1⟩

/-! ## Microsoft tenants -/

/-- No Microsoft tenant has two active connections. -/
def OneActive (db : Store) : Prop :=
  ∀ a ∈ db.tenantConnections, ∀ b ∈ db.tenantConnections, a.indexed = true → b.indexed = true →
    a.microsoftTenantId = b.microsoftTenantId → a = b

namespace OneActive

variable {db db' : Store}

theorem empty (workspaces : Table Workspace) : OneActive (.empty workspaces) :=
  fun _ ha => absurd ha List.not_mem_nil

theorem congr (h : OneActive db) (he : db'.tenantConnections = db.tenantConnections) :
    OneActive db' := by
  unfold OneActive
  rw [he]
  exact h

/-- A row that the index accepts. -/
theorem put (h : OneActive db) {row : TenantConnection}
    (hput : db'.tenantConnections = db.tenantConnections.put row)
    (hindex : row.indexed = true → db.activeElsewhere row = false) : OneActive db' := by
  have hother : ∀ b ∈ db.tenantConnections, key b ≠ key row → row.indexed = true →
      b.indexed = true → b.microsoftTenantId ≠ row.microsoftTenantId := by
    intro b hb hne hrow hi ht
    have hnone := List.any_eq_false.mp (hindex hrow) b hb
    have hid : b.id ≠ row.id := hne
    simp [hid, hi, ht] at hnone
  intro a ha b hb hai hbi ht
  rw [hput] at ha hb
  rcases Table.mem_put.mp ha with har | ⟨hao, hka⟩
  · rcases Table.mem_put.mp hb with hbr | ⟨hbo, hkb⟩
    · exact har.trans hbr.symm
    · subst har
      exact absurd ht.symm (hother b hbo hkb hai hbi)
  · rcases Table.mem_put.mp hb with hbr | ⟨hbo, -⟩
    · subst hbr
      exact absurd ht (hother a hao hka hbi hai)
    · exact h a hao b hbo hai hbi ht

theorem step {m : Move} (h : OneActive db) (hs : m.Step db db') : OneActive db' := by
  cases hs with
  | started => exact h.put rfl fun hi => absurd hi Bool.false_ne_true
  | claimed => exact h.congr rfl
  | renewed => exact h.congr rfl
  | recovered => exact h.congr rfl
  | retried => exact h.put rfl fun hi => absurd hi Bool.false_ne_true
  | completed _ _ _ hindex => exact h.put rfl fun _ => hindex
  | failed => exact h.put rfl fun hi => absurd hi Bool.false_ne_true

theorem moves {ms : List Move} (h : OneActive db) (hs : Moves db ms db') : OneActive db' :=
  hs.preserve (fun _ _ _ h hm => h.step hm) h

end OneActive

theorem Reachable.oneActive {db : Store} (h : Reachable db) : OneActive db := by
  obtain ⟨workspaces, history, hrun⟩ := h
  have hboth := hrun.preserve (P := fun db => Consistent db ∧ OneActive db)
    (fun {_ _ _ _} hp hr => ?_) ⟨.empty workspaces, .empty workspaces⟩
  · exact hboth.2
  · obtain ⟨ms, hmoves, -⟩ := call_moves hp.1 hr
    exact ⟨hp.1.moves hmoves, hp.2.moves hmoves⟩

end InboxSaas.Product
