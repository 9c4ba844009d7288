import InboxSaas.Product.Lifecycle

/-!
# What each operation does

One specification per function of the product package, for a call that nothing interferes with but
that may fail at every command: which answers it can give and which move, if any, it makes.
Callers reason from these and never unfold a function.
-/

namespace InboxSaas.Product

open Reasoning

/-! ## Statements -/

section

variable {rejects : Store → TenantConnection → Bool} {db : Store}

theorem engine_exec (statement : Statement) :
    (engine rejects).exec statement db = exec rejects statement db := rfl

@[simp] theorem writes_job (row : Job) (ws : List Write) :
    (engine rejects).writes (.job row :: ws) db = (engine rejects).writes ws (db.putJob row) := rfl

@[simp] theorem writes_tenantConnection (row : TenantConnection) (ws : List Write) :
    (engine rejects).writes (.tenantConnection row :: ws) db =
      (engine rejects).writes ws (db.putTenantConnection row) := rfl

@[simp] theorem writes_idempotencyRecord (row : IdempotencyRecord) (ws : List Write) :
    (engine rejects).writes (.idempotencyRecord row :: ws) db =
      (engine rejects).writes ws (db.putIdempotencyRecord row) := rfl

@[simp] theorem writes_outboxEvent (row : OutboxEvent) (ws : List Write) :
    (engine rejects).writes (.outboxEvent row :: ws) db =
      (engine rejects).writes ws (db.putOutboxEvent row) := rfl

theorem exec_selectWorkspace (id : JsString) :
    exec rejects (.selectWorkspace id) db =
      (match uuidIn id with
        | some id => .ok (db.workspaces.find id)
        | none => .error invalidTextRepresentation, [], []) := by
  rw [exec]
  cases uuidIn id <;> rfl

theorem exec_updateJob {id : Uuid} {guard : Job → Bool} {set : Job → Job}
    (hset : ∀ job, (set job).id = job.id) :
    exec rejects (.updateJob id guard set) db =
      match (db.jobs.find id).filter guard with
      | none => (.ok none, [], [])
      | some job =>
          if (set job).nonTerminal && db.nonTerminalElsewhere (set job) then
            (.error uniqueViolation, [], jobLocks (set job))
          else (.ok (some (set job)), [.job (set job)], jobLocks (set job)) := by
  rw [exec]
  cases hf : (db.jobs.find id).filter guard with
  | none => rfl
  | some job =>
      have hid : job.id = id := Table.key_of_find (Option.filter_eq_some_iff.mp hf).1
      have hset' : { set job with id := id } = set job := by
        rw [← hid, ← hset job]
      simp only [hset']

theorem exec_updateTenantConnection {id : Uuid} {set : TenantConnection → TenantConnection}
    (hset : ∀ connection, (set connection).id = connection.id) :
    exec rejects (.updateTenantConnection id set) db =
      match db.tenantConnections.find id with
      | none => (.ok none, [], [])
      | some connection =>
          if (set connection).indexed && rejects db (set connection) then
            (.error uniqueViolation, [], tenantConnectionLocks (set connection))
          else (.ok (some (set connection)), [.tenantConnection (set connection)],
            tenantConnectionLocks (set connection)) := by
  rw [exec]
  cases hf : db.tenantConnections.find id with
  | none => rfl
  | some connection =>
      have hid : connection.id = id := Table.key_of_find hf
      have hset' : { set connection with id := id } = set connection := by
        rw [← hid, ← hset connection]
      simp only [hset']

section

variable {fault : JsError → Prop} {s' : Session Write Lock} {db' : Store}

/-- A statement that writes nothing answers or fails. -/
theorem runs_read {statement : Statement} {r : Except JsError statement.Reply} {ks : List Lock}
    {o : Except JsError statement.Reply} (hx : exec rejects statement db = (r, [], ks))
    (h : (engine rejects).Runs fault (execute statement) db .idle o db' s') :
    s' = .idle ∧ db' = db ∧ (o = r ∨ ∃ e, fault e ∧ o = .error e) := by
  have hs := Engine.runs_statement h
  rw [engine_exec, hx] at hs
  obtain ⟨rfl, ⟨rfl, rfl⟩ | ⟨e, he, rfl, rfl | rfl⟩⟩ := hs
  · exact ⟨rfl, rfl, .inl rfl⟩
  · exact ⟨rfl, rfl, .inr ⟨e, he, rfl⟩⟩
  · exact ⟨rfl, rfl, .inr ⟨e, he, rfl⟩⟩

/-- An `UPDATE` of a job outside a transaction; a failure can hide that it took effect. -/
theorem runs_updateJob {id : Uuid} {guard : Job → Bool} {set : Job → Job}
    {o : Except JsError (Option Job)} (hset : ∀ job, (set job).id = job.id)
    (h : (engine rejects).Runs fault (execute (.updateJob id guard set)) db .idle o db' s') :
    s' = .idle ∧
      ((o = .ok none ∧ (db.jobs.find id).filter guard = none ∧ db' = db) ∨
        (∃ job, (db.jobs.find id).filter guard = some job ∧ db.nonTerminalElsewhere (set job) = true ∧
          o = .error uniqueViolation ∧ db' = db) ∨
        (∃ job, (db.jobs.find id).filter guard = some job ∧
          (o = .ok (some (set job)) ∨ ∃ e, fault e ∧ o = .error e) ∧ db' = db.putJob (set job)) ∨
        ∃ e, fault e ∧ o = .error e ∧ db' = db) := by
  obtain ⟨hs', hs⟩ := Engine.runs_statement h
  refine ⟨hs', ?_⟩
  rw [engine_exec, exec_updateJob hset] at hs
  cases hf : (db.jobs.find id).filter guard with
  | none =>
      rw [hf] at hs
      rcases hs with ⟨rfl, rfl⟩ | ⟨e, he, rfl, rfl | rfl⟩
      · exact .inl ⟨rfl, rfl, rfl⟩
      · exact .inr (.inr (.inr ⟨e, he, rfl, rfl⟩))
      · exact .inr (.inr (.inr ⟨e, he, rfl, rfl⟩))
  | some job =>
      simp only [hf] at hs
      by_cases hi : ((set job).nonTerminal && db.nonTerminalElsewhere (set job)) = true
      · rw [if_pos hi] at hs
        rw [Bool.and_eq_true] at hi
        rcases hs with ⟨rfl, rfl⟩ | ⟨e, he, rfl, rfl | rfl⟩
        · exact .inr (.inl ⟨job, rfl, hi.2, rfl, rfl⟩)
        · exact .inr (.inr (.inr ⟨e, he, rfl, rfl⟩))
        · exact .inr (.inr (.inr ⟨e, he, rfl, rfl⟩))
      · rw [if_neg hi] at hs
        rcases hs with ⟨rfl, rfl⟩ | ⟨e, he, rfl, rfl | rfl⟩
        · exact .inr (.inr (.inl ⟨job, rfl, .inl rfl, rfl⟩))
        · exact .inr (.inr (.inr ⟨e, he, rfl, rfl⟩))
        · exact .inr (.inr (.inl ⟨job, rfl, .inr ⟨e, he, rfl⟩, rfl⟩))

end

end

/-! ## Claim and renewal -/

section

variable {rejects : Store → TenantConnection → Bool} {fault : JsError → Prop} {jobId : Uuid}
  {now : Time} {leaseDurationMs : Int} {leaseToken : Uuid} {db : Store}

/-- The runs of `claimTenantValidationJob`. -/
inductive ClaimRun (fault : JsError → Prop) (jobId : Uuid) (now : Time) (leaseDurationMs : Int)
    (leaseToken : Uuid) (db : Store) : Except JsError ClaimTenantValidationJobResult → Store → Prop
  | invalid (h : leaseDurationMs ≤ 0) :
      ClaimRun fault jobId now leaseDurationMs leaseToken db (.error invalidLeaseDuration) db
  | failed {e : JsError} (h : fault e) :
      ClaimRun fault jobId now leaseDurationMs leaseToken db (.error e) db
  | notFound (h : (db.jobs.find jobId).filter (claimable now) = none) :
      ClaimRun fault jobId now leaseDurationMs leaseToken db (.ok .notFound) db
  | violated {job : Job} (h : (db.jobs.find jobId).filter (claimable now) = some job)
      (hi : db.nonTerminalElsewhere (job.claim leaseToken now (now + leaseDurationMs)) = true) :
      ClaimRun fault jobId now leaseDurationMs leaseToken db (.error uniqueViolation) db
  | claimed {job : Job} {o : Except JsError ClaimTenantValidationJobResult}
      (h : (db.jobs.find jobId).filter (claimable now) = some job) (hd : 0 < leaseDurationMs)
      (ho : (∃ connection, db.tenantConnections.find job.tenantConnectionId = some connection ∧
            o = .ok (.claimed (toTenantConnectionDto connection)
              (job.claim leaseToken now (now + leaseDurationMs)))) ∨
          (db.tenantConnections.find job.tenantConnectionId = none ∧
            o = .error missingTenantConnection) ∨
          ∃ e, fault e ∧ o = .error e) :
      ClaimRun fault jobId now leaseDurationMs leaseToken db o
        (db.putJob (job.claim leaseToken now (now + leaseDurationMs)))

theorem runs_claim {o : Except JsError ClaimTenantValidationJobResult} {db' : Store}
    {s' : Session Write Lock}
    (h : (engine rejects).Runs fault
      (claimTenantValidationJob jobId now leaseDurationMs leaseToken) db .idle o db' s') :
    s' = .idle ∧ ClaimRun fault jobId now leaseDurationMs leaseToken db o db' := by
  unfold claimTenantValidationJob at h
  split at h
  · rename_i hd
    obtain ⟨rfl, rfl, rfl⟩ := h
    exact ⟨rfl, .invalid hd⟩
  · rename_i hd
    have hset : ∀ job : Job, (job.claim leaseToken now (now + leaseDurationMs)).id = job.id :=
      fun _ => rfl
    -- the update answered, or it raised and the read never came
    rcases Engine.runs_bind h with ⟨claimed, db₁, s₁, hu, hrest⟩ | ⟨e, rfl, hu⟩
    · obtain ⟨rfl, ⟨ho, hf, rfl⟩ | ⟨job, _, _, ho, _⟩ | ⟨job, hf, ho, rfl⟩ | ⟨e, _, ho, _⟩⟩ :=
        runs_updateJob hset hu
      · cases ho
        obtain ⟨rfl, rfl, rfl⟩ := hrest
        exact ⟨rfl, .notFound hf⟩
      · cases ho
      · have hclaimed : claimed = some (job.claim leaseToken now (now + leaseDurationMs)) := by
          rcases ho with ho | ⟨e, _, ho⟩
          · exact Except.ok.inj ho
          · cases ho
        subst hclaimed
        -- the row is claimed by now, whatever becomes of the read of its connection
        rcases Engine.runs_bind hrest with ⟨found, db₂, s₂, hc, hret⟩ | ⟨e, rfl, hc⟩
        · obtain ⟨rfl, rfl, hr | ⟨e, _, hr⟩⟩ := runs_read rfl hc
          · cases hr
            have hsame : (db.putJob (job.claim leaseToken now
                (now + leaseDurationMs))).tenantConnections.find
                (job.claim leaseToken now (now + leaseDurationMs)).tenantConnectionId =
              db.tenantConnections.find job.tenantConnectionId := rfl
            rw [hsame] at hret
            cases hfind : db.tenantConnections.find job.tenantConnectionId with
            | none =>
                rw [hfind] at hret
                obtain ⟨rfl, rfl, rfl⟩ := hret
                exact ⟨rfl, .claimed hf (by omega) (.inr (.inl ⟨hfind, rfl⟩))⟩
            | some connection =>
                rw [hfind] at hret
                obtain ⟨rfl, rfl, rfl⟩ := hret
                exact ⟨rfl, .claimed hf (by omega) (.inl ⟨connection, hfind, rfl⟩)⟩
          · cases hr
        · obtain ⟨rfl, rfl, hr | ⟨e', he, hr⟩⟩ := runs_read rfl hc
          · cases hr
          · cases hr
            exact ⟨rfl, .claimed hf (by omega) (.inr (.inr ⟨e, he, rfl⟩))⟩
      · cases ho
    · obtain ⟨rfl, ⟨ho, _, _⟩ | ⟨job, hf, hi, ho, rfl⟩ | ⟨job, hf, ho, rfl⟩ | ⟨e', he, ho, rfl⟩⟩ :=
        runs_updateJob hset hu
      · cases ho
      · cases ho
        exact ⟨rfl, .violated hf hi⟩
      · rcases ho with ho | ⟨e', he, ho⟩
        · cases ho
        · cases ho
          exact ⟨rfl, .claimed hf (by omega) (.inr (.inr ⟨e, he, rfl⟩))⟩
      · cases ho
        exact ⟨rfl, .failed he⟩

/-- The runs of `renewTenantValidationJobLease`. -/
inductive RenewRun (fault : JsError → Prop) (jobId leaseToken : Uuid) (now : Time)
    (leaseDurationMs : Int) (db : Store) : Except JsError Bool → Store → Prop
  | invalid (h : leaseDurationMs ≤ 0) :
      RenewRun fault jobId leaseToken now leaseDurationMs db (.error invalidLeaseDuration) db
  | failed {e : JsError} (h : fault e) :
      RenewRun fault jobId leaseToken now leaseDurationMs db (.error e) db
  | refused (h : (db.jobs.find jobId).filter (leaseValid leaseToken now) = none) :
      RenewRun fault jobId leaseToken now leaseDurationMs db (.ok false) db
  | violated {job : Job} (h : (db.jobs.find jobId).filter (leaseValid leaseToken now) = some job)
      (hi : db.nonTerminalElsewhere (job.renew (now + leaseDurationMs)) = true) :
      RenewRun fault jobId leaseToken now leaseDurationMs db (.error uniqueViolation) db
  | renewed {job : Job} {o : Except JsError Bool}
      (h : (db.jobs.find jobId).filter (leaseValid leaseToken now) = some job)
      (hd : 0 < leaseDurationMs) (ho : o = .ok true ∨ ∃ e, fault e ∧ o = .error e) :
      RenewRun fault jobId leaseToken now leaseDurationMs db o
        (db.putJob (job.renew (now + leaseDurationMs)))

theorem runs_renew {o : Except JsError Bool} {db' : Store} {s' : Session Write Lock}
    (h : (engine rejects).Runs fault
      (renewTenantValidationJobLease jobId leaseToken now leaseDurationMs) db .idle o db' s') :
    s' = .idle ∧ RenewRun fault jobId leaseToken now leaseDurationMs db o db' := by
  unfold renewTenantValidationJobLease at h
  split at h
  · rename_i hd
    obtain ⟨rfl, rfl, rfl⟩ := h
    exact ⟨rfl, .invalid hd⟩
  · rename_i hd
    have hset : ∀ job : Job, (job.renew (now + leaseDurationMs)).id = job.id := fun _ => rfl
    rcases Engine.runs_bind h with ⟨renewed, db₁, s₁, hu, hret⟩ | ⟨e, rfl, hu⟩
    · obtain ⟨rfl, ⟨ho, hf, rfl⟩ | ⟨job, _, _, ho, _⟩ | ⟨job, hf, ho | ⟨e, _, ho⟩, rfl⟩ |
        ⟨e, _, ho, _⟩⟩ := runs_updateJob hset hu
      · cases ho
        obtain ⟨rfl, rfl, rfl⟩ := hret
        exact ⟨rfl, .refused hf⟩
      · cases ho
      · cases ho
        obtain ⟨rfl, rfl, rfl⟩ := hret
        exact ⟨rfl, .renewed hf (by omega) (.inl rfl)⟩
      · cases ho
      · cases ho
    · obtain ⟨rfl, ⟨ho, _, _⟩ | ⟨job, hf, hi, ho, rfl⟩ | ⟨job, hf, ho | ⟨e', he, ho⟩, rfl⟩ |
        ⟨e', he, ho, rfl⟩⟩ := runs_updateJob hset hu
      · cases ho
      · cases ho
        exact ⟨rfl, .violated hf hi⟩
      · cases ho
      · cases ho
        exact ⟨rfl, .renewed hf (by omega) (.inr ⟨e, he, rfl⟩)⟩
      · cases ho
        exact ⟨rfl, .failed he⟩

end

/-! ## Transaction bodies -/

section

variable {rejects : Store → TenantConnection → Bool} {db : Store} {α : Type}

theorem eval_query_ok {statement : Statement} {f : statement.Reply → TransactionProgram α}
    {r : statement.Reply} {ws : List Write} {ks : List Lock}
    (hx : exec rejects statement db = (.ok r, ws, ks)) :
    (engine rejects).eval (query statement >>= f) db =
      (((engine rejects).eval (f r) ((engine rejects).writes ws db)).1,
        ws ++ ((engine rejects).eval (f r) ((engine rejects).writes ws db)).2) :=
  Engine.eval_perform_ok _ hx

theorem eval_query_error {statement : Statement} {f : statement.Reply → TransactionProgram α}
    {e : JsError} {ks : List Lock} (hx : exec rejects statement db = (.error e, [], ks)) :
    (engine rejects).eval (query statement >>= f) db = (.error e, []) :=
  Engine.eval_perform_error _ hx

theorem eval_insertOutboxEvent {row : OutboxEvent} {f : Unit → TransactionProgram α} :
    (engine rejects).eval (query (.insertOutboxEvent row) >>= f) db =
      if (db.outboxEvents.find row.id).isSome then (.error uniqueViolation, [])
      else if (db.jobs.find row.jobId).isNone then (.error foreignKeyViolation, [])
      else (((engine rejects).eval (f ()) (db.putOutboxEvent row)).1,
        .outboxEvent row :: ((engine rejects).eval (f ()) (db.putOutboxEvent row)).2) := by
  split
  · rename_i he
    exact eval_query_error (show exec rejects (.insertOutboxEvent row) db = _ from if_pos he)
  · rename_i he
    split
    · rename_i hj
      exact eval_query_error
        (show exec rejects (.insertOutboxEvent row) db = _ from (if_neg he).trans (if_pos hj))
    · rename_i hj
      exact eval_query_ok
        (show exec rejects (.insertOutboxEvent row) db = _ from (if_neg he).trans (if_neg hj))

theorem eval_insertTenantConnection {row : TenantConnection} (hindex : row.indexed = false)
    {f : Option TenantConnection → TransactionProgram α} :
    (engine rejects).eval (query (.insertTenantConnection row) >>= f) db =
      if (db.tenantConnections.find row.id).isSome then (.error uniqueViolation, [])
      else if (db.workspace row.workspaceId row.organizationId).isNone then
        (.error foreignKeyViolation, [])
      else (((engine rejects).eval (f (some row)) (db.putTenantConnection row)).1,
        .tenantConnection row ::
          ((engine rejects).eval (f (some row)) (db.putTenantConnection row)).2) := by
  have hx : exec rejects (.insertTenantConnection row) db =
      if (db.tenantConnections.find row.id).isSome then
        (.error uniqueViolation, [], tenantConnectionLocks row)
      else if (db.workspace row.workspaceId row.organizationId).isNone then
        (.error foreignKeyViolation, [], tenantConnectionLocks row)
      else (.ok (some row), [.tenantConnection row], tenantConnectionLocks row) := by
    rw [exec, hindex]
    simp
  split
  · rename_i he
    exact eval_query_error (hx.trans (if_pos he))
  · rename_i he
    split
    · rename_i hw
      exact eval_query_error (hx.trans ((if_neg he).trans (if_pos hw)))
    · rename_i hw
      exact eval_query_ok (hx.trans ((if_neg he).trans (if_neg hw)))

theorem eval_insertJob {row : Job} (hindex : db.nonTerminalElsewhere row = false)
    {f : Option Job → TransactionProgram α} :
    (engine rejects).eval (query (.insertJob row) >>= f) db =
      if (db.jobs.find row.id).isSome then (.error uniqueViolation, [])
      else if (db.tenantConnections.find row.tenantConnectionId).isNone then
        (.error foreignKeyViolation, [])
      else (((engine rejects).eval (f (some row)) (db.putJob row)).1,
        .job row :: ((engine rejects).eval (f (some row)) (db.putJob row)).2) := by
  have hx : exec rejects (.insertJob row) db =
      if (db.jobs.find row.id).isSome then (.error uniqueViolation, [], jobLocks row)
      else if (db.tenantConnections.find row.tenantConnectionId).isNone then
        (.error foreignKeyViolation, [], jobLocks row)
      else (.ok (some row), [.job row], jobLocks row) := by
    rw [exec, hindex]
    simp
  split
  · rename_i he
    exact eval_query_error (hx.trans (if_pos he))
  · rename_i he
    split
    · rename_i hw
      exact eval_query_error (hx.trans ((if_neg he).trans (if_pos hw)))
    · rename_i hw
      exact eval_query_ok (hx.trans ((if_neg he).trans (if_neg hw)))

theorem eval_insertIdempotencyRecord {row : IdempotencyRecord}
    {f : Unit → TransactionProgram α} :
    (engine rejects).eval (query (.insertIdempotencyRecord row) >>= f) db =
      if (db.idempotencyRecords.find row.id).isSome ||
          (db.idempotencyRecord row.organizationId row.key).isSome then
        (.error uniqueViolation, [])
      else if (db.jobs.find row.jobId).isNone then (.error foreignKeyViolation, [])
      else (((engine rejects).eval (f ()) (db.putIdempotencyRecord row)).1,
        .idempotencyRecord row ::
          ((engine rejects).eval (f ()) (db.putIdempotencyRecord row)).2) := by
  split
  · rename_i he
    exact eval_query_error
      (show exec rejects (.insertIdempotencyRecord row) db = _ from if_pos he)
  · rename_i he
    split
    · rename_i hj
      exact eval_query_error (show exec rejects (.insertIdempotencyRecord row) db = _ from
        (if_neg he).trans (if_pos hj))
    · rename_i hj
      exact eval_query_ok (show exec rejects (.insertIdempotencyRecord row) db = _ from
        (if_neg he).trans (if_neg hj))

/-- A query that only reads. -/
theorem eval_read {statement : Statement} {f : statement.Reply → TransactionProgram α}
    {r : statement.Reply} {ks : List Lock} (hx : exec rejects statement db = (.ok r, [], ks)) :
    (engine rejects).eval (query statement >>= f) db = (engine rejects).eval (f r) db := by
  rw [eval_query_ok hx]
  simp

end

/-! ## Applying a result -/

section

variable {rejects : Store → TenantConnection → Bool} {jobId leaseToken : Uuid}
  {result : TenantValidationResult} {now : Time} {defaults : OutboxDefaults} {db : Store}

/-- The check on the row that was read is the `WHERE` of the update. -/
theorem resultStale_eq (leaseToken : Uuid) (now : Time) (job : Job) :
    resultStale leaseToken now job = !leaseValid leaseToken now job := by
  unfold resultStale leaseValid
  cases job.leaseExpiresAt with
  | none => simp
  | some expiresAt =>
      have hle : decide (expiresAt ≤ now) = !decide (now < expiresAt) := by
        by_cases h : now < expiresAt <;> simp [h, Int.not_le.mpr, Int.not_lt.mp]
      by_cases hs : job.state = .running <;> by_cases ht : job.leaseToken = some leaseToken <;>
        simp [hs, ht, hle]

/-- What the main transaction computes on a consistent store. -/
inductive ApplyBody (rejects : Store → TenantConnection → Bool) (jobId leaseToken : Uuid)
    (now : Time) (defaults : OutboxDefaults) (db : Store) : TenantValidationResult →
    Except JsError ApplyTenantValidationResult → List Write → Prop
  | notFound {result : TenantValidationResult} (h : db.jobs.find jobId = none) :
      ApplyBody rejects jobId leaseToken now defaults db result (.ok .notFound) []
  | stale {result : TenantValidationResult} {job : Job} (hjob : db.jobs.find jobId = some job)
      (hlease : leaseValid leaseToken now job = false) :
      ApplyBody rejects jobId leaseToken now defaults db result (.ok .stale) []
  | completed {microsoftTenantId text : JsString} {job : Job} {connection : TenantConnection}
      (hjob : db.jobs.find jobId = some job) (hlease : leaseValid leaseToken now job = true)
      (hconnection : db.tenantConnections.find job.tenantConnectionId = some connection)
      (htext : storedText microsoftTenantId = .ok text)
      (hindex : rejects (db.putJob (job.complete now)) (connection.activate text) = false) :
      ApplyBody rejects jobId leaseToken now defaults db (.success microsoftTenantId)
        (.ok (.applied (toTenantConnectionDto (connection.activate text)) (job.complete now) false))
        [.job (job.complete now), .tenantConnection (connection.activate text)]
  | rejected {microsoftTenantId text : JsString} {job : Job} {connection : TenantConnection}
      {ws : List Write}
      (hjob : db.jobs.find jobId = some job) (hlease : leaseValid leaseToken now job = true)
      (hconnection : db.tenantConnections.find job.tenantConnectionId = some connection)
      (htext : storedText microsoftTenantId = .ok text)
      (hindex : rejects (db.putJob (job.complete now)) (connection.activate text) = true) :
      ApplyBody rejects jobId leaseToken now defaults db (.success microsoftTenantId)
        (.error uniqueViolation) ws
  | refused {microsoftTenantId : JsString} {job : Job} {e : JsError} {ws : List Write}
      (hjob : db.jobs.find jobId = some job) (hlease : leaseValid leaseToken now job = true)
      (htext : storedText microsoftTenantId = .error e) :
      ApplyBody rejects jobId leaseToken now defaults db (.success microsoftTenantId) (.error e) ws
  | retried {code : TenantValidationFailureCode} {job : Job} {connection : TenantConnection}
      {availableAt : Time}
      (hjob : db.jobs.find jobId = some job) (hlease : leaseValid leaseToken now job = true)
      (hconnection : db.tenantConnections.find job.tenantConnectionId = some connection)
      (hattempts : job.attemptCount < 3)
      (hdelay : retryAvailableAt job.attemptCount now = .ok availableAt)
      (hevent : db.outboxEvents.find defaults.id = none) :
      ApplyBody rejects jobId leaseToken now defaults db (.failure code true)
        (.ok (.applied (toTenantConnectionDto connection.revalidate)
          (job.retry code availableAt) false))
        [.job (job.retry code availableAt), .tenantConnection connection.revalidate,
          .outboxEvent (tenantValidationRequested jobId availableAt defaults)]
  | eventTaken {code : TenantValidationFailureCode} {job : Job} {event : OutboxEvent}
      {ws : List Write} (hjob : db.jobs.find jobId = some job)
      (hevent : db.outboxEvents.find defaults.id = some event) :
      ApplyBody rejects jobId leaseToken now defaults db (.failure code true)
        (.error uniqueViolation) ws
  | failed {code : TenantValidationFailureCode} {retryable : Bool} {job : Job}
      {connection : TenantConnection}
      (hjob : db.jobs.find jobId = some job) (hlease : leaseValid leaseToken now job = true)
      (hconnection : db.tenantConnections.find job.tenantConnectionId = some connection)
      (hretry : shouldRetry (.failure code retryable) job = false) :
      ApplyBody rejects jobId leaseToken now defaults db (.failure code retryable)
        (.ok (.applied (toTenantConnectionDto connection.reject)
          (job.fail (.reported code) retryable now) false))
        [.job (job.fail (.reported code) retryable now), .tenantConnection connection.reject]

/-- A retry always has a delay left: a job with a lease was claimed, and was claimed at most
twice. -/
theorem retryAvailableAt_ok {attemptCount : Nat} (hlow : 1 ≤ attemptCount) (hhigh : attemptCount < 3)
    (now : Time) : ∃ availableAt, retryAvailableAt attemptCount now = .ok availableAt := by
  have hcases : attemptCount = 1 ∨ attemptCount = 2 := by omega
  rcases hcases with rfl | rfl
  · exact ⟨now + 60000, rfl⟩
  · exact ⟨now + 300000, rfl⟩

/-- The guarded update of the row that was just read. -/
theorem exec_updateJob_current (rejects : Store → TenantConnection → Bool) {db : Store}
    (hc : Consistent db) {job : Job} (set : Job → Job)
    (hid : ∀ job, (set job).id = job.id)
    (htc : ∀ job, (set job).tenantConnectionId = job.tenantConnectionId)
    (hjob : db.jobs.find job.id = some job) {guard : Job → Bool} (hguard : guard job = true) :
    exec rejects (.updateJob job.id guard set) db =
      (.ok (some (set job)), [.job (set job)], jobLocks (set job)) := by
  rw [exec_updateJob hid, hjob, Option.filter_some, if_pos hguard]
  simp [hc.nonTerminalElsewhere hjob (hid job) (htc job)]

theorem exec_updateTenantConnection_current (rejects : Store → TenantConnection → Bool)
    {db : Store} (job : Job) {connection : TenantConnection} (set : TenantConnection → TenantConnection)
    (hid : ∀ connection, (set connection).id = connection.id) {id : Uuid}
    (hconnection : db.tenantConnections.find id = some connection) :
    exec rejects (.updateTenantConnection id set) (db.putJob job) =
      if (set connection).indexed && rejects (db.putJob job) (set connection) then
        (.error uniqueViolation, [], tenantConnectionLocks (set connection))
      else (.ok (some (set connection)), [.tenantConnection (set connection)],
        tenantConnectionLocks (set connection)) := by
  rw [exec_updateTenantConnection hid, putJob_tenantConnections, hconnection]

/-- The two updates of a result: the row of the job, then that of its connection, which the index of
active tenants may refuse. -/
theorem eval_updates (hc : Consistent db) {α : Type} {job : Job} {connection : TenantConnection}
    {guard : Job → Bool} {set : Job → Job} {update : TenantConnection → TenantConnection} {id : Uuid}
    {f : Option Job → TransactionProgram α} {g : Option TenantConnection → TransactionProgram α}
    {o : Except JsError α} {ws : List Write}
    (h : (engine rejects).eval (query (.updateJob job.id guard set) >>= f) db = (o, ws))
    (hf : f (some (set job)) = query (.updateTenantConnection id update) >>= g)
    (hid : ∀ job, (set job).id = job.id)
    (htc : ∀ job, (set job).tenantConnectionId = job.tenantConnectionId)
    (hcid : ∀ connection, (update connection).id = connection.id)
    (hjob : db.jobs.find job.id = some job) (hguard : guard job = true)
    (hconnection : db.tenantConnections.find id = some connection) :
    ((update connection).indexed = true ∧
      rejects (db.putJob (set job)) (update connection) = true ∧ o = .error uniqueViolation) ∨
    (((update connection).indexed && rejects (db.putJob (set job)) (update connection)) = false ∧
      ∃ vs, (engine rejects).eval (g (some (update connection)))
          ((db.putJob (set job)).putTenantConnection (update connection)) = (o, vs) ∧
        ws = .job (set job) :: .tenantConnection (update connection) :: vs) := by
  rw [eval_query_ok (exec_updateJob_current rejects hc set hid htc hjob hguard), hf] at h
  simp only [writes_job, Engine.writes_nil] at h
  have hexec := exec_updateTenantConnection_current rejects (set job) update hcid hconnection
  split at hexec
  · rename_i hrefused
    rw [Bool.and_eq_true] at hrefused
    rw [eval_query_error hexec] at h
    cases h
    exact .inl ⟨hrefused.1, hrefused.2, rfl⟩
  · rename_i haccepted
    rw [eval_query_ok hexec] at h
    cases h
    exact .inr ⟨Bool.eq_false_iff.mpr haccepted, _, rfl, rfl⟩

theorem applyBody (hc : Consistent db) {o : Except JsError ApplyTenantValidationResult}
    {ws : List Write} (h : (engine rejects).eval
      (applyTransaction jobId leaseToken result now defaults) db = (o, ws)) :
    ApplyBody rejects jobId leaseToken now defaults db result o ws := by
  unfold applyTransaction at h
  rw [eval_read rfl] at h
  cases hjob : db.jobs.find jobId with
  | none =>
      rw [hjob] at h
      cases h
      exact .notFound hjob
  | some job =>
      have hid : job.id = jobId := Table.key_of_find hjob
      subst hid
      rw [hjob] at h
      dsimp only at h
      cases hlease : leaseValid leaseToken now job with
      | false =>
          rw [resultStale_eq, hlease, if_pos (show (!false) = true from rfl)] at h
          cases h
          exact .stale hjob hlease
      | true =>
          rw [resultStale_eq, hlease, if_neg (show ¬ (!true) = true by decide), eval_read rfl] at h
          obtain ⟨connection, hconnection, ha⟩ := hc.connection hjob
          have hcid : db.tenantConnections.find connection.id = some connection :=
            Table.find_of_mem (Table.mem_of_find hconnection)
          rw [hconnection] at h
          dsimp only at h
          -- one case for each row of the decision: success, last failure, failure with a retry left
          generalize hretry : shouldRetry result job = retry at h
          cases result with
          | success microsoftTenantId =>
              have hretry' : retry = false := hretry.symm
              subst hretry'
              rw [if_neg (by decide), Program.ofExcept_ok, Program.ret_bind] at h
              cases htext : storedText microsoftTenantId with
              | error e =>
                  -- the job is updated, but the text of the tenant is no parameter
                  rw [eval_query_ok (exec_updateJob_current rejects hc
                    (jobUpdate (.success microsoftTenantId) false now) (fun _ => rfl)
                    (fun _ => rfl) hjob hlease)] at h
                  dsimp only at h
                  rw [storedResult_of_error htext] at h
                  cases h
                  exact .refused hjob hlease htext
              | ok text =>
                  rw [storedResult_of_ok htext] at h
                  replace h := eval_updates hc h rfl (fun _ => rfl) (fun _ => rfl) (fun _ => rfl)
                    hjob hlease hcid
                  obtain ⟨-, hindex, rfl⟩ | ⟨hindex, vs, h, rfl⟩ := h
                  · exact .rejected hjob hlease hconnection htext hindex
                  · cases h
                    exact .completed hjob hlease hconnection htext hindex
          | failure code retryable =>
              cases retry with
              | false =>
                  rw [if_neg (by decide), Program.ofExcept_ok, Program.ret_bind] at h
                  replace h := eval_updates hc h rfl (fun _ => rfl) (fun _ => rfl) (fun _ => rfl)
                    hjob hlease hcid
                  obtain ⟨hindexed, -, -⟩ | ⟨-, vs, h, rfl⟩ := h
                  · cases hindexed
                  · cases h
                    exact .failed hjob hlease hconnection hretry
              | true =>
                  unfold shouldRetry at hretry
                  rw [Bool.and_eq_true, decide_eq_true_iff] at hretry
                  obtain ⟨rfl, hattempts⟩ := hretry
                  -- a running job was claimed at least once, so its delay is in the table
                  obtain ⟨availableAt, hdelay⟩ := retryAvailableAt_ok
                    (ha.running (leaseValid_running hlease)).2.2 hattempts now
                  rw [if_pos rfl, hdelay, Program.ofExcept_ok, Program.ret_bind] at h
                  replace h := eval_updates hc h rfl (fun _ => rfl) (fun _ => rfl) (fun _ => rfl)
                    hjob hlease hcid
                  obtain ⟨hindexed, -, -⟩ | ⟨-, vs, h, rfl⟩ := h
                  · cases hindexed
                  simp only [if_true] at h
                  rw [eval_insertOutboxEvent] at h
                  split at h
                  · rename_i hevent
                    obtain ⟨event, hevent⟩ := Option.isSome_iff_exists.mp hevent
                    cases h
                    exact .eventTaken hjob hevent
                  · rename_i hevent
                    -- the foreign key of the event holds: the job has just been written
                    have hstored : (db.jobs.put (job.retry code availableAt)).find job.id =
                        some (job.retry code availableAt) := Table.find_put_self _ _
                    split at h
                    · rename_i hmissing
                      exact absurd hmissing (Bool.eq_false_iff.mp (congrArg Option.isNone hstored))
                    · cases h
                      exact .retried hjob hlease hconnection hattempts hdelay
                        (Option.not_isSome_iff_eq_none.mp hevent)

/-- What the collision transaction computes on a consistent store. -/
inductive CollisionBody (jobId leaseToken : Uuid) (now : Time) (db : Store) :
    Except JsError ApplyTenantValidationResult → List Write → Prop
  | notFound (h : db.jobs.find jobId = none) :
      CollisionBody jobId leaseToken now db (.ok .notFound) []
  | stale {job : Job} (hjob : db.jobs.find jobId = some job)
      (hlease : leaseValid leaseToken now job = false) :
      CollisionBody jobId leaseToken now db (.ok .stale) []
  | failed {job : Job} {connection : TenantConnection}
      (hjob : db.jobs.find jobId = some job) (hlease : leaseValid leaseToken now job = true)
      (hconnection : db.tenantConnections.find job.tenantConnectionId = some connection) :
      CollisionBody jobId leaseToken now db
        (.ok (.applied (toTenantConnectionDto connection.reject)
          (job.fail .tenantAlreadyConnected false now) false))
        [.job (job.fail .tenantAlreadyConnected false now), .tenantConnection connection.reject]

theorem collisionBody (hc : Consistent db) {o : Except JsError ApplyTenantValidationResult}
    {ws : List Write}
    (h : (engine rejects).eval (collisionTransaction jobId leaseToken now) db = (o, ws)) :
    CollisionBody jobId leaseToken now db o ws := by
  unfold collisionTransaction at h
  rw [eval_read rfl] at h
  cases hjob : db.jobs.find jobId with
  | none =>
      rw [hjob] at h
      cases h
      exact .notFound hjob
  | some job =>
      have hid : job.id = jobId := Table.key_of_find hjob
      subst hid
      rw [hjob] at h
      dsimp only at h
      cases hlease : leaseValid leaseToken now job with
      | false =>
          rw [resultStale_eq, hlease, if_pos (show (!false) = true from rfl)] at h
          cases h
          exact .stale hjob hlease
      | true =>
          rw [resultStale_eq, hlease, if_neg (show ¬ (!true) = true by decide), eval_read rfl] at h
          obtain ⟨connection, hconnection, _⟩ := hc.connection hjob
          rw [hconnection] at h
          dsimp only at h
          -- a rejected connection is in no index, so this update is never refused
          replace h := eval_updates hc h rfl (fun _ => rfl) (fun _ => rfl) (fun _ => rfl) hjob hlease
            hconnection
          obtain ⟨hindexed, -, -⟩ | ⟨-, vs, h, rfl⟩ := h
          · cases hindexed
          · cases h
            exact .failed hjob hlease hconnection

theorem strict_applyTransaction :
    (applyTransaction jobId leaseToken result now defaults).Strict := by
  unfold applyTransaction
  refine Program.strict_perform_bind.mpr fun currentJob => ?_
  split
  · exact trivial
  · split
    · exact trivial
    · refine Program.strict_perform_bind.mpr fun currentConnection => ?_
      split
      · exact trivial
      · refine (Program.strict_ofExcept _).bind fun availableAt => ?_
        refine Program.strict_perform_bind.mpr fun updatedJob => ?_
        split
        · exact trivial
        · refine (Program.strict_ofExcept _).bind fun stored => ?_
          refine Program.strict_perform_bind.mpr fun updatedConnection => ?_
          split
          · exact trivial
          · split
            · exact Program.strict_perform_bind.mpr fun _ => trivial
            · exact trivial

theorem strict_collisionTransaction :
    (collisionTransaction jobId leaseToken now).Strict := by
  unfold collisionTransaction
  refine Program.strict_perform_bind.mpr fun currentJob => ?_
  split
  · exact trivial
  · split
    · exact trivial
    · refine Program.strict_perform_bind.mpr fun currentConnection => ?_
      split
      · exact trivial
      · refine Program.strict_perform_bind.mpr fun updatedJob => ?_
        split
        · exact trivial
        · refine Program.strict_perform_bind.mpr fun updatedConnection => ?_
          split <;> exact trivial

/-- The runs of `applyTenantValidationResult` on a consistent store. -/
inductive ApplyRun (rejects : Store → TenantConnection → Bool) (fault : JsError → Prop)
    (jobId leaseToken : Uuid) (result : TenantValidationResult) (now : Time)
    (defaults : OutboxDefaults) (db : Store) :
    Except JsError ApplyTenantValidationResult → Store → Prop
  | failed {e : JsError} (h : fault e) :
      ApplyRun rejects fault jobId leaseToken result now defaults db (.error e) db
  | violated {e : JsError} {ws : List Write}
      (h : ApplyBody rejects jobId leaseToken now defaults db result (.error e) ws)
      (hs : (isUniqueViolation e && result.isSuccess) = false) :
      ApplyRun rejects fault jobId leaseToken result now defaults db (.error e) db
  | ended {a : ApplyTenantValidationResult} {ws : List Write}
      {o : Except JsError ApplyTenantValidationResult}
      (h : ApplyBody rejects jobId leaseToken now defaults db result (.ok a) ws)
      (ho : o = .ok a ∨ ∃ e, fault e ∧ o = .error e) :
      ApplyRun rejects fault jobId leaseToken result now defaults db o
        ((engine rejects).writes ws db)
  | collided {a : ApplyTenantValidationResult} {e : JsError} {ws vs : List Write}
      {o : Except JsError ApplyTenantValidationResult}
      (h : ApplyBody rejects jobId leaseToken now defaults db result (.error e) vs)
      (hs : (isUniqueViolation e && result.isSuccess) = true)
      (hcollision : CollisionBody jobId leaseToken now db (.ok a) ws)
      (ho : o = .ok a ∨ ∃ e, fault e ∧ o = .error e) :
      ApplyRun rejects fault jobId leaseToken result now defaults db o
        ((engine rejects).writes ws db)

theorem CollisionBody.ok {o : Except JsError ApplyTenantValidationResult} {ws : List Write}
    (h : CollisionBody jobId leaseToken now db o ws) : ∃ a, o = .ok a := by
  cases h <;> exact ⟨_, rfl⟩

theorem ApplyBody.error_eq {e : JsError} {ws : List Write}
    (h : ApplyBody rejects jobId leaseToken now defaults db result (.error e) ws) :
    e = uniqueViolation ∨ e = invalidByteSequence := by
  cases h with
  | rejected => exact .inl rfl
  | refused _ _ htext => exact .inr (storedText_error htext)
  | eventTaken => exact .inl rfl

theorem runs_apply {fault : JsError → Prop} (hfault : ∀ e, fault e → Infrastructure e)
    (hc : Consistent db) {o : Except JsError ApplyTenantValidationResult} {db' : Store}
    {s' : Session Write Lock}
    (h : (engine rejects).Runs fault
      (applyTenantValidationResult jobId leaseToken result now defaults) db .idle o db' s') :
    s' = .idle ∧ ApplyRun rejects fault jobId leaseToken result now defaults db o db' := by
  unfold applyTenantValidationResult at h
  rcases Engine.runs_handle h with ⟨a, rfl, hmain⟩ | ⟨e, db₁, s₁, hmain, hcatch⟩
  · obtain ⟨rfl, hends⟩ := Engine.runs_transaction _ strict_applyTransaction hmain
    cases hends with
    | committed heval => exact ⟨rfl, .ended (applyBody hc heval) (.inl rfl)⟩
  · obtain ⟨rfl, hends⟩ := Engine.runs_transaction _ strict_applyTransaction hmain
    cases hends with
    | unanswered heval he =>
        have hi : isUniqueViolation e = false := hfault e he
        rw [hi] at hcatch
        obtain ⟨rfl, rfl, rfl⟩ := hcatch
        exact ⟨rfl, .ended (applyBody hc heval) (.inr ⟨e, he, rfl⟩)⟩
    | failed he =>
        have hi : isUniqueViolation e = false := hfault e he
        rw [hi] at hcatch
        obtain ⟨rfl, rfl, rfl⟩ := hcatch
        exact ⟨rfl, .failed he⟩
    -- the handler starts again after a success; any other error, and a failure's, goes on
    | rolledBack heval =>
        have hbody := applyBody hc heval
        rw [← Bool.not_and] at hcatch
        cases hs : isUniqueViolation e && result.isSuccess with
        | false =>
            rw [hs] at hcatch
            obtain ⟨rfl, rfl, rfl⟩ := hcatch
            exact ⟨rfl, .violated hbody hs⟩
        | true =>
            rw [hs] at hcatch
            obtain ⟨rfl, hcollision⟩ := Engine.runs_transaction _ strict_collisionTransaction hcatch
            refine ⟨rfl, ?_⟩
            cases hcollision with
            | committed heval' => exact .collided hbody hs (collisionBody hc heval') (.inl rfl)
            | unanswered heval' he =>
                exact .collided hbody hs (collisionBody hc heval') (.inr ⟨_, he, rfl⟩)
            | failed he => exact .failed he
            | rolledBack heval' =>
                obtain ⟨a, ha⟩ := (collisionBody hc heval').ok
                cases ha

end

/-! ## Recovery -/

section

variable {rejects : Store → TenantConnection → Bool} {now : Time}
  {defaults : Uuid → OutboxDefaults} {db : Store}

/-- The jobs a recovery selects. -/
def Store.expiredJobs (db : Store) (now : Time) : List Uuid :=
  (db.jobs.rows.filter (fun row => row.operation = .tenantValidation && row.state = .running &&
    row.leaseExpiresAt.any (· ≤ now))).map Job.id

theorem mem_expiredJobs {id : Uuid} :
    id ∈ db.expiredJobs now ↔ ∃ job, db.jobs.find id = some job ∧ leaseExpired now job = true := by
  rw [Store.expiredJobs, List.mem_map]
  constructor
  · intro ⟨job, hmem, hid⟩
    rw [List.mem_filter, Bool.and_eq_true, Bool.and_eq_true] at hmem
    refine ⟨job, hid ▸ Table.find_of_mem (Table.mem_def.mpr hmem.1), ?_⟩
    rw [leaseExpired, hmem.2.1.2, hmem.2.2]
    rfl
  · intro ⟨job, hfind, hexpired⟩
    refine ⟨job, ?_, Table.key_of_find hfind⟩
    unfold leaseExpired at hexpired
    rw [List.mem_filter]
    refine ⟨Table.mem_of_find hfind, ?_⟩
    cases hop : job.operation
    simpa using hexpired

theorem Store.expiredJobs_nodup (db : Store) (now : Time) : (db.expiredJobs now).Nodup :=
  (List.filter_sublist.map Job.id).nodup db.jobs.keys_nodup

/-- The generated event ids are new and differ from each other. -/
def FreshEvents (db : Store) (defaults : Uuid → OutboxDefaults) (ids : List Uuid) : Prop :=
  (∀ id ∈ ids, db.outboxEvents.find (defaults id).id = none) ∧
    (ids.map fun id => (defaults id).id).Nodup

/-- The loop moves each of its jobs back to the queue, or stops at an event id that is taken. -/
theorem eval_recoverEach (rejects : Store → TenantConnection → Bool)
    (defaults : Uuid → OutboxDefaults) {ids : List Uuid} (hc : Consistent db) (hnodup : ids.Nodup)
    (hexpired : ∀ id ∈ ids, ∃ job, db.jobs.find id = some job ∧ leaseExpired now job = true)
    (n : Nat) :
    (∃ ws, (engine rejects).eval (recoverEach now defaults ids n) db = (.ok (n + ids.length), ws) ∧
      Moves db (ids.map fun id => .recovered id now (defaults id))
        ((engine rejects).writes ws db)) ∨
    (¬ FreshEvents db defaults ids ∧
      ∃ ws, (engine rejects).eval (recoverEach now defaults ids n) db =
        (.error uniqueViolation, ws)) := by
  induction ids generalizing db n with
  | nil => exact .inl ⟨[], rfl, .nil db⟩
  | cons id rest ih =>
      obtain ⟨job, hjob, hguard⟩ := hexpired id List.mem_cons_self
      have hid : job.id = id := Table.key_of_find hjob
      subst hid
      -- no job is listed twice, so the jobs ahead are untouched by this step
      rw [List.nodup_cons] at hnodup
      have hu := exec_updateJob_current rejects hc (Job.recover now) (fun _ => rfl) (fun _ => rfl)
        hjob hguard
      have hstored : (db.jobs.put (job.recover now)).find job.id = some (job.recover now) :=
        Table.find_put_self _ _
      have heval : (engine rejects).eval (recoverEach now defaults (job.id :: rest) n) db =
          (((engine rejects).eval (query (.insertOutboxEvent (tenantValidationRequested job.id now
              (defaults job.id))) >>= fun _ => recoverEach now defaults rest (n + 1))
              (db.putJob (job.recover now))).1,
            [.job (job.recover now)] ++ ((engine rejects).eval (query (.insertOutboxEvent
              (tenantValidationRequested job.id now (defaults job.id))) >>= fun _ =>
              recoverEach now defaults rest (n + 1)) (db.putJob (job.recover now))).2) :=
        eval_query_ok hu
      rw [eval_insertOutboxEvent] at heval
      split at heval
      · rename_i htaken
        refine .inr ⟨fun hfresh => ?_, _, heval⟩
        exact absurd (hfresh.1 job.id List.mem_cons_self)
          (Option.isSome_iff_ne_none.mp htaken)
      · rename_i hfree
        have hevent := Option.not_isSome_iff_eq_none.mp hfree
        split at heval
        · rename_i hmissing
          exact absurd hmissing (Bool.eq_false_iff.mp (congrArg Option.isNone hstored))
        · have hmove : Move.Step db (.recovered job.id now (defaults job.id)) _ :=
            .recovered hjob hguard hevent
          -- what the `SELECT` found about the jobs ahead is still so
          have hrest : ∀ id ∈ rest, ∃ other,
              (db.jobs.put (job.recover now)).find id = some other ∧
                leaseExpired now other = true := by
            intro id hmem
            obtain ⟨other, hother, he⟩ := hexpired id (List.mem_cons_of_mem _ hmem)
            have hne : job.id ≠ id := fun h => hnodup.1 (h ▸ hmem)
            exact ⟨other, (Table.find_put_ne _ hne).trans hother, he⟩
          rcases ih (hc.step hmove) hnodup.2 hrest (n + 1) with
            ⟨ws, hw, hmoves⟩ | ⟨hclash, ws, hw⟩
          · rw [hw] at heval
            refine .inl ⟨.job (job.recover now) :: .outboxEvent (tenantValidationRequested job.id now
              (defaults job.id)) :: ws, ?_, .cons hmove hmoves⟩
            rw [heval, List.length_cons, Nat.add_assoc, Nat.add_comm 1]
            rfl
          · rw [hw] at heval
            refine .inr ⟨fun hfresh => hclash ⟨fun id hmem => ?_, ?_⟩, _, heval⟩
            · have hne : (defaults job.id).id ≠ (defaults id).id := by
                have hn := hfresh.2
                rw [List.map_cons, List.nodup_cons] at hn
                exact fun h => hn.1 (h ▸ List.mem_map_of_mem hmem)
              exact (Table.find_put_ne _ hne).trans (hfresh.1 id (List.mem_cons_of_mem _ hmem))
            · have hn := hfresh.2
              rw [List.map_cons, List.nodup_cons] at hn
              exact hn.2

theorem strict_recoverEach (ids : List Uuid) (n : Nat) :
    (recoverEach now defaults ids n).Strict := by
  induction ids generalizing n with
  | nil => exact trivial
  | cons id rest ih =>
      refine Program.strict_perform_bind.mpr fun recovered => ?_
      split
      · exact ih n
      · exact Program.strict_perform_bind.mpr fun _ => ih (n + 1)

/-- The runs of `recoverExpiredTenantValidationJobs` on a consistent store. -/
inductive RecoverRun (fault : JsError → Prop) (now : Time) (defaults : Uuid → OutboxDefaults)
    (db : Store) : Except JsError Nat → Store → Prop
  | failed {e : JsError} (h : fault e) : RecoverRun fault now defaults db (.error e) db
  | violated (h : ¬ FreshEvents db defaults (db.expiredJobs now)) :
      RecoverRun fault now defaults db (.error uniqueViolation) db
  | recovered {o : Except JsError Nat} {db' : Store}
      (h : Moves db ((db.expiredJobs now).map fun id => .recovered id now (defaults id)) db')
      (ho : o = .ok (db.expiredJobs now).length ∨ ∃ e, fault e ∧ o = .error e) :
      RecoverRun fault now defaults db o db'

theorem runs_recover {fault : JsError → Prop} (hc : Consistent db) {o : Except JsError Nat}
    {db' : Store} {s' : Session Write Lock}
    (h : (engine rejects).Runs fault (recoverExpiredTenantValidationJobs now defaults)
      db .idle o db' s') :
    s' = .idle ∧ RecoverRun fault now defaults db o db' := by
  have hstrict : (query (.selectExpiredJobs .tenantValidation now) >>= fun expiredJobs =>
      recoverEach now defaults expiredJobs 0).Strict :=
    Program.strict_perform_bind.mpr fun expiredJobs => strict_recoverEach expiredJobs 0
  obtain ⟨rfl, hends⟩ := Engine.runs_transaction _ hstrict h
  refine ⟨rfl, ?_⟩
  -- the loop runs over the ids that the `SELECT` returned
  have hread : (engine rejects).eval (query (.selectExpiredJobs .tenantValidation now) >>=
      fun expiredJobs => recoverEach now defaults expiredJobs 0) db =
      (engine rejects).eval (recoverEach now defaults (db.expiredJobs now) 0) db := eval_read rfl
  have hloop := eval_recoverEach rejects defaults hc (db.expiredJobs_nodup now)
    (fun id hmem => mem_expiredJobs.mp hmem) 0
  rw [← hread, Nat.zero_add] at hloop
  rcases hloop with ⟨ws, hw, hmoves⟩ | ⟨hclash, ws, hw⟩
  · cases hends with
    | committed heval =>
        cases hw.symm.trans heval
        exact .recovered hmoves (.inl rfl)
    | unanswered heval he =>
        cases hw.symm.trans heval
        exact .recovered hmoves (.inr ⟨_, he, rfl⟩)
    | rolledBack heval => cases hw.symm.trans heval
    | failed he => exact .failed he
  · cases hends with
    | committed heval => cases hw.symm.trans heval
    | unanswered heval => cases hw.symm.trans heval
    | rolledBack heval =>
        cases hw.symm.trans heval
        exact .violated hclash
    | failed he => exact .failed he

end

/-! ## Starting -/

section

variable {rejects : Store → TenantConnection → Bool} {targetWorkspace : Workspace}
  {idempotencyKey : JsString} {encryptedCredentials : EncryptedTenantCredentials}
  {payloadFingerprint : JsString} {draws : StartDraws} {db : Store}

/-- What the transaction of `startTenantValidation` computes on a consistent store. -/
inductive StartBody (targetWorkspace : Workspace) (idempotencyKey : JsString)
    (encryptedCredentials : EncryptedTenantCredentials) (payloadFingerprint : JsString)
    (draws : StartDraws) (db : Store) :
    Except JsError StartTenantValidationResult → List Write → Prop
  | conflict {record : IdempotencyRecord}
      (hrecord : db.idempotencyRecord targetWorkspace.organizationId idempotencyKey = some record)
      (hfingerprint : record.payloadFingerprint ≠ payloadFingerprint) :
      StartBody targetWorkspace idempotencyKey encryptedCredentials payloadFingerprint draws db
        (.ok .idempotencyConflict) []
  | reused {record : IdempotencyRecord} {job : Job} {connection : TenantConnection}
      (hrecord : db.idempotencyRecord targetWorkspace.organizationId idempotencyKey = some record)
      (hfingerprint : record.payloadFingerprint = payloadFingerprint)
      (hjob : db.jobs.find record.jobId = some job)
      (hconnection : db.tenantConnections.find job.tenantConnectionId = some connection) :
      StartBody targetWorkspace idempotencyKey encryptedCredentials payloadFingerprint draws db
        (.ok (.accepted (toTenantConnectionDto connection) job true)) []
  | jobMissing {record : IdempotencyRecord}
      (hrecord : db.idempotencyRecord targetWorkspace.organizationId idempotencyKey = some record)
      (hfingerprint : record.payloadFingerprint = payloadFingerprint)
      (hjob : db.jobs.find record.jobId = none) :
      StartBody targetWorkspace idempotencyKey encryptedCredentials payloadFingerprint draws db
        (.error missingJob) []
  | refused {e : JsError} {ws : List Write}
      (hkey : db.idempotencyRecord targetWorkspace.organizationId idempotencyKey = none)
      (he : e = uniqueViolation ∨ e = foreignKeyViolation) :
      StartBody targetWorkspace idempotencyKey encryptedCredentials payloadFingerprint draws db
        (.error e) ws
  | created (hmove : Move.Step db
        (.started targetWorkspace idempotencyKey encryptedCredentials payloadFingerprint draws)
        ((engine Store.activeElsewhere).writes
          [.tenantConnection (newTenantConnection targetWorkspace encryptedCredentials draws),
            .job (newJob draws draws.tenantConnectionId),
            .idempotencyRecord (newIdempotencyRecord targetWorkspace idempotencyKey
              payloadFingerprint draws draws.jobId),
            .outboxEvent (tenantValidationRequested draws.jobId draws.now
              ⟨draws.outboxEventId, draws.now⟩)] db)) :
      StartBody targetWorkspace idempotencyKey encryptedCredentials payloadFingerprint draws db
        (.ok (.accepted (toTenantConnectionDto
          (newTenantConnection targetWorkspace encryptedCredentials draws))
          (newJob draws draws.tenantConnectionId) false))
        [.tenantConnection (newTenantConnection targetWorkspace encryptedCredentials draws),
          .job (newJob draws draws.tenantConnectionId),
          .idempotencyRecord (newIdempotencyRecord targetWorkspace idempotencyKey
            payloadFingerprint draws draws.jobId),
          .outboxEvent (tenantValidationRequested draws.jobId draws.now
            ⟨draws.outboxEventId, draws.now⟩)]

/-- A new connection has no unfinished job yet. -/
theorem Consistent.nonTerminalElsewhere_new {db : Store} (h : Consistent db) {row : Job}
    (hconnection : db.tenantConnections.find row.tenantConnectionId = none) :
    db.nonTerminalElsewhere row = false := by
  rw [Store.nonTerminalElsewhere, List.any_eq_false]
  intro other ho
  have hne : other.tenantConnectionId ≠ row.tenantConnectionId := by
    intro he
    obtain ⟨c, hc, _⟩ := h.connection (Table.find_of_mem (Table.mem_def.mpr ho))
    rw [he, hconnection] at hc
    cases hc
  simp [hne]

theorem startBody (hc : Consistent db) {o : Except JsError StartTenantValidationResult}
    {ws : List Write} (h : (engine rejects).eval (startTransaction targetWorkspace idempotencyKey
      encryptedCredentials payloadFingerprint draws) db = (o, ws)) :
    StartBody targetWorkspace idempotencyKey encryptedCredentials payloadFingerprint draws db
      o ws := by
  unfold startTransaction at h
  rw [eval_read rfl] at h
  cases hrecord : db.idempotencyRecord targetWorkspace.organizationId idempotencyKey with
  | some record =>
      rw [hrecord] at h
      dsimp only at h
      split at h
      · rename_i hne
        cases h
        refine .conflict hrecord ?_
        rcases hne with hne | hne
        · cases hop : record.operation
          exact absurd hop hne
        · exact hne
      · rename_i heq
        rw [not_or, not_not, not_not] at heq
        rw [eval_read rfl] at h
        cases hjob : db.jobs.find record.jobId with
        | none =>
            rw [hjob] at h
            cases h
            exact .jobMissing hrecord heq.2 hjob
        | some job =>
            obtain ⟨connection, hconnection, _⟩ := hc.connection hjob
            rw [hjob] at h
            dsimp only at h
            rw [eval_read rfl, hconnection] at h
            cases h
            exact .reused hrecord heq.2 hjob hconnection
  | none =>
      rw [hrecord] at h
      dsimp only at h
      rw [eval_insertTenantConnection rfl] at h
      split at h
      · cases h
        exact .refused hrecord (.inl rfl)
      rename_i hconnection
      split at h
      · cases h
        exact .refused hrecord (.inr rfl)
      -- the connection is new, so no other job can be open for it
      have hnew : (db.putTenantConnection (newTenantConnection targetWorkspace encryptedCredentials
          draws)).nonTerminalElsewhere (newJob draws (newTenantConnection targetWorkspace
          encryptedCredentials draws).id) = false :=
        hc.nonTerminalElsewhere_new (Option.not_isSome_iff_eq_none.mp hconnection)
      dsimp only at h
      rw [eval_insertJob hnew] at h
      split at h
      · cases h
        exact .refused hrecord (.inl rfl)
      rename_i hjob
      split at h
      · cases h
        exact .refused hrecord (.inr rfl)
      rw [eval_insertIdempotencyRecord] at h
      split at h
      · cases h
        exact .refused hrecord (.inl rfl)
      rename_i hid
      split at h
      · cases h
        exact .refused hrecord (.inr rfl)
      rw [eval_insertOutboxEvent] at h
      split at h
      · cases h
        exact .refused hrecord (.inl rfl)
      rename_i hevent
      split at h
      · cases h
        exact .refused hrecord (.inr rfl)
      cases h
      rw [Bool.or_eq_true, not_or] at hid
      exact .created (.started (Option.not_isSome_iff_eq_none.mp hconnection)
        (Option.not_isSome_iff_eq_none.mp hjob) (Option.not_isSome_iff_eq_none.mp hid.1) hrecord
        (Option.not_isSome_iff_eq_none.mp hevent))

theorem strict_startTransaction : (startTransaction targetWorkspace idempotencyKey
    encryptedCredentials payloadFingerprint draws).Strict := by
  unfold startTransaction
  refine Program.strict_perform_bind.mpr fun existingRecord => ?_
  split
  · split
    · exact trivial
    · refine Program.strict_perform_bind.mpr fun existingJob => ?_
      split
      · exact trivial
      · refine Program.strict_perform_bind.mpr fun existingConnection => ?_
        split <;> exact trivial
  · refine Program.strict_perform_bind.mpr fun newConnection => ?_
    split
    · exact trivial
    · refine Program.strict_perform_bind.mpr fun newJob => ?_
      split
      · exact trivial
      · refine Program.strict_perform_bind.mpr fun _ => ?_
        exact Program.strict_perform_bind.mpr fun _ => trivial

/-- The answer to a call that created nothing. -/
def NotCreated (o : Except JsError StartTenantValidationResult) : Prop :=
  ∀ connection job, o ≠ .ok (.accepted connection job false)

theorem runs_getJobWithTenant {fault : JsError → Prop} {jobId : Uuid}
    {o : Except JsError (Option (TenantConnection × Job))} {db' : Store} {s' : Session Write Lock}
    (h : (engine rejects).Runs fault (getJobWithTenant jobId) db .idle o db' s') :
    s' = .idle ∧ db' = db := by
  unfold getJobWithTenant at h
  rcases Engine.runs_bind h with ⟨found, db₁, s₁, hj, hrest⟩ | ⟨e, rfl, hj⟩
  · obtain ⟨rfl, rfl, _⟩ := runs_read rfl hj
    split at hrest
    · exact ⟨hrest.2.2, hrest.2.1⟩
    · rcases Engine.runs_bind hrest with ⟨found, db₁, s₁, hc, hret⟩ | ⟨e, rfl, hc⟩
      · obtain ⟨rfl, rfl, _⟩ := runs_read rfl hc
        split at hret
        · exact ⟨hret.2.2, hret.2.1⟩
        · exact ⟨hret.2.2, hret.2.1⟩
      · obtain ⟨rfl, rfl, _⟩ := runs_read rfl hc
        exact ⟨rfl, rfl⟩
  · obtain ⟨rfl, rfl, _⟩ := runs_read rfl hj
    exact ⟨rfl, rfl⟩

/-- After a lost race `startTenantValidation` only reads. -/
theorem runs_startAfterViolation {fault : JsError → Prop}
    {o : Except JsError StartTenantValidationResult} {db' : Store} {s' : Session Write Lock}
    (h : (engine rejects).Runs fault (startAfterViolation targetWorkspace idempotencyKey
      payloadFingerprint) db .idle o db' s') : s' = .idle ∧ db' = db ∧ NotCreated o := by
  unfold startAfterViolation at h
  rcases Engine.runs_bind h with ⟨found, db₁, s₁, hr, hrest⟩ | ⟨e, rfl, hr⟩
  · obtain ⟨rfl, rfl, _⟩ := runs_read rfl hr
    split at hrest
    · obtain ⟨rfl, rfl, rfl⟩ := hrest
      exact ⟨rfl, rfl, fun _ _ h => by cases h⟩
    · split at hrest
      · obtain ⟨rfl, rfl, rfl⟩ := hrest
        exact ⟨rfl, rfl, fun _ _ h => by cases h⟩
      · rcases Engine.runs_bind hrest with ⟨existing, db₁, s₁, hj, hret⟩ | ⟨e, rfl, hj⟩
        · obtain ⟨rfl, rfl⟩ := runs_getJobWithTenant hj
          split at hret
          · obtain ⟨rfl, rfl, rfl⟩ := hret
            exact ⟨rfl, rfl, fun _ _ h => by cases h⟩
          · obtain ⟨rfl, rfl, rfl⟩ := hret
            exact ⟨rfl, rfl, fun _ _ h => by cases h⟩
        · obtain ⟨rfl, rfl⟩ := runs_getJobWithTenant hj
          exact ⟨rfl, rfl, fun _ _ h => by cases h⟩
  · obtain ⟨rfl, rfl, _⟩ := runs_read rfl hr
    exact ⟨rfl, rfl, fun _ _ h => by cases h⟩

/-- The call passes every check before its transaction, with this ciphertext and fingerprint. -/
structure Admits (db : Store) (grants : List AccessGrant) (input : StartTenantValidationInput)
    (cipher : TenantCredentialCipher) (draws : StartDraws) (targetWorkspace : Workspace)
    (encryptedCredentials : EncryptedTenantCredentials) (payloadFingerprint : JsString) :
    Prop where
  checked : assertStartInput input = .ok ()
  found : (uuidIn input.workspaceId).bind db.workspaces.find = some targetWorkspace
  authorized : isAuthorized grants
    ⟨targetWorkspace.organizationId, .write, .workspace targetWorkspace.id⟩ = true
  encrypted : cipher.encrypt input.credentials ⟨uuidOut targetWorkspace.id, .tenantValidation⟩
    draws.iv = .ok encryptedCredentials
  fingerprint : cipher.fingerprint ⟨input.credentials, input.workspaceId, .tenantValidation⟩ =
    .ok payloadFingerprint

/-- A call that is not admitted ends without having written; one that is, is its transaction, with
the second try after a unique violation. -/
theorem runs_start_cases {fault : JsError → Prop} {grants : List AccessGrant}
    {input : StartTenantValidationInput} {cipher : TenantCredentialCipher}
    {o : Except JsError StartTenantValidationResult} {db' : Store} {s' : Session Write Lock}
    (h : (engine rejects).Runs fault (startTenantValidation grants input cipher draws) db .idle
      o db' s') :
    (s' = .idle ∧ db' = db ∧ NotCreated o) ∨
      ∃ targetWorkspace encryptedCredentials payloadFingerprint,
        Admits db grants input cipher draws targetWorkspace encryptedCredentials
          payloadFingerprint ∧
        (engine rejects).Runs fault (tryCatch
          (transaction (startTransaction targetWorkspace input.idempotencyKey encryptedCredentials
            payloadFingerprint draws))
          (fun error =>
            if !isUniqueViolation error then throw error
            else startAfterViolation targetWorkspace input.idempotencyKey payloadFingerprint))
          db .idle o db' s' := by
  -- an error before the transaction leaves nothing behind
  have hraise : ∀ {e : JsError} {db₁ : Store} {s₁ : Session Write Lock}, db₁ = db → s₁ = .idle →
      (engine rejects).Runs fault (.raise e : DatabaseProgram StartTenantValidationResult) db₁ s₁
        o db' s' → s' = .idle ∧ db' = db ∧ NotCreated o := by
    intro e db₁ s₁ hdb hs hr
    obtain ⟨rfl, rfl, rfl⟩ := hr
    exact ⟨hs, hdb, fun _ _ h => by cases h⟩
  unfold startTenantValidation at h
  cases hinput : assertStartInput input with
  | error e =>
      rw [hinput] at h
      exact .inl (hraise rfl rfl h)
  | ok _ =>
      rw [hinput, Program.ofExcept_ok, Program.ret_bind] at h
      rcases Engine.runs_bind h with ⟨found, db₁, s₁, hw, hrest⟩ | ⟨e, rfl, hw⟩
      · obtain ⟨rfl, rfl, hread⟩ := runs_read (exec_selectWorkspace _) hw
        cases found with
        | none =>
            obtain ⟨rfl, rfl, rfl⟩ := hrest
            exact .inl ⟨rfl, rfl, fun _ _ h => by cases h⟩
        | some targetWorkspace =>
          have hfound : (uuidIn input.workspaceId).bind db₁.workspaces.find =
              some targetWorkspace := by
            rcases hread with hread | ⟨_, _, hread⟩
            · cases hid : uuidIn input.workspaceId with
              | none =>
                  rw [hid] at hread
                  cases hread
              | some id =>
                  rw [hid] at hread
                  rw [Option.bind_some]
                  exact (Except.ok.inj hread).symm
            · cases hread
          dsimp only at hrest
          split at hrest
          · obtain ⟨rfl, rfl, rfl⟩ := hrest
            exact .inl ⟨rfl, rfl, fun _ _ h => by cases h⟩
          · rename_i hauth
            rw [getOrganizationEntitlement_uuidOut, Program.ofExcept_ok, Program.ret_bind] at hrest
            dsimp only at hrest
            cases he : cipher.encrypt input.credentials
                ⟨uuidOut targetWorkspace.id, .tenantValidation⟩ draws.iv with
            | error e =>
                rw [he] at hrest
                exact .inl (hraise rfl rfl hrest)
            | ok encryptedCredentials =>
                rw [he, Program.ofExcept_ok, Program.ret_bind] at hrest
                cases hf : cipher.fingerprint
                    ⟨input.credentials, input.workspaceId, .tenantValidation⟩ with
                | error e =>
                    rw [hf] at hrest
                    exact .inl (hraise rfl rfl hrest)
                | ok payloadFingerprint =>
                    rw [hf, Program.ofExcept_ok, Program.ret_bind] at hrest
                    rw [Bool.not_eq_true', Bool.not_eq_false] at hauth
                    exact .inr ⟨targetWorkspace, encryptedCredentials, payloadFingerprint,
                      ⟨hinput, hfound, hauth, he, hf⟩, hrest⟩
      · obtain ⟨rfl, rfl, _⟩ := runs_read (exec_selectWorkspace _) hw
        exact .inl ⟨rfl, rfl, fun _ _ h => by cases h⟩

/-- The store after the transaction of a start and what followed it. -/
inductive StartCommit (targetWorkspace : Workspace) (idempotencyKey : JsString)
    (encryptedCredentials : EncryptedTenantCredentials) (payloadFingerprint : JsString)
    (draws : StartDraws) (db : Store) : Except JsError StartTenantValidationResult → Store → Prop
  | unchanged {o : Except JsError StartTenantValidationResult} (h : NotCreated o) :
      StartCommit targetWorkspace idempotencyKey encryptedCredentials payloadFingerprint draws db
        o db
  | created {db' : Store} {o : Except JsError StartTenantValidationResult}
      (hmove : Move.Step db (.started targetWorkspace idempotencyKey encryptedCredentials
        payloadFingerprint draws) db')
      (ho : o = .ok (.accepted (toTenantConnectionDto
          (newTenantConnection targetWorkspace encryptedCredentials draws))
          (newJob draws draws.tenantConnectionId) false) ∨ ∃ e, o = .error e) :
      StartCommit targetWorkspace idempotencyKey encryptedCredentials payloadFingerprint draws db
        o db'

theorem StartCommit.error {e : JsError} : StartCommit targetWorkspace idempotencyKey
    encryptedCredentials payloadFingerprint draws db (.error e) db :=
  .unchanged fun _ _ h => by cases h

/-- A body that ends without an error commits its writes or none. -/
theorem StartBody.commit {a : StartTenantValidationResult} {ws : List Write}
    {o : Except JsError StartTenantValidationResult}
    (h : StartBody targetWorkspace idempotencyKey encryptedCredentials payloadFingerprint
      draws db (.ok a) ws) (ho : o = .ok a ∨ ∃ e, o = .error e) :
    StartCommit targetWorkspace idempotencyKey encryptedCredentials payloadFingerprint draws db o
      ((engine rejects).writes ws db) := by
  have hnone : NotCreated (.ok a) → StartCommit targetWorkspace idempotencyKey encryptedCredentials
      payloadFingerprint draws db o db := by
    intro ha
    rcases ho with rfl | ⟨e, rfl⟩
    · exact .unchanged ha
    · exact .error
  cases h with
  | conflict => exact hnone fun _ _ h => by cases h
  | reused => exact hnone fun _ _ h => by cases h
  | created hmove => exact .created hmove ho

/-- The transaction of a start on a consistent store, with the second try after a violation. -/
theorem runs_startTransaction {fault : JsError → Prop} (hfault : ∀ e, fault e → Infrastructure e)
    (hc : Consistent db) {o : Except JsError StartTenantValidationResult} {db' : Store}
    {s' : Session Write Lock}
    (h : (engine rejects).Runs fault (tryCatch
      (transaction (startTransaction targetWorkspace idempotencyKey encryptedCredentials
        payloadFingerprint draws))
      (fun error =>
        if !isUniqueViolation error then throw error
        else startAfterViolation targetWorkspace idempotencyKey payloadFingerprint))
      db .idle o db' s') :
    s' = .idle ∧ StartCommit targetWorkspace idempotencyKey encryptedCredentials
      payloadFingerprint draws db o db' := by
  rcases Engine.runs_handle h with ⟨a, rfl, htx⟩ | ⟨e, db₁, s₁, htx, hcatch⟩
  · obtain ⟨rfl, hends⟩ := Engine.runs_transaction _ strict_startTransaction htx
    cases hends with
    | committed heval => exact ⟨rfl, (startBody hc heval).commit (.inl rfl)⟩
  · obtain ⟨rfl, hends⟩ := Engine.runs_transaction _ strict_startTransaction htx
    cases hends with
    | unanswered heval he =>
        have hi : isUniqueViolation e = false := hfault e he
        rw [hi] at hcatch
        obtain ⟨rfl, rfl, rfl⟩ := hcatch
        exact ⟨rfl, (startBody hc heval).commit (.inr ⟨e, rfl⟩)⟩
    | rolledBack _ =>
        split at hcatch
        · obtain ⟨rfl, rfl, rfl⟩ := hcatch
          exact ⟨rfl, .error⟩
        · obtain ⟨rfl, rfl, ho⟩ := runs_startAfterViolation hcatch
          exact ⟨rfl, .unchanged ho⟩
    | failed _ =>
        split at hcatch
        · obtain ⟨rfl, rfl, rfl⟩ := hcatch
          exact ⟨rfl, .error⟩
        · obtain ⟨rfl, rfl, ho⟩ := runs_startAfterViolation hcatch
          exact ⟨rfl, .unchanged ho⟩

/-- The runs of `startTenantValidation` on a consistent store. -/
inductive StartRun (input : StartTenantValidationInput) (draws : StartDraws) (db : Store) :
    Except JsError StartTenantValidationResult → Store → Prop
  | unchanged {o : Except JsError StartTenantValidationResult} (h : NotCreated o) :
      StartRun input draws db o db
  | created {targetWorkspace : Workspace} {encryptedCredentials : EncryptedTenantCredentials}
      {payloadFingerprint : JsString} {db' : Store}
      {o : Except JsError StartTenantValidationResult}
      (hmove : Move.Step db (.started targetWorkspace input.idempotencyKey encryptedCredentials
        payloadFingerprint draws) db')
      (ho : o = .ok (.accepted (toTenantConnectionDto
          (newTenantConnection targetWorkspace encryptedCredentials draws))
          (newJob draws draws.tenantConnectionId) false) ∨ ∃ e, o = .error e) :
      StartRun input draws db o db'

theorem runs_start {fault : JsError → Prop} (hfault : ∀ e, fault e → Infrastructure e)
    (hc : Consistent db) {grants : List AccessGrant} {input : StartTenantValidationInput}
    {cipher : TenantCredentialCipher} {o : Except JsError StartTenantValidationResult}
    {db' : Store} {s' : Session Write Lock}
    (h : (engine rejects).Runs fault (startTenantValidation grants input cipher draws) db .idle
      o db' s') : s' = .idle ∧ StartRun input draws db o db' := by
  rcases runs_start_cases h with ⟨hs, rfl, ho⟩ |
    ⟨targetWorkspace, encryptedCredentials, payloadFingerprint, -, hrun⟩
  · exact ⟨hs, .unchanged ho⟩
  · obtain ⟨hs, hcommit⟩ := runs_startTransaction hfault hc hrun
    cases hcommit with
    | unchanged ho => exact ⟨hs, .unchanged ho⟩
    | created hmove ho => exact ⟨hs, .created hmove ho⟩

end

end InboxSaas.Product
