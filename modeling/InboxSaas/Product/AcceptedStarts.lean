import InboxSaas.Product.Idempotency

/-!
# What an accepted start is answered from

An answer that accepts, whether it created a job or found the one of its key, shows the job of the
stored record of that key and the connection of this job, and the record has the call's fingerprint.
-/

namespace InboxSaas.Product

open Reasoning

/-- The job and the connection are those of the record, and the record is of this payload. -/
structure Backed (db : Store) (organizationId : Uuid) (idempotencyKey payloadFingerprint : JsString)
    (connection : TenantConnectionDto) (job : Job) : Prop where
  stored : ∃ record row, db.idempotencyRecord organizationId idempotencyKey = some record ∧
    record.payloadFingerprint = payloadFingerprint ∧ db.jobs.find record.jobId = some job ∧
    db.tenantConnections.find job.tenantConnectionId = some row ∧
    connection = toTenantConnectionDto row

section

variable {targetWorkspace : Workspace} {idempotencyKey payloadFingerprint : JsString}
  {encryptedCredentials : EncryptedTenantCredentials} {draws : StartDraws} {db db' : Store}
  {connection : TenantConnectionDto} {job : Job} {reused : Bool} {s' : Session Write Lock}

/-- A body that accepts is backed by what it leaves. -/
theorem StartBody.backed {ws : List Write}
    (h : StartBody targetWorkspace idempotencyKey encryptedCredentials payloadFingerprint draws db
      (.ok (.accepted connection job reused)) ws) :
    Backed (postgres.writes ws db) targetWorkspace.organizationId idempotencyKey payloadFingerprint
      connection job := by
  cases h with
  | reused hrecord hfingerprint hjob hconnection =>
      exact ⟨_, _, hrecord, hfingerprint, hjob, hconnection, rfl⟩
  | created hmove =>
      exact ⟨_, _, hmove.started_record.2, rfl, Table.find_put_self _ _, Table.find_put_self _ _,
        rfl⟩

theorem runs_getJobWithTenant_some {jobId : Uuid} {row : TenantConnection}
    (h : postgres.Runs Infrastructure (getJobWithTenant jobId) db .idle (.ok (some (row, job))) db'
      s') :
    db.jobs.find jobId = some job ∧
      db.tenantConnections.find job.tenantConnectionId = some row := by
  unfold getJobWithTenant at h
  rcases Engine.runs_bind h with ⟨found, db₁, s₁, hj, hrest⟩ | ⟨e, he, -⟩
  swap
  · cases he
  obtain ⟨rfl, rfl, hr | ⟨e, _, hr⟩⟩ := runs_read rfl hj
  swap
  · cases hr
  have hfind : db₁.jobs.find jobId = found := (Except.ok.inj hr).symm
  cases found with
  | none => cases hrest.1
  | some stored =>
      rcases Engine.runs_bind hrest with ⟨found', db₂, s₂, hc, hret⟩ | ⟨e, he, -⟩
      swap
      · cases he
      obtain ⟨rfl, rfl, hr' | ⟨e, _, hr'⟩⟩ := runs_read rfl hc
      swap
      · cases hr'
      have hfind' : db₂.tenantConnections.find stored.tenantConnectionId = found' :=
        (Except.ok.inj hr').symm
      cases found' with
      | none => cases hret.1
      | some connection =>
          cases hret.1
          exact ⟨hfind, hfind'⟩

/-- After a lost race the answer is read from the winner's rows. -/
theorem runs_startAfterViolation_backed
    (h : postgres.Runs Infrastructure (startAfterViolation targetWorkspace idempotencyKey
      payloadFingerprint) db .idle (.ok (.accepted connection job reused)) db' s') :
    Backed db targetWorkspace.organizationId idempotencyKey payloadFingerprint connection job := by
  unfold startAfterViolation at h
  rcases Engine.runs_bind h with ⟨found, db₁, s₁, hr, hrest⟩ | ⟨e, he, -⟩
  swap
  · cases he
  obtain ⟨rfl, rfl, hread | ⟨e, _, hread⟩⟩ := runs_read rfl hr
  swap
  · cases hread
  have hrecord : db₁.idempotencyRecord targetWorkspace.organizationId idempotencyKey = found :=
    (Except.ok.inj hread).symm
  cases found with
  | none => cases hrest.1
  | some record =>
      dsimp only at hrest
      split at hrest
      · cases hrest.1
      · rename_i hsame
        rw [not_or, not_not, not_not] at hsame
        rcases Engine.runs_bind hrest with ⟨existing, db₂, s₂, hj, hret⟩ | ⟨e, he, -⟩
        swap
        · cases he
        obtain ⟨rfl, rfl⟩ := runs_getJobWithTenant hj
        cases existing with
        | none => cases hret.1
        | some stored =>
            obtain ⟨hjob, hconnection⟩ := runs_getJobWithTenant_some hj
            cases hret.1
            exact ⟨record, _, hrecord, hsame.2, hjob, hconnection, rfl⟩

end

section

variable {grants : List AccessGrant} {input : StartTenantValidationInput}
  {cipher : TenantCredentialCipher} {draws : StartDraws} {db db' : Store}
  {connection : TenantConnectionDto} {job : Job} {reused : Bool} {s' : Session Write Lock}

/-- A call that accepts passed every check before its transaction. -/
theorem admits_of_accepted
    (h : postgres.Runs Infrastructure (startTenantValidation grants input cipher draws) db .idle
      (.ok (.accepted connection job reused)) db' s') :
    ∃ targetWorkspace encryptedCredentials payloadFingerprint,
      Admits db grants input cipher draws targetWorkspace encryptedCredentials payloadFingerprint ∧
      postgres.Runs Infrastructure (tryCatch
        (transaction (startTransaction targetWorkspace input.idempotencyKey encryptedCredentials
          payloadFingerprint draws))
        (fun error =>
          if !isUniqueViolation error then throw error
          else startAfterViolation targetWorkspace input.idempotencyKey payloadFingerprint))
        db .idle (.ok (.accepted connection job reused)) db' s' := by
  unfold startTenantValidation at h
  -- a check that fails ends the call with an error or with `notFound`, never with `accepted`
  cases hinput : assertStartInput input with
  | error e =>
      rw [hinput] at h
      cases h.1
  | ok _ =>
      rw [hinput, Program.ofExcept_ok, Program.ret_bind] at h
      rcases Engine.runs_bind h with ⟨found, db₁, s₁, hw, hrest⟩ | ⟨e, he, -⟩
      swap
      · cases he
      obtain ⟨rfl, rfl, hread | ⟨e, _, hread⟩⟩ := runs_read (exec_selectWorkspace _) hw
      swap
      · cases hread
      cases found with
      | none => cases hrest.1
      | some targetWorkspace =>
          have hfound : (uuidIn input.workspaceId).bind db₁.workspaces.find =
              some targetWorkspace := by
            cases hid : uuidIn input.workspaceId with
            | none =>
                rw [hid] at hread
                cases hread
            | some id =>
                rw [hid] at hread
                rw [Option.bind_some]
                exact (Except.ok.inj hread).symm
          dsimp only at hrest
          split at hrest
          · cases hrest.1
          · rename_i hauth
            rw [Bool.not_eq_true', Bool.not_eq_false] at hauth
            rw [getOrganizationEntitlement_uuidOut, Program.ofExcept_ok, Program.ret_bind] at hrest
            dsimp only at hrest
            cases he : cipher.encrypt input.credentials
                ⟨uuidOut targetWorkspace.id, .tenantValidation⟩ draws.iv with
            | error e =>
                rw [he] at hrest
                cases hrest.1
            | ok encryptedCredentials =>
                rw [he, Program.ofExcept_ok, Program.ret_bind] at hrest
                cases hf : cipher.fingerprint
                    ⟨input.credentials, input.workspaceId, .tenantValidation⟩ with
                | error e =>
                    rw [hf] at hrest
                    cases hrest.1
                | ok payloadFingerprint =>
                    rw [hf, Program.ofExcept_ok, Program.ret_bind] at hrest
                    exact ⟨targetWorkspace, encryptedCredentials, payloadFingerprint,
                      ⟨hinput, hfound, hauth, he, hf⟩, hrest⟩

/-- A start that accepts is answered from the record of its key in the store it leaves. -/
theorem accepted_start (hc : Consistent db)
    (h : postgres.Runs Infrastructure (startTenantValidation grants input cipher draws) db .idle
      (.ok (.accepted connection job reused)) db' s') :
    ∃ targetWorkspace encryptedCredentials payloadFingerprint,
      Admits db grants input cipher draws targetWorkspace encryptedCredentials payloadFingerprint ∧
      Backed db' targetWorkspace.organizationId input.idempotencyKey payloadFingerprint connection
        job := by
  obtain ⟨targetWorkspace, encryptedCredentials, payloadFingerprint, hadmits, hrun⟩ :=
    admits_of_accepted h
  refine ⟨targetWorkspace, encryptedCredentials, payloadFingerprint, hadmits, ?_⟩
  rcases Engine.runs_handle hrun with ⟨a, ha, htx⟩ | ⟨e, db₁, s₁, htx, hcatch⟩
  · obtain ⟨-, hends⟩ := Engine.runs_transaction _ strict_startTransaction htx
    cases ha
    cases hends with
    | committed heval => exact (startBody hc heval).backed
  · obtain ⟨rfl, hends⟩ := Engine.runs_transaction _ strict_startTransaction htx
    split at hcatch
    · cases hcatch.1
    · obtain ⟨-, rfl, -⟩ := runs_startAfterViolation hcatch
      exact runs_startAfterViolation_backed hcatch

end

end InboxSaas.Product
