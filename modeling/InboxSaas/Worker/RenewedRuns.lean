import InboxSaas.Product.Fencing
import InboxSaas.Reasoning.Protocol
import InboxSaas.Worker.System

/-!
# Runs with their renewal timers

The system of workers with what a renewal timer really starts: each time it fires it calls
`renewLease`, and the promise of that call goes on by itself, overtaken by the run, by other runs and
by recoveries, also after the timer was stopped.  A permit may be granted at any time.  A claim draws
a token that no claim drew before.
-/

namespace InboxSaas.Worker

open Reasoning Product Program

structure RenewedWorld where
  world : World
  /-- The renewals that a timer started, with the run whose timer it was and what is left to do. -/
  promises : List (Nat × WorkerProgram Bool)
  /-- The lease tokens that are drawn. -/
  tokens : List Uuid

/-- A store with the tokens of its running jobs, and nothing under way. -/
def RenewedWorld.initial (db : Store) (clock : Time) : RenewedWorld where
  world := { World.initial db.workspaces clock with db := db }
  promises := []
  tokens := db.jobs.rows.filterMap Job.leaseToken

/-- One awaited operation of process `i`. -/
inductive RenewedPerforms (i : Nat) (s : RenewedWorld) :
    (op : WorkerOp) → Except JsError op.Reply → RenewedWorld → Prop where
  | claim {jobId leaseToken : Uuid} {now : Time} {leaseDurationMs : Int}
      {o : Except JsError ClaimTenantValidationJobResult} {db' : Store}
      (hfresh : leaseToken ∉ s.tokens)
      (h : (Call.claim jobId now leaseDurationMs leaseToken).Runs s.world.db o db') :
      RenewedPerforms i s (.claimTenantValidationJob jobId now leaseDurationMs) o
        ⟨s.world.claimed i db', s.promises, leaseToken :: s.tokens⟩
  | other {op : WorkerOp} {o : Except JsError op.Reply} {w' : World}
      (hop : ∀ jobId now leaseDurationMs, op ≠ .claimTenantValidationJob jobId now leaseDurationMs)
      (h : Performs i s.world op o w') : RenewedPerforms i s op o { s with world := w' }

/-- What the timer of run `i` does: it fires, or a renewal it started goes on. -/
inductive TimerStep (i : Nat) (s : RenewedWorld) : RenewedWorld → Prop where
  | fires {jobId leaseToken : Uuid} (hi : s.world.renewals i = some (jobId, leaseToken)) :
      TimerStep i s
        { s with promises := (i, renewLease jobId leaseToken s.world.clock) :: s.promises }
  | goesOn {before after : List (Nat × WorkerProgram Bool)} {op : WorkerOp}
      {next : Except JsError op.Reply → WorkerProgram Bool} {r : Except JsError op.Reply}
      {s' : RenewedWorld} (hpromise : s.promises = before ++ (i, .call op next) :: after)
      (h : RenewedPerforms i s op r s') :
      TimerStep i s { s' with promises := before ++ (i, next r) :: after }

/-- Time passes, or a timer does something. -/
inductive RenewedDrifts (s : RenewedWorld) : RenewedWorld → Prop where
  | time {clock : Time} (h : s.world.clock ≤ clock) :
      RenewedDrifts s { s with world := { s.world with clock := clock } }
  | timer {i : Nat} {s' : RenewedWorld} (h : TimerStep i s s') : RenewedDrifts s s'

def renewedWorkers : Machine Nat RenewedWorld WorkerOp WorkerOp.Reply JsError where
  performs i op s r s' := RenewedPerforms i s op r s'
  halts _ _ _ _ := False
  drifts := RenewedDrifts

/-- What a process runs: a run for a job, a recovery tick, or a start of a validation. -/
inductive Task where
  | process (cipher : TenantCredentialCipher) (credentialKeyVersion : JsString) (jobId : Uuid)
      (now : Option Time)
  | tick (now : Option Time)
  | start (grants : List AccessGrant) (input : StartTenantValidationInput)
      (cipher : TenantCredentialCipher)

/-- Only a run has a result to report. -/
def Task.program : Task → WorkerProgram (Option ProcessTenantValidationJobResult)
  | .process cipher credentialKeyVersion jobId now =>
      some <$> processTenantValidationJob cipher credentialKeyVersion jobId now
  | .tick now => do
      runTenantValidationWorkerTick now
      return none
  | .start grants input cipher => do
      let _ ← await (.startTenantValidation grants input cipher)
      return none

abbrev RenewedRuns : Type :=
  Pool Nat (RenewedWorld × Trace Nat WorkerOp WorkerOp.Reply JsError) WorkerOp WorkerOp.Reply JsError
    (Option ProcessTenantValidationJobResult)

def renewedSystem (tasks : Nat → Task) (db : Store) (clock : Time) : RenewedRuns :=
  ⟨(.initial db clock, []), fun i => (tasks i).program⟩

/-- The worlds that any interleaving of the tasks leads to. -/
def RenewedRuns.Reached (tasks : Nat → Task) (db : Store) (clock : Time) (w : RenewedRuns) : Prop :=
  Pool.Reaches renewedWorkers.traced (renewedSystem tasks db clock) w

/-! ## Tokens -/

/-- The job's row carries the token no more: a claim replaced it, or it was cleared. -/
def Superseded (db : Store) (jobId leaseToken : Uuid) : Prop :=
  ∃ job, db.jobs.find jobId = some job ∧ job.leaseToken ≠ some leaseToken

/-- Every stored token is among the tokens. -/
def Drawn (tokens : List Uuid) (db : Store) : Prop :=
  ∀ jobId job leaseToken, db.jobs.find jobId = some job → job.leaseToken = some leaseToken →
    leaseToken ∈ tokens

theorem drawn_initial (db : Store) (clock : Time) :
    Drawn (RenewedWorld.initial db clock).tokens db := by
  intro jobId job leaseToken hjob htoken
  exact List.mem_filterMap.mpr ⟨job, Table.mem_of_find hjob, htoken⟩

/-- What a step keeps: the stored tokens are drawn, and a token that was superseded stays so. -/
structure TokensKept (tokens tokens' : List Uuid) (db db' : Store) : Prop where
  consistent : Consistent db'
  drawn : Drawn tokens' db'
  superseded : ∀ jobId, ∀ leaseToken ∈ tokens, Superseded db jobId leaseToken →
    Superseded db' jobId leaseToken

section

variable {tokens tokens' : List Uuid} {db db' : Store}

/-- Where the jobs stay as they are, so do the tokens. -/
theorem TokensKept.same (hc : Consistent db') (hd : Drawn tokens db) (hjobs : db'.jobs = db.jobs) :
    TokensKept tokens tokens db db' where
  consistent := hc
  drawn jobId job leaseToken hjob := hd jobId job leaseToken (hjobs ▸ hjob)
  superseded jobId leaseToken _ h := by
    obtain ⟨job, hjob, hne⟩ := h
    exact ⟨job, hjobs ▸ hjob, hne⟩

/-- A call keeps the tokens; a claim adds the one it draws. -/
theorem TokensKept.call {call : Call} {o : Except JsError call.Result} (hc : Consistent db)
    (hd : Drawn tokens db) (h : call.Runs db o db') (hsub : tokens ⊆ tokens')
    (hclaim : ∀ jobId now leaseDurationMs leaseToken,
      call = .claim jobId now leaseDurationMs leaseToken →
      leaseToken ∈ tokens' ∧ leaseToken ∉ tokens) : TokensKept tokens tokens' db db' := by
  refine ⟨hc.call h, fun jobId job leaseToken hjob htoken => ?_, fun jobId leaseToken ht hs => ?_⟩
  · rcases h.at hc jobId with hsame | ⟨m, hmakes, rfl, hrow, -⟩
    · exact hsub (hd jobId job leaseToken (hsame.job ▸ hjob) htoken)
    · generalize hold : db.jobs.find m.jobId = before at hrow
      rw [hjob] at hrow
      cases hrow with
      -- a claim draws a token that nobody had
      | claimed hguard =>
          obtain ⟨leaseDurationMs, rfl⟩ := hmakes.claimed
          cases htoken
          exact (hclaim _ _ _ _ rfl).1
      | renewed hguard => exact hsub (hd _ _ leaseToken hold htoken)
      | started => cases htoken
      | recovered => cases htoken
      | retried => cases htoken
      | completed => cases htoken
      | failed => cases htoken
  · obtain ⟨job, hjob, hne⟩ := hs
    rcases h.at hc jobId with hsame | ⟨m, hmakes, rfl, hrow, -⟩
    · exact ⟨job, hsame.job.trans hjob, hne⟩
    · obtain ⟨job', hjob'⟩ := hrow.written
      refine ⟨job', hjob', ?_⟩
      rw [hjob, hjob'] at hrow
      cases hrow with
      | claimed hguard =>
          obtain ⟨leaseDurationMs, rfl⟩ := hmakes.claimed
          intro he
          cases he
          exact (hclaim _ _ _ _ rfl).2 ht
      | renewed hguard => exact hne
      | recovered => exact nofun
      | retried => exact nofun
      | completed => exact nofun
      | failed => exact nofun

/-- A renewal or a result under the token. -/
inductive Under (jobId leaseToken : Uuid) : Call → Prop where
  | renew {now : Time} {leaseDurationMs : Int} :
      Under jobId leaseToken (.renew jobId leaseToken now leaseDurationMs)
  | apply {result : TenantValidationResult} {now : Time} {defaults : OutboxDefaults} :
      Under jobId leaseToken (.apply jobId leaseToken result now defaults)

theorem Under.valid {jobId leaseToken : Uuid} {call : Call} (h : Under jobId leaseToken call)
    {m : Move} (hmakes : call.Makes m) (hstep : m.Step db db') :
    ∃ job, db.jobs.find jobId = some job ∧ job.leaseToken = some leaseToken := by
  cases h with
  | renew =>
      subst hmakes
      cases hstep with
      | renewed hjob hguard => exact ⟨_, hjob, leaseValid_token hguard⟩
  | apply =>
      rcases hmakes with ⟨_, text, -, -, rfl⟩ | ⟨code, availableAt, -, rfl⟩ |
        ⟨code, retryable, rfl⟩
      · cases hstep with
        | completed hjob hguard => exact ⟨_, hjob, leaseValid_token hguard⟩
      · cases hstep with
        | retried hjob hguard => exact ⟨_, hjob, leaseValid_token hguard⟩
      · cases hstep with
        | failed hjob hguard => exact ⟨_, hjob, leaseValid_token hguard⟩

/-- Under a token that was superseded nothing is changed. -/
theorem Superseded.unmoved {jobId leaseToken : Uuid} (h : Superseded db jobId leaseToken)
    (hc : Consistent db) {call : Call} (hunder : Under jobId leaseToken call)
    {o : Except JsError call.Result} (hruns : call.Runs db o db') : db' = db := by
  obtain ⟨ms, hmoves, hmakes, -⟩ := call_moves hc hruns
  cases hmoves with
  | nil => rfl
  | cons head tail =>
      obtain ⟨job, hjob, htoken⟩ := hunder.valid (hmakes _ List.mem_cons_self) head
      obtain ⟨job', hjob', hne⟩ := h
      rw [hjob] at hjob'
      cases hjob'
      exact absurd htoken hne

/-- A renewal is refused under a token that was superseded. -/
theorem Superseded.not_renewed {jobId leaseToken : Uuid} (h : Superseded db jobId leaseToken)
    {now : Time} {leaseDurationMs : Int} :
    ¬ (Call.renew jobId leaseToken now leaseDurationMs).Runs db (.ok true) db' := by
  intro hruns
  obtain ⟨job, hjob, hlease⟩ := renewed_valid hruns
  obtain ⟨job', hjob', hne⟩ := h
  rw [hjob] at hjob'
  cases hjob'
  exact hne (leaseValid_token hlease)

/-- A claim answers with the token it drew. -/
theorem claimed_token {jobId leaseToken : Uuid} {now : Time} {leaseDurationMs : Int}
    {connection : TenantConnectionDto} {job : Job}
    (h : (Call.claim jobId now leaseDurationMs leaseToken).Runs db (.ok (.claimed connection job))
      db') : job.leaseToken = some leaseToken := by
  obtain ⟨s', h⟩ := h
  generalize ho : (Except.ok (ClaimTenantValidationJobResult.claimed connection job) :
    Except JsError ClaimTenantValidationJobResult) = o at h
  cases (runs_claim h).2 with
  | invalid => cases ho
  | failed => cases ho
  | notFound => cases ho
  | violated => cases ho
  | claimed hf hd hr =>
      rcases hr with ⟨c, -, hr⟩ | ⟨-, hr⟩ | ⟨e, -, hr⟩
      · rw [hr] at ho
        cases ho
        rfl
      · rw [hr] at ho
        cases ho
      · rw [hr] at ho
        cases ho

end

theorem Changes.tokensKept {tokens : List Uuid} {db db' : Store} {op : WorkerOp}
    (h : Changes db db' op) (hc : Consistent db) (hd : Drawn tokens db)
    (hop : ∀ jobId now leaseDurationMs, op ≠ .claimTenantValidationJob jobId now leaseDurationMs) :
    TokensKept tokens tokens db db' := by
  cases h with
  | none jobs tenantConnections => exact .same (hc.congr jobs tenantConnections) hd jobs
  | call h =>
      refine .call hc hd h (List.Subset.refl _) ?_
      intro jobId now leaseDurationMs leaseToken he
      subst he
      exact absurd rfl (hop jobId now leaseDurationMs)

theorem RenewedPerforms.tokensKept {i : Nat} {s s' : RenewedWorld} {op : WorkerOp}
    {o : Except JsError op.Reply} (h : RenewedPerforms i s op o s') (hc : Consistent s.world.db)
    (hd : Drawn s.tokens s.world.db) : TokensKept s.tokens s'.tokens s.world.db s'.world.db := by
  cases h with
  | claim hfresh h =>
      refine .call hc hd h (List.subset_cons_self _ _) ?_
      intro jobId now leaseDurationMs leaseToken he
      cases he
      exact ⟨List.mem_cons_self, hfresh⟩
  | other hop h => exact h.changes.tokensKept hc hd hop

theorem RenewedPerforms.tokens {i : Nat} {s s' : RenewedWorld} {op : WorkerOp}
    {o : Except JsError op.Reply} (h : RenewedPerforms i s op o s') : s.tokens ⊆ s'.tokens := by
  cases h with
  | claim => exact List.subset_cons_self _ _
  | other => exact List.Subset.refl _

end InboxSaas.Worker
