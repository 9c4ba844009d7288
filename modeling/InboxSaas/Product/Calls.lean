import InboxSaas.Product.Operations

/-!
# Calls and histories

A `Call` is one invocation of one of the five operations with its arguments.  Run alone, with any
failures, a call makes at most one move on each job (`call_moves`), and no move touches the rows of
another job (`Move.Step.frame`).  A `Run` is a history of calls from one store to another.
-/

namespace InboxSaas.Product

open Reasoning

inductive Call where
  | start (grants : List AccessGrant) (input : StartTenantValidationInput)
      (cipher : TenantCredentialCipher) (draws : StartDraws)
  | claim (jobId : Uuid) (now : Time) (leaseDurationMs : Int) (leaseToken : Uuid)
  | renew (jobId leaseToken : Uuid) (now : Time) (leaseDurationMs : Int)
  | recover (now : Time) (defaults : Uuid → OutboxDefaults)
  | apply (jobId leaseToken : Uuid) (result : TenantValidationResult) (now : Time)
      (defaults : OutboxDefaults)

@[reducible] def Call.Result : Call → Type
  | .start _ _ _ _ => StartTenantValidationResult
  | .claim _ _ _ _ => ClaimTenantValidationJobResult
  | .renew _ _ _ _ => Bool
  | .recover _ _ => Nat
  | .apply _ _ _ _ _ => ApplyTenantValidationResult

def Call.program : (call : Call) → DatabaseProgram call.Result
  | .start grants input cipher draws => startTenantValidation grants input cipher draws
  | .claim jobId now leaseDurationMs leaseToken =>
      claimTenantValidationJob jobId now leaseDurationMs leaseToken
  | .renew jobId leaseToken now leaseDurationMs =>
      renewTenantValidationJobLease jobId leaseToken now leaseDurationMs
  | .recover now defaults => recoverExpiredTenantValidationJobs now defaults
  | .apply jobId leaseToken result now defaults =>
      applyTenantValidationResult jobId leaseToken result now defaults

/-- The call run alone; any command of it may meet an infrastructure failure. -/
def Call.Runs (call : Call) (db : Store) (o : Except JsError call.Result) (db' : Store) : Prop :=
  ∃ s', postgres.Runs Infrastructure call.program db .idle o db' s'

/-- The call run alone without failures. -/
def Call.run (call : Call) (db : Store) : Except JsError call.Result × Store :=
  let (o, db', _) := postgres.run call.program db .idle
  (o, db')

theorem Call.runs_run (call : Call) (db : Store) :
    call.Runs db (call.run db).1 (call.run db).2 :=
  ⟨_, Engine.runs_run _ Infrastructure call.program db .idle⟩

/-- The moves a call can make. -/
def Call.Makes : Call → Move → Prop
  | .start _ input _ draws, m => ∃ targetWorkspace encryptedCredentials payloadFingerprint,
      m = .started targetWorkspace input.idempotencyKey encryptedCredentials payloadFingerprint draws
  | .claim jobId now leaseDurationMs leaseToken, m =>
      m = .claimed jobId leaseToken now (now + leaseDurationMs)
  | .renew jobId leaseToken now leaseDurationMs, m =>
      m = .renewed jobId leaseToken now (now + leaseDurationMs)
  | .recover now defaults, m => ∃ jobId, m = .recovered jobId now (defaults jobId)
  | .apply jobId leaseToken result now defaults, m =>
      (∃ microsoftTenantId text, result = .success microsoftTenantId ∧
        storedText microsoftTenantId = .ok text ∧ m = .completed jobId leaseToken text now) ∨
      (∃ code availableAt, result = .failure code true ∧
        m = .retried jobId leaseToken code now availableAt defaults) ∨
      ∃ code retryable, m = .failed jobId leaseToken code retryable now

def Call.isStart : Call → Bool
  | .start _ _ _ _ => true
  | _ => false

/-- The job of the move is not stored before. -/
def Move.Starts : Move → Prop
  | .started _ _ _ _ _ => True
  | _ => False

/-! ## The rows of one job -/

def Store.eventsOf (db : Store) (jobId : Uuid) : List OutboxEvent :=
  db.outboxEvents.rows.filter (fun event => event.jobId = jobId)

/-- The job, its connection and its events are the same in both stores. -/
structure SameJob (jobId : Uuid) (db db' : Store) : Prop where
  job : db'.jobs.find jobId = db.jobs.find jobId
  connection {job : Job} (h : db.jobs.find jobId = some job) :
    db'.tenantConnections.find job.tenantConnectionId =
      db.tenantConnections.find job.tenantConnectionId
  events : db'.eventsOf jobId = db.eventsOf jobId

namespace SameJob

theorem refl (jobId : Uuid) (db : Store) : SameJob jobId db db :=
  ⟨rfl, fun _ => rfl, rfl⟩

theorem trans {jobId : Uuid} {db db₁ db' : Store} (h : SameJob jobId db db₁)
    (h' : SameJob jobId db₁ db') : SameJob jobId db db' where
  job := h'.job.trans h.job
  connection hj := (h'.connection (h.job.trans hj)).trans (h.connection hj)
  events := h'.events.trans h.events

end SameJob

theorem eventsOf_put {db : Store} {event : OutboxEvent} (jobId : Uuid)
    (hnew : db.outboxEvents.find event.id = none) :
    (db.putOutboxEvent event).eventsOf jobId =
      if event.jobId = jobId then db.eventsOf jobId ++ [event] else db.eventsOf jobId := by
  change (db.outboxEvents.put event).rows.filter _ = _
  rw [Table.rows_put_of_find_none hnew, List.filter_append]
  split
  · rename_i h
    simp [h, Store.eventsOf]
  · rename_i h
    simp [h, Store.eventsOf]

/-- Rewriting one job and its connection leaves every other job alone. -/
theorem SameJob.update {db : Store} (hc : Consistent db) {job job' : Job}
    {connection' : TenantConnection} {jobId : Uuid} (hjob : db.jobs.find job.id = some job)
    (hid : job'.id = job.id) (hcid : connection'.id = job.tenantConnectionId)
    (hne : job.id ≠ jobId) :
    SameJob jobId db ((db.putJob job').putTenantConnection connection') where
  job := Table.find_put_ne _ (by rw [key_job, hid]; exact hne)
  connection {other} ho := by
    refine Table.find_put_ne _ ?_
    rw [key_tenantConnection, hcid]
    exact fun he => hne (hc.unique hjob ho he)
  events := rfl

theorem SameJob.putJob {db : Store} {job' : Job} {jobId : Uuid} (hne : job'.id ≠ jobId) :
    SameJob jobId db (db.putJob job') where
  job := Table.find_put_ne _ hne
  connection _ := rfl
  events := rfl

theorem SameJob.putOutboxEvent {db db' : Store} {event : OutboxEvent} {jobId : Uuid}
    (h : SameJob jobId db db') (hnew : db'.outboxEvents.find event.id = none)
    (hne : event.jobId ≠ jobId) : SameJob jobId db (db'.putOutboxEvent event) where
  job := h.job
  connection := h.connection
  events := by rw [eventsOf_put jobId hnew, if_neg hne, h.events]

/-- A move touches the rows of its own job only. -/
theorem Move.Step.frame {db db' : Store} {m : Move} (hc : Consistent db) (h : m.Step db db')
    {jobId : Uuid} (hne : m.jobId ≠ jobId) : SameJob jobId db db' := by
  cases h with
  | started hconnection hjob hrecord hkey hevent =>
      refine SameJob.putOutboxEvent ⟨Table.find_put_ne _ hne, fun {job} ho => ?_, rfl⟩ hevent hne
      obtain ⟨connection, hfind, _⟩ := hc.connection ho
      refine Table.find_put_ne _ fun he => ?_
      rw [← he] at hfind
      exact absurd (hconnection.symm.trans hfind) (by simp)
  | claimed hjob => exact .putJob fun he => hne ((Store.job_id hjob).symm.trans he)
  | renewed hjob => exact .putJob fun he => hne ((Store.job_id hjob).symm.trans he)
  | recovered hjob hguard hevent =>
      exact SameJob.putOutboxEvent (.putJob fun he => hne ((Store.job_id hjob).symm.trans he))
        hevent hne
  | retried hjob hguard hconnection hattempts hdelay hevent =>
      have hid := Store.job_id hjob
      have hcid := Store.tenantConnection_id hconnection
      subst hid
      exact SameJob.putOutboxEvent (SameJob.update hc hjob rfl hcid hne) hevent hne
  | completed hjob hguard hconnection =>
      have hid := Store.job_id hjob
      have hcid := Store.tenantConnection_id hconnection
      subst hid
      exact SameJob.update hc hjob rfl hcid hne
  | failed hjob hguard hconnection =>
      have hid := Store.job_id hjob
      have hcid := Store.tenantConnection_id hconnection
      subst hid
      exact SameJob.update hc hjob rfl hcid hne

/-! ## Moves of a call -/

/-- With at most one move on each job, a job sees its own move or nothing. -/
theorem Moves.at {db db' : Store} {ms : List Move} (hc : Consistent db) (h : Moves db ms db')
    (hnodup : (ms.map Move.jobId).Nodup) (jobId : Uuid) :
    (jobId ∉ ms.map Move.jobId ∧ SameJob jobId db db') ∨
      ∃ m ∈ ms, m.jobId = jobId ∧ ∃ db₁ db₂, Consistent db₁ ∧ SameJob jobId db db₁ ∧
        m.Step db₁ db₂ ∧ SameJob jobId db₂ db' := by
  induction h with
  | nil db => exact .inl ⟨by simp, .refl jobId db⟩
  | cons head tail ih =>
      rename_i db db₁ db' m ms
      rw [List.map_cons, List.nodup_cons] at hnodup
      have hc₁ := hc.step head
      by_cases hm : m.jobId = jobId
      · subst hm
        rcases ih hc₁ hnodup.2 with ⟨_, hsame⟩ | ⟨m', hm', he, _⟩
        · exact .inr ⟨m, List.mem_cons_self, rfl, db, db₁, hc, .refl _ _, head, hsame⟩
        · exact absurd (he ▸ List.mem_map_of_mem hm') hnodup.1
      · have hframe := head.frame hc hm
        rcases ih hc₁ hnodup.2 with ⟨hnot, hsame⟩ | ⟨m', hm', he, db₂, db₃, hc₂, hs, hstep, hs'⟩
        · refine .inl ⟨?_, hframe.trans hsame⟩
          rw [List.map_cons, List.mem_cons, not_or]
          exact ⟨Ne.symm hm, hnot⟩
        · exact .inr ⟨m', List.mem_cons_of_mem _ hm', he, db₂, db₃, hc₂, hframe.trans hs, hstep, hs'⟩

theorem filter_find {db : Store} {id : Uuid} {guard : Job → Bool} {job : Job}
    (h : (db.jobs.find id).filter guard = some job) :
    db.jobs.find id = some job ∧ guard job = true :=
  Option.filter_eq_some_iff.mp h

/-- The move of a claim that took effect. -/
theorem ClaimRun.moves {fault : JsError → Prop} {jobId leaseToken : Uuid} {now : Time}
    {leaseDurationMs : Int} {db db' : Store}
    {o : Except JsError ClaimTenantValidationJobResult}
    (h : ClaimRun fault jobId now leaseDurationMs leaseToken db o db') :
    db' = db ∨ Move.Step db (.claimed jobId leaseToken now (now + leaseDurationMs)) db' := by
  cases h with
  | claimed hf hd =>
      obtain ⟨hjob, hguard⟩ := filter_find hf
      exact .inr (.claimed hjob hguard (Int.lt_add_of_pos_right now hd))
  | _ => exact .inl rfl

theorem RenewRun.moves {fault : JsError → Prop} {jobId leaseToken : Uuid} {now : Time}
    {leaseDurationMs : Int} {db db' : Store} {o : Except JsError Bool}
    (h : RenewRun fault jobId leaseToken now leaseDurationMs db o db') :
    db' = db ∨ Move.Step db (.renewed jobId leaseToken now (now + leaseDurationMs)) db' := by
  cases h with
  | renewed hf hd =>
      obtain ⟨hjob, hguard⟩ := filter_find hf
      exact .inr (.renewed hjob hguard (Int.lt_add_of_pos_right now hd))
  | _ => exact .inl rfl

theorem ApplyBody.moves {jobId leaseToken : Uuid} {result : TenantValidationResult} {now : Time}
    {defaults : OutboxDefaults} {db : Store} {a : ApplyTenantValidationResult} {ws : List Write}
    (h : ApplyBody Store.activeElsewhere jobId leaseToken now defaults db result (.ok a) ws) :
    postgres.writes ws db = db ∨
      ∃ m, (Call.apply jobId leaseToken result now defaults).Makes m ∧
        m.Step db (postgres.writes ws db) := by
  cases h with
  | notFound => exact .inl rfl
  | stale => exact .inl rfl
  | completed hjob hlease hconnection htext hindex =>
      exact .inr ⟨_, .inl ⟨_, _, rfl, htext, rfl⟩, .completed hjob hlease hconnection hindex⟩
  | retried hjob hlease hconnection hattempts hdelay hevent =>
      exact .inr ⟨_, .inr (.inl ⟨_, _, rfl, rfl⟩),
        .retried hjob hlease hconnection hattempts hdelay hevent⟩
  | failed hjob hlease hconnection =>
      exact .inr ⟨_, .inr (.inr ⟨_, _, rfl⟩), .failed hjob hlease hconnection⟩

theorem CollisionBody.moves {jobId leaseToken : Uuid} {now : Time} {db : Store}
    {a : ApplyTenantValidationResult} {ws : List Write}
    (h : CollisionBody jobId leaseToken now db (.ok a) ws) :
    postgres.writes ws db = db ∨
      Move.Step db (.failed jobId leaseToken .tenantAlreadyConnected false now)
        (postgres.writes ws db) := by
  cases h with
  | notFound => exact .inl rfl
  | stale => exact .inl rfl
  | failed hjob hlease hconnection => exact .inr (.failed hjob hlease hconnection)

theorem ApplyRun.moves {fault : JsError → Prop} {jobId leaseToken : Uuid}
    {result : TenantValidationResult} {now : Time} {defaults : OutboxDefaults} {db db' : Store}
    {o : Except JsError ApplyTenantValidationResult}
    (h : ApplyRun Store.activeElsewhere fault jobId leaseToken result now defaults db o db') :
    db' = db ∨ ∃ m, (Call.apply jobId leaseToken result now defaults).Makes m ∧ m.Step db db' := by
  cases h with
  | failed => exact .inl rfl
  | violated => exact .inl rfl
  | ended hbody => exact hbody.moves
  | collided _ _ hbody =>
      rcases hbody.moves with he | hstep
      · exact .inl he
      · exact .inr ⟨_, .inr (.inr ⟨_, _, rfl⟩), hstep⟩

/-- What a call does to the store: moves it can make, at most one on each job. -/
theorem call_moves {call : Call} {db db' : Store} {o : Except JsError call.Result}
    (hc : Consistent db) (h : call.Runs db o db') :
    ∃ ms, Moves db ms db' ∧ (∀ m ∈ ms, call.Makes m) ∧ (ms.map Move.jobId).Nodup := by
  obtain ⟨s', h⟩ := h
  have hone : ∀ {m : Move}, call.Makes m → m.Step db db' →
      ∃ ms, Moves db ms db' ∧ (∀ m ∈ ms, call.Makes m) ∧ (ms.map Move.jobId).Nodup := by
    intro m hm hstep
    refine ⟨[m], .single hstep, fun n hn => ?_, List.nodup_singleton _⟩
    rw [List.mem_singleton.mp hn]
    exact hm
  have hnone : db' = db →
      ∃ ms, Moves db ms db' ∧ (∀ m ∈ ms, call.Makes m) ∧ (ms.map Move.jobId).Nodup := by
    intro he
    subst he
    exact ⟨[], .nil _, fun m hm => absurd hm List.not_mem_nil, List.nodup_nil⟩
  cases call with
  | start grants input cipher draws =>
      obtain ⟨_, hrun⟩ := runs_start (fun _ he => he) hc h
      cases hrun with
      | unchanged => exact hnone rfl
      | created hmove => exact hone ⟨_, _, _, rfl⟩ hmove
  | claim jobId now leaseDurationMs leaseToken =>
      rcases (runs_claim h).2.moves with he | hstep
      · exact hnone he
      · exact hone rfl hstep
  | renew jobId leaseToken now leaseDurationMs =>
      rcases (runs_renew h).2.moves with he | hstep
      · exact hnone he
      · exact hone rfl hstep
  | recover now defaults =>
      obtain ⟨_, hrun⟩ := runs_recover hc h
      cases hrun with
      | failed => exact hnone rfl
      | violated => exact hnone rfl
      | recovered hmoves =>
          refine ⟨_, hmoves, fun m hm => ?_, ?_⟩
          · obtain ⟨id, _, rfl⟩ := List.mem_map.mp hm
            exact ⟨id, rfl⟩
          -- the moves of a recovery are on the expired jobs, each listed once
          · rw [List.map_map]
            exact (List.map_id _).symm ▸ db.expiredJobs_nodup now
  | apply jobId leaseToken result now defaults =>
      rcases (runs_apply (fun _ he => he) hc h).2.moves with he | ⟨m, hm, hstep⟩
      · exact hnone he
      · exact hone hm hstep

theorem mem_eventsOf {db : Store} {event : OutboxEvent} {jobId : Uuid} :
    event ∈ db.eventsOf jobId ↔ event ∈ db.outboxEvents ∧ event.jobId = jobId := by
  rw [Store.eventsOf, List.mem_filter, decide_eq_true_iff, Table.mem_def]

/-- A move appends its event, under a new id. -/
theorem Move.Step.events {db db' : Store} {m : Move} (h : m.Step db db') :
    db'.eventsOf m.jobId = db.eventsOf m.jobId ++ m.event.toList ∧
      ∀ event, m.event = some event → ∀ e ∈ db.eventsOf m.jobId, e.id ≠ event.id := by
  rcases h.outbox with ⟨hnone, hsame⟩ | ⟨event, hevent, hnew, hput⟩
  · rw [hnone]
    refine ⟨?_, fun event he => by cases he⟩
    simp [Store.eventsOf, hsame]
  · rw [hevent]
    refine ⟨?_, fun event' he e hmem hid => ?_⟩
    · have hput' := eventsOf_put m.jobId hnew
      rw [if_pos (Move.event_eq hevent).1] at hput'
      rw [Store.eventsOf, hput]
      exact hput'
    · cases he
      have hfind := Table.find_of_mem (mem_eventsOf.mp hmem).1
      rw [key_outboxEvent, hid, hnew] at hfind
      cases hfind

/-- One job under one call: nothing happens to it, or one move the call can make. -/
theorem Call.Runs.at {call : Call} {db db' : Store} {o : Except JsError call.Result}
    (h : call.Runs db o db') (hc : Consistent db) (jobId : Uuid) :
    SameJob jobId db db' ∨
      ∃ m, call.Makes m ∧ m.jobId = jobId ∧ m.Row (db.jobs.find jobId) (db'.jobs.find jobId) ∧
        db'.eventsOf jobId = db.eventsOf jobId ++ m.event.toList ∧
        ∀ event, m.event = some event → ∀ e ∈ db.eventsOf jobId, e.id ≠ event.id := by
  obtain ⟨ms, hmoves, hmakes, hnodup⟩ := call_moves hc h
  rcases hmoves.at hc hnodup jobId with ⟨_, hsame⟩ | ⟨m, hm, rfl, db₁, db₂, _, hs, hstep, hs'⟩
  · exact .inl hsame
  · obtain ⟨hevents, hfresh⟩ := hstep.events
    rw [hs.events] at hevents hfresh
    exact .inr ⟨m, hmakes m hm, rfl, hstep.row.of_eq hs.job.symm hs'.job,
      hs'.events.trans hevents, hfresh⟩

namespace Call.Makes

variable {call : Call}

theorem claimed {jobId leaseToken : Uuid} {now leaseExpiresAt : Time}
    (h : call.Makes (.claimed jobId leaseToken now leaseExpiresAt)) :
    ∃ leaseDurationMs, call = .claim jobId now leaseDurationMs leaseToken := by
  cases call <;> simp [Call.Makes] at h
  obtain ⟨rfl, rfl, rfl, _⟩ := h
  exact ⟨_, rfl⟩

theorem renewed {jobId leaseToken : Uuid} {now leaseExpiresAt : Time}
    (h : call.Makes (.renewed jobId leaseToken now leaseExpiresAt)) :
    ∃ leaseDurationMs, call = .renew jobId leaseToken now leaseDurationMs := by
  cases call <;> simp [Call.Makes] at h
  obtain ⟨rfl, rfl, rfl, _⟩ := h
  exact ⟨_, rfl⟩

theorem recovered {jobId : Uuid} {now : Time} {defaults : OutboxDefaults}
    (h : call.Makes (.recovered jobId now defaults)) : ∃ draws, call = .recover now draws := by
  cases call <;> simp [Call.Makes] at h
  obtain ⟨rfl, _⟩ := h
  exact ⟨_, rfl⟩

theorem starts {m : Move} (h : call.Makes m) (hm : m.Starts) : call.isStart = true := by
  cases call with
  | start => rfl
  | claim =>
      rw [h] at hm
      exact absurd hm not_false
  | renew =>
      rw [h] at hm
      exact absurd hm not_false
  | recover =>
      obtain ⟨jobId, rfl⟩ := h
      exact absurd hm not_false
  | apply =>
      rcases h with ⟨_, _, _, _, rfl⟩ | ⟨_, _, _, rfl⟩ | ⟨_, _, rfl⟩ <;> exact absurd hm not_false

end Call.Makes

/-- What every move keeps that starts no job, a call keeps that is no start. -/
theorem Call.Runs.preserve {P : Store → Prop} {call : Call} {db db' : Store}
    {o : Except JsError call.Result} (h : call.Runs db o db') (hc : Consistent db)
    (hcall : call.isStart = false)
    (hstep : ∀ (m : Move) db db', ¬ m.Starts → P db → m.Step db db' → P db') (hp : P db) : P db' := by
  obtain ⟨ms, hmoves, hmakes, -⟩ := call_moves hc h
  refine hmoves.preserve_mem (fun m hm db db' hp hmove => hstep m db db' ?_ hp hmove) hp
  intro hstarts
  rw [(hmakes m hm).starts hstarts] at hcall
  cases hcall

theorem Consistent.call {call : Call} {db db' : Store} {o : Except JsError call.Result}
    (hc : Consistent db) (h : call.Runs db o db') : Consistent db' := by
  obtain ⟨ms, hmoves, _⟩ := call_moves hc h
  exact hc.moves hmoves

/-! ## Histories -/

/-- A call that was made, with its answer and the stores around it. -/
structure Entry where
  call : Call
  outcome : Except JsError call.Result
  before : Store
  after : Store

/-- A history of calls, the oldest first. -/
inductive Run : Store → List Entry → Store → Prop where
  | nil (db : Store) : Run db [] db
  | cons {db db₁ db' : Store} {history : List Entry} {call : Call}
      {outcome : Except JsError call.Result} (runs : call.Runs db outcome db₁)
      (run : Run db₁ history db') : Run db (⟨call, outcome, db, db₁⟩ :: history) db'

namespace Run

theorem append {db db₁ db' : Store} {history later : List Entry} (h : Run db history db₁)
    (hl : Run db₁ later db') : Run db (history ++ later) db' := by
  induction h with
  | nil => exact hl
  | cons runs _ ih => exact .cons runs (ih hl)

theorem single {db db' : Store} {call : Call} {outcome : Except JsError call.Result}
    (h : call.Runs db outcome db') : Run db [⟨call, outcome, db, db'⟩] db' :=
  .cons h (.nil db')

/-- A history is a history up to any point of it and one from there on. -/
theorem split {db db' : Store} {history later : List Entry} (h : Run db (history ++ later) db') :
    ∃ db₁, Run db history db₁ ∧ Run db₁ later db' := by
  induction history generalizing db with
  | nil => exact ⟨db, .nil db, h⟩
  | cons e rest ih =>
      cases h with
      | cons runs run =>
          obtain ⟨db₁, hr, hl⟩ := ih run
          exact ⟨db₁, .cons runs hr, hl⟩

theorem split_cons {db db' : Store} {history later : List Entry} {e : Entry}
    (h : Run db (history ++ e :: later) db') :
    Run db history e.before ∧ e.call.Runs e.before e.outcome e.after ∧ Run e.after later db' := by
  obtain ⟨db₁, hr, hl⟩ := h.split
  cases hl with
  | cons runs run => exact ⟨hr, runs, run⟩

/-- What every call preserves, a history preserves. -/
theorem preserve {P : Store → Prop}
    (hcall : ∀ {call : Call} {db db' : Store} {o : Except JsError call.Result},
      P db → call.Runs db o db' → P db')
    {db db' : Store} {history : List Entry} (h : Run db history db') (hp : P db) : P db' := by
  induction h with
  | nil => exact hp
  | cons runs _ ih => exact ih (hcall hp runs)

theorem consistent {db db' : Store} {history : List Entry} (hc : Consistent db)
    (h : Run db history db') : Consistent db' :=
  h.preserve (fun hc hr => hc.call hr) hc

end Run

/-- The stores that calls lead to from an empty one. -/
def Reachable (db : Store) : Prop :=
  ∃ workspaces history, Run (.empty workspaces) history db

theorem Reachable.empty (workspaces : Table Workspace) : Reachable (.empty workspaces) :=
  ⟨workspaces, [], .nil _⟩

theorem Reachable.call {db db' : Store} {call : Call} {outcome : Except JsError call.Result}
    (h : Reachable db) (hr : call.Runs db outcome db') : Reachable db' := by
  obtain ⟨workspaces, history, hrun⟩ := h
  exact ⟨workspaces, _, hrun.append (.single hr)⟩

theorem Reachable.consistent {db : Store} (h : Reachable db) : Consistent db := by
  obtain ⟨workspaces, history, hrun⟩ := h
  exact hrun.consistent (.empty workspaces)

/-- The calls made one after the other without failures. -/
def runAll (db : Store) (calls : List Call) : Store :=
  calls.foldl (fun db call => (call.run db).2) db

theorem Reachable.runAll {db : Store} (h : Reachable db) (calls : List Call) :
    Reachable (runAll db calls) := by
  induction calls generalizing db with
  | nil => exact h
  | cons call rest ih => exact ih (h.call (call.runs_run db))

/-! ## A sample organization -/

namespace Sample

def workspace : Workspace := ⟨1, 2⟩

def workspaces : Table Workspace := ⟨[workspace], by decide⟩

def input : StartTenantValidationInput :=
  ⟨uuidOut workspace.id, [107], ⟨[97, 64, 98, 46, 99], [112]⟩⟩

/-- A stand-in cipher, for evaluation only. -/
def cipher : TenantCredentialCipher where
  encrypt credentials _ iv := .ok ⟨[], iv, [], credentials.email⟩
  decrypt _ _ := .error (.new "Tenant credential ciphertext is invalid")
  fingerprint input :=
    .ok (input.workspaceId ++ input.credentials.email ++ input.credentials.password)

def start : Call := .start [⟨2, .write, .organization⟩] input cipher ⟨[], 10, 11, 12, 13, 0⟩

/-- The store after the first validation was started. -/
def started : Store := runAll (.empty workspaces) [start]

end Sample

end InboxSaas.Product
