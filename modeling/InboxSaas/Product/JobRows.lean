import InboxSaas.Reasoning.Linearization
import InboxSaas.Product.Calls

/-!
# One job as a sequential object

`rowsOf` is what the store holds for one job: its row, its connection and its events.  `effect` is
what a claim, a renewal, a recovery or a result means for these rows, as one indivisible operation;
whether the unique index on the Microsoft tenant rejects an update is given.  Run alone on a
consistent store, the code of a call does just that (`serial_effect`).
-/

namespace InboxSaas.Product

open Reasoning

/-- The rows that belong to one job. -/
structure JobRows where
  job : Option Job
  connection : Option TenantConnection
  events : List OutboxEvent

def Store.rowsOf (db : Store) (jobId : Uuid) : JobRows where
  job := db.jobs.find jobId
  connection := (db.jobs.find jobId).bind fun job =>
    db.tenantConnections.find job.tenantConnectionId
  events := db.eventsOf jobId

theorem sameJob_iff {jobId : Uuid} {db db' : Store} :
    SameJob jobId db db' ↔ db'.rowsOf jobId = db.rowsOf jobId := by
  constructor
  · intro h
    unfold Store.rowsOf
    rw [h.job, h.events]
    cases hjob : db.jobs.find jobId with
    | none => rfl
    | some job => rw [Option.bind_some, Option.bind_some, h.connection hjob]
  · intro h
    have hjob : db'.jobs.find jobId = db.jobs.find jobId := congrArg JobRows.job h
    refine ⟨hjob, fun {job} hj => ?_, congrArg JobRows.events h⟩
    have hconnection := congrArg JobRows.connection h
    unfold Store.rowsOf at hconnection
    dsimp only at hconnection
    rwa [hjob, hj] at hconnection

namespace JobRows

/-- The job is rewritten. -/
def putJob (job : Job) (rows : JobRows) : JobRows :=
  { rows with job := some job }

/-- The job's connection is rewritten. -/
def updateConnection (set : TenantConnection → TenantConnection) (rows : JobRows) : JobRows :=
  { rows with connection := rows.connection.map set }

def addEvent (event : OutboxEvent) (rows : JobRows) : JobRows :=
  { rows with events := rows.events ++ [event] }

end JobRows

section

variable {db : Store} {jobId : Uuid} {job : Job}

theorem rowsOf_putJob (job' : Job) (hjob : db.jobs.find jobId = some job) (hid : job'.id = job.id)
    (htc : job'.tenantConnectionId = job.tenantConnectionId) :
    (db.putJob job').rowsOf jobId = (db.rowsOf jobId).putJob job' := by
  have hfind : (db.putJob job').jobs.find jobId = some job' := find_put_job hjob hid
  unfold Store.rowsOf JobRows.putJob
  rw [hfind, hjob, Option.bind_some, Option.bind_some, htc]
  rfl

theorem rowsOf_update {connection : TenantConnection} (job' : Job)
    (set : TenantConnection → TenantConnection) (hjob : db.jobs.find jobId = some job)
    (hid : job'.id = job.id)
    (htc : job'.tenantConnectionId = job.tenantConnectionId)
    (hconnection : db.tenantConnections.find job.tenantConnectionId = some connection)
    (hset : (set connection).id = connection.id) :
    ((db.putJob job').putTenantConnection (set connection)).rowsOf jobId =
      ((db.rowsOf jobId).putJob job').updateConnection set := by
  have hfind : (db.putJob job').jobs.find jobId = some job' := find_put_job hjob hid
  have hkey : key (set connection) = job.tenantConnectionId :=
    hset.trans (Store.tenantConnection_id hconnection)
  unfold Store.rowsOf JobRows.putJob JobRows.updateConnection
  rw [putTenantConnection_jobs, hfind, hjob, Option.bind_some, Option.bind_some, htc,
    putTenantConnection_tenantConnections, putJob_tenantConnections, Table.find_put, if_pos hkey,
    hconnection]
  rfl

theorem rowsOf_putOutboxEvent {event : OutboxEvent}
    (hnew : db.outboxEvents.find event.id = none) (hevent : event.jobId = jobId) :
    (db.putOutboxEvent event).rowsOf jobId = (db.rowsOf jobId).addEvent event := by
  unfold Store.rowsOf JobRows.addEvent
  rw [eventsOf_put jobId hnew, if_pos hevent]
  rfl

end

/-! ## Operations on one job -/

/-- What a caller learns about the job. -/
inductive Report where
  | notFound
  | stale
  | claimed (job : Job)
  | renewed (renewed : Bool)
  | applied (job : Job)
  /-- The call returns no row and no status of a job. -/
  | done
  deriving DecidableEq

def Call.report : (call : Call) → call.Result → Report
  | .start _ _ _ _, _ => .done
  | .claim _ _ _ _, .notFound => .notFound
  | .claim _ _ _ _, .claimed _ job => .claimed job
  | .renew _ _ _ _, renewed => .renewed renewed
  | .recover _ _, _ => .done
  | .apply _ _ _ _ _, .notFound => .notFound
  | .apply _ _ _ _ _, .stale => .stale
  | .apply _ _ _ _ _, .applied _ job _ => .applied job

/-- The call is an operation on the job; a recovery is one on every job. -/
def Call.On (jobId : Uuid) : Call → Prop
  | .start _ _ _ _ => False
  | .claim id _ _ _ => id = jobId
  | .renew id _ _ _ => id = jobId
  | .recover _ _ => True
  | .apply id _ _ _ _ => id = jobId

section

variable (jobId leaseToken : Uuid) (now : Time)

def claimEffect (leaseDurationMs : Int) (rows : JobRows) : Except JsError Report × JobRows :=
  if leaseDurationMs ≤ 0 then (.error invalidLeaseDuration, rows)
  else
    match rows.job.filter (claimable now) with
    | none => (.ok .notFound, rows)
    | some job =>
        (.ok (.claimed (job.claim leaseToken now (now + leaseDurationMs))),
          rows.putJob (job.claim leaseToken now (now + leaseDurationMs)))

def renewEffect (leaseDurationMs : Int) (rows : JobRows) : Except JsError Report × JobRows :=
  if leaseDurationMs ≤ 0 then (.error invalidLeaseDuration, rows)
  else
    match rows.job.filter (leaseValid leaseToken now) with
    | none => (.ok (.renewed false), rows)
    | some job => (.ok (.renewed true), rows.putJob (job.renew (now + leaseDurationMs)))

def recoverEffect (defaults : Uuid → OutboxDefaults) (rows : JobRows) :
    Except JsError Report × JobRows :=
  match rows.job.filter (leaseExpired now) with
  | none => (.ok .done, rows)
  | some job =>
      (.ok .done, (rows.putJob (job.recover now)).addEvent
        (tenantValidationRequested jobId now (defaults jobId)))

/-- A job ends: its row and its connection are rewritten together. -/
def settle (job : Job) (set : TenantConnection → TenantConnection) (rows : JobRows) :
    Except JsError Report × JobRows :=
  (.ok (.applied job), (rows.putJob job).updateConnection set)

def applyEffect (rejected : Bool) (result : TenantValidationResult) (defaults : OutboxDefaults)
    (rows : JobRows) : Except JsError Report × JobRows :=
  match rows.job with
  | none => (.ok .notFound, rows)
  | some job =>
      if leaseValid leaseToken now job = false then (.ok .stale, rows)
      else
        match result with
        | .success microsoftTenantId =>
            match storedText microsoftTenantId with
            | .error e => (.error e, rows)
            | .ok text =>
                if rejected then
                  settle (job.fail .tenantAlreadyConnected false now) TenantConnection.reject rows
                else settle (job.complete now) (TenantConnection.activate text) rows
        | .failure code retryable =>
            if shouldRetry (.failure code retryable) job then
              match retryAvailableAt job.attemptCount now with
              | .error e => (.error e, rows)
              | .ok availableAt =>
                  ((.ok (.applied (job.retry code availableAt))),
                    ((rows.putJob (job.retry code availableAt)).updateConnection
                      TenantConnection.revalidate).addEvent
                      (tenantValidationRequested jobId availableAt defaults))
            else settle (job.fail (.reported code) retryable now) TenantConnection.reject rows

end

/-- What a call means for the rows of one job; `rejected` says whether the index rejects it. -/
def Call.effect (jobId : Uuid) (rejected : Bool) : Call → JobRows → Except JsError Report × JobRows
  | .start _ _ _ _, rows => (.ok .done, rows)
  | .claim _ now leaseDurationMs leaseToken, rows => claimEffect leaseToken now leaseDurationMs rows
  | .renew _ leaseToken now leaseDurationMs, rows => renewEffect leaseToken now leaseDurationMs rows
  | .recover now defaults, rows => recoverEffect jobId now defaults rows
  | .apply _ leaseToken result now defaults, rows =>
      applyEffect jobId leaseToken now rejected result defaults rows

/-! ## The code run alone -/

/-- The call run alone without failures, where the index on the Microsoft tenant rejects every
update or none. -/
def Call.runWith (rejected : Bool) (call : Call) (db : Store) : Except JsError call.Result × Store :=
  let (o, db', _) := (engine fun _ _ => rejected).run call.program db .idle
  (o, db')

/-- The ids that the call may give to an event it inserts. -/
def Call.DrawsEvent (id : Uuid) : Call → Prop
  | .start _ _ _ draws => draws.outboxEventId = id
  | .claim _ _ _ _ => False
  | .renew _ _ _ _ => False
  | .recover _ defaults => ∃ jobId, (defaults jobId).id = id
  | .apply _ _ result _ defaults => (∃ code, result = .failure code true) ∧ defaults.id = id

/-- The call may give the id to an event of the job. -/
def Call.Inserts (jobId id : Uuid) : Call → Prop
  | .recover _ defaults => (defaults jobId).id = id
  | .apply appliedId _ result _ defaults =>
      appliedId = jobId ∧ (∃ code, result = .failure code true) ∧ defaults.id = id
  | _ => False

/-- The call may give the id to an event of the job, which is stored. -/
def Call.Draws (call : Call) (db : Store) (jobId id : Uuid) : Prop :=
  db.jobs.find jobId ≠ none ∧ call.Inserts jobId id

/-- No event carries an id that the call may give to one. -/
def Call.Undrawn (call : Call) (db : Store) : Prop :=
  ∀ jobId id, call.Draws db jobId id → db.outboxEvents.find id = none

/-- The call gives different jobs' events different ids. -/
def Call.DrawsApart (call : Call) (db : Store) : Prop :=
  ∀ a b id, call.Draws db a id → call.Draws db b id → a = b

/-- What running a call alone does: its effect on the job, and nothing that matters to others. -/
structure Serial (call : Call) (jobId : Uuid) (rejected : Bool) (db : Store)
    (o : Except JsError call.Result) (db' : Store) : Prop where
  effect : (o.map call.report, db'.rowsOf jobId) = call.effect jobId rejected (db.rowsOf jobId)
  consistent : Consistent db'
  jobs : ∀ id, db.jobs.find id = none → db'.jobs.find id = none
  events : ∀ id, (∀ jobId, ¬ call.Draws db jobId id) → db.outboxEvents.find id = none →
    db'.outboxEvents.find id = none

theorem Call.runWith_runs (rejected : Bool) (call : Call) (db : Store) :
    ∃ s', (engine fun _ _ => rejected).Runs (fun _ => False) call.program db .idle
      (call.runWith rejected db).1 (call.runWith rejected db).2 s' :=
  ⟨_, Engine.runs_run _ _ _ _ _⟩

/-! ### Each operation -/

section

variable {rejected : Bool} {db db' : Store}

theorem Move.Step.absent {m : Move} (hc : Consistent db) (h : m.Step db db') (hm : ¬ m.Starts)
    {id : Uuid} (hnone : db.jobs.find id = none) : db'.jobs.find id = none := by
  have hne : m.jobId ≠ id := by
    rintro rfl
    have hrow := h.row
    rw [hnone] at hrow
    generalize db'.jobs.find m.jobId = after at hrow
    cases hrow
    exact hm trivial
  exact (h.frame hc hne).job.trans hnone

theorem Moves.absent {ms : List Move} (hc : Consistent db) (h : Moves db ms db')
    (hm : ∀ m ∈ ms, ¬ m.Starts) {id : Uuid} (hnone : db.jobs.find id = none) :
    db'.jobs.find id = none := by
  induction h with
  | nil => exact hnone
  | cons head _ ih =>
      exact ih (hc.step head) (fun m hmem => hm m (List.mem_cons_of_mem _ hmem))
        (head.absent hc (hm _ List.mem_cons_self) hnone)

/-- At most one move, which inserts no event. -/
theorem quiet_move {m : Move} (hc : Consistent db) (h : db' = db ∨ m.Step db db')
    (hm : m.event = none) : Consistent db' ∧
      (∀ id, db.jobs.find id = none → db'.jobs.find id = none) ∧
      db'.outboxEvents = db.outboxEvents := by
  have hstarts : ¬ m.Starts := by
    intro hs
    cases m with
    | started => cases hm
    | _ => exact hs
  rcases h with rfl | hstep
  · exact ⟨hc, fun _ hnone => hnone, rfl⟩
  · refine ⟨hc.step hstep, fun id hnone => hstep.absent hc hstarts hnone, ?_⟩
    rcases hstep.outbox with ⟨-, hsame⟩ | ⟨event, hevent, -⟩
    · exact hsame
    · rw [hm] at hevent
      cases hevent

theorem claim_serial {jobId leaseToken : Uuid} {now : Time} {leaseDurationMs : Int}
    {o : Except JsError ClaimTenantValidationJobResult} {s' : Session Write Lock}
    (hc : Consistent db)
    (h : (engine fun _ _ => rejected).Runs (fun _ => False)
      (claimTenantValidationJob jobId now leaseDurationMs leaseToken) db .idle o db' s') :
    Serial (.claim jobId now leaseDurationMs leaseToken) jobId rejected db o db' := by
  have hrun := (runs_claim h).2
  obtain ⟨hconsistent, hjobs, hevents⟩ := quiet_move hc hrun.moves rfl
  refine ⟨?_, hconsistent, hjobs, fun id _ hnone => by rw [hevents]; exact hnone⟩
  change (_, _) = claimEffect leaseToken now leaseDurationMs (db.rowsOf jobId)
  unfold claimEffect
  by_cases hd : leaseDurationMs ≤ 0
  · unfold claimTenantValidationJob at h
    rw [if_pos hd] at h
    obtain ⟨rfl, rfl, -⟩ := h
    rw [if_pos hd]
    rfl
  rw [if_neg hd]
  have hrow : (db.rowsOf jobId).job = db.jobs.find jobId := rfl
  rw [hrow]
  cases hrun with
  | invalid hd' => exact absurd hd' hd
  | failed hf => exact absurd hf not_false
  | notFound hnone =>
      rw [hnone]
      rfl
  -- the row stays open under its own key, so no other job of the connection is open
  | violated hf hi =>
      rename_i job
      obtain ⟨hjob, -⟩ := filter_find hf
      have hid := Store.job_id hjob
      subst hid
      have hnone : db.nonTerminalElsewhere (job.claim leaseToken now (now + leaseDurationMs)) =
          false := hc.nonTerminalElsewhere hjob rfl rfl
      rw [hnone] at hi
      cases hi
  | claimed hf hd ho =>
      rename_i job
      obtain ⟨hjob, -⟩ := filter_find hf
      obtain ⟨connection, hconnection, -⟩ := hc.connection hjob
      rw [hf]
      rw [rowsOf_putJob (job.claim leaseToken now (now + leaseDurationMs)) hjob rfl rfl]
      rcases ho with ⟨c, -, rfl⟩ | ⟨hnone, -⟩ | ⟨e, hf, -⟩
      · rfl
      · rw [hconnection] at hnone
        cases hnone
      · exact absurd hf not_false

theorem renew_serial {jobId leaseToken : Uuid} {now : Time} {leaseDurationMs : Int}
    {o : Except JsError Bool} {s' : Session Write Lock} (hc : Consistent db)
    (h : (engine fun _ _ => rejected).Runs (fun _ => False)
      (renewTenantValidationJobLease jobId leaseToken now leaseDurationMs) db .idle o db' s') :
    Serial (.renew jobId leaseToken now leaseDurationMs) jobId rejected db o db' := by
  have hrun := (runs_renew h).2
  obtain ⟨hconsistent, hjobs, hevents⟩ := quiet_move hc hrun.moves rfl
  refine ⟨?_, hconsistent, hjobs, fun id _ hnone => by rw [hevents]; exact hnone⟩
  change (_, _) = renewEffect leaseToken now leaseDurationMs (db.rowsOf jobId)
  unfold renewEffect
  by_cases hd : leaseDurationMs ≤ 0
  · unfold renewTenantValidationJobLease at h
    rw [if_pos hd] at h
    obtain ⟨rfl, rfl, -⟩ := h
    rw [if_pos hd]
    rfl
  rw [if_neg hd]
  have hrow : (db.rowsOf jobId).job = db.jobs.find jobId := rfl
  rw [hrow]
  cases hrun with
  | invalid hd' => exact absurd hd' hd
  | failed hf => exact absurd hf not_false
  | refused hnone =>
      rw [hnone]
      rfl
  | violated hf hi =>
      rename_i job
      obtain ⟨hjob, -⟩ := filter_find hf
      have hid := Store.job_id hjob
      subst hid
      have hnone : db.nonTerminalElsewhere (job.renew (now + leaseDurationMs)) = false :=
        hc.nonTerminalElsewhere hjob rfl rfl
      rw [hnone] at hi
      cases hi
  | renewed hf hd ho =>
      rename_i job
      obtain ⟨hjob, -⟩ := filter_find hf
      rw [hf]
      rw [rowsOf_putJob (job.renew (now + leaseDurationMs)) hjob rfl rfl]
      rcases ho with rfl | ⟨e, hf, -⟩
      · rfl
      · exact absurd hf not_false

theorem recoverEffect_of_none {jobId : Uuid} {now : Time} {defaults : Uuid → OutboxDefaults}
    {rows : JobRows} (h : rows.job.filter (leaseExpired now) = none) :
    recoverEffect jobId now defaults rows = (.ok .done, rows) := by
  unfold recoverEffect
  rw [h]

theorem recoverEffect_of_some {jobId : Uuid} {now : Time} {defaults : Uuid → OutboxDefaults}
    {rows : JobRows} {job : Job} (h : rows.job.filter (leaseExpired now) = some job) :
    recoverEffect jobId now defaults rows = (.ok .done, (rows.putJob (job.recover now)).addEvent
      (tenantValidationRequested jobId now (defaults jobId))) := by
  unfold recoverEffect
  rw [h]

/-- Recovering different jobs: each of them has the effect, every other job none. -/
theorem rowsOf_recovered {now : Time} {defaults : Uuid → OutboxDefaults} {ids : List Uuid}
    (hc : Consistent db) (hnodup : ids.Nodup)
    (h : Moves db (ids.map fun id => .recovered id now (defaults id)) db') (jobId : Uuid) :
    (jobId ∉ ids → db'.rowsOf jobId = db.rowsOf jobId) ∧
      (jobId ∈ ids → db'.rowsOf jobId = (recoverEffect jobId now defaults (db.rowsOf jobId)).2) := by
  have hids : (ids.map fun id => Move.recovered id now (defaults id)).map Move.jobId = ids := by
    rw [List.map_map]
    exact List.map_id ids
  rcases h.at hc (hids.symm ▸ hnodup) jobId with ⟨hnot, hsame⟩ |
    ⟨m, hm, hid, db₁, db₂, -, hbefore, hstep, hafter⟩
  · rw [hids] at hnot
    exact ⟨fun _ => sameJob_iff.mp hsame, fun hmem => absurd hmem hnot⟩
  · obtain ⟨id, hmem, rfl⟩ := List.mem_map.mp hm
    have hid' : id = jobId := hid
    subst hid'
    refine ⟨fun hnot => absurd hmem hnot, fun _ => ?_⟩
    rw [sameJob_iff.mp hafter, ← sameJob_iff.mp hbefore]
    cases hstep with
    | recovered hjob hguard hevent =>
        rename_i job
        have hfilter : (db₁.rowsOf id).job.filter (leaseExpired now) = some job :=
          Option.filter_eq_some_iff.mpr ⟨hjob, hguard⟩
        have hrows := rowsOf_putJob (job.recover now) hjob rfl rfl
        have hrows' : ((db₁.putJob (job.recover now)).putOutboxEvent
            (tenantValidationRequested id now (defaults id))).rowsOf id = _ :=
          rowsOf_putOutboxEvent hevent rfl
        rw [recoverEffect_of_some hfilter, hrows', hrows]

/-- A recovery that meets no taken event id. -/
theorem recover_serial {now : Time} {defaults : Uuid → OutboxDefaults} {o : Except JsError Nat}
    {s' : Session Write Lock} (hc : Consistent db)
    (hundrawn : (Call.recover now defaults).Undrawn db)
    (hapart : (Call.recover now defaults).DrawsApart db) (jobId : Uuid)
    (h : (engine fun _ _ => rejected).Runs (fun _ => False)
      (recoverExpiredTenantValidationJobs now defaults) db .idle o db' s') :
    Serial (.recover now defaults) jobId rejected db o db' := by
  have hrun := (runs_recover hc h).2
  have hdraws : ∀ id ∈ db.expiredJobs now,
      (Call.recover now defaults).Draws db id (defaults id).id := by
    intro id hmem
    obtain ⟨job, hjob, -⟩ := mem_expiredJobs.mp hmem
    refine ⟨?_, rfl⟩
    rw [hjob]
    exact Option.some_ne_none job
  cases hrun with
  | failed hf => exact absurd hf not_false
  | violated hclash =>
      refine absurd ⟨fun id hmem => hundrawn id _ (hdraws id hmem), ?_⟩ hclash
      -- different jobs draw different ids
      refine List.Nodup.map_on (fun a ha b hb hab => ?_) (db.expiredJobs_nodup now)
      exact hapart a b _ (hdraws a ha) (hab ▸ hdraws b hb)
  | recovered hmoves ho =>
      have ho' : o = .ok (db.expiredJobs now).length := by
        rcases ho with ho | ⟨e, hf, -⟩
        · exact ho
        · exact absurd hf not_false
      subst ho'
      -- the rows of each job, no new job, and no event under an id that was not drawn
      refine ⟨?_, hc.moves hmoves, fun id => hmoves.absent hc fun m hm => ?_,
        fun id hnot hnone => ?_⟩
      · have hrows := rowsOf_recovered hc (db.expiredJobs_nodup now) hmoves jobId
        change (.ok .done, db'.rowsOf jobId) = recoverEffect jobId now defaults (db.rowsOf jobId)
        cases hfilter : (db.jobs.find jobId).filter (leaseExpired now) with
        | none =>
            have hnot : jobId ∉ db.expiredJobs now := by
              intro hmem
              obtain ⟨job, hjob, hguard⟩ := mem_expiredJobs.mp hmem
              rw [hjob, Option.filter_some, if_pos hguard] at hfilter
              cases hfilter
            rw [recoverEffect_of_none hfilter, hrows.1 hnot]
        | some job =>
            have hmem := mem_expiredJobs.mpr ⟨job, filter_find hfilter⟩
            rw [hrows.2 hmem, recoverEffect_of_some hfilter]
      · obtain ⟨jobId, -, rfl⟩ := List.mem_map.mp hm
        exact not_false
      · refine hmoves.undrawn hnone fun m hm event hevent => ?_
        obtain ⟨jobId, hmem, rfl⟩ := List.mem_map.mp hm
        cases hevent
        intro he
        have heq : (defaults jobId).id = id := he
        exact hnot jobId (heq ▸ hdraws jobId hmem)

/-! ### Applying a result -/

section

variable {jobId leaseToken : Uuid} {now : Time} {result : TenantValidationResult}
  {defaults : OutboxDefaults} {rows : JobRows} {job : Job}

theorem applyEffect_of_none (h : rows.job = none) :
    applyEffect jobId leaseToken now rejected result defaults rows = (.ok .notFound, rows) := by
  unfold applyEffect
  rw [h]

theorem applyEffect_of_stale (h : rows.job = some job)
    (hlease : leaseValid leaseToken now job = false) :
    applyEffect jobId leaseToken now rejected result defaults rows = (.ok .stale, rows) := by
  unfold applyEffect
  rw [h]
  dsimp only
  rw [if_pos hlease]

theorem applyEffect_of_success {microsoftTenantId text : JsString} (h : rows.job = some job)
    (hlease : leaseValid leaseToken now job = true)
    (htext : storedText microsoftTenantId = .ok text) :
    applyEffect jobId leaseToken now rejected (.success microsoftTenantId) defaults rows =
      if rejected then
        settle (job.fail .tenantAlreadyConnected false now) TenantConnection.reject rows
      else settle (job.complete now) (TenantConnection.activate text) rows := by
  unfold applyEffect
  rw [h]
  dsimp only
  rw [hlease, if_neg (by decide), htext]

theorem applyEffect_of_refused {microsoftTenantId : JsString} {e : JsError}
    (h : rows.job = some job) (hlease : leaseValid leaseToken now job = true)
    (htext : storedText microsoftTenantId = .error e) :
    applyEffect jobId leaseToken now rejected (.success microsoftTenantId) defaults rows =
      (.error e, rows) := by
  unfold applyEffect
  rw [h]
  dsimp only
  rw [hlease, if_neg (by decide), htext]

theorem applyEffect_of_retry {code : TenantValidationFailureCode} {availableAt : Time}
    (h : rows.job = some job) (hlease : leaseValid leaseToken now job = true)
    (hattempts : job.attemptCount < 3)
    (hdelay : retryAvailableAt job.attemptCount now = .ok availableAt) :
    applyEffect jobId leaseToken now rejected (.failure code true) defaults rows =
      (.ok (.applied (job.retry code availableAt)),
        ((rows.putJob (job.retry code availableAt)).updateConnection
          TenantConnection.revalidate).addEvent
          (tenantValidationRequested jobId availableAt defaults)) := by
  have hretry : shouldRetry (.failure code true) job = true := by
    unfold shouldRetry
    simpa using hattempts
  unfold applyEffect
  rw [h]
  dsimp only
  rw [hlease, if_neg (by decide), if_pos hretry, hdelay]

theorem applyEffect_of_failure {code : TenantValidationFailureCode} {retryable : Bool}
    (h : rows.job = some job) (hlease : leaseValid leaseToken now job = true)
    (hretry : shouldRetry (.failure code retryable) job = false) :
    applyEffect jobId leaseToken now rejected (.failure code retryable) defaults rows =
      settle (job.fail (.reported code) retryable now) TenantConnection.reject rows := by
  unfold applyEffect
  rw [h]
  dsimp only
  rw [hlease, if_neg (by decide), hretry, if_neg (by decide)]

/-- A job ends: its row and its connection are rewritten together. -/
theorem settle_serial {connection : TenantConnection} {dto : TenantConnectionDto} (job' : Job)
    (set : TenantConnection → TenantConnection) (hc : Consistent db)
    (hjob : db.jobs.find jobId = some job) (hid : job'.id = job.id)
    (htc : job'.tenantConnectionId = job.tenantConnectionId)
    (hconnection : db.tenantConnections.find job.tenantConnectionId = some connection)
    (hset : (set connection).id = connection.id) (ha : Agrees job' (set connection))
    (heffect : applyEffect jobId leaseToken now rejected result defaults (db.rowsOf jobId) =
      settle job' set (db.rowsOf jobId)) :
    Serial (.apply jobId leaseToken result now defaults) jobId rejected db
      (.ok (.applied dto job' false))
      ((db.putJob job').putTenantConnection (set connection)) where
  effect := by
    change (_, _) = applyEffect jobId leaseToken now rejected result defaults (db.rowsOf jobId)
    rw [heffect, rowsOf_update job' set hjob hid htc hconnection hset]
    rfl
  consistent := by
    have hkey := Store.job_id hjob
    subst hkey
    exact hc.update hjob hid htc (hset.trans (Store.tenantConnection_id hconnection)) ha
  jobs id hnone := by
    have hne : key job' ≠ id := by
      intro he
      have hkey : key job' = jobId := hid.trans (Store.job_id hjob)
      rw [← he, hkey, hjob] at hnone
      cases hnone
    exact (Table.find_put_ne _ hne).trans hnone
  events _ _ hnone := hnone

end

section

variable {leaseToken : Uuid} {now : Time} {defaults : OutboxDefaults}

/-- A failure that is retried also inserts the event of the next attempt. -/
theorem retry_serial {code : TenantValidationFailureCode} {availableAt : Time}
    {connection : TenantConnection} (hc : Consistent db) (hjob : db.jobs.find jobId = some job)
    (hlease : leaseValid leaseToken now job = true)
    (hconnection : db.tenantConnections.find job.tenantConnectionId = some connection)
    (hattempts : job.attemptCount < 3)
    (hdelay : retryAvailableAt job.attemptCount now = .ok availableAt)
    (hevent : db.outboxEvents.find defaults.id = none) :
    Serial (.apply jobId leaseToken (.failure code true) now defaults) jobId rejected db
      (.ok (.applied (toTenantConnectionDto connection.revalidate) (job.retry code availableAt)
        false))
      (((db.putJob (job.retry code availableAt)).putTenantConnection
        connection.revalidate).putOutboxEvent
        (tenantValidationRequested jobId availableAt defaults)) := by
  have hmove : Move.Step db (.retried jobId leaseToken code now availableAt defaults) _ :=
    .retried hjob hlease hconnection hattempts hdelay hevent
  refine ⟨?_, hc.step hmove, fun id => hmove.absent hc not_false, fun id hnot hnone => ?_⟩
  · change (_, _) = applyEffect jobId leaseToken now rejected (.failure code true) defaults
      (db.rowsOf jobId)
    rw [applyEffect_of_retry hjob hlease hattempts hdelay]
    have hrows := rowsOf_update (job.retry code availableAt) TenantConnection.revalidate
      hjob rfl rfl hconnection rfl
    have hrows' : (((db.putJob (job.retry code availableAt)).putTenantConnection
        connection.revalidate).putOutboxEvent
        (tenantValidationRequested jobId availableAt defaults)).rowsOf jobId = _ :=
      rowsOf_putOutboxEvent hevent rfl
    rw [← hrows, ← hrows']
    rfl
  · have hne : defaults.id ≠ id := by
      intro he
      refine hnot jobId ⟨?_, rfl, ⟨_, rfl⟩, he⟩
      rw [hjob]
      exact Option.some_ne_none job
    exact (Table.find_put_ne _ hne).trans hnone

/-- The second transaction sees the job as the first one saw it. -/
theorem collision_serial {result : TenantValidationResult} {e : JsError}
    {a : ApplyTenantValidationResult} {ws vs : List Write} (hc : Consistent db)
    (hbody : ApplyBody (fun _ _ => rejected) jobId leaseToken now defaults db result (.error e) vs)
    (hs : (isUniqueViolation e && result.isSuccess) = true)
    (hcollision : CollisionBody jobId leaseToken now db (.ok a) ws) :
    Serial (.apply jobId leaseToken result now defaults) jobId rejected db (.ok a)
      ((engine fun _ _ => rejected).writes ws db) := by
  obtain ⟨hunique, hsuccess⟩ := Bool.and_eq_true_iff.mp hs
  cases result with
  | failure => cases hsuccess
  | success microsoftTenantId =>
      generalize ho : (Except.error _ : Except JsError ApplyTenantValidationResult) = o at hbody
      cases hbody with
      | notFound => cases ho
      | stale => cases ho
      | completed => cases ho
      | refused _ _ htext =>
          cases ho
          rw [storedText_error htext] at hunique
          cases hunique
      | rejected hjob hlease hconnection htext hindex =>
          rename_i text job _
          -- nobody interferes: what the first transaction read still holds in the second
          cases hcollision with
          | notFound hnone =>
              rw [hjob] at hnone
              cases hnone
          | stale hjob' hlease' =>
              rw [hjob] at hjob'
              cases hjob'
              rw [hlease] at hlease'
              cases hlease'
          | failed hjob' _ hconnection' =>
              rw [hjob] at hjob'
              cases hjob'
              obtain ⟨c, hc', ha⟩ := hc.connection hjob
              rw [hconnection'] at hc'
              cases hc'
              have hindex' : rejected = true := hindex
              refine settle_serial (job.fail .tenantAlreadyConnected false now)
                TenantConnection.reject hc hjob rfl rfl hconnection' rfl
                (ha.fail (leaseValid_running hlease)) ?_
              have hrow : (db.rowsOf jobId).job = some job := hjob
              rw [applyEffect_of_success hrow hlease htext, if_pos hindex']

end

/-- The result of a job on a consistent store whose index rejects every update or none. -/
theorem apply_serial {jobId leaseToken : Uuid} {result : TenantValidationResult} {now : Time}
    {defaults : OutboxDefaults} {o : Except JsError ApplyTenantValidationResult}
    {s' : Session Write Lock} (hc : Consistent db)
    (hundrawn : (Call.apply jobId leaseToken result now defaults).Undrawn db)
    (h : (engine fun _ _ => rejected).Runs (fun _ => False)
      (applyTenantValidationResult jobId leaseToken result now defaults) db .idle o db' s') :
    Serial (.apply jobId leaseToken result now defaults) jobId rejected db o db' := by
  have hrow : (db.rowsOf jobId).job = db.jobs.find jobId := rfl
  have hrun := (runs_apply (fun _ he => absurd he not_false) hc h).2
  cases hrun with
  | failed hf => exact absurd hf not_false
  | violated hbody hs =>
      generalize ho : (Except.error _ : Except JsError ApplyTenantValidationResult) = o at hbody
      cases hbody with
      | notFound => cases ho
      | stale => cases ho
      | completed => cases ho
      | retried => cases ho
      | failed => cases ho
      | rejected =>
          cases ho
          cases hs
      | refused hjob hlease htext =>
          cases ho
          have heffect : applyEffect jobId leaseToken now rejected _ defaults (db.rowsOf jobId) =
              (.error _, db.rowsOf jobId) :=
            applyEffect_of_refused (hrow.trans hjob) hlease htext
          exact ⟨heffect.symm, hc, fun _ hnone => hnone, fun _ _ hnone => hnone⟩
      | eventTaken hjob hevent =>
          have hstored : db.jobs.find jobId ≠ none := by
            rw [hjob]
            exact Option.some_ne_none _
          -- the id of the event is drawn apart, so no stored event has it
          rw [hundrawn jobId defaults.id ⟨hstored, rfl, ⟨_, rfl⟩, rfl⟩] at hevent
          cases hevent
  | ended hbody ho =>
      rename_i a ws
      have ho' : o = .ok a := by
        rcases ho with ho | ⟨e, hf, -⟩
        · exact ho
        · exact absurd hf not_false
      subst ho'
      cases hbody with
      | notFound hjob =>
          exact ⟨(applyEffect_of_none (hrow.trans hjob)).symm, hc, fun _ hnone => hnone,
            fun _ _ hnone => hnone⟩
      | stale hjob hlease =>
          exact ⟨(applyEffect_of_stale (hrow.trans hjob) hlease).symm, hc, fun _ hnone => hnone,
            fun _ _ hnone => hnone⟩
      | completed hjob hlease hconnection htext hindex =>
          rename_i microsoftTenantId text job connection
          have hindex' : rejected = false := hindex
          refine settle_serial (job.complete now) (TenantConnection.activate text) hc hjob rfl rfl
            hconnection rfl (.complete _ _ _ _) ?_
          rw [applyEffect_of_success (hrow.trans hjob) hlease htext, hindex', if_neg (by decide)]
      | retried hjob hlease hconnection hattempts hdelay hevent =>
          exact retry_serial hc hjob hlease hconnection hattempts hdelay hevent
      | failed hjob hlease hconnection hretry =>
          rename_i code retryable job connection
          -- the job was running, so its connection was validating
          obtain ⟨c, hc', ha⟩ := hc.connection hjob
          rw [hconnection] at hc'
          cases hc'
          exact settle_serial (job.fail (.reported code) retryable now) TenantConnection.reject hc
            hjob rfl rfl hconnection rfl (ha.fail (leaseValid_running hlease))
            (applyEffect_of_failure (hrow.trans hjob) hlease hretry)
  | collided hbody hs hcollision ho =>
      rename_i a e ws vs
      have ho' : o = .ok a := by
        rcases ho with ho | ⟨e, hf, -⟩
        · exact ho
        · exact absurd hf not_false
      subst ho'
      exact collision_serial hc hbody hs hcollision

end

/-- The code of a call, run alone on a consistent store, is its effect on the job. -/
theorem serial_effect {call : Call} {jobId : Uuid} {db : Store} (rejected : Bool)
    (hc : Consistent db) (hon : call.On jobId) (hundrawn : call.Undrawn db)
    (hapart : call.DrawsApart db) :
    Serial call jobId rejected db (call.runWith rejected db).1 (call.runWith rejected db).2 := by
  obtain ⟨s', h⟩ := Call.runWith_runs rejected call db
  cases call with
  | start => exact absurd hon not_false
  | claim id now leaseDurationMs leaseToken =>
      have hid : id = jobId := hon
      subst hid
      exact claim_serial hc h
  | renew id leaseToken now leaseDurationMs =>
      have hid : id = jobId := hon
      subst hid
      exact renew_serial hc h
  | recover now defaults => exact recover_serial hc hundrawn hapart jobId h
  | apply id leaseToken result now defaults =>
      have hid : id = jobId := hon
      subst hid
      exact apply_serial hc hundrawn h

/-! ## Sequences of calls -/

section

variable {ι : Type} (calls : ι → Call)

/-- What call `e.1` does to the rows of one job; `e.2` says whether the index rejects it. -/
def callEffect (jobId : Uuid) (e : ι × Bool) (rows : JobRows) : Except JsError Report × JobRows :=
  (calls e.1).effect jobId e.2 rows

/-- Call `e.1` run alone, with what it reports. -/
def callRun (e : ι × Bool) (db : Store) : Except JsError Report × Store :=
  (((calls e.1).runWith e.2 db).1.map (calls e.1).report, ((calls e.1).runWith e.2 db).2)

/-- The calls give different ids to their events. -/
def EventsApart (db : Store) : Prop :=
  ∀ i j a b id, (calls i).Draws db a id → (calls j).Draws db b id → i = j ∧ a = b

/-- The store holds these rows of the job, and the remaining calls can be run on it. -/
structure Remaining (db₀ : Store) (jobId : Uuid) (ops : List (ι × Bool)) (rows : JobRows)
    (db : Store) : Prop where
  consistent : Consistent db
  rows : db.rowsOf jobId = rows
  nodup : (ops.map Prod.fst).Nodup
  on : ∀ e ∈ ops, (calls e.1).On jobId
  jobs : ∀ id, db₀.jobs.find id = none → db.jobs.find id = none
  undrawn : ∀ e ∈ ops, (calls e.1).Undrawn db

variable {calls} in
theorem Remaining.draws {db₀ db : Store} {jobId a id : Uuid} {ops : List (ι × Bool)}
    {rows : JobRows} (h : Remaining calls db₀ jobId ops rows db) {call : Call}
    (hd : call.Draws db a id) : call.Draws db₀ a id :=
  ⟨fun hnone => hd.1 (h.jobs a hnone), hd.2⟩

theorem callRun_simulates {db₀ : Store} (hapart : EventsApart calls db₀) (jobId : Uuid) :
    Simulation (callEffect calls jobId) (callRun calls) (Remaining calls db₀ jobId) where
  step e ops rows db h := by
    have hwithin : (calls e.1).DrawsApart db := fun a b id ha hb =>
      (hapart e.1 e.1 a b id (h.draws ha) (h.draws hb)).2
    have hs := serial_effect e.2 h.consistent (h.on e List.mem_cons_self)
      (h.undrawn e List.mem_cons_self) hwithin
    have heffect := hs.effect
    rw [h.rows] at heffect
    have hnodup := h.nodup
    rw [List.map_cons, List.nodup_cons] at hnodup
    have hjobs : ∀ id, db₀.jobs.find id = none →
        (callRun calls e db).2.jobs.find id = none := fun id hnone => hs.jobs id (h.jobs id hnone)
    refine ⟨congrArg Prod.fst heffect, hs.consistent, congrArg Prod.snd heffect, hnodup.2,
      fun e' he' => h.on e' (List.mem_cons_of_mem e he'), hjobs, fun e' he' a id hdraw => ?_⟩
    have hstored : (calls e'.1).Draws db a id := ⟨fun hnone => hdraw.1 (hs.jobs a hnone), hdraw.2⟩
    refine hs.events id (fun b hd => ?_) (h.undrawn e' (List.mem_cons_of_mem e he') a id hstored)
    have hi := (hapart e.1 e'.1 b a id (h.draws hd) (h.draws hstored)).1
    exact hnodup.1 (hi ▸ List.mem_map_of_mem he')

end

end InboxSaas.Product
