import InboxSaas.Reasoning.Pool
import InboxSaas.Worker.TenantValidationWorker

/-!
# The system of workers

The world is the database, the queue and the clock, with what each process has on its hands: the
message it was given and has not yet used for a claim, and its renewal timer.  Any number of API
calls, ticks and handlers run in it, in any order.  Every query, every enqueue and the provisioner
may fail, with or without having taken effect, and any process may die at any point.

The queue has no retries: a message that was handed to a handler is not handed out again.
-/

namespace InboxSaas.Worker

open Reasoning Product

/-- A message in the hands of a handler, and the `new Date()` it is going to claim with. -/
structure Handling where
  jobId : Uuid
  now : Option Time

structure World where
  clock : Time
  db : Store
  /-- The messages waiting for delivery, in no particular order. -/
  queue : List Uuid
  /-- The message a handler received and has not claimed with yet. -/
  handling : Nat → Option Handling
  /-- The job and token whose lease a handler's timer renews. -/
  renewals : Nat → Option (Uuid × Uuid)
  leaseLost : Nat → Bool

namespace World

def initial (workspaces : Table Workspace) (clock : Time) : World where
  clock := clock
  db := .empty workspaces
  queue := []
  handling _ := none
  renewals _ := none
  leaseLost _ := false

/-- The process took the time. -/
def dated (w : World) (i : Nat) : World :=
  { w with handling := Function.update w.handling i ((w.handling i).map fun h =>
      { h with now := some (h.now.getD w.clock) }) }

/-- The process used its message for a claim. -/
def claimed (w : World) (i : Nat) (db : Store) : World :=
  { w with db := db, handling := Function.update w.handling i none }

/-- The process is gone, with its message and its timer. -/
def stop (w : World) (i : Nat) : World :=
  { w with
    handling := Function.update w.handling i none
    renewals := Function.update w.renewals i none }

end World

/-- One awaited operation of process `i`. -/
inductive Performs (i : Nat) (w : World) :
    (op : WorkerOp) → Except JsError op.Reply → World → Prop where
  | now : Performs i w .now (.ok w.clock) (w.dated i)
  | query {q : WorkerQuery} {o : Except JsError q.statement.Reply} {db' : Store}
      {s' : Session Write Lock}
      (h : postgres.Runs Infrastructure (execute q.statement) w.db .idle o db' s') :
      Performs i w (.query q) o { w with db := db' }
  | start {grants : List AccessGrant} {input : StartTenantValidationInput}
      {cipher : TenantCredentialCipher} {draws : StartDraws}
      {o : Except JsError StartTenantValidationResult} {db' : Store}
      (h : (Call.start grants input cipher draws).Runs w.db o db') :
      Performs i w (.startTenantValidation grants input cipher) o { w with db := db' }
  | claim {jobId leaseToken : Uuid} {now : Time} {leaseDurationMs : Int}
      {o : Except JsError ClaimTenantValidationJobResult} {db' : Store}
      (h : (Call.claim jobId now leaseDurationMs leaseToken).Runs w.db o db') :
      Performs i w (.claimTenantValidationJob jobId now leaseDurationMs) o (w.claimed i db')
  | renew {jobId leaseToken : Uuid} {now : Time} {leaseDurationMs : Int}
      {o : Except JsError Bool} {db' : Store}
      (h : (Call.renew jobId leaseToken now leaseDurationMs).Runs w.db o db') :
      Performs i w (.renewTenantValidationJobLease jobId leaseToken now leaseDurationMs) o
        { w with db := db' }
  | recover {now : Time} {defaults : Uuid → OutboxDefaults} {o : Except JsError Nat} {db' : Store}
      (h : (Call.recover now defaults).Runs w.db o db') :
      Performs i w (.recoverExpiredTenantValidationJobs now) o { w with db := db' }
  | apply {jobId leaseToken : Uuid} {result : TenantValidationResult} {now : Time}
      {defaults : OutboxDefaults} {o : Except JsError ApplyTenantValidationResult} {db' : Store}
      (h : (Call.apply jobId leaseToken result now defaults).Runs w.db o db') :
      Performs i w (.applyTenantValidationResult jobId leaseToken result now) o { w with db := db' }
  | enqueued {jobId : Uuid} {o : Except JsError Unit} :
      Performs i w (.enqueue jobId) o { w with queue := jobId :: w.queue }
  | notEnqueued {jobId : Uuid} {e : JsError} : Performs i w (.enqueue jobId) (.error e) w
  | receive {jobId : Uuid} (h : jobId ∈ w.queue) :
      Performs i w .receive (.ok jobId)
        { w with
          queue := w.queue.erase jobId
          handling := Function.update w.handling i (some ⟨jobId, none⟩) }
  | startRenewals {jobId leaseToken : Uuid} :
      Performs i w (.startRenewals jobId leaseToken) (.ok ())
        { w with
          renewals := Function.update w.renewals i (some (jobId, leaseToken))
          leaseLost := Function.update w.leaseLost i false }
  | stopRenewals : Performs i w .stopRenewals (.ok ())
      { w with renewals := Function.update w.renewals i none }
  | leaseLost : Performs i w .leaseLost (.ok (w.leaseLost i)) w
  | loseLease : Performs i w .loseLease (.ok ())
      { w with leaseLost := Function.update w.leaseLost i true }
  | acquire {organizationId : Uuid} {o : Except JsError Unit} :
      Performs i w (.acquire organizationId) o w
  | release {organizationId : Uuid} : Performs i w (.release organizationId) (.ok ()) w
  | validateTenant {request : TenantValidationRequest} {o : Except JsError TenantValidationResult} :
      Performs i w (.validateTenant request) o w

/-- A process moves its own message only. -/
theorem Performs.frame {i j : Nat} {w w' : World} {op : WorkerOp} {o : Except JsError op.Reply}
    (h : Performs i w op o w') (hj : j ≠ i) : w'.handling j = w.handling j := by
  cases h with
  | now => exact Function.update_of_ne hj _ _
  | claim => exact Function.update_of_ne hj _ _
  | receive => exact Function.update_of_ne hj _ _
  | _ => rfl

/-- Time passes, or the renewal timer of a handler fires. -/
inductive Drifts (w : World) : World → Prop where
  | time {clock : Time} (h : w.clock ≤ clock) : Drifts w { w with clock := clock }
  | renewed {i : Nat} {jobId leaseToken : Uuid} {now : Time} {db' : Store}
      (hi : w.renewals i = some (jobId, leaseToken)) (hnow : now ≤ w.clock)
      (h : (Call.renew jobId leaseToken now leaseDurationMs).Runs w.db (.ok true) db') :
      Drifts w { w with db := db' }
  | notRenewed {i : Nat} {jobId leaseToken : Uuid} {now : Time} {o : Except JsError Bool}
      {db' : Store} (hi : w.renewals i = some (jobId, leaseToken)) (hnow : now ≤ w.clock)
      (h : (Call.renew jobId leaseToken now leaseDurationMs).Runs w.db o db') (ho : o ≠ .ok true) :
      Drifts w { w with db := db', leaseLost := Function.update w.leaseLost i true }

def workers : Machine Nat World WorkerOp WorkerOp.Reply JsError where
  performs i op w o w' := Performs i w op o w'
  halts i w _ w' := w' = w.stop i
  drifts := Drifts

/-- The operation by which a process makes a call. -/
def workerOp : Call → WorkerOp
  | .start grants input cipher _ => .startTenantValidation grants input cipher
  | .claim jobId now leaseDurationMs _ => .claimTenantValidationJob jobId now leaseDurationMs
  | .renew jobId leaseToken now leaseDurationMs =>
      .renewTenantValidationJobLease jobId leaseToken now leaseDurationMs
  | .recover now _ => .recoverExpiredTenantValidationJobs now
  | .apply jobId leaseToken result now _ => .applyTenantValidationResult jobId leaseToken result now

/-- Jobs and connections change by calls of the product package only. -/
inductive Changes (db : Store) (db' : Store) : WorkerOp → Prop where
  | none {op : WorkerOp} (jobs : db'.jobs = db.jobs)
      (tenantConnections : db'.tenantConnections = db.tenantConnections) : Changes db db' op
  | call {call : Call} {o : Except JsError call.Result} (h : call.Runs db o db') :
      Changes db db' (workerOp call)

theorem setDispatchedAt_changes {id : Uuid} {dispatchedAt : Time} {db : Store} {op : WorkerOp} :
    Changes db (postgres.writes (postgres.exec (WorkerQuery.setDispatchedAt id dispatchedAt).statement
      db).2.1 db) op := by
  change Changes db (postgres.writes (exec Store.activeElsewhere (.updateOutboxEvent id _) db).2.1
    db) op
  cases hf : db.outboxEvents.find id with
  | none =>
      simp only [exec, hf, Engine.writes_nil]
      exact .none rfl rfl
  | some row =>
      simp only [exec, hf]
      exact .none rfl rfl

theorem Performs.changes {i : Nat} {w w' : World} {op : WorkerOp} {o : Except JsError op.Reply}
    (h : Performs i w op o w') : Changes w.db w'.db op := by
  cases h with
  | query h =>
      rename_i q _ _ _
      obtain ⟨_, hrun⟩ := Engine.runs_statement h
      cases q with
      | setDispatchedAt =>
          rcases hrun with ⟨_, rfl⟩ | ⟨_, _, _, rfl | rfl⟩
          · exact setDispatchedAt_changes
          · exact .none rfl rfl
          · exact setDispatchedAt_changes
      | selectTenantConnection =>
          rcases hrun with ⟨_, rfl⟩ | ⟨_, _, _, rfl | rfl⟩ <;> exact .none rfl rfl
      | selectPendingOutboxEvents =>
          rcases hrun with ⟨_, rfl⟩ | ⟨_, _, _, rfl | rfl⟩ <;> exact .none rfl rfl
  | start h => exact .call h
  | claim h => exact .call h
  | renew h => exact .call h
  | recover h => exact .call h
  | apply h => exact .call h
  | _ => exact .none rfl rfl

theorem Drifts.changes {w w' : World} (h : Drifts w w') :
    ∃ jobId leaseToken now, Changes w.db w'.db
      (.renewTenantValidationJobLease jobId leaseToken now leaseDurationMs) := by
  cases h with
  | time => exact ⟨0, 0, 0, .none rfl rfl⟩
  | renewed _ _ h => exact ⟨_, _, _, .call h⟩
  | notRenewed _ _ h _ => exact ⟨_, _, _, .call h⟩

/-- What a process of the system runs. -/
inductive Role where
  | api (grants : List AccessGrant) (input : StartTenantValidationInput)
      (cipher : TenantCredentialCipher)
  | tick
  | handler (cipher : TenantCredentialCipher) (credentialKeyVersion : JsString)

def Role.program : Role → WorkerProgram Unit
  | .api grants input cipher => do
      let _ ← await (.startTenantValidation grants input cipher)
      return ()
  | .tick => tryCatch (runTenantValidationWorkerTick none) (fun _ => return ())
  | .handler cipher credentialKeyVersion => do
      let jobId ← await .receive
      let _ ← processTenantValidationJob cipher credentialKeyVersion jobId none
      return ()

abbrev Workers : Type := Pool Nat World WorkerOp WorkerOp.Reply JsError Unit

/-- Any number of processes over an empty store. -/
def system (roles : Nat → Role) (workspaces : Table Workspace) (clock : Time) : Workers :=
  ⟨.initial workspaces clock, fun i => (roles i).program⟩

/-! ## Playing the system -/

/-- How an operation goes: it succeeds and generates values from `fresh` on, or the connection is
lost before it takes effect. -/
inductive How where
  | succeeds (fresh : Uuid)
  | fails

def connectionLost : JsError := .new "Connection terminated unexpectedly"

theorem connectionLost_infrastructure : Infrastructure connectionLost := rfl

/-- The operations that schedules perform here, on a world. -/
def World.perform (i : Nat) : (op : WorkerOp) → How → World → Option (Except JsError op.Reply × World)
  | .now, _, w => some (.ok w.clock, w.dated i)
  | .query q, .succeeds _, w =>
      let r := postgres.run (execute q.statement) w.db .idle
      some (r.1, { w with db := r.2.1 })
  | .startTenantValidation grants input cipher, .succeeds fresh, w =>
      let iv : Bytes := List.replicate 12 1
      let draws : StartDraws := ⟨iv, fresh, fresh + 1, fresh + 2, fresh + 3, w.clock⟩
      let r := (Call.start grants input cipher draws).run w.db
      some (r.1, { w with db := r.2 })
  | .claimTenantValidationJob jobId now leaseDurationMs, .succeeds fresh, w =>
      let r := (Call.claim jobId now leaseDurationMs fresh).run w.db
      some (r.1, w.claimed i r.2)
  | .claimTenantValidationJob _ _ leaseDurationMs, .fails, w =>
      if 0 < leaseDurationMs then some (.error connectionLost, w.claimed i w.db) else none
  | .recoverExpiredTenantValidationJobs now, .succeeds fresh, w =>
      let r := (Call.recover now (fun _ => ⟨fresh, w.clock⟩)).run w.db
      some (r.1, { w with db := r.2 })
  | .enqueue jobId, .succeeds _, w => some (.ok (), { w with queue := jobId :: w.queue })
  | .receive, _, w =>
      match w.queue with
      | [] => none
      | jobId :: rest => some (.ok jobId,
          { w with
            queue := rest
            handling := Function.update w.handling i (some ⟨jobId, none⟩) })
  | _, _, _ => none

/-- A claim that never reaches the database. -/
theorem claim_runs_fails {jobId : Uuid} {now : Time} {leaseDurationMs : Int} {db : Store}
    (leaseToken : Uuid) (hd : 0 < leaseDurationMs) :
    (Call.claim jobId now leaseDurationMs leaseToken).Runs db (.error connectionLost) db := by
  refine ⟨.idle, ?_⟩
  change postgres.Runs Infrastructure (claimTenantValidationJob jobId now leaseDurationMs leaseToken)
    db .idle (.error connectionLost) db .idle
  unfold claimTenantValidationJob
  rw [if_neg (Int.not_le.mpr hd)]
  exact ⟨.error connectionLost, db, .idle,
    .inr ⟨connectionLost, connectionLost_infrastructure, rfl, .statement _ _ _⟩, rfl, rfl, rfl⟩

theorem World.performs {i : Nat} {op : WorkerOp} {how : How} {w w' : World}
    {r : Except JsError op.Reply} (h : World.perform i op how w = some (r, w')) :
    Performs i w op r w' := by
  unfold World.perform at h
  split at h
  · cases h
    exact .now
  · cases h
    exact .query (Engine.runs_run postgres Infrastructure _ _ _)
  · cases h
    exact .start (Call.runs_run _ _)
  · cases h
    exact .claim (Call.runs_run _ _)
  · split at h
    · rename_i hd
      cases h
      exact .claim (claim_runs_fails 0 hd)
    · cases h
  · cases h
    exact .recover (Call.runs_run _ _)
  · cases h
    exact .enqueued
  · split at h
    · cases h
    · rename_i jobId rest hqueue
      cases h
      have hrest : w.queue.erase jobId = rest := by rw [hqueue, List.erase_cons_head]
      have hmem : jobId ∈ w.queue := by rw [hqueue]; exact List.mem_cons_self
      rw [← hrest]
      exact .receive hmem
  · cases h

/-- Schedules of the system; the drift is the time to come. -/
def player : Pool.Player workers How Time where
  perform := World.perform
  drift clock w := if w.clock ≤ clock then some { w with clock := clock } else none
  performs := World.performs
  drifts h := by
    rename_i clock w w'
    split at h
    · rename_i hclock
      cases h
      exact .time hclock
    · cases h

theorem turn_handling {w : Workers} {turn : Pool.Turn Nat How Time} {j : Nat}
    (h : ∀ how, turn ≠ .run j how) :
    (player.turn w turn).shared.handling j = w.shared.handling j := by
  unfold Pool.Player.turn
  split
  · rename_i i how
    have hj : j ≠ i := by
      intro he
      exact h how (by rw [he])
    split
    · split
      · rename_i hp
        exact (player.performs hp).frame hj
      · rfl
    · rfl
  · split
    · rename_i hd
      unfold player at hd
      dsimp only at hd
      split at hd
      · cases hd
        rfl
      · cases hd
    · rfl

/-- A process that gets no turn keeps what is in its hands. -/
theorem play_handling {w : Workers} {turns : List (Pool.Turn Nat How Time)} {j : Nat}
    (h : ∀ turn ∈ turns, ∀ how, turn ≠ .run j how) :
    (player.play w turns).shared.handling j = w.shared.handling j := by
  induction turns generalizing w with
  | nil => rfl
  | cons turn rest ih =>
      have hrest := ih (w := player.turn w turn) fun t ht => h t (List.mem_cons_of_mem _ ht)
      exact hrest.trans (turn_handling (h turn List.mem_cons_self))

namespace Sample

open Product.Sample

/-- One API call, then ticks and handlers in turn. -/
def roles : Nat → Role
  | 0 => .api [⟨2, .write, .organization⟩] input cipher
  | n + 1 => if n % 2 = 0 then .tick else .handler cipher [49]

def turn (i : Nat) (how : How) : Pool.Turn Nat How Time := .run i how

/-- A tick that recovers and dispatches one job. -/
def tick (i : Nat) (fresh : Uuid) : List (Pool.Turn Nat How Time) :=
  List.replicate 6 (turn i (.succeeds fresh))

/-- A job is started and its event dispatched. -/
def dispatched : List (Pool.Turn Nat How Time) :=
  turn 0 (.succeeds 10) :: tick 1 100

def played (turns : List (Pool.Turn Nat How Time)) : Workers :=
  player.play (system roles workspaces 5) turns

end Sample

end InboxSaas.Worker
