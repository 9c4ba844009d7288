import InboxSaas.Worker.System

/-!
# No lost work

A queued job can be picked up as long as its latest outbox event is pending, or a message for it is
waiting or in the hands of a handler that has yet to claim with it.  The hand-over from the event to
the message, and from the message to the lease, is kept by every step but one: a handler that is
given a message and loses its claim, by a failed query or by dying, has used the message up.
-/

namespace InboxSaas.Worker

open Reasoning Product

/-! ## What a queued job needs -/

/-- A message for the job is waiting, or was received and not yet used for a claim. -/
def InFlight (w : World) (jobId : Uuid) : Prop :=
  jobId ∈ w.queue ∨ ∃ i handling, w.handling i = some handling ∧ handling.jobId = jobId

/-- A message in flight whose claim will find a job available from `availableAt` on. -/
def Carried (w : World) (jobId : Uuid) (availableAt : Time) : Prop :=
  (jobId ∈ w.queue ∧ availableAt ≤ w.clock) ∨
    ∃ i handling, w.handling i = some handling ∧ handling.jobId = jobId ∧
      availableAt ≤ handling.now.getD w.clock

theorem Carried.inFlight {w : World} {jobId : Uuid} {availableAt : Time}
    (h : Carried w jobId availableAt) : InFlight w jobId := by
  rcases h with ⟨hq, _⟩ | ⟨i, handling, hi, hj, _⟩
  · exact .inl hq
  · exact .inr ⟨i, handling, hi, hj⟩

/-- The event that was inserted last for the job. -/
def latestEvent (db : Store) (jobId : Uuid) : Option OutboxEvent :=
  (db.eventsOf jobId).getLast?

/-- Every queued job has its latest event pending or is carried. -/
structure Safe (w : World) : Prop where
  consistent : Consistent w.db
  payload {event : OutboxEvent} (h : event ∈ w.db.outboxEvents) : event.payload.jobId = event.jobId
  awake {jobId : Uuid} {job : Job} (hjob : w.db.jobs.find jobId = some job)
    (hq : job.state = .queued) :
    ∃ event, latestEvent w.db jobId = some event ∧ event.availableAt = job.availableAt ∧
      (event.dispatchedAt = none ∨ Carried w jobId job.availableAt)

/-- The event is not what keeps its job awake: what a dispatcher knows once it enqueued it. -/
def Woken (w : World) (eventId jobId : Uuid) : Prop :=
  ∀ job event, w.db.jobs.find jobId = some job → job.state = .queued →
    latestEvent w.db jobId = some event → event.id = eventId → Carried w jobId job.availableAt

/-- What every step keeps for the processes that do not take it. -/
structure Keeps (w w' : World) : Prop where
  clock : w.clock ≤ w'.clock
  events {event : OutboxEvent} (h : event ∈ w.db.outboxEvents) :
    ∃ event' ∈ w'.db.outboxEvents, event'.id = event.id ∧ event'.jobId = event.jobId ∧
      event'.availableAt = event.availableAt
  woken {event : OutboxEvent} (h : event ∈ w.db.outboxEvents)
    (hw : Woken w event.id event.jobId) : Woken w' event.id event.jobId

theorem Keeps.refl (w : World) : Keeps w w :=
  ⟨Int.le_refl _, fun h => ⟨_, h, rfl, rfl, rfl⟩, fun _ h => h⟩

theorem Keeps.trans {w w₁ w' : World} (h : Keeps w w₁) (h' : Keeps w₁ w') : Keeps w w' where
  clock := Int.le_trans h.clock h'.clock
  events he := by
    obtain ⟨e₁, he₁, hid₁, hjob₁, hat₁⟩ := h.events he
    obtain ⟨e₂, he₂, hid₂, hjob₂, hat₂⟩ := h'.events he₁
    exact ⟨e₂, he₂, hid₂.trans hid₁, hjob₂.trans hjob₁, hat₂.trans hat₁⟩
  woken he hw := by
    obtain ⟨e₁, he₁, hid₁, hjob₁, _⟩ := h.events he
    have hw₁ := h.woken he hw
    rw [← hid₁, ← hjob₁] at hw₁ ⊢
    exact h'.woken he₁ hw₁

/-! ## Steps that only move messages -/

/-- Nothing is stored, and what carried a job still does. -/
theorem Safe.carry {w w' : World} (h : Safe w) (hdb : w'.db = w.db) (hclock : w.clock ≤ w'.clock)
    (hcarried : ∀ jobId job, w.db.jobs.find jobId = some job → job.state = .queued →
      Carried w jobId job.availableAt → Carried w' jobId job.availableAt) :
    Safe w' ∧ Keeps w w' := by
  refine ⟨⟨hdb ▸ h.consistent, fun he => h.payload (hdb ▸ he), fun {jobId job} hjob hq => ?_⟩,
    hclock, fun he => ⟨_, hdb ▸ he, rfl, rfl, rfl⟩,
    fun he hw job event hjob hq hlast hid => ?_⟩
  · rw [hdb] at hjob ⊢
    obtain ⟨event, hlast, hat, hevent⟩ := h.awake hjob hq
    exact ⟨event, hlast, hat, hevent.imp_right (hcarried jobId job hjob hq)⟩
  · rw [hdb] at hjob hlast
    exact hcarried _ job hjob hq (hw job event hjob hq hlast hid)

/-- Messages are kept, times only grow. -/
theorem Carried.mono {w w' : World} {jobId : Uuid} {availableAt : Time}
    (h : Carried w jobId availableAt) (hclock : w.clock ≤ w'.clock)
    (hqueue : ∀ jobId ∈ w.queue, jobId ∈ w'.queue)
    (hhandling : ∀ i handling, w.handling i = some handling → ∃ handling',
      w'.handling i = some handling' ∧ handling'.jobId = handling.jobId ∧
        handling.now.getD w.clock ≤ handling'.now.getD w'.clock) :
    Carried w' jobId availableAt := by
  rcases h with ⟨hq, hat⟩ | ⟨i, handling, hi, hj, hat⟩
  · exact .inl ⟨hqueue _ hq, Int.le_trans hat hclock⟩
  · obtain ⟨handling', hi', hj', hnow⟩ := hhandling i handling hi
    exact .inr ⟨i, handling', hi', hj'.trans hj, Int.le_trans hat hnow⟩

theorem Safe.time {w : World} (h : Safe w) {clock : Time} (hclock : w.clock ≤ clock) :
    Safe { w with clock := clock } ∧ Keeps w { w with clock := clock } := by
  refine h.carry rfl hclock fun jobId job _ _ hc => ?_
  apply hc.mono
  · exact hclock
  · exact fun _ hq => hq
  · intro i handling hi
    refine ⟨handling, hi, rfl, ?_⟩
    cases handling.now with
    | none => exact hclock
    | some now => exact Int.le_refl now

theorem Safe.dated {w : World} (h : Safe w) (i : Nat) : Safe (w.dated i) ∧ Keeps w (w.dated i) := by
  refine h.carry rfl (Int.le_refl _) fun jobId job _ _ hc => ?_
  apply hc.mono
  · exact Int.le_refl _
  · exact fun _ hq => hq
  · intro j handling hj
    by_cases he : j = i
    · subst he
      refine ⟨{ handling with now := some (handling.now.getD w.clock) }, ?_, rfl, Int.le_refl _⟩
      simp [World.dated, hj]
    · exact ⟨handling, by simp [World.dated, he, hj], rfl, Int.le_refl _⟩

theorem Safe.enqueued {w : World} (h : Safe w) (jobId : Uuid) :
    Safe { w with queue := jobId :: w.queue } ∧ Keeps w { w with queue := jobId :: w.queue } := by
  refine h.carry rfl (Int.le_refl _) fun other job _ _ hc => ?_
  apply hc.mono
  · exact Int.le_refl _
  · exact fun _ hq => List.mem_cons_of_mem _ hq
  · exact fun _ handling hi => ⟨handling, hi, rfl, Int.le_refl _⟩

/-- A message goes from the queue to a handler with empty hands. -/
theorem Safe.received {w : World} (h : Safe w) {i : Nat} (jobId : Uuid)
    (hi : w.handling i = none) :
    Safe { w with
      queue := w.queue.erase jobId
      handling := Function.update w.handling i (some ⟨jobId, none⟩) } ∧
    Keeps w { w with
      queue := w.queue.erase jobId
      handling := Function.update w.handling i (some ⟨jobId, none⟩) } := by
  refine h.carry rfl (Int.le_refl _) fun other job _ _ hcarried => ?_
  rcases hcarried with ⟨hq, hat⟩ | ⟨j, handling, hj, hjob, hat⟩
  · by_cases he : other = jobId
    · exact .inr ⟨i, ⟨jobId, none⟩, by simp, he.symm, hat⟩
    · exact .inl ⟨(List.mem_erase_of_ne he).mpr hq, hat⟩
  · have hne : j ≠ i := by
      intro he
      rw [he, hi] at hj
      cases hj
    exact .inr ⟨j, handling, by simp [hne, hj], hjob, hat⟩

/-- A process loses its message when that message was of no use. -/
theorem Safe.drop {w w' : World} (h : Safe w) {i : Nat} (hdb : w'.db = w.db)
    (hclock : w'.clock = w.clock) (hqueue : w'.queue = w.queue)
    (hhandling : w'.handling = Function.update w.handling i none)
    (huseless : ∀ handling job, w.handling i = some handling →
      w.db.jobs.find handling.jobId = some job → job.state = .queued →
      ¬ job.availableAt ≤ handling.now.getD w.clock) : Safe w' ∧ Keeps w w' := by
  refine h.carry hdb (Int.le_of_eq hclock.symm) fun jobId job hjob hq hcarried => ?_
  rcases hcarried with hwaiting | ⟨j, handling, hj, hid, hat⟩
  · unfold Carried
    rw [hclock, hqueue]
    exact .inl hwaiting
  · have hne : j ≠ i := by
      intro he
      subst he hid
      exact huseless handling job hj hjob hq hat
    refine .inr ⟨j, handling, ?_, hid, by rw [hclock]; exact hat⟩
    rw [hhandling, Function.update_of_ne hne, hj]

/-! ## Steps of the database -/

theorem latestEvent_append {events : List OutboxEvent} {event : OutboxEvent} :
    (events ++ [event]).getLast? = some event := by
  simp

/-- A call of the product package. -/
theorem Safe.call {w : World} (h : Safe w) {call : Call} {o : Except JsError call.Result}
    {db' : Store} (hr : call.Runs w.db o db') :
    Safe { w with db := db' } ∧ Keeps w { w with db := db' } := by
  have hat := hr.at h.consistent
  refine ⟨⟨h.consistent.call hr, fun {event} he => ?_, fun {jobId job} hjob hq => ?_⟩,
    Int.le_refl _, fun {event} he => ?_, fun {event} he hw job last hjob hq hlast hid => ?_⟩
  · have hmem : event ∈ db'.eventsOf event.jobId := mem_eventsOf.mpr ⟨he, rfl⟩
    rcases hat event.jobId with hsame | ⟨m, _, hm, _, hevents, _⟩
    · rw [hsame.events] at hmem
      exact h.payload (mem_eventsOf.mp hmem).1
    · rw [hevents, List.mem_append] at hmem
      rcases hmem with hmem | hmem
      · exact h.payload (mem_eventsOf.mp hmem).1
      · have hm' := Move.event_eq (Option.mem_toList.mp hmem)
        exact hm'.2.1.trans hm'.1.symm
  · rcases hat jobId with hsame | ⟨m, _, hm, hrow, hevents, _⟩
    · rw [hsame.job] at hjob
      obtain ⟨event, hlast, hwhen, hevent⟩ := h.awake hjob hq
      exact ⟨event, by rw [latestEvent, hsame.events]; exact hlast, hwhen, hevent⟩
    · rw [show db'.jobs.find jobId = some job from hjob] at hrow
      obtain ⟨event, hnew, hwhen⟩ := hrow.event hq
      rw [hnew] at hevents
      refine ⟨event, ?_, hwhen, .inl (Move.event_eq hnew).2.2.1⟩
      rw [latestEvent, hevents]
      exact latestEvent_append
  · have hmem : event ∈ w.db.eventsOf event.jobId := mem_eventsOf.mpr ⟨he, rfl⟩
    refine ⟨event, ?_, rfl, rfl, rfl⟩
    rcases hat event.jobId with hsame | ⟨m, _, _, _, hevents, _⟩
    · rw [← hsame.events] at hmem
      exact (mem_eventsOf.mp hmem).1
    · have hmem' : event ∈ db'.eventsOf event.jobId := by
        rw [hevents]
        exact List.mem_append_left _ hmem
      exact (mem_eventsOf.mp hmem').1
  · rcases hat event.jobId with hsame | ⟨m, _, hm, hrow, hevents, hfresh⟩
    · rw [hsame.job] at hjob
      rw [latestEvent, hsame.events] at hlast
      exact hw job last hjob hq hlast hid
    · -- the job was queued anew, and its latest event is a new one
      rw [show db'.jobs.find event.jobId = some job from hjob] at hrow
      obtain ⟨new, hnew, _⟩ := hrow.event hq
      rw [latestEvent, hevents, hnew] at hlast
      have hlast' : new = last := Option.some.inj (latestEvent_append.symm.trans hlast)
      exact absurd (hid.symm.trans (congrArg OutboxEvent.id hlast'.symm))
        (hfresh new hnew event (mem_eventsOf.mpr ⟨he, rfl⟩))

/-! ## Marking an event -/

/-- `set({ dispatchedAt })` on the event with the id. -/
def dispatch (id : Uuid) (dispatchedAt : Time) (event : OutboxEvent) : OutboxEvent :=
  if event.id = id then { event with dispatchedAt := some dispatchedAt } else event

section

variable (id : Uuid) (dispatchedAt : Time) (event : OutboxEvent)

@[simp] theorem dispatch_id : (dispatch id dispatchedAt event).id = event.id := by
  unfold dispatch
  split <;> rfl

@[simp] theorem dispatch_jobId : (dispatch id dispatchedAt event).jobId = event.jobId := by
  unfold dispatch
  split <;> rfl

@[simp] theorem dispatch_payload : (dispatch id dispatchedAt event).payload = event.payload := by
  unfold dispatch
  split <;> rfl

@[simp] theorem dispatch_availableAt :
    (dispatch id dispatchedAt event).availableAt = event.availableAt := by
  unfold dispatch
  split <;> rfl

end

theorem rows_dispatched {db : Store} {id : Uuid} {row : OutboxEvent} {dispatchedAt : Time}
    (hrow : db.outboxEvents.find id = some row) :
    (db.putOutboxEvent { row with dispatchedAt := some dispatchedAt }).outboxEvents.rows =
      db.outboxEvents.rows.map (dispatch id dispatchedAt) := by
  have hid : row.id = id := Table.key_of_find hrow
  have hfind : db.outboxEvents.find (key ({ row with dispatchedAt := some dispatchedAt } :
      OutboxEvent)) = some row := by
    rw [key_outboxEvent, hid]
    exact hrow
  refine (Table.rows_put_of_find_some hfind).trans (List.map_congr_left fun event he => ?_)
  by_cases hk : event.id = id
  · have hsame : event = row := by
      have hfe := Table.find_of_mem (Table.mem_def.mpr he)
      rw [key_outboxEvent, hk, hrow] at hfe
      exact (Option.some.inj hfe).symm
    simp [dispatch, hsame, hid]
  · simp [dispatch, hk, hid]

theorem eventsOf_dispatched {db : Store} {id : Uuid} {row : OutboxEvent} {dispatchedAt : Time}
    (hrow : db.outboxEvents.find id = some row) (jobId : Uuid) :
    (db.putOutboxEvent { row with dispatchedAt := some dispatchedAt }).eventsOf jobId =
      (db.eventsOf jobId).map (dispatch id dispatchedAt) := by
  rw [Store.eventsOf, rows_dispatched hrow, List.filter_map, Store.eventsOf]
  congr 1
  exact List.filter_congr fun event _ => by simp

/-- Marking an event whose job is carried. -/
theorem Safe.marked {w : World} (h : Safe w) {id : Uuid} {row : OutboxEvent} (dispatchedAt : Time)
    (hrow : w.db.outboxEvents.find id = some row) (hwoken : Woken w id row.jobId) :
    Safe { w with db := w.db.putOutboxEvent { row with dispatchedAt := some dispatchedAt } } ∧
    Keeps w { w with db := w.db.putOutboxEvent { row with dispatchedAt := some dispatchedAt } } := by
  have hlatest : ∀ jobId, latestEvent (w.db.putOutboxEvent { row with
      dispatchedAt := some dispatchedAt }) jobId =
      (latestEvent w.db jobId).map (dispatch id dispatchedAt) := by
    intro jobId
    rw [latestEvent, eventsOf_dispatched hrow, List.getLast?_map, latestEvent]
  have hmem : ∀ {event : OutboxEvent}, event ∈ (w.db.putOutboxEvent { row with
      dispatchedAt := some dispatchedAt }).outboxEvents ↔
      ∃ old ∈ w.db.outboxEvents, dispatch id dispatchedAt old = event := by
    intro event
    rw [Table.mem_def, rows_dispatched hrow, List.mem_map]
    rfl
  refine ⟨⟨h.consistent.congr rfl rfl, fun he => ?_, fun {jobId job} hjob hq => ?_⟩,
    Int.le_refl _, fun {event} he => ?_, fun {event} he hw job last hjob hq hlast hid => ?_⟩
  · obtain ⟨old, ho, rfl⟩ := hmem.mp he
    simpa using h.payload ho
  · obtain ⟨event, hlast, hat, hevent⟩ := h.awake hjob hq
    refine ⟨dispatch id dispatchedAt event, ?_, by simpa using hat, ?_⟩
    · rw [hlatest, hlast, Option.map_some]
    · by_cases he : event.id = id
      · -- it is the marked event, so its job is carried
        have hev := mem_eventsOf.mp (List.mem_of_getLast? hlast)
        have hfe := Table.find_of_mem hev.1
        rw [key_outboxEvent, he, hrow] at hfe
        have hj : row.jobId = jobId := Option.some.inj hfe ▸ hev.2
        subst hj
        exact .inr (hwoken job event hjob hq hlast he)
      · rw [dispatch, if_neg he]
        exact hevent
  · exact ⟨_, hmem.mpr ⟨event, he, rfl⟩, by simp, by simp, by simp⟩
  · rw [hlatest, Option.map_eq_some_iff] at hlast
    obtain ⟨old, hold, rfl⟩ := hlast
    rw [dispatch_id] at hid
    exact hw job old hjob hq hold hid

/-! ## The contract of a process -/

/-- The handler's message was of use: its job is queued, and due at the time of the claim. -/
def Needed (w : World) (handling : Handling) : Prop :=
  ∃ job, w.db.jobs.find handling.jobId = some job ∧ job.state = .queued ∧
    job.availableAt ≤ handling.now.getD w.clock

/-- A claim that throws without having taken effect, although its job could be claimed. -/
def ClaimLost (w : World) : (op : WorkerOp) → Except JsError op.Reply → World → Prop
  | .claimTenantValidationJob jobId now _, .error _, w' =>
      w'.db = w.db ∧ Needed w ⟨jobId, some now⟩
  | _, _, _ => False

/-- The system without the two failures that lose a message. -/
def lossless : Machine Nat World WorkerOp WorkerOp.Reply JsError :=
  workers.restrict (fun _ op w o w' => ¬ ClaimLost w op o w')
    (fun i w => ∀ handling, w.handling i = some handling → ¬ Needed w handling)

def noLostWork : Contract Nat World Unit WorkerOp where
  inv t := Safe t.1
  rely i t u := Keeps t.1 u.1 ∧ u.1.handling i = t.1.handling i
  guar i t u := Keeps t.1 u.1 ∧ ∀ j, j ≠ i → u.1.handling j = t.1.handling j
  ctl _ _ _ := True

/-- Renewal timers do not matter. -/
theorem Safe.congr {w w' : World} (h : Safe w) (hclock : w'.clock = w.clock) (hdb : w'.db = w.db)
    (hqueue : w'.queue = w.queue) (hhandling : w'.handling = w.handling) : Safe w' ∧ Keeps w w' := by
  refine h.carry hdb (Int.le_of_eq hclock.symm) fun jobId job _ _ hc => ?_
  unfold Carried
  rw [hclock, hqueue, hhandling]
  exact hc

theorem Safe.flagged {w : World} (h : Safe w) (leaseLost : Nat → Bool) :
    Safe { w with leaseLost := leaseLost } ∧ Keeps w { w with leaseLost := leaseLost } :=
  h.congr rfl rfl rfl rfl

theorem noLostWork_sound : noLostWork.Sound lossless where
  rely_refl _ t := ⟨.refl t.1, rfl⟩
  rely_trans _ _ _ _ h h' := ⟨h.1.trans h'.1, h'.2.trans h.2⟩
  rely_of_guar i j _ _ hne _ _ h := ⟨h.1, h.2 j (Ne.symm hne)⟩
  drift t s hinv hd := by
    have hs : Safe s ∧ Keeps t.1 s ∧ s.handling = t.1.handling := by
      cases hd with
      | time hclock =>
          have h := hinv.time hclock
          exact ⟨h.1, h.2, rfl⟩
      | renewed _ _ hr =>
          have h := hinv.call hr
          exact ⟨h.1, h.2, rfl⟩
      | notRenewed _ _ hr _ =>
          have h := hinv.call hr
          exact ⟨(h.1.flagged _).1, h.2.trans (h.1.flagged _).2, rfl⟩
    exact ⟨(), hs.1, fun i => ⟨hs.2.1, by rw [hs.2.2]⟩⟩

/-! ## One step of a process -/

/-- A step that keeps the invariant, what the others rely on and what is in their hands. -/
structure Steps (i : Nat) (w w' : World) : Prop where
  safe : Safe w'
  keeps : Keeps w w'
  frame {j : Nat} (h : j ≠ i) : w'.handling j = w.handling j

/-- Operations that hand no wake-up over. -/
def WorkerOp.Quiet : WorkerOp → Prop
  | .receive | .claimTenantValidationJob _ _ _ => False
  | .query (.setDispatchedAt _ _) => False
  | _ => True

theorem dated_frame {w : World} {i j : Nat} (h : j ≠ i) :
    (w.dated i).handling j = w.handling j :=
  Function.update_of_ne h _ _

/-- A query that writes nothing. -/
theorem reads_db {statement : Statement} {db db' : Store} {o : Except JsError statement.Reply}
    {s' : Session Write Lock} (hreads : (exec Store.activeElsewhere statement db).2.1 = [])
    (h : postgres.Runs Infrastructure (execute statement) db .idle o db' s') : db' = db := by
  have hwrites : postgres.writes (postgres.exec statement db).2.1 db = db := by
    change postgres.writes (exec Store.activeElsewhere statement db).2.1 db = db
    rw [hreads, Engine.writes_nil]
  obtain ⟨_, ⟨_, hdb⟩ | ⟨_, _, _, hdb | hdb⟩⟩ := Engine.runs_statement h
  · exact hdb.trans hwrites
  · exact hdb
  · exact hdb.trans hwrites

theorem reads_of_quiet {q : WorkerQuery} (hq : (WorkerOp.query q).Quiet) (db : Store) :
    (exec Store.activeElsewhere q.statement db).2.1 = [] := by
  cases q with
  | selectTenantConnection => rfl
  | selectPendingOutboxEvents => rfl
  | setDispatchedAt => exact absurd hq not_false

theorem quiet_step {i : Nat} {w w' : World} {op : WorkerOp} {o : Except JsError op.Reply}
    (hs : Safe w) (h : Performs i w op o w') (hq : op.Quiet) : Steps i w w' := by
  have hsame : ∀ {w'}, Safe w' ∧ Keeps w w' → w'.handling = w.handling → Steps i w w' :=
    fun h hh => ⟨h.1, h.2, fun _ => by rw [hh]⟩
  cases h with
  | now =>
      have h := hs.dated i
      exact ⟨h.1, h.2, dated_frame⟩
  | query h =>
      have hdb := reads_db (reads_of_quiet hq w.db) h
      exact hsame (hs.congr rfl hdb rfl rfl) rfl
  | start h => exact hsame (hs.call h) rfl
  | claim => exact absurd hq not_false
  | renew h => exact hsame (hs.call h) rfl
  | recover h => exact hsame (hs.call h) rfl
  | apply h => exact hsame (hs.call h) rfl
  | enqueued => exact hsame (hs.enqueued _) rfl
  | notEnqueued => exact hsame (hs.congr rfl rfl rfl rfl) rfl
  | receive => exact absurd hq not_false
  | startRenewals => exact hsame (hs.congr rfl rfl rfl rfl) rfl
  | stopRenewals => exact hsame (hs.congr rfl rfl rfl rfl) rfl
  | leaseLost => exact hsame (hs.congr rfl rfl rfl rfl) rfl
  | loseLease => exact hsame (hs.congr rfl rfl rfl rfl) rfl
  | acquire => exact hsame (hs.congr rfl rfl rfl rfl) rfl
  | release => exact hsame (hs.congr rfl rfl rfl rfl) rfl
  | validateTenant => exact hsame (hs.congr rfl rfl rfl rfl) rfl

/-- A claim that is not lost: the job is running after it, or it was not there to be claimed. -/
theorem claim_useless {jobId leaseToken : Uuid} {now : Time} {leaseDurationMs : Int}
    {db db' : Store} {o : Except JsError ClaimTenantValidationJobResult}
    (h : (Call.claim jobId now leaseDurationMs leaseToken).Runs db o db')
    (hlost : ∀ e, o = .error e → db' = db →
      ∀ job, db.jobs.find jobId = some job → job.state = .queued → ¬ job.availableAt ≤ now) :
    ∀ job, db'.jobs.find jobId = some job → job.state = .queued → ¬ job.availableAt ≤ now := by
  obtain ⟨s', h⟩ := h
  cases (runs_claim h).2 with
  | invalid => exact hlost _ rfl rfl
  | failed => exact hlost _ rfl rfl
  | violated => exact hlost _ rfl rfl
  | notFound hf =>
      intro job hjob hq hat
      rw [hjob, Option.filter_eq_none_iff] at hf
      have hclaimable : claimable now job = true := by simp [claimable, hq, hat]
      exact hf job rfl hclaimable
  | claimed hf =>
      rename_i old _ _
      intro job hjob hq
      have hrow : (db.putJob (old.claim leaseToken now (now + leaseDurationMs))).jobs.find jobId =
          some (old.claim leaseToken now (now + leaseDurationMs)) :=
        find_put_job (filter_find hf).1 rfl
      rw [hjob] at hrow
      cases hrow
      cases hq

theorem claim_step {i : Nat} {w : World} {jobId leaseToken : Uuid} {now : Time}
    {leaseDurationMs : Int} {o : Except JsError ClaimTenantValidationJobResult} {db' : Store}
    (hs : Safe w) (hi : w.handling i = some ⟨jobId, some now⟩)
    (h : (Call.claim jobId now leaseDurationMs leaseToken).Runs w.db o db')
    (hlost : ¬ ClaimLost w (.claimTenantValidationJob jobId now leaseDurationMs) o
      (w.claimed i db')) : Steps i w (w.claimed i db') := by
  have hcall := hs.call h
  have huseless := claim_useless h fun e ho hdb job hjob hq hat => hlost (by
    subst ho
    exact ⟨hdb, job, hjob, hq, hat⟩)
  have hdrop : Safe (w.claimed i db') ∧ Keeps { w with db := db' } (w.claimed i db') := by
    refine hcall.1.drop (i := i) rfl rfl rfl rfl fun handling job hh hjob hq => ?_
    rw [show w.handling i = some handling from hh, Option.some.injEq] at hi
    subst hi
    exact huseless job hjob hq
  exact ⟨hdrop.1, hcall.2.trans hdrop.2, fun hj => Function.update_of_ne hj _ _⟩

/-! ## Outlines -/

/-- Process `i`, with text `p` left, keeps to the contract from world `w` on. -/
abbrev Outlined (i : Nat) (p : WorkerProgram Unit) (w : World) : Prop :=
  noLostWork.Outline lossless i (fun _ _ => True) (fun _ _ => True) p (w, ())

theorem Outlined.ret (i : Nat) (a : Unit) (w : World) : Outlined i (.ret a) w :=
  fun _ _ _ => trivial

theorem Outlined.raise (i : Nat) (e : JsError) (w : World) : Outlined i (.raise e) w :=
  fun _ _ _ => trivial

/-- A process that dies takes a message with it only when the message is not needed. -/
theorem stop_step {i : Nat} {w : World} (hs : Safe w)
    (h : ∀ handling, w.handling i = some handling → ¬ Needed w handling) : Steps i w (w.stop i) := by
  have hdrop : Safe (w.stop i) ∧ Keeps w (w.stop i) := by
    refine hs.drop (i := i) rfl rfl rfl rfl fun handling job hi hjob hq hat => ?_
    exact h handling hi ⟨job, hjob, hq, hat⟩
  exact ⟨hdrop.1, hdrop.2, fun hj => Function.update_of_ne hj _ _⟩

/-- The next operation keeps to the contract, and so does what follows each reply. -/
theorem Outlined.call {i : Nat} {op : WorkerOp}
    {next : Except JsError op.Reply → WorkerProgram Unit} {w : World}
    (h : ∀ w₁, Safe w₁ → Keeps w w₁ → w₁.handling i = w.handling i → ∀ r w₂,
      Performs i w₁ op r w₂ → ¬ ClaimLost w₁ op r w₂ → Steps i w₁ w₂ ∧ Outlined i (next r) w₂) :
    Outlined i (.call op next) w := by
  intro u hrely hinv
  refine ⟨trivial, fun r s hp => ?_, fun e s hh => ?_⟩
  · obtain ⟨hsteps, hout⟩ := h u.1 hinv hrely.1 hrely.2 r s hp.1 hp.2
    exact ⟨(), hsteps.safe, ⟨hsteps.keeps, fun _ hj => hsteps.frame hj⟩, hout⟩
  · obtain ⟨rfl, huseless⟩ := hh
    have hsteps := stop_step hinv huseless
    exact ⟨(), hsteps.safe, ⟨hsteps.keeps, fun _ hj => hsteps.frame hj⟩,
      fun _ _ _ => trivial⟩

/-- A program that hands no wake-up over, whatever replies it gets. -/
def Quiet {α : Type} : WorkerProgram α → Prop
  | .ret _ => True
  | .raise _ => True
  | .call op next => op.Quiet ∧ ∀ r, Quiet (next r)

theorem Outlined.quiet {i : Nat} {p : WorkerProgram Unit} (hp : Quiet p) (w : World) :
    Outlined i p w := by
  induction p generalizing w with
  | ret a => exact .ret i a w
  | raise e => exact .raise i e w
  | call op next ih =>
      exact .call fun w₁ hs _ _ r w₂ h _ => ⟨quiet_step hs h hp.1, ih r (hp.2 r) w₂⟩

namespace Quiet

variable {α β : Type}

theorem bind {p : WorkerProgram α} {f : α → WorkerProgram β} (hp : Quiet p)
    (hf : ∀ a, Quiet (f a)) : Quiet (p >>= f) := by
  induction p with
  | ret a => exact hf a
  | raise e => trivial
  | call op next ih => exact ⟨hp.1, fun r => ih r (hp.2 r)⟩

theorem handle {p : WorkerProgram α} {h : JsError → WorkerProgram α} (hp : Quiet p)
    (hh : ∀ e, Quiet (h e)) : Quiet (p.handle h) := by
  induction p with
  | ret a => trivial
  | raise e => exact hh e
  | call op next ih => exact ⟨hp.1, fun r => ih r (hp.2 r)⟩

theorem await {op : WorkerOp} (h : op.Quiet) : Quiet (await op) :=
  ⟨h, fun r => by cases r <;> trivial⟩

theorem ofExcept (r : Except JsError α) : Quiet (Program.ofExcept r : WorkerProgram α) := by
  cases r <;> trivial

theorem dateOr (now : Option Time) : Quiet (dateOr now) := by
  cases now with
  | none => exact await trivial
  | some now => trivial

theorem renewLease (jobId leaseToken : Uuid) (renewedAt : Time) :
    Quiet (renewLease jobId leaseToken renewedAt) := by
  unfold Worker.renewLease
  apply handle
  · apply bind
    · exact await trivial
    · intro renewed
      split
      · exact bind (await trivial) fun _ => trivial
      · trivial
  · intro e
    exact bind (await trivial) fun _ => trivial

theorem validateUnderPermit (jobId tenantConnectionId leaseToken : Uuid)
    (credentials : TenantCredentials) (now : Option Time) :
    Quiet (validateUnderPermit jobId tenantConnectionId leaseToken credentials now) := by
  unfold Worker.validateUnderPermit
  apply bind
  · exact await trivial
  intro leaseLost
  split
  · trivial
  apply bind
  · exact dateOr now
  intro renewedAt
  apply bind
  · exact renewLease jobId leaseToken renewedAt
  intro renewed
  split
  · trivial
  apply bind
  · exact handle (await trivial) fun _ => trivial
  intro result
  apply bind
  · exact dateOr now
  intro appliedAt
  apply bind
  · exact await trivial
  · exact fun _ => trivial

theorem processClaimedJob (cipher : TenantCredentialCipher) (credentialKeyVersion : JsString)
    (jobId leaseToken : Uuid) (connection : TenantConnectionDto) (now : Option Time) :
    Quiet (processClaimedJob cipher credentialKeyVersion jobId leaseToken connection now) := by
  unfold Worker.processClaimedJob
  apply bind
  · exact await trivial
  intro encryptedCredentials
  cases encryptedCredentials with
  | none => trivial
  | some encryptedCredentials =>
      dsimp only
      split
      · trivial
      apply bind
      · exact ofExcept _
      intro credentials
      apply bind
      · exact await trivial
      intro _
      apply bind
      · apply handle
        · exact validateUnderPermit jobId connection.id leaseToken credentials now
        · exact fun e => bind (await trivial) fun _ => trivial
      · exact fun outcome => bind (await trivial) fun _ => trivial

end Quiet

/-! ## Handlers -/

/-- What a handler does with its message, before it claims and after. -/
theorem outlined_process {i : Nat} {cipher : TenantCredentialCipher}
    {credentialKeyVersion : JsString} {jobId : Uuid} {w : World}
    (hi : w.handling i = some ⟨jobId, none⟩) :
    Outlined i (do
      let _ ← processTenantValidationJob cipher credentialKeyVersion jobId none
      return ()) w := by
  apply Outlined.call
  intro w₁ hs₁ _ hsame₁ r w₂ hp _
  have hi₁ := hsame₁.trans hi
  cases hp with
  | now =>
      refine ⟨quiet_step hs₁ .now trivial, ?_⟩
      have hi₂ : (w₁.dated i).handling i = some ⟨jobId, some w₁.clock⟩ := by
        simp [World.dated, hi₁]
      apply Outlined.call
      intro w₃ hs₃ _ hsame₃ r w₄ hp hlost
      have hi₃ := hsame₃.trans hi₂
      refine ⟨?_, .quiet ?_ w₄⟩
      · cases hp with
        | claim h => exact claim_step hs₃ hi₃ h hlost
      · -- whatever the claim answers, the message is used up
        cases r with
        | error e => trivial
        | ok claimed =>
            cases claimed with
            | notFound => trivial
            | claimed connection job =>
                refine Quiet.bind ?_ fun _ => trivial
                cases hl : job.leaseToken with
                | none =>
                    dsimp [Program.bind]
                    rw [hl]
                    trivial
                | some leaseToken =>
                    dsimp [Program.bind]
                    rw [hl]
                    apply Quiet.bind
                    · exact .await trivial
                    intro _
                    apply Quiet.bind
                    · apply Quiet.handle
                      · exact .processClaimedJob ..
                      · exact fun e => .bind (.await trivial) fun _ => trivial
                    · exact fun outcome => .bind (.await trivial) fun _ => trivial

theorem outlined_handler {i : Nat} (cipher : TenantCredentialCipher)
    (credentialKeyVersion : JsString) {w : World} (hi : w.handling i = none) :
    Outlined i (Role.handler cipher credentialKeyVersion).program w := by
  apply Outlined.call
  intro w₁ hs _ hsame r w₂ hp hlost
  have hi₁ := hsame.trans hi
  clear hlost
  cases hp with
  | receive hq =>
      rename_i jobId
      have hreceived := hs.received jobId hi₁
      refine ⟨⟨hreceived.1, hreceived.2, fun hj => Function.update_of_ne hj _ _⟩, ?_⟩
      exact outlined_process (Function.update_self ..)

/-! ## Ticks -/

/-- An event that a tick selected: the row is stored, for that job, and was due. -/
def Due (w : World) (event : OutboxEvent) : Prop :=
  ∃ row ∈ w.db.outboxEvents, row.id = event.id ∧ row.jobId = event.payload.jobId ∧
    row.availableAt ≤ w.clock

/-- An event that a tick enqueued and has yet to mark. -/
def Enqueued (w : World) (id : Uuid) : Prop :=
  ∃ row ∈ w.db.outboxEvents, row.id = id ∧ Woken w row.id row.jobId

theorem Due.keeps {w w' : World} {event : OutboxEvent} (h : Due w event) (hk : Keeps w w') :
    Due w' event := by
  obtain ⟨row, hrow, hid, hjob, hat⟩ := h
  obtain ⟨row', hrow', hid', hjob', hat'⟩ := hk.events hrow
  refine ⟨row', hrow', hid'.trans hid, hjob'.trans hjob, ?_⟩
  rw [hat']
  exact Int.le_trans hat hk.clock

theorem Enqueued.keeps {w w' : World} {id : Uuid} (h : Enqueued w id) (hk : Keeps w w') :
    Enqueued w' id := by
  obtain ⟨row, hrow, hid, hwoken⟩ := h
  obtain ⟨row', hrow', hid', hjob', _⟩ := hk.events hrow
  refine ⟨row', hrow', hid'.trans hid, ?_⟩
  rw [hid', hjob']
  exact hk.woken hrow hwoken

/-- With the message in the queue the event is not needed any more. -/
theorem Due.enqueued {w : World} {event : OutboxEvent} (hs : Safe w) (h : Due w event)
    (hq : event.payload.jobId ∈ w.queue) : Enqueued w event.id := by
  obtain ⟨row, hrow, hid, hjob, hat⟩ := h
  refine ⟨row, hrow, hid, fun job last hj hqueued hlast hlid => .inl ⟨hjob ▸ hq, ?_⟩⟩
  obtain ⟨last', hlast', hwhen, _⟩ := hs.awake hj hqueued
  rw [hlast, Option.some.injEq] at hlast'
  subst hlast'
  -- the latest event has the id of the row, so it is the row
  have hfind := Table.find_of_mem (mem_eventsOf.mp (List.mem_of_getLast? hlast)).1
  have hfind' := Table.find_of_mem hrow
  rw [key_outboxEvent] at hfind hfind'
  rw [hlid, hfind', Option.some.injEq] at hfind
  rw [← hwhen, ← hfind]
  exact hat

theorem mark_step {i : Nat} {w w' : World} {id : Uuid} {dispatchedAt : Time}
    {o : Except JsError Unit} (hs : Safe w) (hd : Enqueued w id)
    (h : Performs i w (.query (.setDispatchedAt id dispatchedAt)) o w') : Steps i w w' := by
  obtain ⟨row, hrow, hid, hwoken⟩ := hd
  have hfind : w.db.outboxEvents.find id = some row := by
    have hf := Table.find_of_mem hrow
    rwa [key_outboxEvent, hid] at hf
  rw [hid] at hwoken
  cases h with
  | query h =>
      rename_i db' _
      have hexec : (postgres.exec (WorkerQuery.setDispatchedAt id dispatchedAt).statement
          w.db).2.1 = [.outboxEvent { row with dispatchedAt := some dispatchedAt }] := by
        change (exec Store.activeElsewhere (.updateOutboxEvent id _) w.db).2.1 = _
        simp [exec, hfind, hid]
      have hdb : db' = w.db ∨
          db' = w.db.putOutboxEvent { row with dispatchedAt := some dispatchedAt } := by
        obtain ⟨_, ⟨_, he⟩ | ⟨_, _, _, he | he⟩⟩ := Engine.runs_statement h
        · rw [hexec] at he
          exact .inr he
        · exact .inl he
        · rw [hexec] at he
          exact .inr he
      rcases hdb with rfl | rfl
      · exact ⟨hs, .refl w, fun _ => rfl⟩
      · have hmarked := hs.marked dispatchedAt hfind hwoken
        exact ⟨hmarked.1, hmarked.2, fun _ => rfl⟩

/-- The loop of a tick, over events that were due when it selected them. -/
theorem outlined_dispatchEach {i : Nat} {events : List OutboxEvent} {w : World}
    (hdue : ∀ event ∈ events, Due w event) :
    Outlined i (tryCatch (dispatchEach events) (fun _ => return ())) w := by
  induction events generalizing w with
  | nil => exact .ret i () w
  | cons event rest ih =>
      have hrest : ∀ {w'}, Keeps w w' →
          Outlined i (tryCatch (dispatchEach rest) (fun _ => return ())) w' :=
        fun hk => ih fun e he => (hdue e (List.mem_cons_of_mem _ he)).keeps hk
      apply Outlined.call
      intro w₁ hs₁ hk₁ _ r w₂ hp _
      have hsteps₁ := quiet_step hs₁ hp trivial
      have hk₂ := hk₁.trans hsteps₁.keeps
      refine ⟨hsteps₁, ?_⟩
      cases r with
      -- an event that could not be sent stays pending, and the loop goes on
      | error e => exact hrest hk₂
      | ok _ =>
          have henqueued : Enqueued w₂ event.id := by
            have hq : event.payload.jobId ∈ w₂.queue := by
              cases hp with
              | enqueued => exact List.mem_cons_self
            exact ((hdue event List.mem_cons_self).keeps hk₂).enqueued hsteps₁.safe hq
          apply Outlined.call
          intro w₃ hs₃ hk₃ _ r w₄ hp _
          have hsteps₃ := quiet_step hs₃ hp trivial
          have hk₄ := hk₂.trans (hk₃.trans hsteps₃.keeps)
          refine ⟨hsteps₃, ?_⟩
          cases r with
          | error e => exact hrest hk₄
          | ok dispatchedAt =>
              have henqueued₄ := henqueued.keeps (hk₃.trans hsteps₃.keeps)
              apply Outlined.call
              intro w₅ hs₅ hk₅ _ r w₆ hp _
              have hsteps₅ := mark_step hs₅ (henqueued₄.keeps hk₅) hp
              refine ⟨hsteps₅, ?_⟩
              have hk₆ := hk₄.trans (hk₅.trans hsteps₅.keeps)
              cases r with
              | error e => exact hrest hk₆
              | ok _ => exact hrest hk₆

theorem selected_due {w w' : World} {i : Nat} {now : Time} {events : List OutboxEvent}
    (hs : Safe w) (hnow : now ≤ w.clock)
    (h : Performs i w (.query (.selectPendingOutboxEvents now)) (.ok events) w') :
    ∀ event ∈ events, Due w event := by
  intro event he
  cases h with
  | query h =>
      obtain ⟨_, ⟨ho, _⟩ | ⟨_, _, ho, _⟩⟩ := Engine.runs_statement h
      · have hsel : events = _ := Except.ok.inj ho
        rw [hsel, List.mem_mergeSort, List.mem_filter] at he
        obtain ⟨hmem, hwhere⟩ := he
        simp only [Bool.and_eq_true, decide_eq_true_eq] at hwhere
        have hrow : event ∈ w.db.outboxEvents := Table.mem_def.mpr hmem
        exact ⟨event, hrow, rfl, (hs.payload hrow).symm, Int.le_trans hwhere.2 hnow⟩
      · cases ho

theorem outlined_tick (i : Nat) (w : World) : Outlined i Role.tick.program w := by
  apply Outlined.call
  intro w₁ hs₁ _ _ r w₂ hp _
  refine ⟨quiet_step hs₁ hp trivial, ?_⟩
  cases hp with
  | now =>
      apply Outlined.call
      intro w₃ hs₃ hk₃ _ r w₄ hp _
      have hsteps₃ := quiet_step hs₃ hp trivial
      refine ⟨hsteps₃, ?_⟩
      cases r with
      | error e => exact .ret i () w₄
      | ok _ =>
          apply Outlined.call
          intro w₅ hs₅ hk₅ _ r w₆ hp _
          have hsteps₅ := quiet_step hs₅ hp trivial
          refine ⟨hsteps₅, ?_⟩
          cases r with
          | error e => exact .ret i () w₆
          | ok events =>
              have hclock : w₁.clock ≤ w₅.clock :=
                ((hk₃.trans hsteps₃.keeps).trans hk₅).clock
              have hdue := selected_due hs₅ hclock hp
              exact outlined_dispatchEach fun event he => (hdue event he).keeps hsteps₅.keeps

/-! ## No lost work -/

theorem Safe.initial (workspaces : Table Workspace) (clock : Time) :
    Safe (.initial workspaces clock) where
  consistent := .empty workspaces
  payload h := by cases h
  awake h := by cases h

theorem holds_system (roles : Nat → Role) (workspaces : Table Workspace) (clock : Time) :
    noLostWork.Holds lossless (fun _ _ _ => True) (fun _ _ _ => True)
      (system roles workspaces clock) := by
  refine ⟨(), .initial workspaces clock, fun i => ?_⟩
  change Outlined i (roles i).program (.initial workspaces clock)
  cases roles i with
  | api grants input cipher =>
      apply Outlined.quiet
      apply Quiet.bind
      · exact .await trivial
      · exact fun _ => trivial
  | tick => exact outlined_tick i _
  | handler cipher credentialKeyVersion => exact outlined_handler cipher credentialKeyVersion rfl

/-- Every queued job can still be picked up: an event for it is undispatched, or a message is. -/
def Awake (w : World) : Prop :=
  ∀ (jobId : Uuid) (job : Job), w.db.jobs.find jobId = some job → job.state = .queued →
    (∃ event ∈ w.db.outboxEvents, event.jobId = jobId ∧ event.payload.jobId = jobId ∧
      event.type = .tenantValidationRequested ∧ event.dispatchedAt = none) ∨ InFlight w jobId

theorem Safe.awakened {w : World} (h : Safe w) : Awake w := by
  intro jobId job hjob hq
  obtain ⟨event, hlast, _, hpending | hcarried⟩ := h.awake hjob hq
  · obtain ⟨hmem, hid⟩ := mem_eventsOf.mp (List.mem_of_getLast? hlast)
    refine .inl ⟨event, hmem, hid, (h.payload hmem).trans hid, ?_, hpending⟩
    cases event.type with
    | tenantValidationRequested => rfl
  · exact .inr hcarried.inFlight

/-- In every world that the system reaches without losing a claim, no queued job is lost: any number
of API calls, ticks and handlers, any interleaving, any other failure of a query, an enqueue or the
provisioner, and any process dying at any other point. -/
theorem no_lost_work {roles : Nat → Role} {workspaces : Table Workspace} {clock : Time}
    {w : Workers} (h : Pool.Reaches lossless (system roles workspaces clock) w) :
    Awake w.shared := by
  obtain ⟨_, hinv, _⟩ := Contract.reaches noLostWork_sound (holds_system roles workspaces clock) h
  exact hinv.awakened

namespace Sample

open Product.Sample

/-- The handler that is given the message loses the connection before its claim. -/
def lost : List (Pool.Turn Nat How Time) :=
  dispatched ++ [turn 2 (.succeeds 0), turn 2 (.succeeds 0), turn 2 .fails]

/-- Schedules without claims lose none. -/
def claimless : Pool.Player lossless How Time where
  perform i op how w :=
    match op with
    | .claimTenantValidationJob _ _ _ => none
    | op => World.perform i op how w
  drift := player.drift
  performs {i op how w w' r} h := by
    cases op with
    | claimTenantValidationJob => cases h
    | _ => exact ⟨World.performs h, not_false⟩
  drifts := player.drifts

theorem lost_handling (i : Nat) : (played lost).shared.handling i = none := by
  by_cases hi : i ≤ 2
  · have hall : ∀ j ≤ 2, (played lost).shared.handling j = none := by decide +kernel
    exact hall i hi
  · apply play_handling
    intro turn ht how he
    subst he
    simp [lost, dispatched, tick, Sample.turn] at ht
    omega

end Sample

/-- The only event is dispatched, and its message is in the hands of a handler. -/
theorem no_lost_work_received :
    Awake (Sample.claimless.play (system Sample.roles Product.Sample.workspaces 5)
      (Sample.dispatched ++ [Sample.turn 2 (.succeeds 0)])).shared :=
  no_lost_work (Sample.claimless.reaches _ _)

/-- A handler whose claim fails has thrown its message away: the job stays queued for good. -/
theorem lost_claim :
    Pool.Reaches workers (system Sample.roles Product.Sample.workspaces 5)
      (Sample.played Sample.lost) ∧
    ((Sample.played Sample.lost).prog 2).outcome = some (.error claimFailed) ∧
    ¬ Awake (Sample.played Sample.lost).shared := by
  refine ⟨player.reaches _ _, by decide +kernel, fun h => ?_⟩
  have hstate : ((Sample.played Sample.lost).shared.db.jobs.find 11).map Job.state =
      some .queued := by decide +kernel
  obtain ⟨job, hjob, hq⟩ := Option.map_eq_some_iff.mp hstate
  rcases h 11 job hjob hq with ⟨event, hmem, _, _, _, hnone⟩ | hwaiting | ⟨i, handling, hi, _⟩
  · have hall : ∀ event ∈ (Sample.played Sample.lost).shared.db.outboxEvents.rows,
        event.dispatchedAt ≠ none := by decide +kernel
    exact hall event hmem hnone
  · have hempty : (Sample.played Sample.lost).shared.queue = [] := by decide +kernel
    rw [hempty] at hwaiting
    cases hwaiting
  · rw [Sample.lost_handling i] at hi
    cases hi

end InboxSaas.Worker
