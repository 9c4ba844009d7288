import InboxSaas.Worker.System

/-!
# Bounded attempts

Every claim counts an attempt, and only `applyTenantValidationResult` looks at the count.  A lease
that ends with a result is not followed by a fourth attempt; a lease of the third attempt that
expires is, because recovery and the claim of an expired job queue or claim it whatever the count.
-/

namespace InboxSaas.Worker

open Reasoning Product

/-- A third attempt whose lease is over. -/
def exhausted (now : Time) (job : Job) : Bool :=
  leaseExpired now job && 3 ≤ job.attemptCount

/-- A job whose lease is over is queued or claimed again after three attempts. -/
def reopens (db : Store) : WorkerOp → Bool
  | .recoverExpiredTenantValidationJobs now => db.jobs.rows.any (exhausted now)
  | .claimTenantValidationJob jobId now _ => (db.jobs.find jobId).any (exhausted now)
  | _ => false

/-- The system while no lease of a third attempt is reopened. -/
def closing : Machine Nat World WorkerOp WorkerOp.Reply JsError :=
  workers.restrict (fun _ op w _ _ => reopens w.db op = false) (fun _ _ => True)

/-- At most three attempts, and none to come after the third. -/
def Bounded (job : Job) : Prop :=
  job.attemptCount ≤ 3 ∧ (job.attemptCount = 3 → job.state ≠ .queued)

/-- What becomes of a job after its third claim: no further attempt, and once that claim has ended
no change at all. -/
def Spent (job job' : Job) : Prop :=
  job'.attemptCount = 3 ∧ job'.state ≠ .queued ∧ (job.state ≠ .running → job' = job)

structure Attempts (db : Store) : Prop where
  consistent : Consistent db
  bounded {jobId : Uuid} {job : Job} (h : db.jobs.find jobId = some job) : Bounded job

/-- The move does not reopen a third attempt. -/
def Closes (m : Move) (job : Job) : Prop :=
  (∀ jobId leaseToken now leaseExpiresAt, m = .claimed jobId leaseToken now leaseExpiresAt →
    leaseExpired now job = true → job.attemptCount < 3) ∧
  ∀ jobId now defaults, m = .recovered jobId now defaults → leaseExpired now job = true →
    job.attemptCount < 3

theorem queued_of_claimable {now : Time} {job : Job} (h : claimable now job = true)
    (he : leaseExpired now job ≠ true) : job.state = .queued := by
  unfold claimable at h
  rw [Bool.or_eq_true, Bool.and_eq_true, decide_eq_true_iff] at h
  exact (h.resolve_right he).1

/-- A move on a bounded job that does not reopen it. -/
theorem bounded_row {m : Move} {before : Option Job} {job' : Job} (h : m.Row before (some job'))
    (hbefore : ∀ job, before = some job → Bounded job ∧ Closes m job) :
    Bounded job' ∧ ∀ job, before = some job → job.attemptCount = 3 → Spent job job' := by
  cases h with
  | started =>
      exact ⟨⟨by simp [newJob], fun h => by simp [newJob] at h⟩, fun job he => by cases he⟩
  | claimed hguard =>
      rename_i jobId leaseToken now leaseExpiresAt job
      obtain ⟨⟨hle, hqueued⟩, hcloses, _⟩ := hbefore job rfl
      have hlt : job.attemptCount < 3 := by
        -- an expired lease is reopened below three attempts only; a queued job has fewer already
        by_cases he : leaseExpired now job = true
        · exact hcloses _ _ _ _ rfl he
        · have hne : job.attemptCount ≠ 3 := fun h3 => hqueued h3 (queued_of_claimable hguard he)
          omega
      refine ⟨⟨?_, fun _ hq => by cases hq⟩, fun other he h3 => ?_⟩
      · change job.attemptCount + 1 ≤ 3
        omega
      · cases he
        omega
  | renewed hguard =>
      rename_i jobId leaseToken now leaseExpiresAt job
      have hstate : job.state = .running := leaseValid_running hguard
      have hne : (job.renew leaseExpiresAt).state ≠ .queued := by
        change job.state ≠ .queued
        rw [hstate]
        decide
      refine ⟨⟨(hbefore job rfl).1.1, fun _ => hne⟩, fun other he h3 => ?_⟩
      cases he
      exact ⟨h3, hne, fun hended => absurd hstate hended⟩
  | recovered hguard =>
      rename_i job
      -- the step does not reopen a job after its third attempt
      have hlt := (hbefore job rfl).2.2 _ _ _ rfl hguard
      refine ⟨⟨(hbefore job rfl).1.1, fun h3 => ?_⟩, fun other he h3 => ?_⟩
      · change job.attemptCount = 3 at h3
        omega
      · cases he
        omega
  | retried hguard hattempts =>
      rename_i job
      refine ⟨⟨(hbefore job rfl).1.1, fun h3 => ?_⟩, fun other he h3 => ?_⟩
      · change job.attemptCount = 3 at h3
        omega
      · cases he
        omega
  | completed hguard =>
      rename_i now job
      have hne : (job.complete now).state ≠ .queued := by
        change JobState.completed ≠ .queued
        decide
      refine ⟨⟨(hbefore job rfl).1.1, fun _ => hne⟩, fun other he h3 => ?_⟩
      cases he
      exact ⟨h3, hne, fun hended => absurd (leaseValid_running hguard) hended⟩
  | failed hguard =>
      rename_i code retryable now job
      have hne : (job.fail code retryable now).state ≠ .queued := by
        change JobState.failed ≠ .queued
        decide
      refine ⟨⟨(hbefore job rfl).1.1, fun _ => hne⟩, fun other he h3 => ?_⟩
      cases he
      exact ⟨h3, hne, fun hended => absurd (leaseValid_running hguard) hended⟩

/-- What one step does to the store: it makes a call that reopens nothing, or leaves the jobs. -/
theorem step_changes {w v : Workers} {l : Label Nat} (h : Pool.Step closing w l v) :
    ∃ op, reopens w.shared.db op = false ∧ Changes w.shared.db v.shared.db op := by
  cases h with
  | run _ hp => exact ⟨_, hp.2, hp.1.changes⟩
  | halt _ hh =>
      obtain ⟨rfl, _⟩ := hh
      exact ⟨.now, rfl, .none rfl rfl⟩
  | drift hd =>
      obtain ⟨jobId, leaseToken, now, hchanges⟩ := hd.changes
      exact ⟨_, rfl, hchanges⟩

theorem closes_of_makes {call : Call} {db : Store} {m : Move} {job : Job} (hm : call.Makes m)
    (hr : reopens db (workerOp call) = false) (hjob : db.jobs.find m.jobId = some job) :
    Closes m job := by
  have hlt : ∀ {now}, exhausted now job = false → leaseExpired now job = true →
      job.attemptCount < 3 := by
    intro now hnot hexpired
    simpa [exhausted, hexpired] using hnot
  constructor
  · intro jobId leaseToken now leaseExpiresAt he hexpired
    subst he
    obtain ⟨leaseDurationMs, rfl⟩ := hm.claimed
    change (db.jobs.find jobId).any (exhausted now) = false at hr
    rw [show db.jobs.find jobId = some job from hjob] at hr
    exact hlt hr hexpired
  · intro jobId now defaults he hexpired
    subst he
    obtain ⟨draws, rfl⟩ := hm.recovered
    have hnone := List.any_eq_false.mp hr job (Table.mem_of_find hjob)
    exact hlt (Bool.eq_false_iff.mpr hnone) hexpired

namespace Spent

theorem refl {job : Job} (hb : Bounded job) (h3 : job.attemptCount = 3) : Spent job job :=
  ⟨h3, hb.2 h3, fun _ => rfl⟩

theorem trans {job job₁ job' : Job} (h : Spent job job₁) (h' : Spent job₁ job') :
    Spent job job' := by
  refine ⟨h'.1, h'.2.1, fun hended => ?_⟩
  have h₁ := h.2.2 hended
  subst h₁
  exact h'.2.2 hended

end Spent

/-- Every job that is spent in one store is spent in the other. -/
def Exhausts (db db' : Store) : Prop :=
  ∀ (jobId : Uuid) (job : Job), db.jobs.find jobId = some job → job.attemptCount = 3 →
    ∃ job', db'.jobs.find jobId = some job' ∧ Spent job job'

/-- One call that reopens nothing. -/
theorem call_spent {call : Call} {db db' : Store} {o : Except JsError call.Result}
    (ha : Attempts db) (h : call.Runs db o db') (hr : reopens db (workerOp call) = false) :
    Attempts db' ∧ Exhausts db db' := by
  have hat := h.at ha.consistent
  have hrow : ∀ {m : Move} {jobId : Uuid}, call.Makes m → m.jobId = jobId →
      ∀ job, db.jobs.find jobId = some job → Bounded job ∧ Closes m job :=
    fun hm he job hjob => ⟨ha.bounded hjob, closes_of_makes hm hr (he ▸ hjob)⟩
  refine ⟨⟨ha.consistent.call h, fun {jobId job'} hjob' => ?_⟩, fun jobId job hjob h3 => ?_⟩
  · rcases hat jobId with hsame | ⟨m, hm, he, hmove, _⟩
    · exact ha.bounded (hsame.job ▸ hjob')
    · rw [hjob'] at hmove
      exact (bounded_row hmove (hrow hm he)).1
  · rcases hat jobId with hsame | ⟨m, hm, he, hmove, _⟩
    · exact ⟨job, hsame.job.trans hjob, .refl (ha.bounded hjob) h3⟩
    · obtain ⟨job', hjob'⟩ := hmove.written
      rw [hjob'] at hmove
      exact ⟨job', hjob', (bounded_row hmove (hrow hm he)).2 job hjob h3⟩

theorem step_spent {w v : Workers} {l : Label Nat} (ha : Attempts w.shared.db)
    (h : Pool.Step closing w l v) : Attempts v.shared.db ∧ Exhausts w.shared.db v.shared.db := by
  obtain ⟨op, hr, hchanges⟩ := step_changes h
  cases hchanges with
  | none hjobs hconnections =>
      refine ⟨⟨ha.consistent.congr hjobs hconnections, fun hjob => ?_⟩, fun jobId job hjob h3 => ?_⟩
      · exact ha.bounded (hjobs ▸ hjob)
      · exact ⟨job, by rw [hjobs, hjob], .refl (ha.bounded hjob) h3⟩
  | call hcall => exact call_spent ha hcall hr

/-- From any point of a run on. -/
theorem run_spent {w v : Workers} (ha : Attempts w.shared.db) (h : Pool.Reaches closing w v) :
    Attempts v.shared.db ∧ Exhausts w.shared.db v.shared.db := by
  refine h.invariant (P := fun v => Attempts v.shared.db ∧ Exhausts w.shared.db v.shared.db)
    ⟨ha, fun jobId job hjob h3 => ⟨job, hjob, .refl (ha.bounded hjob) h3⟩⟩ ?_
  intro u l u' hu hstep
  obtain ⟨ha', hspent⟩ := step_spent hu.1 hstep
  refine ⟨ha', fun jobId job hjob h3 => ?_⟩
  obtain ⟨job₁, hjob₁, hs⟩ := hu.2 jobId job hjob h3
  obtain ⟨job', hjob', hs'⟩ := hspent jobId job₁ hjob₁ hs.1
  exact ⟨job', hjob', hs.trans hs'⟩

theorem Attempts.empty (workspaces : Table Workspace) : Attempts (.empty workspaces) where
  consistent := .empty workspaces
  bounded h := by cases h

/-- In every world that the system reaches without reopening the lease of a third attempt, every job
was claimed at most three times.  After the third claim it is never queued or claimed again, and
once that claim has ended the job does not change any more. -/
theorem bounded_attempts {roles : Nat → Role} {workspaces : Table Workspace} {clock : Time}
    {w v : Workers} (h : Pool.Reaches closing (system roles workspaces clock) w)
    (h' : Pool.Reaches closing w v) :
    ∀ (jobId : Uuid) (job : Job), w.shared.db.jobs.find jobId = some job →
      job.attemptCount ≤ 3 ∧ (job.attemptCount = 3 →
        ∃ job', v.shared.db.jobs.find jobId = some job' ∧ Spent job job') := by
  intro jobId job hjob
  have ha := (run_spent (Attempts.empty workspaces) h).1
  exact ⟨(ha.bounded hjob).1, (run_spent ha h').2 jobId job hjob⟩

namespace Sample

open Product.Sample

/-- The job is started, and handlers claim it and lose their leases. -/
def attempts : Nat → List (Pool.Turn Nat How Time)
  | 0 => [turn 0 (.succeeds 10)]
  | n + 1 => attempts n ++ tick (2 * n + 1) (.ofNat 128 (100 + n)) ++
      List.replicate 3 (turn (2 * n + 2) (.succeeds (.ofNat 128 (200 + n)))) ++
      [.drift (5 + 60000 * (n + 1))]

/-- Schedules that skip what would reopen a third attempt. -/
def cautious : Pool.Player closing How Time where
  perform i op how w := if reopens w.db op then none else World.perform i op how w
  drift := player.drift
  performs {i op how w w' r} h := by
    split at h
    · cases h
    · rename_i hr
      exact ⟨World.performs h, Bool.eq_false_iff.mpr hr⟩
  drifts := player.drifts

end Sample

/-- The third attempt is not reopened in a schedule that skips what would reopen it. -/
theorem bounded_attempts_third :
    let w := Sample.cautious.play (system Sample.roles Product.Sample.workspaces 5)
      (Sample.attempts 3)
    let v := Sample.cautious.play w (Sample.tick 7 103)
    ∃ job job', w.shared.db.jobs.find 11 = some job ∧ job.attemptCount = 3 ∧
      v.shared.db.jobs.find 11 = some job' ∧ Spent job job' := by
  intro w v
  have hcount : (w.shared.db.jobs.find 11).map Job.attemptCount = some 3 := by decide +kernel
  obtain ⟨job, hjob, h3⟩ := Option.map_eq_some_iff.mp hcount
  have hw : Pool.Reaches closing (system Sample.roles Product.Sample.workspaces 5) w :=
    Sample.cautious.reaches _ _
  have hv : Pool.Reaches closing w v := Sample.cautious.reaches _ _
  obtain ⟨job', hjob', hspent⟩ := (bounded_attempts hw hv 11 job hjob).2 h3
  exact ⟨job, job', hjob, h3, hjob', hspent⟩

/-- Three leases expire in a row, and the job is claimed a fourth time. -/
theorem fourth_attempt :
    ¬ ∀ w : Workers, Pool.Reaches workers (system Sample.roles Product.Sample.workspaces 5) w →
      ∀ (jobId : Uuid) (job : Job), w.shared.db.jobs.find jobId = some job →
        job.attemptCount ≤ 3 := by
  intro h
  have hcount : ((Sample.played (Sample.attempts 4)).shared.db.jobs.find 11).map Job.attemptCount =
      some 4 := by decide +kernel
  obtain ⟨job, hjob, h4⟩ := Option.map_eq_some_iff.mp hcount
  have hle := h (Sample.played (Sample.attempts 4)) (player.reaches _ _) 11 job hjob
  omega

end InboxSaas.Worker
