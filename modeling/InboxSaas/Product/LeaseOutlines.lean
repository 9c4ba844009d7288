import InboxSaas.Product.JobOutline

/-!
# The outlines of claims, renewals and recoveries

A claim and a renewal take effect with their `UPDATE`.  A recovery takes effect on the jobs that it
does not select when it selects, on a job that is no longer expired when it tries to update it, and
on the jobs that it updated when it commits.
-/

namespace InboxSaas.Product

open Reasoning

section

variable {ι : Type} {calls : ι → Call} {db₀ : Store} {i : ι} {x : Store × Orders ι} {jobId : Uuid}

/-- A call takes effect by a move on its job. -/
theorem Takes.move {s : Session Write Lock} {c : Command Statement} {rejected : Bool} {m : Move}
    (hx : Ordered calls db₀ x) (hstep : m.Step x.1 (postgres.perform c x.1 s).2.1)
    (hi : Unordered i m.jobId x.2) (hon : (calls i).On m.jobId)
    (heffect : (postgres.perform c x.1 s).2.1.rowsOf m.jobId =
      (callEffect calls m.jobId (i, rejected) (x.1.rowsOf m.jobId)).2) :
    Takes calls i s x c (· = m.jobId) rejected where
  consistent := hx.consistent.step hstep
  oneActive := hx.oneActive.step hstep
  unordered _ h := h ▸ ⟨hi, hon⟩
  effect _ h := h ▸ heffect
  others _ h := sameJob_iff.mp (hstep.frame hx.consistent (Ne.symm h))

variable (calls) (db₀)

/-- The call is over: its connection is idle, and it reports what it was answered in the order of
each of its jobs. -/
structure Reported (i : ι) (report : Except JsError Report) (t : Database ι × Orders ι) :
    Prop where
  session : t.1.session i = .idle
  tookEffect : ∀ jobId, (calls i).On jobId →
    TookEffect calls db₀ jobId (i, (t.1.log i).any rejection) report (t.1.db, t.2)

variable {calls} {db₀}

theorem Knows.reported {rejected : Bool} {attempts : Set Nat} {report : Except JsError Report}
    {K : Store × Orders ι → Prop} {t : Database ι × Orders ι}
    (h : Knows i .idle rejected attempts K t)
    (hK : ∀ jobId, (calls i).On jobId →
      TookEffect calls db₀ jobId (i, rejected) report (t.1.db, t.2)) :
    Reported calls db₀ i report t where
  session := h.session
  tookEffect := by
    rw [h.heard.rejected_eq]
    exact hK

theorem Reported.rely {report : Except JsError Report} {t u : Database ι × Orders ι}
    (h : Reported calls db₀ i report t) (hr : (orderContract calls db₀).rely i t u) :
    Reported calls db₀ i report u where
  session := hr.1.trans h.session
  tookEffect jobId hon := by
    rw [hr.2.1]
    exact hr.2.2.2.answers (h.tookEffect jobId hon)

end

section

variable {ι : Type} [DecidableEq ι] {calls : ι → Call} {db₀ : Store} {i : ι}
  {t : Database ι × Orders ι} {jobId leaseToken : Uuid} {now : Time} {leaseDurationMs : Int}

/-- The one statement of a claim or a renewal that writes: the call takes effect with it. -/
theorem order_guarded {α : Type} {post : α → Database ι × Orders ι → Prop}
    {fail : JsError → Database ι × Orders ι → Prop} (guard : Job → Bool) (set : Job → Job)
    {f : Option Job → DatabaseProgram α} (refused : Report) (accepted : Job → Report)
    (move : Job → Move) (hon : (calls i).On jobId) (hid : ∀ job, (set job).id = job.id)
    (htc : ∀ job, (set job).tenantConnectionId = job.tenantConnectionId)
    (hrefused : ∀ rows : JobRows, rows.job.filter guard = none →
      callEffect calls jobId (i, false) rows = (.ok refused, rows))
    (haccepted : ∀ (rows : JobRows) job, rows.job.filter guard = some job →
      callEffect calls jobId (i, false) rows = (.ok (accepted job), rows.putJob (set job)))
    (hmove : ∀ db job, db.jobs.find jobId = some job → guard job = true →
      (move job).Step db (db.putJob (set job)) ∧ (move job).jobId = jobId)
    (ht : Knows i .idle false Set.univ (fun t => Unordered i jobId t.2) t)
    (hnone : ∀ v : Database ι × Orders ι, Linearized calls db₀ v.1 v.2 →
      Knows i .idle false Set.univ (TookEffect calls db₀ jobId (i, false) (.ok refused)) v →
      (orderContract calls db₀).Outline postgres.readCommitted i post fail (f none) v)
    (hsome : ∀ (v : Database ι × Orders ι) job, Linearized calls db₀ v.1 v.2 →
      Knows i .idle false Set.univ (fun t =>
        TookEffect calls db₀ jobId (i, false) (.ok (accepted job)) t ∧
          ∃ row, t.1.jobs.find jobId = some row ∧
            row.tenantConnectionId = (set job).tenantConnectionId) v →
      (orderContract calls db₀).Outline postgres.readCommitted i post fail
        (f (some (set job))) v) :
    (orderContract calls db₀).Outline postgres.readCommitted i post fail
      (execute (.updateJob jobId guard set) >>= f) t := by
  apply order_execute ht (.unordered jobId)
  intro x hx hi r vs ls hexec
  have hjobRow : (x.1.rowsOf jobId).job = x.1.jobs.find jobId := rfl
  cases hfilter : (x.1.jobs.find jobId).filter guard with
  -- no row passes the guard: the statement writes nothing, and the call takes effect with it
  | none =>
      have hx' := exec_updateJob_none Store.activeElsewhere set hfilter
      have hrows := hrefused (x.1.rowsOf jobId) (hjobRow ▸ hfilter)
      have hperform : (postgres.perform (.statement (.updateJob jobId guard set)) x.1 .idle).2.1 =
          x.1 := by
        change postgres.writes (exec Store.activeElsewhere (.updateJob jobId guard set) x.1).2.1
          x.1 = x.1
        rw [hx']
        rfl
      cases hx'.symm.trans hexec
      refine ⟨.nil, (· = jobId), false, Set.univ,
        TookEffect calls db₀ jobId (i, false) (.ok refused), ?_,
        .single rfl rfl (fun _ _ => trivial), ?_, hnone⟩
      · refine .unchanged hx hperform fun id hidJob => ?_
        subst hidJob
        exact ⟨hi, hon, congrArg Prod.snd hrows⟩
      · exact hx.takes _ (· = jobId) _ rfl (congrArg Prod.fst hrows)
  -- the guard is about the row as it is now, so the update is the move itself
  | some job =>
      obtain ⟨hjob, hguard⟩ := filter_find hfilter
      have hkey := Store.job_id hjob
      obtain ⟨hstep, hmoveId⟩ := hmove x.1 job hjob hguard
      have hx' : exec Store.activeElsewhere (.updateJob jobId guard set) x.1 =
          (.ok (some (set job)), [.job (set job)], jobLocks (set job)) := by
        have hcurrent := exec_updateJob_current Store.activeElsewhere hx.consistent set hid htc
          (hkey.symm ▸ hjob) hguard
        rwa [hkey] at hcurrent
      have hrows := haccepted (x.1.rowsOf jobId) job (hjobRow ▸ hfilter)
      have hperform : (postgres.perform (.statement (.updateJob jobId guard set)) x.1 .idle).2.1 =
          x.1.putJob (set job) := by
        change postgres.writes (exec Store.activeElsewhere (.updateJob jobId guard set) x.1).2.1
          x.1 = _
        rw [hx']
        rfl
      cases hx'.symm.trans hexec
      refine ⟨owns_jobLocks _ hon hjob (hid job) (htc job), (· = (move job).jobId), false, Set.univ, _,
        .move hx (hperform.symm ▸ hstep) (hmoveId.symm ▸ hi) (hmoveId.symm ▸ hon) ?_,
        .single rfl rfl (fun _ _ => trivial), ⟨?_, set job, ?_, rfl⟩, fun v hv => hsome v job hv⟩
      · rw [hperform, hmoveId, hrows, rowsOf_putJob (set job) hjob (hid job) (htc job)]
      · exact hx.takes _ (· = (move job).jobId) _ hmoveId.symm (congrArg Prod.fst hrows)
      · exact find_put_job hjob (hid job)

theorem outline_claim (hcall : calls i = .claim jobId now leaseDurationMs leaseToken)
    (hd : 0 < leaseDurationMs)
    (ht : Knows i .idle false Set.univ (fun t => Unordered i jobId t.2) t) :
    (orderContract calls db₀).Outline postgres.readCommitted i
      (fun a => Reported calls db₀ i
        (.ok ((Call.claim jobId now leaseDurationMs leaseToken).report a)))
      (fun _ _ => False) (claimTenantValidationJob jobId now leaseDurationMs leaseToken) t := by
  have hone : ∀ id, (calls i).On id → id = jobId := by
    intro id h
    rw [hcall] at h
    exact Eq.symm h
  have hon : (calls i).On jobId := by
    rw [hcall]
    exact rfl
  have heffect : ∀ rows, callEffect calls jobId (i, false) rows =
      claimEffect leaseToken now leaseDurationMs rows := by
    intro rows
    unfold callEffect
    rw [hcall]
    rfl
  have hnot : ¬ leaseDurationMs ≤ 0 := by omega
  unfold claimTenantValidationJob
  rw [if_neg hnot]
  apply order_guarded (claimable now) (Job.claim leaseToken now (now + leaseDurationMs)) .notFound
    (fun job => .claimed (job.claim leaseToken now (now + leaseDurationMs)))
    (fun _ => .claimed jobId leaseToken now (now + leaseDurationMs)) hon (fun _ => rfl)
    (fun _ => rfl)
  · intro rows hfilter
    rw [heffect, claimEffect, if_neg hnot, hfilter]
  · intro rows job hfilter
    rw [heffect, claimEffect, if_neg hnot, hfilter]
  · exact fun db job hjob hguard => ⟨.claimed hjob hguard (Int.lt_add_of_pos_right now hd), rfl⟩
  · exact ht
  · intro v hv hknows u hr hu
    have hknows' := hknows.rely .tookEffect hr hu.2
    exact hknows'.reported fun id hid => hone id hid ▸ hknows'.known
  -- the read of the connection comes after the effect; whatever it sees, the answer is settled
  · intro v job hv hknows
    apply order_execute hknows (.and .tookEffect .tenantConnectionId)
    rintro x hx ⟨hanswers, row, hrow, htc⟩ r vs ls hexec
    obtain ⟨connection, hconnection, -⟩ := hx.consistent.connection hrow
    rw [htc] at hconnection
    cases hexec
    refine ⟨.nil, fun _ => False, false, Set.univ,
      TookEffect calls db₀ jobId (i, false)
        (.ok (.claimed (job.claim leaseToken now (now + leaseDurationMs)))),
      .unchanged hx rfl fun _ h => absurd h not_false, .single rfl rfl (fun _ _ => trivial), ?_,
      fun w hw hknows' => ?_⟩
    · rw [record_none]
      exact hanswers
    · rw [hconnection]
      intro u hr hu
      have hknows'' := hknows'.rely .tookEffect hr hu.2
      exact hknows''.reported fun id hid => hone id hid ▸ hknows''.known

theorem outline_renew (hcall : calls i = .renew jobId leaseToken now leaseDurationMs)
    (hd : 0 < leaseDurationMs)
    (ht : Knows i .idle false Set.univ (fun t => Unordered i jobId t.2) t) :
    (orderContract calls db₀).Outline postgres.readCommitted i
      (fun a => Reported calls db₀ i
        (.ok ((Call.renew jobId leaseToken now leaseDurationMs).report a)))
      (fun _ _ => False) (renewTenantValidationJobLease jobId leaseToken now leaseDurationMs) t := by
  have hone : ∀ id, (calls i).On id → id = jobId := by
    intro id h
    rw [hcall] at h
    exact Eq.symm h
  have hon : (calls i).On jobId := by
    rw [hcall]
    exact rfl
  have heffect : ∀ rows, callEffect calls jobId (i, false) rows =
      renewEffect leaseToken now leaseDurationMs rows := by
    intro rows
    unfold callEffect
    rw [hcall]
    rfl
  have hnot : ¬ leaseDurationMs ≤ 0 := by omega
  unfold renewTenantValidationJobLease
  rw [if_neg hnot]
  apply order_guarded (leaseValid leaseToken now) (Job.renew (now + leaseDurationMs))
    (.renewed false) (fun _ => .renewed true)
    (fun _ => .renewed jobId leaseToken now (now + leaseDurationMs)) hon (fun _ => rfl)
    (fun _ => rfl)
  · intro rows hfilter
    rw [heffect, renewEffect, if_neg hnot, hfilter]
  · intro rows job hfilter
    rw [heffect, renewEffect, if_neg hnot, hfilter]
  · exact fun db job hjob hguard => ⟨.renewed hjob hguard (Int.lt_add_of_pos_right now hd), rfl⟩
  · exact ht
  · intro v hv hknows u hr hu
    have hknows' := hknows.rely .tookEffect hr hu.2
    exact hknows'.reported fun id hid => hone id hid ▸ hknows'.known
  · intro v job hv hknows u hr hu
    have hknows' := hknows.rely (.and .tookEffect .tenantConnectionId) hr hu.2
    exact hknows'.reported fun id hid => hone id hid ▸ hknows'.known.1

/-! ## Recovery -/

variable {defaults : Uuid → OutboxDefaults} {done : List Job} {rest : List Uuid} {x : Store × Orders ι}

/-- What a recovery writes for the jobs that it updated. -/
def recoveredWrites (now : Time) (defaults : Uuid → OutboxDefaults) (done : List Job) :
    List Write :=
  done.flatMap fun job => [.job (job.recover now),
    .outboxEvent (tenantValidationRequested job.id now (defaults job.id))]

def recoveredLocks (now : Time) (defaults : Uuid → OutboxDefaults) (done : List Job) :
    List Lock :=
  done.flatMap fun job => jobLocks (job.recover now) ++ [.outboxEvent (defaults job.id).id]

omit [DecidableEq ι] in
theorem moves_recovered {db : Store} (hnodup : (done.map Job.id).Nodup)
    (hrows : ∀ job ∈ done, db.jobs.find job.id = some job ∧ leaseExpired now job = true)
    (hfree : ∀ job ∈ done, db.outboxEvents.find (defaults job.id).id = none)
    (hapart : ∀ job ∈ done, ∀ other ∈ done,
      (defaults job.id).id = (defaults other.id).id → job.id = other.id) :
    Moves db ((done.map Job.id).map fun id => .recovered id now (defaults id))
      (postgres.writes (recoveredWrites now defaults done) db) := by
  induction done generalizing db with
  | nil => exact .nil db
  | cons job rest ih =>
      rw [List.map_cons, List.nodup_cons] at hnodup
      obtain ⟨hjob, hguard⟩ := hrows job List.mem_cons_self
      have hmove : Move.Step db (.recovered job.id now (defaults job.id)) _ :=
        .recovered hjob hguard (hfree job List.mem_cons_self)
      refine .cons hmove (ih hnodup.2 (fun other ho => ?_) (fun other ho => ?_)
        fun a ha b hb => hapart a (List.mem_cons_of_mem job ha) b (List.mem_cons_of_mem job hb))
      · obtain ⟨hother, he⟩ := hrows other (List.mem_cons_of_mem job ho)
        have hne : job.id ≠ other.id := fun h => hnodup.1 (h ▸ List.mem_map_of_mem ho)
        exact ⟨(Table.find_put_ne _ hne).trans hother, he⟩
      · have hne : (defaults job.id).id ≠ (defaults other.id).id := by
          intro h
          have hsame := hapart job List.mem_cons_self other (List.mem_cons_of_mem job ho) h
          exact hnodup.1 (hsame ▸ List.mem_map_of_mem ho)
        exact (Table.find_put_ne _ hne).trans (hfree other (List.mem_cons_of_mem job ho))

variable (calls) (db₀)

/-- What a recovery knows in its loop: it took effect on all jobs but those it still has to update
and those it updated, and the latter are as it found them. -/
structure Recovering (i : ι) (now : Time) (rest : List Uuid) (done : List Job)
    (t : Store × Orders ι) : Prop where
  tookEffect : ∀ jobId, jobId ∉ rest → jobId ∉ done.map Job.id →
    TookEffect calls db₀ jobId (i, false) (.ok .done) t
  unordered : ∀ jobId, jobId ∈ rest ∨ jobId ∈ done.map Job.id → Unordered i jobId t.2
  rows : ∀ job ∈ done, t.1.jobs.find job.id = some job ∧ leaseExpired now job = true

variable {calls} {db₀}

omit [DecidableEq ι] in
theorem Recovering.steady {locks : List Lock} (hlocks : ∀ job ∈ done, Lock.job job.id ∈ locks) :
    Steady calls db₀ i locks (Recovering calls db₀ i now rest done) := by
  intro t u hadv hu hp h
  refine ⟨fun jobId hrest hdone => ?_, fun jobId hmem => ?_, fun job hmem => ?_⟩
  · exact hadv.answers (h.tookEffect jobId hrest hdone)
  · exact (h.unordered jobId hmem).advanced hadv
  · obtain ⟨hjob, hguard⟩ := h.rows job hmem
    exact ⟨Eq.trans (hp _ (hlocks job hmem)) hjob, hguard⟩

omit [DecidableEq ι] in
theorem mem_recoveredLocks {job : Job} (h : job ∈ done) :
    Lock.job job.id ∈ recoveredLocks now defaults done :=
  List.mem_flatMap.mpr ⟨job, h, List.mem_append_left _ mem_jobLocks⟩

section

omit [DecidableEq ι]

variable (hcall : calls i = .recover now defaults) (hdrawn : DrawnApart calls db₀)
  (hx : Ordered calls db₀ x) (h : Recovering calls db₀ i now rest done x)
  (hnodup : (done.map Job.id).Nodup)

include hcall

theorem Recovering.inserts (jobId : Uuid) : (calls i).Inserts jobId (defaults jobId).id := by
  rw [hcall]
  exact rfl

include hdrawn hx

theorem Recovering.apart {a b : Uuid} {job other : Job} (ha : x.1.jobs.find a = some job)
    (hb : x.1.jobs.find b = some other) (hab : (defaults a).id = (defaults b).id) : a = b :=
  (hdrawn.events i i a b _ ⟨hx.stored ha, Recovering.inserts hcall a⟩
    ⟨hx.stored hb, hab ▸ Recovering.inserts hcall b⟩).2

include h hnodup

theorem Recovering.moves : Moves x.1 ((done.map Job.id).map fun id => .recovered id now (defaults id))
    (postgres.writes (recoveredWrites now defaults done) x.1) := by
  apply moves_recovered hnodup h.rows
  · intro job hmem
    exact hx.event_free hdrawn (h.rows job hmem).1 (Recovering.inserts hcall job.id)
      (h.unordered job.id (.inr (List.mem_map_of_mem hmem)))
  · intro job hmem other ho
    exact Recovering.apart hcall hdrawn hx (h.rows job hmem).1 (h.rows other ho).1

/-- The transaction sees the other jobs as they are stored. -/
theorem Recovering.find_job (hnot : jobId ∉ done.map Job.id) :
    (postgres.writes (recoveredWrites now defaults done) x.1).jobs.find jobId =
      x.1.jobs.find jobId := by
  have hids : ((done.map Job.id).map fun id => Move.recovered id now (defaults id)).map Move.jobId =
      done.map Job.id := by
    rw [List.map_map]
    exact List.map_id _
  rcases (h.moves hcall hdrawn hx hnodup).at hx.consistent (hids.symm ▸ hnodup) jobId with
    ⟨-, hsame⟩ | ⟨m, hm, hid, -⟩
  · exact hsame.job
  · rw [hids.symm] at hnot
    exact absurd (hid ▸ List.mem_map_of_mem hm) hnot

theorem Recovering.find_event {job : Job} (hjob : x.1.jobs.find jobId = some job)
    (hrest : jobId ∈ rest) (hnot : jobId ∉ done.map Job.id) :
    (postgres.writes (recoveredWrites now defaults done) x.1).outboxEvents.find
      (defaults jobId).id = none := by
  refine (h.moves hcall hdrawn hx hnodup).undrawn ?_ fun m hm event hevent he => hnot ?_
  · exact hx.event_free hdrawn hjob (Recovering.inserts hcall jobId)
      (h.unordered jobId (.inl hrest))
  · obtain ⟨id, hid, rfl⟩ := List.mem_map.mp hm
    cases hevent
    obtain ⟨other, ho, rfl⟩ := List.mem_map.mp hid
    rw [← Recovering.apart hcall hdrawn hx (h.rows other ho).1 hjob he]
    exact hid

end

theorem recoveredWrites_concat (job : Job) :
    recoveredWrites now defaults (done ++ [job]) = recoveredWrites now defaults done ++
      [.job (job.recover now)] ++
      [.outboxEvent (tenantValidationRequested job.id now (defaults job.id))] := by
  simp [recoveredWrites]

theorem recoveredLocks_concat (job : Job) :
    recoveredLocks now defaults (done ++ [job]) = recoveredLocks now defaults done ++
      jobLocks (job.recover now) ++ [.outboxEvent (defaults job.id).id] := by
  simp [recoveredLocks]

omit [DecidableEq ι] in
theorem callEffect_recover (hcall : calls i = .recover now defaults) (rejected : Bool)
    (rows : JobRows) :
    callEffect calls jobId (i, rejected) rows = recoverEffect jobId now defaults rows := by
  unfold callEffect
  rw [hcall]
  rfl

omit [DecidableEq ι] in
/-- The locks of a recovery are on rows of the jobs that it updated. -/
theorem Recovering.own (h : Recovering calls db₀ i now rest done x)
    (hcall : calls i = .recover now defaults) :
    Owns (calls i) x.1 (recoveredLocks now defaults done) := by
  intro k hk
  obtain ⟨job, hmem, hpart⟩ := List.mem_flatMap.mp hk
  have hon : (calls i).On job.id := hcall ▸ trivial
  have hevent : Owns (calls i) x.1 [.outboxEvent (defaults job.id).id] := by
    intro k hk
    rw [List.mem_singleton.mp hk, hcall]
    exact ⟨job.id, rfl⟩
  have hown := (owns_jobLocks (job.recover now) hon (h.rows job hmem).1 rfl rfl).append hevent
  exact (hown k hpart).mono fun k hk => List.mem_flatMap.mpr ⟨job, hmem, hk⟩

omit [DecidableEq ι] in
theorem Recovering.unindexed {microsoftTenantId : Option JsString} :
    Lock.activeTenant microsoftTenantId ∉ recoveredLocks now defaults done := by
  intro hk
  obtain ⟨job, -, hk⟩ := List.mem_flatMap.mp hk
  rcases List.mem_append.mp hk with hk | hk
  · exact activeTenant_not_mem_jobLocks hk
  · cases List.mem_singleton.mp hk

omit [DecidableEq ι] in
/-- A job of the rest was recovered by another call. -/
theorem Recovering.skip {id : Uuid} (h : Recovering calls db₀ i now (id :: rest) done x)
    (hx : Ordered calls db₀ x) (hcall : calls i = .recover now defaults)
    (hfilter : (x.1.rowsOf id).job.filter (leaseExpired now) = none)
    (hrest : id ∉ rest) (hdone : id ∉ done.map Job.id) :
    Recovering calls db₀ i now rest done (x.1, record x.2 (· = id) (i, false)) where
  tookEffect jobId hnot hnot' := by
    by_cases hid : jobId = id
    · subst hid
      refine hx.takes _ (· = jobId) _ rfl ?_
      rw [callEffect_recover hcall, recoverEffect_of_none hfilter]
    · refine (h.tookEffect jobId (fun hmem => ?_) hnot').elsewhere _ (· = id) _ hid
      rcases List.mem_cons.mp hmem with he | hmem
      · exact hid he
      · exact hnot hmem
  unordered jobId hmem := by
    have hid : ¬ jobId = id := by
      rintro rfl
      rcases hmem with hmem | hmem
      · exact hrest hmem
      · exact hdone hmem
    exact (h.unordered jobId (hmem.imp_left (List.mem_cons_of_mem id))).elsewhere (· = id) _ hid
  rows := h.rows

omit [DecidableEq ι] in
/-- A job of the rest was updated. -/
theorem Recovering.update {job : Job} (h : Recovering calls db₀ i now (job.id :: rest) done x)
    (hjob : x.1.jobs.find job.id = some job) (hguard : leaseExpired now job = true) :
    Recovering calls db₀ i now rest (done ++ [job]) x := by
  have hids : (done ++ [job]).map Job.id = done.map Job.id ++ [job.id] := List.map_append
  refine ⟨fun jobId hrest hdone => ?_, fun jobId hmem => ?_, fun other ho => ?_⟩
  · rw [hids, List.mem_append, not_or, List.mem_singleton] at hdone
    refine h.tookEffect jobId (fun hmem => ?_) hdone.1
    rcases List.mem_cons.mp hmem with he | hmem
    · exact hdone.2 he
    · exact hrest hmem
  · apply h.unordered
    rw [hids, List.mem_append, List.mem_singleton] at hmem
    rw [List.mem_cons]
    rcases hmem with hmem | hmem | hmem
    · exact .inl (.inr hmem)
    · exact .inr hmem
    · exact .inl (.inl hmem)
  · rcases List.mem_append.mp ho with ho | ho
    · exact h.rows other ho
    · rw [List.mem_singleton.mp ho]
      exact ⟨hjob, hguard⟩

/-- The rest of the loop of a recovery, and its commit. -/
theorem outline_recoverEach (hcall : calls i = .recover now defaults)
    (hdrawn : DrawnApart calls db₀) {n : Nat} (hnodup : (rest ++ done.map Job.id).Nodup)
    (ht : Knows i ⟨true, recoveredWrites now defaults done, recoveredLocks now defaults done⟩ false
      Set.univ (Recovering calls db₀ i now rest done) t) :
    (orderContract calls db₀).Outline postgres.readCommitted i
      (fun _ => Reported calls db₀ i (.ok .done)) (fun _ _ => False)
      (recoverEach now defaults rest n).statements.finish t := by
  induction rest generalizing done n t with
  -- the commit: the jobs that were recovered change now, on the others the call took effect before
  | nil =>
      apply order_commit (fun x => ∀ jobId, TookEffect calls db₀ jobId (i, false) (.ok .done) x) ht
        (Recovering.steady fun _ => mem_recoveredLocks)
      · exact fun t u hadv _ _ h jobId => hadv.answers (h jobId)
      · intro x hx h
        have hmoves := h.moves hcall hdrawn hx hnodup
        have hrows := rowsOf_recovered hx.consistent hnodup hmoves
        refine ⟨h.own hcall, (· ∈ done.map Job.id),
          ⟨hx.consistent.moves hmoves, hx.oneActive.moves hmoves, ?_, ?_, ?_⟩, ?_⟩
        · intro jobId hmem
          refine ⟨h.unordered jobId (.inr hmem), ?_⟩
          rw [hcall]
          exact trivial
        · intro jobId hmem
          rw [callEffect_recover hcall]
          exact (hrows jobId).2 hmem
        · exact fun jobId hnot => (hrows jobId).1 hnot
        · intro jobId
          by_cases hmem : jobId ∈ done.map Job.id
          · refine hx.takes _ (· ∈ done.map Job.id) _ hmem ?_
            rw [callEffect_recover hcall]
            unfold recoverEffect
            split <;> rfl
          · exact (h.tookEffect jobId List.not_mem_nil hmem).elsewhere _ (· ∈ done.map Job.id) _ hmem
      · intro v hv hknows
        exact hknows.reported fun jobId _ => hknows.known jobId
  | cons id rest ih =>
      rw [List.cons_append, List.nodup_cons, List.mem_append, not_or] at hnodup
      have hdone := (List.nodup_append.mp hnodup.2).2.1
      have hon : (calls i).On id := hcall ▸ trivial
      apply order_updateJob (leaseExpired now) (Job.recover now) ht
        (Recovering.steady fun _ => mem_recoveredLocks) (fun _ => rfl) (fun _ => rfl)
        (fun _ => Recovering.unindexed)
      · intro x hx h
        exact ⟨h.own hcall, h.unordered id (.inl List.mem_cons_self), hon,
          hx.consistent.moves (h.moves hcall hdrawn hx hdone),
          h.find_job hcall hdrawn hx hdone hnodup.1.2⟩
      · exact fun _ _ _ _ _ => trivial
      -- the job is not expired any more, and the call takes effect on it without changing it
      · intro x hx h hfilter
        refine ⟨?_, h.skip hx hcall hfilter hnodup.1.1 hnodup.1.2⟩
        rw [callEffect_recover hcall]
        exact congrArg Prod.snd (recoverEffect_of_none hfilter)
      · exact fun v hv hknows => ih hnodup.2 hknows
      · intro v job hv hguard hknows
        have hkey := Store.job_id hknows.known.2
        subst hkey
        apply order_insertOutboxEvent
          (tenantValidationRequested job.id now (defaults job.id)) hknows
        · refine .and (Recovering.steady fun other ho => ?_)
            (.job (List.mem_append_right _ mem_jobLocks))
          exact List.mem_append_left _ (mem_recoveredLocks ho)
        · intro m hm
          rcases List.mem_append.mp hm with hm | hm
          · exact Recovering.unindexed hm
          · exact activeTenant_not_mem_jobLocks hm
        · rw [hcall]
          exact ⟨job.id, rfl⟩
        · rintro x hx ⟨h, hjob⟩
          rw [postgres.writes_append]
          exact ⟨(h.own hcall).append (owns_jobLocks (job.recover now) hon hjob rfl rfl),
            h.find_event hcall hdrawn hx hdone hjob List.mem_cons_self hnodup.1.2,
            job.recover now, Table.find_put_self _ _⟩
        · intro w hw hknows'
          have hupdated := hknows'.know (F := Recovering calls db₀ i now rest (done ++ [job]))
            (hknows'.known.1.update hknows'.known.2 hguard)
          have hids : (done ++ [job]).map Job.id = done.map Job.id ++ [job.id] := List.map_append
          have hnodup' : (rest ++ (done ++ [job]).map Job.id).Nodup := by
            rw [hids, ← List.append_assoc, List.nodup_append]
            refine ⟨hnodup.2, List.nodup_singleton _, fun a ha b hb hab => ?_⟩
            rw [List.mem_singleton.mp hb] at hab
            rcases List.mem_append.mp (hab ▸ ha) with ha | ha
            · exact hnodup.1.1 ha
            · exact hnodup.1.2 ha
          refine ih hnodup' ?_
          rw [recoveredWrites_concat, recoveredLocks_concat]
          exact hupdated

/-- `recoverExpiredTenantValidationJobs` takes effect on every job. -/
theorem outline_recover (hcall : calls i = .recover now defaults) (hdrawn : DrawnApart calls db₀)
    (ht : Knows i .idle false Set.univ (fun t => ∀ jobId, Unordered i jobId t.2) t) :
    (orderContract calls db₀).Outline postgres.readCommitted i
      (fun _ => Reported calls db₀ i (.ok .done)) (fun _ _ => False)
      (recoverExpiredTenantValidationJobs now defaults) t := by
  have hsteady : ∀ locks, Steady calls db₀ i locks fun t => ∀ jobId, Unordered i jobId t.2 :=
    fun locks t u hadv _ _ h jobId => (h jobId).advanced hadv
  apply order_begin ht (hsteady [])
  intro v hv hknows
  apply order_query hknows (hsteady [])
  intro x hx hi r vs ls hexec
  cases hexec
  have heffect : ∀ jobId, jobId ∉ x.1.expiredJobs now →
      recoverEffect jobId now defaults (x.1.rowsOf jobId) = (.ok .done, x.1.rowsOf jobId) := by
    intro jobId hnot
    apply recoverEffect_of_none
    cases hfilter : (x.1.rowsOf jobId).job.filter (leaseExpired now) with
    | none => rfl
    | some job => exact absurd (mem_expiredJobs.mpr ⟨job, filter_find hfilter⟩) hnot
  refine ⟨.nil, .nil, fun _ _ => rfl, (· ∉ x.1.expiredJobs now), false, Set.univ,
    Recovering calls db₀ i now (x.1.expiredJobs now) [], ?_,
    .single rfl rfl (fun _ h => by cases h), ⟨?_, ?_, ?_⟩, fun w hw hknows' => ?_⟩
  · intro jobId hnot
    rw [callEffect_recover hcall]
    exact ⟨hi jobId, hcall ▸ trivial, congrArg Prod.snd (heffect jobId hnot)⟩
  · intro jobId hnot _
    refine hx.takes _ (· ∉ x.1.expiredJobs now) _ hnot ?_
    rw [callEffect_recover hcall]
    exact congrArg Prod.fst (heffect jobId hnot)
  · intro jobId hmem
    refine (hi jobId).elsewhere (· ∉ x.1.expiredJobs now) _ (not_not_intro ?_)
    exact hmem.resolve_right List.not_mem_nil
  · exact fun _ ho => absurd ho List.not_mem_nil
  · have hnodup : (x.1.expiredJobs now ++ ([] : List Job).map Job.id).Nodup := by
      rw [List.map_nil, List.append_nil]
      exact x.1.expiredJobs_nodup now
    exact outline_recoverEach hcall hdrawn hnodup hknows'

end

end InboxSaas.Product
