import InboxSaas.Product.LeaseOutlines

/-!
# The outline of a result

`applyTenantValidationResult` reads a job without a lock and updates it some statements later.  The
update checks the lease again, and a row that has the token is of the attempt that was read
(`Tracks`), so what was computed from the read is right for the row.  The call takes effect with the
read of a job that has no such lease, with the update that finds the lease gone, with its commit, or
with the rollback after a tenant id that no column takes.  Where the index rejects the connection,
all of this happens once more in the second transaction.
-/

namespace InboxSaas.Product

open Reasoning

/-! ## What a result does under a valid lease -/

section

variable {jobId leaseToken : Uuid} {result stored : TenantValidationResult} {now availableAt : Time}
  {defaults : OutboxDefaults} {retry : Bool} {row : Job}

theorem storedResult_success {microsoftTenantId : JsString}
    (h : storedResult (.success microsoftTenantId) = .ok stored) :
    ∃ text, storedText microsoftTenantId = .ok text ∧ stored = .success text := by
  cases htext : storedText microsoftTenantId with
  | error e => cases (storedResult_of_error htext).symm.trans h
  | ok text =>
      cases (storedResult_of_ok htext).symm.trans h
      exact ⟨text, rfl, rfl⟩

/-- Only the tenant id of a success may be no text. -/
theorem storedResult_error {e : JsError} (h : storedResult result = .error e) :
    ∃ microsoftTenantId, result = .success microsoftTenantId ∧
      storedText microsoftTenantId = .error e := by
  cases result with
  | failure => cases h
  | success microsoftTenantId =>
      cases htext : storedText microsoftTenantId with
      | ok text => cases (storedResult_of_ok htext).symm.trans h
      | error e' =>
          cases (storedResult_of_error htext).symm.trans h
          exact ⟨microsoftTenantId, rfl, htext⟩

/-- A result does not change what a job is about. -/
theorem jobUpdate_keeps (result : TenantValidationResult) (retry : Bool) (availableAt : Time)
    (job : Job) : (jobUpdate result retry availableAt job).id = job.id ∧
      (jobUpdate result retry availableAt job).tenantConnectionId = job.tenantConnectionId ∧
      (jobUpdate result retry availableAt job).attemptCount = job.attemptCount := by
  cases result with
  | success => exact ⟨rfl, rfl, rfl⟩
  | failure => cases retry <;> exact ⟨rfl, rfl, rfl⟩

theorem tenantUpdate_id (result : TenantValidationResult) (retry : Bool)
    (connection : TenantConnection) : (tenantUpdate result retry connection).id = connection.id := by
  cases result <;> rfl

/-- An attempt under a lease has a delay for its retry. -/
theorem exists_delay (result : TenantValidationResult) (now : Time) {job : Job}
    (hcount : 1 ≤ job.attemptCount) : ∃ availableAt,
      (if shouldRetry result job then retryAvailableAt job.attemptCount now else .ok now) =
        .ok availableAt := by
  split
  · rename_i hretry
    cases result with
    | success => cases hretry
    | failure code retryable =>
        unfold shouldRetry at hretry
        rw [Bool.and_eq_true, decide_eq_true_iff] at hretry
        exact retryAvailableAt_ok hcount hretry.2 now
  · exact ⟨now, rfl⟩

theorem shouldRetry_congr {job : Job} (h : row.attemptCount = job.attemptCount) :
    shouldRetry result row = shouldRetry result job := by
  unfold shouldRetry
  rw [h]

/-- A retry leaves the connection without a Microsoft tenant. -/
theorem indexed_of_retry {job : Job} (connection : TenantConnection)
    (hstored : storedResult result = .ok stored) (hretry : shouldRetry result job = true) :
    (tenantUpdate stored true connection).indexed = false := by
  cases result with
  | success => cases hretry
  | failure =>
      cases hstored
      rfl

/-- Only a success gives the connection a Microsoft tenant. -/
theorem success_of_indexed {connection : TenantConnection}
    (hstored : storedResult result = .ok stored)
    (h : (tenantUpdate stored retry connection).indexed = true) :
    ∃ microsoftTenantId text, result = .success microsoftTenantId ∧
      storedText microsoftTenantId = .ok text ∧
      (tenantUpdate stored retry connection).microsoftTenantId = some text := by
  cases result with
  | success microsoftTenantId =>
      obtain ⟨text, htext, rfl⟩ := storedResult_success hstored
      exact ⟨microsoftTenantId, text, rfl, htext, rfl⟩
  | failure =>
      cases hstored
      cases retry <;> cases h

/-- Whether and when the job is retried depends on its attempt only. -/
theorem applyEffect_of_lease {rows : JobRows} (hstored : storedResult result = .ok stored)
    (h : rows.job = some row) (hlease : leaseValid leaseToken now row = true)
    (hretry : shouldRetry result row = retry)
    (hdelay : (if retry then retryAvailableAt row.attemptCount now else .ok now) = .ok availableAt) :
    applyEffect jobId leaseToken now false result defaults rows =
      (.ok (.applied (jobUpdate result retry availableAt row)),
        if retry then
          ((rows.putJob (jobUpdate result retry availableAt row)).updateConnection
            (tenantUpdate stored retry)).addEvent
              (tenantValidationRequested jobId availableAt defaults)
        else (rows.putJob (jobUpdate result retry availableAt row)).updateConnection
          (tenantUpdate stored retry)) := by
  cases result with
  | success microsoftTenantId =>
      obtain ⟨text, htext, rfl⟩ := storedResult_success hstored
      subst hretry
      cases hdelay
      rw [applyEffect_of_success h hlease htext]
      rfl
  | failure code retryable =>
      cases hstored
      cases retry with
      | false =>
          cases hdelay
          rw [applyEffect_of_failure h hlease hretry]
          rfl
      | true =>
          unfold shouldRetry at hretry
          rw [Bool.and_eq_true, decide_eq_true_iff] at hretry
          obtain ⟨rfl, hattempts⟩ := hretry
          rw [applyEffect_of_retry h hlease hattempts hdelay]
          rfl

/-- The rows that a result which is not rejected writes. -/
def resultWrites (jobId : Uuid) (result stored : TenantValidationResult) (retry : Bool)
    (availableAt : Time) (defaults : OutboxDefaults) (row : Job) (connection : TenantConnection) :
    List Write :=
  [.job (jobUpdate result retry availableAt row),
    .tenantConnection (tenantUpdate stored retry connection)] ++
      if retry then [.outboxEvent (tenantValidationRequested jobId availableAt defaults)] else []

section

variable {db : Store} {connection : TenantConnection} (hstored : storedResult result = .ok stored)
  (hjob : db.jobs.find jobId = some row) (hlease : leaseValid leaseToken now row = true)
  (hconnection : db.tenantConnections.find row.tenantConnectionId = some connection)
  (hretry : shouldRetry result row = retry)
  (hdelay : (if retry then retryAvailableAt row.attemptCount now else .ok now) = .ok availableAt)
  (hevent : retry = true → db.outboxEvents.find defaults.id = none)

include hstored hjob hlease hconnection hretry hdelay hevent

/-- They are the move of the result. -/
theorem resultWrites_step
    (hindex : (tenantUpdate stored retry connection).indexed = true →
      db.activeElsewhere (tenantUpdate stored retry connection) = false) :
    ∃ m : Move, m.jobId = jobId ∧ m.Step db (postgres.writes
      (resultWrites jobId result stored retry availableAt defaults row connection) db) := by
  cases result with
  | success microsoftTenantId =>
      obtain ⟨text, htext, rfl⟩ := storedResult_success hstored
      subst hretry
      cases hdelay
      exact ⟨.completed jobId leaseToken text now, rfl,
        .completed hjob hlease hconnection (hindex rfl)⟩
  | failure code retryable =>
      cases hstored
      cases retry with
      | false =>
          cases hdelay
          exact ⟨.failed jobId leaseToken (.reported code) retryable now, rfl,
            .failed hjob hlease hconnection⟩
      | true =>
          unfold shouldRetry at hretry
          rw [Bool.and_eq_true, decide_eq_true_iff] at hretry
          obtain ⟨rfl, hattempts⟩ := hretry
          exact ⟨.retried jobId leaseToken code now availableAt defaults, rfl,
            .retried hjob hlease hconnection hattempts hdelay (hevent rfl)⟩

/-- They are what the result means for the rows of the job. -/
theorem resultWrites_effect :
    applyEffect jobId leaseToken now false result defaults (db.rowsOf jobId) =
      (.ok (.applied (jobUpdate result retry availableAt row)),
        (postgres.writes (resultWrites jobId result stored retry availableAt defaults row connection)
          db).rowsOf jobId) := by
  have hkeeps := jobUpdate_keeps result retry availableAt row
  have hrows := rowsOf_update (jobUpdate result retry availableAt row) (tenantUpdate stored retry)
    hjob hkeeps.1 hkeeps.2.1 hconnection (tenantUpdate_id _ _ _)
  rw [applyEffect_of_lease hstored hjob hlease hretry hdelay, ← hrows]
  cases retry with
  | false => rfl
  | true =>
      have hfree : ((db.putJob (jobUpdate result true availableAt row)).putTenantConnection
          (tenantUpdate stored true connection)).outboxEvents.find
            (tenantValidationRequested jobId availableAt defaults).id = none := hevent rfl
      have hevents : (((db.putJob (jobUpdate result true availableAt row)).putTenantConnection
          (tenantUpdate stored true connection)).putOutboxEvent
            (tenantValidationRequested jobId availableAt defaults)).rowsOf jobId = _ :=
        rowsOf_putOutboxEvent hfree rfl
      rw [if_pos rfl, ← hevents]
      rfl

end

end

/-! ## The statements of both transactions -/

section

variable {ι : Type} (calls : ι → Call)

/-- The call read `job` under its token, and has not taken effect. -/
structure Leased (i : ι) (jobId leaseToken : Uuid) (job : Job) (t : Store × Orders ι) : Prop where
  unordered : Unordered i jobId t.2
  tracks : Tracks calls jobId leaseToken job t

variable {calls} {db₀ : Store} {i : ι} {jobId leaseToken : Uuid} {job row : Job}
  {result stored : TenantValidationResult} {now : Time} {defaults : OutboxDefaults}
  {rejected : Bool} {attempts : Set Nat} {K : Store × Orders ι → Prop}
  {t : Database ι × Orders ι} {x : Store × Orders ι}

theorem Leased.steady {locks : List Lock} :
    Steady calls db₀ i locks (Leased calls i jobId leaseToken job) :=
  fun _ _ hadv hu _ h => ⟨h.unordered.advanced hadv, h.tracks.advanced hadv hu⟩

theorem callEffect_apply (hcall : calls i = .apply jobId leaseToken result now defaults)
    (rows : JobRows) : callEffect calls jobId (i, rejected) rows =
      applyEffect jobId leaseToken now rejected result defaults rows := by
  unfold callEffect
  rw [hcall]
  rfl

theorem on_apply (hcall : calls i = .apply jobId leaseToken result now defaults) :
    (calls i).On jobId := by
  rw [hcall]
  exact rfl

theorem eq_of_on_apply (hcall : calls i = .apply jobId leaseToken result now defaults) {id : Uuid}
    (h : (calls i).On id) : id = jobId := by
  rw [hcall] at h
  exact Eq.symm h

/-- Who has not taken effect on its job has not taken effect. -/
theorem Ordered.unordered (hx : Ordered calls db₀ x)
    (hcall : calls i = .apply jobId leaseToken result now defaults) (h : Unordered i jobId x.2)
    (id : Uuid) : Unordered i id x.2 := by
  intro hmem
  obtain ⟨e, he, hei⟩ := List.mem_map.mp hmem
  have hon := hx.on id e he
  rw [hei] at hon
  rw [eq_of_on_apply hcall hon] at hmem
  exact h hmem

theorem Knows.applied (hcall : calls i = .apply jobId leaseToken result now defaults)
    {report : Except JsError Report}
    (h : Knows i .idle rejected attempts (TookEffect calls db₀ jobId (i, rejected) report) t) :
    Reported calls db₀ i report t :=
  h.reported fun _ hid => eq_of_on_apply hcall hid ▸ h.known

variable [DecidableEq ι] {fail : JsError → Database ι × Orders ι → Prop}
  {post : ApplyTenantValidationResult → Database ι × Orders ι → Prop}

/-- The read of the job.  Without the lease the call takes effect with it. -/
theorem order_selectJob {f : Option Job → TransactionProgram ApplyTenantValidationResult}
    (hcall : calls i = .apply jobId leaseToken result now defaults) (hdrawn : DrawnApart calls db₀)
    (ht : Knows i ⟨true, [], []⟩ rejected attempts K t) (hK : Steady calls db₀ i [] K)
    (hunordered : ∀ x, K x → Unordered i jobId x.2)
    (hattempts : ∀ x job, K x → x.1.jobs.find jobId = some job →
      leaseValid leaseToken now job = true → job.attemptCount ∈ attempts)
    (hnone : ∀ v : Database ι × Orders ι, Linearized calls db₀ v.1 v.2 →
      Knows i ⟨true, [], []⟩ rejected ∅
        (TookEffect calls db₀ jobId (i, rejected) (.ok .notFound)) v →
      (orderContract calls db₀).Outline postgres.readCommitted i post fail
        (f none).statements.finish v)
    (hstale : ∀ (v : Database ι × Orders ι) job, Linearized calls db₀ v.1 v.2 →
      leaseValid leaseToken now job = false →
      Knows i ⟨true, [], []⟩ rejected ∅
        (TookEffect calls db₀ jobId (i, rejected) (.ok .stale)) v →
      (orderContract calls db₀).Outline postgres.readCommitted i post fail
        (f (some job)).statements.finish v)
    (hlease : ∀ (v : Database ι × Orders ι) job, Linearized calls db₀ v.1 v.2 →
      leaseValid leaseToken now job = true → job.id = jobId → 1 ≤ job.attemptCount →
      Knows i ⟨true, [], []⟩ rejected {job.attemptCount} (Leased calls i jobId leaseToken job) v →
      (orderContract calls db₀).Outline postgres.readCommitted i post fail
        (f (some job)).statements.finish v) :
    (orderContract calls db₀).Outline postgres.readCommitted i post fail
      (query (.selectJob jobId) >>= f).statements.finish t := by
  apply order_query ht hK
  intro x hx hKx r vs ls hexec
  have hreply : exec Store.activeElsewhere (.selectJob jobId) x.1 =
      (.ok (x.1.jobs.find jobId), [], []) := rfl
  have hi := hunordered x hKx
  have hon := on_apply hcall
  have htakes : ∀ {r : Report}, applyEffect jobId leaseToken now rejected result defaults
      (x.1.rowsOf jobId) = (.ok r, x.1.rowsOf jobId) →
      (∀ id, id = jobId → Unordered i id x.2 ∧ (calls i).On id ∧
        (callEffect calls id (i, rejected) (x.1.rowsOf id)).2 = x.1.rowsOf id) ∧
      TookEffect calls db₀ jobId (i, rejected) (.ok r)
        (x.1, record x.2 (· = jobId) (i, rejected)) := by
    intro r heffect
    rw [← callEffect_apply hcall] at heffect
    refine ⟨?_, hx.takes x.1 (· = jobId) _ rfl (congrArg Prod.fst heffect)⟩
    rintro _ rfl
    exact ⟨hi, hon, congrArg Prod.snd heffect⟩
  cases hfind : x.1.jobs.find jobId with
  -- without the job, or without the lease, the call takes effect here; with it, at its commit
  | none =>
      rw [hfind] at hreply
      cases hreply.symm.trans hexec
      obtain ⟨hunchanged, htook⟩ := htakes (applyEffect_of_none hfind)
      exact ⟨.nil, .nil, fun _ _ => rfl, (· = jobId), rejected, ∅, _, hunchanged,
        .answer rfl (Set.empty_subset _) (fun _ hn => by cases hn) (fun _ hn => by cases hn), htook,
        fun v hv hknows => hnone v hv hknows⟩
  | some job =>
      rw [hfind] at hreply
      cases hreply.symm.trans hexec
      have hread : ∀ {attempts' : Set Nat}, attempts' ⊆ attempts → attempts' ⊆ {job.attemptCount} →
          Logs calls i x rejected attempts [⟨.selectJob jobId, .ok (some job)⟩] rejected attempts' := by
        intro attempts' hsubset hsingle
        refine .answer rfl hsubset (fun n hn => ?_) (fun _ hn => by cases hn)
        rwa [← Option.some.inj hn]
      cases hvalid : leaseValid leaseToken now job with
      | false =>
          obtain ⟨hunchanged, htook⟩ := htakes (applyEffect_of_stale hfind hvalid)
          exact ⟨.nil, .nil, fun _ _ => rfl, (· = jobId), rejected, ∅, _, hunchanged,
            hread (Set.empty_subset _) (Set.empty_subset _), htook,
            fun v hv hknows => hstale v job hv hvalid hknows⟩
      | true =>
          obtain ⟨connection, -, hagrees⟩ := hx.consistent.connection hfind
          refine ⟨.nil, .nil, fun _ _ => rfl, fun _ => False, rejected, {job.attemptCount},
            Leased calls i jobId leaseToken job, fun _ h => absurd h not_false, hread ?_ subset_rfl,
            ?_, fun v hv hknows => ?_⟩
          · exact Set.singleton_subset_iff.mpr (hattempts x job hKx hfind hvalid)
          · rw [record_none]
            exact ⟨hi, hx.tracks hdrawn hfind (leaseValid_token hvalid)⟩
          · exact hlease v job hv hvalid (Store.job_id hfind)
              (hagrees.running (leaseValid_running hvalid)).2.2 hknows

/-- The read of the job's connection. -/
theorem order_selectTenantConnection {f : Option TenantConnection →
      TransactionProgram ApplyTenantValidationResult}
    (ht : Knows i ⟨true, [], []⟩ rejected attempts (Leased calls i jobId leaseToken job) t)
    (hsome : ∀ (v : Database ι × Orders ι) connection, Linearized calls db₀ v.1 v.2 →
      connection.id = job.tenantConnectionId →
      Knows i ⟨true, [], []⟩ rejected attempts (Leased calls i jobId leaseToken job) v →
      (orderContract calls db₀).Outline postgres.readCommitted i post fail
        (f (some connection)).statements.finish v) :
    (orderContract calls db₀).Outline postgres.readCommitted i post fail
      (query (.selectTenantConnection job.tenantConnectionId) >>= f).statements.finish t := by
  apply order_query ht Leased.steady
  intro x hx h r vs ls hexec
  obtain ⟨current, hcurrent, htc, -⟩ := h.tracks.current
  obtain ⟨connection, hconnection, -⟩ := hx.consistent.connection hcurrent
  rw [htc] at hconnection
  have hreply : exec Store.activeElsewhere (.selectTenantConnection job.tenantConnectionId) x.1 =
      (.ok (some connection), [], []) := by rw [exec, hconnection]
  cases hreply.symm.trans hexec
  refine ⟨.nil, .nil, fun _ _ => rfl, fun _ => False, rejected, attempts,
    Leased calls i jobId leaseToken job, fun _ h => absurd h not_false,
    .single rfl rfl (fun _ hn => by cases hn), ?_, fun v hv hknows => ?_⟩
  · rw [record_none]
    exact h
  · exact hsome v connection hv (Store.tenantConnection_id hconnection) hknows

omit [DecidableEq ι] in
/-- The lock of a later version of the job. -/
theorem Leased.ownsJob {job' : Job} (h : Leased calls i jobId leaseToken job x)
    (hcall : calls i = .apply jobId leaseToken result now defaults) (hid : job'.id = jobId)
    (htc : job'.tenantConnectionId = job.tenantConnectionId) :
    Owns (calls i) x.1 (jobLocks job') := by
  obtain ⟨current, hcurrent, hkey, -⟩ := h.tracks.current
  exact owns_jobLocks job' (on_apply hcall) hcurrent (hid.trans (Store.job_id hcurrent).symm)
    (htc.trans hkey.symm)

omit [DecidableEq ι] in
/-- The locks of later versions of the job and its connection. -/
theorem Leased.owns {job' : Job} {connection : TenantConnection}
    (h : Leased calls i jobId leaseToken job x)
    (hcall : calls i = .apply jobId leaseToken result now defaults) (hid : job'.id = jobId)
    (htc : job'.tenantConnectionId = job.tenantConnectionId)
    (hcid : connection.id = job.tenantConnectionId) :
    Owns (calls i) x.1 (jobLocks job' ++ tenantConnectionLocks connection) := by
  obtain ⟨current, hcurrent, hkey, -⟩ := h.tracks.current
  intro k hk
  rcases List.mem_append.mp hk with hk | hk
  · exact (h.ownsJob hcall hid htc k hk).mono fun _ => List.mem_append_left _
  · rcases mem_tenantConnectionLocks.mp hk with rfl | ⟨-, rfl⟩
    · have hlock : .job jobId ∈ jobLocks job' := hid ▸ mem_jobLocks
      exact ⟨jobId, current, on_apply hcall, List.mem_append_left _ hlock, hcurrent,
        hkey.trans hcid.symm⟩
    · exact trivial

variable (calls) in
/-- The call updates the job `row`, and its connection from `connection` to `connection'`. -/
structure Settling (i : ι) (jobId leaseToken : Uuid) (job row : Job)
    (connection connection' : TenantConnection) (t : Store × Orders ι) : Prop
    extends Leased calls i jobId leaseToken job t where
  stored : t.1.jobs.find jobId = some row
  connected : t.1.tenantConnections.find row.tenantConnectionId = some connection
  index : connection'.indexed = true → t.1.activeElsewhere connection' = false

omit [DecidableEq ι] in
theorem Settling.steady {job' : Job} {connection connection' : TenantConnection}
    {locks : List Lock} (hid : job'.id = jobId) (hcid : connection'.id = row.tenantConnectionId)
    (hlocks : ∀ k ∈ jobLocks job' ++ tenantConnectionLocks connection', k ∈ locks) :
    Steady calls db₀ i locks (Settling calls i jobId leaseToken job row connection connection') := by
  have hjob : .job jobId ∈ locks := hlocks _ (List.mem_append_left _ (hid ▸ mem_jobLocks))
  have hconnection : .tenantConnection row.tenantConnectionId ∈ locks := by
    apply hlocks _ (List.mem_append_right _ ?_)
    exact mem_tenantConnectionLocks.mpr (.inl (congrArg Lock.tenantConnection hcid.symm))
  intro t u hadv hu hp h
  refine ⟨Leased.steady t u hadv hu hp h.toLeased, ?_, ?_, fun hi => ?_⟩
  · exact Steady.job hjob t u hadv hu hp h.stored
  · exact Steady.connection hconnection t u hadv hu hp h.connected
  · refine Steady.index (hlocks _ (List.mem_append_right _ ?_)) t u hadv hu hp (h.index hi)
    exact mem_tenantConnectionLocks.mpr (.inr ⟨hi, rfl⟩)

/-- The update of the connection, after that of the job.  The index may reject it. -/
theorem order_updateTenantConnection {job' : Job} (set : TenantConnection → TenantConnection)
    {f : Option TenantConnection → TransactionProgram ApplyTenantValidationResult}
    (hcall : calls i = .apply jobId leaseToken result now defaults)
    (ht : Knows i ⟨true, [.job job'], jobLocks job'⟩ rejected attempts
      (fun t => Leased calls i jobId leaseToken job t ∧ t.1.jobs.find jobId = some row) t)
    (hid : job'.id = jobId) (htc : job'.tenantConnectionId = job.tenantConnectionId)
    (hrow : row.tenantConnectionId = job.tenantConnectionId)
    (hset : ∀ connection, (set connection).id = connection.id)
    (hfound : ∀ connection, (set connection).indexed = true → ∃ microsoftTenantId text,
      result = .success microsoftTenantId ∧ storedText microsoftTenantId = .ok text ∧
      (set connection).microsoftTenantId = some text)
    (hrejected : ∀ (v : Database ι × Orders ι) connection, Linearized calls db₀ v.1 v.2 →
      (set connection).indexed = true → (set connection).id = job.tenantConnectionId →
      Knows i ⟨true, [.job job'], jobLocks job' ++ tenantConnectionLocks (set connection)⟩ true
        attempts (Leased calls i jobId leaseToken job) v →
      (orderContract calls db₀).Outline postgres.readCommitted i post fail
        (Program.raise uniqueViolation : TransactionProgram _).statements.finish v)
    (hsome : ∀ (v : Database ι × Orders ι) connection, Linearized calls db₀ v.1 v.2 →
      (set connection).id = job.tenantConnectionId →
      Knows i ⟨true, [.job job', .tenantConnection (set connection)],
        jobLocks job' ++ tenantConnectionLocks (set connection)⟩ rejected attempts
        (Settling calls i jobId leaseToken job row connection (set connection)) v →
      (orderContract calls db₀).Outline postgres.readCommitted i post fail
        (f (some (set connection))).statements.finish v) :
    (orderContract calls db₀).Outline postgres.readCommitted i post fail
      (query (.updateTenantConnection job.tenantConnectionId set) >>= f).statements.finish t := by
  have hjobId : .job jobId ∈ jobLocks job' := hid ▸ mem_jobLocks
  apply order_query ht (.and Leased.steady (.job hjobId))
  rintro x hx ⟨h, hstored⟩ r vs ls hexec
  obtain ⟨connection, hconnection, -⟩ := hx.consistent.connection hstored
  rw [hrow] at hconnection
  have hcid : (set connection).id = job.tenantConnectionId :=
    (hset connection).trans (Store.tenantConnection_id hconnection)
  have hjobLocks := h.ownsJob hcall hid htc
  have hown := h.owns hcall hid htc hcid
  have hreply := exec_updateTenantConnection_current Store.activeElsewhere job' set hset hconnection
  -- the index entry is asked for last: no lock is taken after that of a tenant
  have hlast : ∀ (ls : List Lock) microsoftTenantId,
      Lock.activeTenant microsoftTenantId ∈ jobLocks job' → ls = [] :=
    fun _ _ hm => absurd hm activeTenant_not_mem_jobLocks
  split at hreply
  · rename_i hindex
    rw [Bool.and_eq_true] at hindex
    cases hreply.symm.trans hexec
    obtain ⟨microsoftTenantId, text, rfl, htext, hm⟩ := hfound connection hindex.1
    refine ⟨hjobLocks, hown, hlast _, fun _ => False, true, attempts,
      Leased calls i jobId leaseToken job, fun _ h => absurd h not_false, ?_, ?_, fun v hv hknows => ?_⟩
    · constructor
      · simp [rejection]
      · exact fun _ => hx.unordered hcall h.unordered
      · obtain ⟨other, hother, hi, htenant⟩ := mem_of_activeElsewhere hindex.2
        exact fun _ => ⟨jobId, leaseToken, microsoftTenantId, text, now, defaults, hcall, htext, other,
          hother, hi, htenant.trans hm⟩
      · exact subset_rfl
      · exact fun a ha n hn => by cases List.mem_singleton.mp ha ▸ hn
      · exact fun a ha n hn => by cases List.mem_singleton.mp ha ▸ hn
    · rw [record_none]
      exact h
    · rw [List.append_nil] at hknows
      exact hrejected v connection hv hindex.1 hcid hknows
  · rename_i hindex
    rw [Bool.and_eq_true, not_and, Bool.not_eq_true] at hindex
    cases hreply.symm.trans hexec
    refine ⟨hjobLocks, hown, hlast _, fun _ => False, rejected, attempts,
      Settling calls i jobId leaseToken job row connection (set connection),
      fun _ h => absurd h not_false, .single rfl rfl (fun _ hn => by cases hn), ?_,
      fun v hv hknows => ?_⟩
    · rw [record_none]
      exact ⟨h, hstored, hrow ▸ hconnection, hindex⟩
    · exact hsome v connection hv hcid hknows

/-- The commit of rewritten rows. -/
theorem order_settle {ws : List Write} {ks : List Lock} {connection connection' : TenantConnection}
    {dto : TenantConnectionDto} {job' : Job}
    (hcall : calls i = .apply jobId leaseToken result now defaults)
    (ht : Knows i ⟨true, ws, ks⟩ rejected attempts
      (Settling calls i jobId leaseToken job row connection connection') t)
    (hid : job'.id = jobId) (hcid : connection'.id = row.tenantConnectionId)
    (hlocks : ∀ k ∈ jobLocks job' ++ tenantConnectionLocks connection', k ∈ ks)
    (hown : ∀ x, Settling calls i jobId leaseToken job row connection connection' x →
      Owns (calls i) x.1 ks)
    (hstep : ∀ x, Ordered calls db₀ x →
      Settling calls i jobId leaseToken job row connection connection' x →
      (∃ m : Move, m.jobId = jobId ∧ m.Step x.1 (postgres.writes ws x.1)) ∧
      applyEffect jobId leaseToken now rejected result defaults (x.1.rowsOf jobId) =
        (.ok (.applied job'), (postgres.writes ws x.1).rowsOf jobId)) :
    (orderContract calls db₀).Outline postgres.readCommitted i
      (fun a => Reported calls db₀ i
        (.ok ((Call.apply jobId leaseToken result now defaults).report a))) fail
      (Program.ret (.applied dto job' false) : TransactionProgram _).statements.finish t := by
  apply order_commit (TookEffect calls db₀ jobId (i, rejected) (.ok (.applied job'))) ht
    (Settling.steady hid hcid hlocks) .tookEffect
  · intro x hx h
    obtain ⟨⟨m, hm, hmove⟩, heffect⟩ := hstep x hx h
    rw [← callEffect_apply hcall] at heffect
    subst hm
    refine ⟨hown x h, (· = m.jobId), .move hx hmove h.unordered (on_apply hcall) ?_, ?_⟩
    · exact (congrArg Prod.snd heffect).symm
    · exact hx.takes _ (· = m.jobId) _ rfl (congrArg Prod.fst heffect)
  · exact fun v hv hknows => hknows.applied hcall

/-- A transaction that changed nothing returns. -/
theorem order_answered {a : ApplyTenantValidationResult}
    (hcall : calls i = .apply jobId leaseToken result now defaults)
    (ht : Knows i ⟨true, [], []⟩ rejected attempts (TookEffect calls db₀ jobId (i, rejected)
      (.ok ((Call.apply jobId leaseToken result now defaults).report a))) t) :
    (orderContract calls db₀).Outline postgres.readCommitted i
      (fun a => Reported calls db₀ i
        (.ok ((Call.apply jobId leaseToken result now defaults).report a))) fail
      (Program.ret a : TransactionProgram _).statements.finish t := by
  apply order_return ht .tookEffect
  · exact fun _ _ => .nil
  · exact fun v hv hknows => hknows.applied hcall

/-- The guarded update of the job that was read.  Where the lease is gone the call takes effect with
it; else the row is of the attempt that was read. -/
theorem order_updateLeased {f : Option Job → TransactionProgram ApplyTenantValidationResult}
    (set : Job → Job) (hcall : calls i = .apply jobId leaseToken result now defaults)
    (ht : Knows i ⟨true, [], []⟩ rejected {job.attemptCount}
      (Leased calls i jobId leaseToken job) t)
    (hset : ∀ row, (set row).id = row.id ∧ (set row).tenantConnectionId = row.tenantConnectionId ∧
      (set row).attemptCount = row.attemptCount)
    (hnone : f none = .ret .stale)
    (hsome : ∀ (v : Database ι × Orders ι) row, Linearized calls db₀ v.1 v.2 →
      leaseValid leaseToken now row = true → row.id = jobId →
      row.tenantConnectionId = job.tenantConnectionId → row.attemptCount = job.attemptCount →
      Knows i ⟨true, [.job (set row)], jobLocks (set row)⟩ rejected {job.attemptCount}
        (fun t => Leased calls i jobId leaseToken job t ∧ t.1.jobs.find jobId = some row) v →
      (orderContract calls db₀).Outline postgres.readCommitted i
        (fun a => Reported calls db₀ i
          (.ok ((Call.apply jobId leaseToken result now defaults).report a))) fail
        (f (some (set row))).statements.finish v) :
    (orderContract calls db₀).Outline postgres.readCommitted i
      (fun a => Reported calls db₀ i
        (.ok ((Call.apply jobId leaseToken result now defaults).report a))) fail
      (query (.updateJob jobId (leaseValid leaseToken now) set) >>= f).statements.finish t := by
  -- the row may have been renewed since it was read, but under one token it is one attempt
  have hrow : ∀ (x : Store × Orders ι) row, Leased calls i jobId leaseToken job x →
      x.1.jobs.find jobId = some row → leaseValid leaseToken now row = true →
      row.tenantConnectionId = job.tenantConnectionId ∧ row.attemptCount = job.attemptCount := by
    intro x row h hstored hvalid
    obtain ⟨current, hcurrent, htc, hcount⟩ := h.tracks.current
    cases hstored.symm.trans hcurrent
    exact ⟨htc, hcount (leaseValid_token hvalid)⟩
  apply order_updateJob (leaseValid leaseToken now) set ht Leased.steady
    (fun row => (hset row).1) (fun row => (hset row).2.1) (fun _ => List.not_mem_nil)
  · exact fun x hx h => ⟨.nil, h.unordered, on_apply hcall,
      hx.consistent, rfl⟩
  · intro x row h hstored hvalid
    exact Set.mem_singleton_iff.mpr ((hset row).2.2.trans (hrow x row h hstored hvalid).2)
  · intro x hx h hfilter
    -- the lease was lost since the read: the call takes effect without changing the job
    obtain ⟨current, hcurrent, -⟩ := h.tracks.current
    have hvalid : leaseValid leaseToken now current = false := by
      rw [hcurrent] at hfilter
      exact Bool.eq_false_iff.mpr (Option.filter_eq_none_iff.mp hfilter current rfl)
    have heffect : callEffect calls jobId (i, rejected) (x.1.rowsOf jobId) =
        (.ok .stale, x.1.rowsOf jobId) := by
      rw [callEffect_apply hcall]
      exact applyEffect_of_stale hcurrent hvalid
    have htook : TookEffect calls db₀ jobId (i, rejected) (.ok .stale)
        (x.1, record x.2 (· = jobId) (i, rejected)) :=
      hx.takes x.1 (· = jobId) _ rfl (congrArg Prod.fst heffect)
    exact ⟨congrArg Prod.snd heffect, htook⟩
  · intro v hv hknows
    rw [hnone]
    exact order_answered hcall hknows
  · intro v row hv hvalid hknows
    obtain ⟨htc, hcount⟩ := hrow _ row hknows.known.1 hknows.known.2 hvalid
    exact hsome v row hv hvalid (Store.job_id hknows.known.2) htc hcount hknows

omit [DecidableEq ι] in
/-- The id of the event of a retry. -/
theorem inserts_of_retry (hcall : calls i = .apply jobId leaseToken result now defaults)
    (hretry : shouldRetry result row = true) : (calls i).Inserts jobId defaults.id := by
  rw [hcall]
  cases result with
  | success => cases hretry
  | failure code retryable =>
      unfold shouldRetry at hretry
      rw [Bool.and_eq_true] at hretry
      obtain ⟨rfl, -⟩ := hretry
      exact ⟨rfl, ⟨code, rfl⟩, rfl⟩

/-- The commit of a result that was not rejected. -/
theorem order_settleResult {ks : List Lock} {connection : TenantConnection}
    {dto : TenantConnectionDto} {retry : Bool} {availableAt : Time}
    (hcall : calls i = .apply jobId leaseToken result now defaults) (hdrawn : DrawnApart calls db₀)
    (ht : Knows i
      ⟨true, resultWrites jobId result stored retry availableAt defaults row connection, ks⟩
      false attempts (Settling calls i jobId leaseToken job row connection
        (tenantUpdate stored retry connection)) t)
    (hstored : storedResult result = .ok stored) (hvalid : leaseValid leaseToken now row = true)
    (hid : row.id = jobId) (hcid : connection.id = row.tenantConnectionId)
    (hretry : shouldRetry result row = retry)
    (hdelay : (if retry then retryAvailableAt row.attemptCount now else .ok now) = .ok availableAt)
    (hlocks : ∀ k ∈ jobLocks (jobUpdate result retry availableAt row) ++
      tenantConnectionLocks (tenantUpdate stored retry connection), k ∈ ks)
    (hown : ∀ x, Settling calls i jobId leaseToken job row connection
      (tenantUpdate stored retry connection) x → Owns (calls i) x.1 ks) :
    (orderContract calls db₀).Outline postgres.readCommitted i
      (fun a => Reported calls db₀ i
        (.ok ((Call.apply jobId leaseToken result now defaults).report a))) fail
      (Program.ret (.applied dto (jobUpdate result retry availableAt row) false) :
        TransactionProgram _).statements.finish t := by
  apply order_settle hcall ht ((jobUpdate_keeps _ _ _ _).1.trans hid)
    ((tenantUpdate_id _ _ _).trans hcid) hlocks hown
  intro x hx h
  have hevent : retry = true → x.1.outboxEvents.find defaults.id = none := fun hr =>
    hx.event_free hdrawn h.stored (inserts_of_retry hcall (hretry.trans hr)) h.unordered
  exact ⟨resultWrites_step hstored h.stored hvalid h.connected hretry hdelay hevent h.index,
    resultWrites_effect hstored h.stored hvalid h.connected hretry hdelay hevent⟩

/-- The rollback after a tenant id that no column takes: the call takes effect with it. -/
theorem order_refused {job' : Job} {e : JsError}
    (hcall : calls i = .apply jobId leaseToken result now defaults)
    (ht : Knows i ⟨true, [.job job'], jobLocks job'⟩ rejected attempts
      (fun t => Leased calls i jobId leaseToken job t ∧ t.1.jobs.find jobId = some row) t)
    (hstored : storedResult result = .error e) (hvalid : leaseValid leaseToken now row = true)
    (hid : job'.id = jobId) (htc : job'.tenantConnectionId = job.tenantConnectionId)
    (hfail : ∀ v : Database ι × Orders ι,
      isUniqueViolation e = false ∧ Reported calls db₀ i (.error e) v → fail e v) :
    (orderContract calls db₀).Outline postgres.readCommitted i post fail
      (Program.raise e : TransactionProgram ApplyTenantValidationResult).statements.finish t := by
  have hjobId : .job jobId ∈ jobLocks job' := hid ▸ mem_jobLocks
  obtain ⟨microsoftTenantId, rfl, htext⟩ := storedResult_error hstored
  have hviolation : isUniqueViolation e = false := by
    rw [storedText_error htext]
    rfl
  apply order_throw (TookEffect calls db₀ jobId (i, rejected) (.error e)) ht
    (.and Leased.steady (.job hjobId)) .tookEffect
  · rintro x hx ⟨h, hrow⟩
    have heffect : callEffect calls jobId (i, rejected) (x.1.rowsOf jobId) =
        (.error e, x.1.rowsOf jobId) := by
      rw [callEffect_apply hcall]
      exact applyEffect_of_refused hrow hvalid htext
    refine ⟨h.ownsJob hcall hid htc, (· = jobId), ?_,
      hx.takes x.1 (· = jobId) _ rfl (congrArg Prod.fst heffect)⟩
    rintro _ rfl
    exact ⟨h.unordered, on_apply hcall, congrArg Prod.snd heffect⟩
  · exact fun v hv hknows => hfail v ⟨hviolation, hknows.applied hcall⟩

/-- What is left to do after the index rejected the connection. -/
def Collided (calls : ι → Call) (i : ι) (jobId leaseToken : Uuid) (result : TenantValidationResult)
    (e : JsError) (t : Database ι × Orders ι) : Prop :=
  isUniqueViolation e = true ∧
    (∃ microsoftTenantId text, result = .success microsoftTenantId ∧
      storedText microsoftTenantId = .ok text) ∧
    ∃ job, Knows i .idle true {job.attemptCount} (Leased calls i jobId leaseToken job) t

/-- How the first transaction fails.  After any error but a rejection the call is over. -/
def ApplyAborted (calls : ι → Call) (db₀ : Store) (i : ι) (jobId leaseToken : Uuid)
    (result : TenantValidationResult) (e : JsError) (t : Database ι × Orders ι) : Prop :=
  Collided calls i jobId leaseToken result e t ∨
    isUniqueViolation e = false ∧ Reported calls db₀ i (.error e) t

theorem outline_applyTransaction (hcall : calls i = .apply jobId leaseToken result now defaults)
    (hdrawn : DrawnApart calls db₀)
    (ht : Knows i .idle false Set.univ (fun t => Unordered i jobId t.2) t) :
    (orderContract calls db₀).Outline postgres.readCommitted i
      (fun a => Reported calls db₀ i
        (.ok ((Call.apply jobId leaseToken result now defaults).report a)))
      (ApplyAborted calls db₀ i jobId leaseToken result)
      (transaction (applyTransaction jobId leaseToken result now defaults)) t := by
  apply order_begin ht (.unordered jobId)
  intro v hv hknows
  apply order_selectJob hcall hdrawn hknows (.unordered jobId) (fun _ h => h)
    (fun _ _ _ _ _ => trivial)
  · exact fun v hv hknows => order_answered hcall hknows
  · intro v job hv hvalid hknows
    have hstale : resultStale leaseToken now job = true := by rw [resultStale_eq, hvalid]; rfl
    dsimp only
    rw [if_pos hstale]
    exact order_answered hcall hknows
  · intro v job hv hvalid hid hcount hknows
    have hstale : ¬ resultStale leaseToken now job = true := by rw [resultStale_eq, hvalid]; decide
    dsimp only
    rw [if_neg hstale]
    apply order_selectTenantConnection hknows
    intro v connection hv hcid hknows
    obtain ⟨availableAt, hdelay⟩ := exists_delay result now hcount
    dsimp only
    rw [hdelay, Program.ofExcept_ok, Program.ret_bind, hcid]
    subst hid
    apply order_updateLeased (jobUpdate result (shouldRetry result job) availableAt) hcall hknows
      (jobUpdate_keeps _ _ _) rfl
    intro v row hv hvalid hid htc hcount' hknows
    have hkeeps := jobUpdate_keeps result (shouldRetry result job) availableAt row
    dsimp only
    cases hstored : storedResult result with
    | error e =>
        -- the row is locked and has the lease, so the call takes effect with the rollback
        exact order_refused hcall hknows hstored hvalid (hkeeps.1.trans hid) (hkeeps.2.1.trans htc)
          fun v hreported => .inr hreported
    | ok stored =>
    rw [Program.ofExcept_ok, Program.ret_bind]
    apply order_updateTenantConnection (tenantUpdate stored (shouldRetry result job)) hcall hknows
      (hkeeps.1.trans hid) (hkeeps.2.1.trans htc) htc (tenantUpdate_id _ _)
    · exact fun connection => success_of_indexed hstored
    · intro v connection hv hindexed hcid hknows
      obtain ⟨microsoftTenantId, text, rfl, htext, -⟩ := success_of_indexed hstored hindexed
      apply order_abort hknows Leased.steady
      · exact fun x h => h.owns hcall (hkeeps.1.trans hid) (hkeeps.2.1.trans htc) hcid
      · exact fun v hv hknows => .inl ⟨rfl, ⟨microsoftTenantId, text, rfl, htext⟩, job, hknows⟩
    · intro v connection hv hcid hknows
      have hown := fun x (h : Settling calls i job.id leaseToken job row connection
        (tenantUpdate stored (shouldRetry result job) connection) x) =>
        h.toLeased.owns hcall (hkeeps.1.trans hid) (hkeeps.2.1.trans htc) hcid
      dsimp only
      have hretry' : shouldRetry result row = shouldRetry result job := shouldRetry_congr hcount'
      have hdelay' := hcount'.symm ▸ hdelay
      have hcid' := (tenantUpdate_id _ _ _).symm.trans (hcid.trans htc.symm)
      generalize hretry : shouldRetry result job = retry at *
      cases retry with
      | false =>
          exact order_settleResult hcall hdrawn hknows hstored hvalid hid hcid' hretry' hdelay'
            (fun _ hk => hk) hown
      | true =>
          rw [if_pos rfl]
          have hinserts : (calls i).Inserts job.id defaults.id := inserts_of_retry hcall hretry
          have hindex : (tenantUpdate stored true connection).indexed = false :=
            indexed_of_retry connection hstored hretry
          apply order_insertOutboxEvent _ hknows
          · exact Settling.steady (hkeeps.1.trans hid) ((tenantUpdate_id _ _ _).trans hcid')
              fun _ hk => hk
          · intro m hm
            rcases List.mem_append.mp hm with hm | hm
            · exact activeTenant_not_mem_jobLocks hm
            · rcases mem_tenantConnectionLocks.mp hm with hm | ⟨hm, -⟩
              · cases hm
              · rw [hindex] at hm
                cases hm
          · exact hinserts.drawsEvent
          · intro x hx h
            exact ⟨hown x h, hx.event_free hdrawn h.stored hinserts h.unordered, _,
              Table.find_put_self _ _⟩
          · intro w hw hknows
            rw [hkeeps.1.trans hid] at hknows
            apply order_settleResult hcall hdrawn hknows hstored hvalid hid hcid' hretry' hdelay'
            · exact fun _ hk => List.mem_append_left _ hk
            · intro x h
              refine (hown x h).append fun k hk => ?_
              rw [List.mem_singleton.mp hk]
              exact hinserts.drawsEvent

/-- The second transaction, after the index rejected the first one. -/
theorem outline_collisionTransaction {microsoftTenantId text : JsString}
    (hcall : calls i = .apply jobId leaseToken (.success microsoftTenantId) now defaults)
    (hdrawn : DrawnApart calls db₀) (htext : storedText microsoftTenantId = .ok text)
    (ht : Knows i .idle true {job.attemptCount} (Leased calls i jobId leaseToken job) t) :
    (orderContract calls db₀).Outline postgres.readCommitted i
      (fun a => Reported calls db₀ i
        (.ok ((Call.apply jobId leaseToken (.success microsoftTenantId) now defaults).report a)))
      fail (transaction (collisionTransaction jobId leaseToken now)) t := by
  apply order_begin ht Leased.steady
  intro v hv hknows
  apply order_selectJob hcall hdrawn hknows Leased.steady (fun _ h => h.unordered)
  · intro x row h hstored hvalid
    -- under the same token it is the same attempt that is read again
    obtain ⟨current, hcurrent, -, hcount⟩ := h.tracks.current
    cases hstored.symm.trans hcurrent
    exact hcount (leaseValid_token hvalid)
  · exact fun v hv hknows => order_answered hcall hknows
  · intro v job hv hvalid hknows
    have hstale : resultStale leaseToken now job = true := by rw [resultStale_eq, hvalid]; rfl
    dsimp only
    rw [if_pos hstale]
    exact order_answered hcall hknows
  · intro v job hv hvalid hid _ hknows
    have hstale : ¬ resultStale leaseToken now job = true := by rw [resultStale_eq, hvalid]; decide
    dsimp only
    rw [if_neg hstale]
    apply order_selectTenantConnection hknows
    intro v connection hv _ hknows
    dsimp only
    subst hid
    apply order_updateLeased (Job.fail .tenantAlreadyConnected false now) hcall hknows
      (fun _ => ⟨rfl, rfl, rfl⟩) rfl
    intro v row hv hvalid hid htc _ hknows
    apply order_updateTenantConnection TenantConnection.reject hcall hknows hid htc htc
      (fun _ => rfl)
    -- a rejected connection is not active, so the index does not see it
    · exact fun connection hindexed => by cases hindexed
    · exact fun v connection hv hindexed => by cases hindexed
    · intro v connection hv hcid hknows
      have hid' : (row.fail .tenantAlreadyConnected false now).id = job.id := hid
      have htc' : (row.fail .tenantAlreadyConnected false now).tenantConnectionId =
          job.tenantConnectionId := htc
      apply order_settle hcall hknows hid' (hcid.trans htc.symm) (fun _ hk => hk)
        (fun x h => h.toLeased.owns hcall hid' htc' hcid)
      intro x hx h
      refine ⟨⟨.failed job.id leaseToken .tenantAlreadyConnected false now, rfl,
        .failed h.stored hvalid h.connected⟩, ?_⟩
      rw [applyEffect_of_success h.stored hvalid htext, if_pos rfl]
      have hrows := rowsOf_update (row.fail .tenantAlreadyConnected false now)
        TenantConnection.reject h.stored rfl rfl h.connected rfl
      unfold settle
      rw [← hrows]
      rfl

theorem outline_apply (hcall : calls i = .apply jobId leaseToken result now defaults)
    (hdrawn : DrawnApart calls db₀)
    (ht : Knows i .idle false Set.univ (fun t => Unordered i jobId t.2) t) :
    (orderContract calls db₀).Outline postgres.readCommitted i
      (fun a => Reported calls db₀ i
        (.ok ((Call.apply jobId leaseToken result now defaults).report a)))
      (fun e => Reported calls db₀ i (.error e))
      (applyTenantValidationResult jobId leaseToken result now defaults) t := by
  apply Contract.Outline.handle (orderContract_sound calls db₀) (fun _ _ _ _ h => h)
  apply (outline_applyTransaction hcall hdrawn ht).conseq
  · exact fun a u _ ha => ha
  · intro e u _ haborted
    rcases haborted with ⟨hviolation, ⟨microsoftTenantId, text, rfl, htext⟩, job, hknows⟩ |
      ⟨hviolation, hreported⟩
    · have hcaught : ¬ (!isUniqueViolation e || !(TenantValidationResult.success
          microsoftTenantId).isSuccess) = true := by
        rw [hviolation]
        exact Bool.false_ne_true
      rw [if_neg hcaught]
      exact outline_collisionTransaction hcall hdrawn htext hknows
    · have hthrown : (!isUniqueViolation e || !result.isSuccess) = true := by
        rw [hviolation]
        rfl
      rw [if_pos hthrown]
      exact fun v hr _ => hreported.rely hr

end

end InboxSaas.Product
