import InboxSaas.Product.JobOrders

/-!
# Commands of a call on jobs

The contract of a claim, a renewal, a recovery or a result among any others: it keeps the orders of
the jobs, and it relies on the others to add to them only.  `Knows` is what a call knows at one of
its commands: its connection, what its log says, and a fact that the others leave alone (`Steady`).
There is one rule for each kind of command.
-/

namespace InboxSaas.Product

open Reasoning

/-! ## Locks of a call -/

/-- The lock is on a row of a job that the call is about, or on an entry of the index.  Who locks a
row of a connection locks its job as well. -/
def Lock.Of (call : Call) (db : Store) (locks : List Lock) : Lock → Prop
  | .job id => call.On id
  | .tenantConnection id => ∃ jobId job, call.On jobId ∧ .job jobId ∈ locks ∧
      db.jobs.find jobId = some job ∧ job.tenantConnectionId = id
  | .nonTerminalJob id => ∃ jobId job, call.On jobId ∧ .job jobId ∈ locks ∧
      db.jobs.find jobId = some job ∧ job.tenantConnectionId = id
  | .outboxEvent id => call.DrawsEvent id
  | .activeTenant _ => True
  | .idempotencyRecord _ => False
  | .idempotencyKey _ _ => False

def Owns (call : Call) (db : Store) (locks : List Lock) : Prop :=
  ∀ k ∈ locks, k.Of call db locks

section

variable {call : Call} {db : Store} {locks more : List Lock}

theorem Lock.Of.mono {k : Lock} (h : k.Of call db locks) (hm : ∀ k ∈ locks, k ∈ more) :
    k.Of call db more := by
  cases k with
  | tenantConnection id =>
      obtain ⟨jobId, job, hon, hmem, hjob⟩ := h
      exact ⟨jobId, job, hon, hm _ hmem, hjob⟩
  | nonTerminalJob id =>
      obtain ⟨jobId, job, hon, hmem, hjob⟩ := h
      exact ⟨jobId, job, hon, hm _ hmem, hjob⟩
  | job => exact h
  | outboxEvent => exact h
  | activeTenant => exact h
  | idempotencyRecord => exact h
  | idempotencyKey => exact h

theorem Owns.nil : Owns call db [] :=
  fun _ hk => absurd hk List.not_mem_nil

theorem Owns.append (h : Owns call db locks) (h' : Owns call db more) :
    Owns call db (locks ++ more) := by
  intro k hk
  rcases List.mem_append.mp hk with hk | hk
  · exact (h k hk).mono fun _ => List.mem_append_left _
  · exact (h' k hk).mono fun _ => List.mem_append_right _

/-- The locks of a version of a stored job. -/
theorem owns_jobLocks {jobId : Uuid} (row : Job) {job : Job} (hon : call.On jobId)
    (hjob : db.jobs.find jobId = some job) (hid : row.id = job.id)
    (htc : row.tenantConnectionId = job.tenantConnectionId) : Owns call db (jobLocks row) := by
  have hkey : row.id = jobId := hid.trans (Store.job_id hjob)
  intro k hk
  rcases List.mem_cons.mp hk with rfl | hk
  · change call.On row.id
    rwa [hkey]
  · split at hk
    · rw [List.mem_singleton.mp hk]
      exact ⟨jobId, job, hon, hkey ▸ mem_jobLocks, hjob, htc.symm⟩
    · exact absurd hk List.not_mem_nil

end

theorem activeTenant_not_mem_jobLocks {microsoftTenantId : Option JsString} {row : Job} :
    Lock.activeTenant microsoftTenantId ∉ jobLocks row := by
  intro hk
  rcases List.mem_cons.mp hk with hk | hk
  · cases hk
  · split at hk
    · cases List.mem_singleton.mp hk
    · exact absurd hk List.not_mem_nil

/-- A call that holds and needs no locks but its own.  While it holds an entry of the index it does
not wait for any. -/
structure Courteous (call : Call) (c : Command Statement) (db : Store) (s : Session Write Lock) :
    Prop where
  held : Owns call db s.held
  needs : Owns call db (s.held ++ postgres.needs c db s)
  last : ∀ microsoftTenantId, Lock.activeTenant microsoftTenantId ∈ s.held →
    postgres.needs c db s = []

/-- A command that needs no lock. -/
theorem Courteous.free {call : Call} {c : Command Statement} {db : Store}
    {s : Session Write Lock} (hheld : Owns call db s.held) (h : postgres.needs c db s = []) :
    Courteous call c db s where
  held := hheld
  needs := by rwa [h, List.append_nil]
  last _ _ := h

/-! ## The contract -/

section

variable {ι : Type} (calls : ι → Call) (db₀ : Store)

def orderContract : Contract ι (Database ι) (Orders ι) (Command Statement) :=
  readCommittedContract productLocking (fun t => Linearized calls db₀ t.1 t.2)
    (fun i => Advanced calls i)
    (fun i => Advances (fun jobId (db : Store) => db.rowsOf jobId) (callEffect calls)
      fun e => e.1 = i)
    (fun i c t => Courteous (calls i) c t.1.db (t.1.session i))

theorem orderContract_sound [DecidableEq ι] :
    (orderContract calls db₀).Sound postgres.readCommitted := by
  apply readCommitted_sound
  · exact fun i t => .refl _ t
  · exact fun i t u v => Advances.trans
  · intro i j t u hij hg
    exact hg.mono fun e he => by rw [he]; exact hij

/-! ## Facts that the others leave alone -/

/-- The fact stays while the locks are held. -/
def Steady (i : ι) (locks : List Lock) (K : Store × Orders ι → Prop) : Prop :=
  ∀ t u, Advanced calls i t u → Ordered calls db₀ u → (∀ k ∈ locks, k.Protects t.1 u.1) →
    K t → K u

namespace Steady

variable {calls} {db₀} {i : ι} {locks : List Lock} {K K' : Store × Orders ι → Prop} {jobId : Uuid}

theorem and (h : Steady calls db₀ i locks K) (h' : Steady calls db₀ i locks K') :
    Steady calls db₀ i locks fun t => K t ∧ K' t :=
  fun t u hadv hu hp hK => ⟨h t u hadv hu hp hK.1, h' t u hadv hu hp hK.2⟩

theorem mono {more : List Lock} (h : Steady calls db₀ i locks K) (hm : ∀ k ∈ locks, k ∈ more) :
    Steady calls db₀ i more K :=
  fun t u hadv hu hp hK => h t u hadv hu (fun k hk => hp k (hm k hk)) hK

theorem unordered (jobId : Uuid) : Steady calls db₀ i locks fun t => Unordered i jobId t.2 :=
  fun _ _ hadv _ _ h => h.advanced hadv

/-- A job stays stored, and keeps its connection. -/
theorem tenantConnectionId {id : Uuid} : Steady calls db₀ i locks fun t =>
    ∃ row, t.1.jobs.find jobId = some row ∧ row.tenantConnectionId = id := by
  rintro t u hadv hu - ⟨row, hrow, hid⟩
  obtain ⟨_, row', -, hrow', hfollows, -⟩ := hu.follows hadv hrow
  exact ⟨row', hrow', hfollows.tenantConnectionId.trans hid⟩

theorem tookEffect {op : ι × Bool} {r : Except JsError Report} :
    Steady calls db₀ i locks (TookEffect calls db₀ jobId op r) :=
  fun _ _ hadv _ _ h => hadv.answers h

theorem job {row : Job} (h : .job jobId ∈ locks) :
    Steady calls db₀ i locks fun t => t.1.jobs.find jobId = some row :=
  fun _ _ _ _ hp hrow => Eq.trans (hp _ h) hrow

theorem connection {id : Uuid} {row : TenantConnection} (h : .tenantConnection id ∈ locks) :
    Steady calls db₀ i locks fun t => t.1.tenantConnections.find id = some row :=
  fun _ _ _ _ hp hrow => Eq.trans (hp _ h) hrow

/-- No further active connection of a Microsoft tenant appears while its entry is held. -/
theorem index {row : TenantConnection} (h : .activeTenant row.microsoftTenantId ∈ locks) :
    Steady calls db₀ i locks fun t => t.1.activeElsewhere row = false := by
  intro t u _ _ hp hrow
  have hnew := hp _ h
  rw [Store.activeElsewhere, List.any_eq_false] at hrow ⊢
  intro other ho hother
  rw [Bool.and_eq_true, Bool.and_eq_true, decide_eq_true_iff, decide_eq_true_iff] at hother
  refine hrow other (hnew other ho hother.1.2 hother.2) ?_
  rw [Bool.and_eq_true, Bool.and_eq_true, decide_eq_true_iff, decide_eq_true_iff]
  exact hother

end Steady

/-! ## Commands -/

/-- What a call knows at a command: its connection, what its log says, and a fact. -/
structure Knows (i : ι) (s : Session Write Lock) (rejected : Bool) (attempts : Set Nat)
    (K : Store × Orders ι → Prop) (t : Database ι × Orders ι) : Prop where
  session : t.1.session i = s
  heard : Heard rejected attempts (t.1.log i)
  known : K (t.1.db, t.2)

variable {calls} {db₀} {i : ι} {s : Session Write Lock} {rejected : Bool} {attempts : Set Nat}
  {K : Store × Orders ι → Prop} {t u : Database ι × Orders ι}

/-- Another fact about the same store. -/
theorem Knows.know {F : Store × Orders ι → Prop} (h : Knows i s rejected attempts K t)
    (h' : F (t.1.db, t.2)) : Knows i s rejected attempts F t :=
  ⟨h.session, h.heard, h'⟩

theorem Knows.rely (h : Knows i s rejected attempts K t) (hK : Steady calls db₀ i s.held K)
    (hr : (orderContract calls db₀).rely i t u) (hu : Linearized calls db₀ u.1 u.2) :
    Knows i s rejected attempts K u where
  session := hr.1.trans h.session
  heard := hr.2.1.symm ▸ h.heard
  known := hK _ _ hr.2.2.2 hu.toOrdered (fun k hk => hr.2.2.1 k (h.session.symm ▸ hk)) h.known

variable [DecidableEq ι] {α : Type} {post : α → Database ι × Orders ι → Prop}
  {fail : JsError → Database ι × Orders ι → Prop}

/-- A command with which the call takes effect on the jobs `on`. -/
theorem order_command {c : Command Statement}
    {next : Except JsError (c.Reply Statement.Reply) → DatabaseProgram α}
    (ht : Knows i s rejected attempts K t) (hK : Steady calls db₀ i s.held K)
    (h : ∀ x, Ordered calls db₀ x → K x → Courteous (calls i) c x.1 s ∧
      ∃ on rejected' attempts', Takes calls i s x c on rejected' ∧
        Logs calls i x rejected attempts (c.answer (postgres.perform c x.1 s).1) rejected' attempts' ∧
        ∀ v : Database ι × Orders ι, Linearized calls db₀ v.1 v.2 →
          (v.1.db, v.2) = ((postgres.perform c x.1 s).2.1, record x.2 on (i, rejected')) →
          v.1.session i = (postgres.perform c x.1 s).2.2 →
          Heard rejected' attempts' (v.1.log i) →
          (orderContract calls db₀).Outline postgres.readCommitted i post fail
            (next (postgres.perform c x.1 s).1) v) :
    (orderContract calls db₀).Outline postgres.readCommitted i post fail (.call c next) t := by
  apply Contract.Outline.command
  intro u hr hu
  have hknows := ht.rely hK hr hu.2
  obtain ⟨hctl, on, rejected', attempts', htakes, hlogs, hnext⟩ :=
    h (u.1.db, u.2) hu.2.toOrdered hknows.known
  rw [← hknows.session] at hctl htakes hlogs hnext
  have hlinearized := hu.2.advance htakes hknows.heard hlogs
  refine ⟨hctl, fun _ => ⟨record u.2 on (i, rejected'), hlinearized, ?_, ?_⟩⟩
  · exact .record rfl htakes.effect htakes.others
  · refine hnext (_, _) hlinearized rfl (postgres.advance_session _ _ _) ?_
    change Heard rejected' attempts' ((postgres.advance u.1 i c).log i)
    rw [postgres.advance_log]
    exact hlogs.heard hknows.heard

/-- A command that commits nothing. -/
theorem order_silent {c : Command Statement}
    {next : Except JsError (c.Reply Statement.Reply) → DatabaseProgram α}
    (ht : Knows i s rejected attempts K t) (hK : Steady calls db₀ i s.held K)
    (hread : ∀ db, (postgres.perform c db s).2.1 = db)
    (h : ∀ x, Ordered calls db₀ x → K x → Courteous (calls i) c x.1 s ∧
      ∃ rejected' attempts',
        Logs calls i x rejected attempts (c.answer (postgres.perform c x.1 s).1) rejected' attempts' ∧
        ∀ v : Database ι × Orders ι, Linearized calls db₀ v.1 v.2 → (v.1.db, v.2) = x →
          Knows i (postgres.perform c x.1 s).2.2 rejected' attempts' K v →
          (orderContract calls db₀).Outline postgres.readCommitted i post fail
            (next (postgres.perform c x.1 s).1) v) :
    (orderContract calls db₀).Outline postgres.readCommitted i post fail (.call c next) t := by
  apply order_command ht hK
  intro x hx hKx
  obtain ⟨hctl, rejected', attempts', hlogs, hnext⟩ := h x hx hKx
  refine ⟨hctl, fun _ => False, rejected', attempts', ?_, hlogs, ?_⟩
  · exact .unchanged hx (hread x.1) fun _ h => absurd h not_false
  · intro v hv heq hsession hheard
    rw [hread, record_none] at heq
    exact hnext v hv heq ⟨hsession, hheard, heq.symm ▸ hKx⟩

/-- A transaction opens. -/
theorem order_begin {body : TransactionProgram α} (ht : Knows i .idle rejected attempts K t)
    (hK : Steady calls db₀ i [] K)
    (hnext : ∀ v : Database ι × Orders ι, Linearized calls db₀ v.1 v.2 →
      Knows i ⟨true, [], []⟩ rejected attempts K v →
      (orderContract calls db₀).Outline postgres.readCommitted i post fail
        body.statements.finish v) :
    (orderContract calls db₀).Outline postgres.readCommitted i post fail (transaction body) t := by
  apply order_silent ht hK
  · exact fun _ => rfl
  · exact fun x hx hKx => ⟨.free .nil rfl, rejected, attempts, .nil _ _,
      fun v hv _ hv' => hnext v hv hv'⟩

/-- A transaction that fails is rolled back, and its error goes on.  The call takes effect on the
jobs `on`, which it does not change. -/
theorem order_throw {ws : List Write} {ks : List Lock} {e : JsError}
    (K' : Store × Orders ι → Prop) (ht : Knows i ⟨true, ws, ks⟩ rejected attempts K t)
    (hK : Steady calls db₀ i ks K) (hK' : Steady calls db₀ i [] K')
    (h : ∀ x, Ordered calls db₀ x → K x → Owns (calls i) x.1 ks ∧ ∃ on : Uuid → Prop,
      (∀ jobId, on jobId → Unordered i jobId x.2 ∧ (calls i).On jobId ∧
        (callEffect calls jobId (i, rejected) (x.1.rowsOf jobId)).2 = x.1.rowsOf jobId) ∧
      K' (x.1, record x.2 on (i, rejected)))
    (hfail : ∀ v : Database ι × Orders ι, Linearized calls db₀ v.1 v.2 →
      Knows i .idle rejected attempts K' v → fail e v) :
    (orderContract calls db₀).Outline postgres.readCommitted i post fail
      (Program.raise e : TransactionProgram α).statements.finish t := by
  apply order_command ht hK
  intro x hx hKx
  obtain ⟨hheld, on, hon, hKv⟩ := h x hx hKx
  refine ⟨.free hheld rfl, on, rejected, attempts, .unchanged hx rfl hon, .nil _ _,
    fun v hv heq hsession hheard u hr hu => ?_⟩
  have hknows : Knows i .idle rejected attempts K' v := ⟨hsession, hheard, heq.symm ▸ hKv⟩
  exact hfail u hu.2 (hknows.rely hK' hr hu.2)

/-- The same of a call that does not take effect with it. -/
theorem order_abort {ws : List Write} {ks : List Lock} {e : JsError}
    (ht : Knows i ⟨true, ws, ks⟩ rejected attempts K t) (hK : Steady calls db₀ i [] K)
    (hheld : ∀ x, K x → Owns (calls i) x.1 ks)
    (hfail : ∀ v : Database ι × Orders ι, Linearized calls db₀ v.1 v.2 →
      Knows i .idle rejected attempts K v → fail e v) :
    (orderContract calls db₀).Outline postgres.readCommitted i post fail
      (Program.raise e : TransactionProgram α).statements.finish t := by
  apply order_throw K ht (hK.mono fun _ hk => absurd hk List.not_mem_nil) hK
  · intro x hx hKx
    refine ⟨hheld x hKx, fun _ => False, fun _ h => absurd h not_false, ?_⟩
    rw [record_none]
    exact hKx
  · exact hfail

/-- A transaction commits: the call takes effect on the jobs `on`. -/
theorem order_commit {ws : List Write} {ks : List Lock} {a : α} (K' : Store × Orders ι → Prop)
    (ht : Knows i ⟨true, ws, ks⟩ rejected attempts K t) (hK : Steady calls db₀ i ks K)
    (hK' : Steady calls db₀ i [] K')
    (h : ∀ x, Ordered calls db₀ x → K x → Owns (calls i) x.1 ks ∧
      ∃ on, Takes calls i ⟨true, ws, ks⟩ x .commit on rejected ∧
        K' (postgres.writes ws x.1, record x.2 on (i, rejected)))
    (hpost : ∀ v : Database ι × Orders ι, Linearized calls db₀ v.1 v.2 →
      Knows i .idle rejected attempts K' v → post a v) :
    (orderContract calls db₀).Outline postgres.readCommitted i post fail
      (Program.ret a : TransactionProgram α).statements.finish t := by
  apply order_command ht hK
  intro x hx hKx
  obtain ⟨hheld, on, htakes, hKv⟩ := h x hx hKx
  refine ⟨.free hheld rfl, on, rejected,
    attempts, htakes, .nil _ _, fun v hv heq hsession hheard u hr hu => ?_⟩
  have hknows : Knows i .idle rejected attempts K' v := ⟨hsession, hheard, heq.symm ▸ hKv⟩
  exact hpost u hu.2 (hknows.rely hK' hr hu.2)

/-- A transaction ends in which the call had taken effect before. -/
theorem order_return {ks : List Lock} {a : α}
    (ht : Knows i ⟨true, [], ks⟩ rejected attempts K t) (hK : Steady calls db₀ i [] K)
    (hheld : ∀ x, K x → Owns (calls i) x.1 ks)
    (hpost : ∀ v : Database ι × Orders ι, Linearized calls db₀ v.1 v.2 →
      Knows i .idle rejected attempts K v → post a v) :
    (orderContract calls db₀).Outline postgres.readCommitted i post fail
      (Program.ret a : TransactionProgram α).statements.finish t := by
  apply order_silent ht (hK.mono fun _ hk => absurd hk List.not_mem_nil)
  · exact fun _ => rfl
  · intro x hx hKx
    refine ⟨.free (hheld x hKx) rfl, rejected,
      attempts, .nil _ _, fun v hv _ hv' u hr hu => ?_⟩
    exact hpost u hu.2 (hv'.rely hK hr hu.2)

/-- A statement of the transaction, which leaves the call as it is or lets it take effect on jobs
that it does not change. -/
theorem order_query {ws : List Write} {ks : List Lock} {op : Statement}
    {f : op.Reply → TransactionProgram α} (ht : Knows i ⟨true, ws, ks⟩ rejected attempts K t)
    (hK : Steady calls db₀ i ks K)
    (h : ∀ x, Ordered calls db₀ x → K x → ∀ r vs ls,
      exec Store.activeElsewhere op (postgres.writes ws x.1) = (r, vs, ls) →
      Owns (calls i) x.1 ks ∧ Owns (calls i) x.1 (ks ++ ls) ∧
      (∀ microsoftTenantId, Lock.activeTenant microsoftTenantId ∈ ks → ls = []) ∧
      ∃ on rejected' attempts' K',
        (∀ jobId, on jobId → Unordered i jobId x.2 ∧ (calls i).On jobId ∧
          (callEffect calls jobId (i, rejected') (x.1.rowsOf jobId)).2 = x.1.rowsOf jobId) ∧
        Logs calls i x rejected attempts [⟨op, r⟩] rejected' attempts' ∧
        K' (x.1, record x.2 on (i, rejected')) ∧
        ∀ v : Database ι × Orders ι, Linearized calls db₀ v.1 v.2 →
          Knows i ⟨true, ws ++ vs, ks ++ ls⟩ rejected' attempts' K' v →
          (orderContract calls db₀).Outline postgres.readCommitted i post fail
            (Program.resume f r).statements.finish v) :
    (orderContract calls db₀).Outline postgres.readCommitted i post fail
      (query op >>= f).statements.finish t := by
  have hfinish : (query op >>= f).statements.finish =
      .call (.statement op) fun r => (Program.resume f r).statements.finish := by
    rw [query, Program.perform_bind]
    rfl
  rw [hfinish]
  apply order_command ht hK
  intro x hx hKx
  obtain ⟨hheld, hneeds, hlast, on, rejected', attempts', K', hon, hlogs, hKv, hnext⟩ :=
    h x hx hKx _ _ _ rfl
  refine ⟨⟨hheld, hneeds, hlast⟩, on, rejected', attempts', .unchanged hx rfl hon, hlogs,
    fun v hv heq hsession hheard => ?_⟩
  exact hnext v hv ⟨hsession, hheard, heq.symm ▸ hKv⟩

/-- A statement that commits by itself. -/
theorem order_execute {op : Statement} {f : op.Reply → DatabaseProgram α}
    (ht : Knows i .idle rejected attempts K t) (hK : Steady calls db₀ i [] K)
    (h : ∀ x, Ordered calls db₀ x → K x → ∀ r vs ls,
      exec Store.activeElsewhere op x.1 = (r, vs, ls) → Owns (calls i) x.1 ls ∧
      ∃ on rejected' attempts' K', Takes calls i .idle x (.statement op) on rejected' ∧
        Logs calls i x rejected attempts [⟨op, r⟩] rejected' attempts' ∧
        K' (postgres.writes vs x.1, record x.2 on (i, rejected')) ∧
        ∀ v : Database ι × Orders ι, Linearized calls db₀ v.1 v.2 →
          Knows i .idle rejected' attempts' K' v →
          (orderContract calls db₀).Outline postgres.readCommitted i post fail
            (Program.resume f r) v) :
    (orderContract calls db₀).Outline postgres.readCommitted i post fail (execute op >>= f) t := by
  have hcall : (execute op >>= f) = .call (.statement op) (Program.resume f) := by
    rw [execute, autocommit, Program.perform_bind]
  rw [hcall]
  apply order_command ht hK
  intro x hx hKx
  obtain ⟨hneeds, on, rejected', attempts', K', htakes, hlogs, hKv, hnext⟩ := h x hx hKx _ _ _ rfl
  refine ⟨⟨.nil, hneeds, fun _ hk => absurd hk List.not_mem_nil⟩, on, rejected', attempts',
    htakes, hlogs, fun v hv heq hsession hheard => ?_⟩
  exact hnext v hv ⟨hsession, hheard, heq.symm ▸ hKv⟩

/-! ### Statements that write -/

omit [DecidableEq ι] in
theorem Logs.answer {x : Store × Orders ι} {attempts' : Set Nat}
    {a : Answer Statement Statement.Reply JsError} (hrejection : rejection a = false)
    (hsubset : attempts' ⊆ attempts) (hread : ∀ n, readAttempt a = some n → attempts' ⊆ {n})
    (hupdated : ∀ n, updatedAttempt a = some n → n ∈ attempts) :
    Logs calls i x rejected attempts [a] rejected attempts' where
  rejected_eq := by simp [hrejection]
  early h := by simp [hrejection] at h
  taken h := by simp [hrejection] at h
  subset := hsubset
  reads b hb n hn := hread n (List.mem_singleton.mp hb ▸ hn)
  updates b hb n hn := hupdated n (List.mem_singleton.mp hb ▸ hn)

omit [DecidableEq ι] in
/-- An answer that is no read of a job. -/
theorem Logs.single {x : Store × Orders ι} {a : Answer Statement Statement.Reply JsError}
    (hrejection : rejection a = false) (hread : readAttempt a = none)
    (hupdated : ∀ n, updatedAttempt a = some n → n ∈ attempts) :
    Logs calls i x rejected attempts [a] rejected attempts := by
  apply Logs.answer hrejection subset_rfl
  · intro n hn
    rw [hread] at hn
    cases hn
  · exact hupdated

theorem exec_updateJob_none (rejects : Store → TenantConnection → Bool) {db : Store}
    {jobId : Uuid} {guard : Job → Bool} (set : Job → Job)
    (h : (db.jobs.find jobId).filter guard = none) :
    exec rejects (.updateJob jobId guard set) db = (.ok none, [], []) := by
  rw [exec, h]

/-- A guarded update in a transaction: where the guard fails, the call takes effect on the job
without changing it; else the row stays as it was found. -/
theorem order_updateJob {ws : List Write} {ks : List Lock} {jobId : Uuid} (guard : Job → Bool)
    (set : Job → Job) {f : Option Job → TransactionProgram α} {Skipped : Store × Orders ι → Prop}
    (ht : Knows i ⟨true, ws, ks⟩ rejected attempts K t) (hK : Steady calls db₀ i ks K)
    (hid : ∀ job, (set job).id = job.id)
    (htc : ∀ job, (set job).tenantConnectionId = job.tenantConnectionId)
    (hlast : ∀ microsoftTenantId, Lock.activeTenant microsoftTenantId ∉ ks)
    (hview : ∀ x, Ordered calls db₀ x → K x → Owns (calls i) x.1 ks ∧
      Unordered i jobId x.2 ∧ (calls i).On jobId ∧ Consistent (postgres.writes ws x.1) ∧
      (postgres.writes ws x.1).jobs.find jobId = x.1.jobs.find jobId)
    (hattempt : ∀ x job, K x → x.1.jobs.find jobId = some job → guard job = true →
      (set job).attemptCount ∈ attempts)
    (hskip : ∀ x, Ordered calls db₀ x → K x → (x.1.jobs.find jobId).filter guard = none →
      (callEffect calls jobId (i, rejected) (x.1.rowsOf jobId)).2 = x.1.rowsOf jobId ∧
      Skipped (x.1, record x.2 (· = jobId) (i, rejected)))
    (hnone : ∀ v : Database ι × Orders ι, Linearized calls db₀ v.1 v.2 →
      Knows i ⟨true, ws, ks⟩ rejected attempts Skipped v →
      (orderContract calls db₀).Outline postgres.readCommitted i post fail
        (f none).statements.finish v)
    (hsome : ∀ (v : Database ι × Orders ι) job, Linearized calls db₀ v.1 v.2 →
      guard job = true →
      Knows i ⟨true, ws ++ [.job (set job)], ks ++ jobLocks (set job)⟩ rejected attempts
        (fun t => K t ∧ t.1.jobs.find jobId = some job) v →
      (orderContract calls db₀).Outline postgres.readCommitted i post fail
        (f (some (set job))).statements.finish v) :
    (orderContract calls db₀).Outline postgres.readCommitted i post fail
      (query (.updateJob jobId guard set) >>= f).statements.finish t := by
  apply order_query ht hK
  intro x hx hKx r vs ls hexec
  obtain ⟨hown, hi, hon, hconsistent, hfind⟩ := hview x hx hKx
  cases hfilter : (x.1.jobs.find jobId).filter guard with
  | none =>
      cases (exec_updateJob_none Store.activeElsewhere set (hfind.symm ▸ hfilter)).symm.trans hexec
      obtain ⟨hsame, hskipped⟩ := hskip x hx hKx hfilter
      refine ⟨hown, hown.append .nil, fun _ _ => rfl, (· = jobId), rejected, attempts, Skipped, ?_,
        .single rfl rfl (fun _ h => by cases h), hskipped, fun v hv hknows => ?_⟩
      · rintro _ rfl
        exact ⟨hi, hon, hsame⟩
      · rw [List.append_nil, List.append_nil] at hknows
        exact hnone v hv hknows
  -- the row is locked from here to the commit, so it stays the one that was found
  | some job =>
      obtain ⟨hjob, hguard⟩ := filter_find hfilter
      have hkey := Store.job_id hjob
      subst hkey
      cases (exec_updateJob_current _ hconsistent set hid htc (hfind.trans hjob) hguard).symm.trans
        hexec
      have hjobLocks : Owns (calls i) x.1 (jobLocks (set job)) :=
        owns_jobLocks (set job) hon hjob (hid job) (htc job)
      refine ⟨hown, hown.append hjobLocks, fun m hm => absurd hm (hlast m), fun _ => False, rejected,
        attempts, fun t => K t ∧ t.1.jobs.find job.id = some job, fun _ h => absurd h not_false,
        .single rfl rfl fun n hn => ?_, ?_, fun v hv hknows => hsome v job hv hguard hknows⟩
      · have hcount : (set job).attemptCount = n := Option.some.inj hn
        exact hcount ▸ hattempt x job hKx hjob hguard
      · rw [record_none]
        exact ⟨hKx, hjob⟩

/-- The insertion of an event under an id that the transaction finds free. -/
theorem order_insertOutboxEvent {ws : List Write} {ks : List Lock} (event : OutboxEvent)
    {f : Unit → TransactionProgram α} (ht : Knows i ⟨true, ws, ks⟩ rejected attempts K t)
    (hK : Steady calls db₀ i ks K)
    (hlast : ∀ microsoftTenantId, Lock.activeTenant microsoftTenantId ∉ ks)
    (hdraws : (calls i).DrawsEvent event.id)
    (hview : ∀ x, Ordered calls db₀ x → K x → Owns (calls i) x.1 ks ∧
      (postgres.writes ws x.1).outboxEvents.find event.id = none ∧
      ∃ job, (postgres.writes ws x.1).jobs.find event.jobId = some job)
    (hnext : ∀ v : Database ι × Orders ι, Linearized calls db₀ v.1 v.2 →
      Knows i ⟨true, ws ++ [.outboxEvent event], ks ++ [.outboxEvent event.id]⟩ rejected attempts K
        v →
      (orderContract calls db₀).Outline postgres.readCommitted i post fail
        (f ()).statements.finish v) :
    (orderContract calls db₀).Outline postgres.readCommitted i post fail
      (query (.insertOutboxEvent event) >>= f).statements.finish t := by
  apply order_query ht hK
  intro x hx hKx r vs ls hexec
  obtain ⟨hown, hfree, job, hjob⟩ := hview x hx hKx
  cases (exec_insertOutboxEvent_free Store.activeElsewhere hfree hjob).symm.trans hexec
  have hevent : Owns (calls i) x.1 (Write.outboxEvent event).locks := by
    intro k hk
    rw [List.mem_singleton.mp hk]
    exact hdraws
  refine ⟨hown, hown.append hevent, fun m hm => absurd hm (hlast m), fun _ => False, rejected,
    attempts, K, fun _ h => absurd h not_false, .single rfl rfl (fun _ h => by cases h), ?_,
    fun v hv hknows => hnext v hv hknows⟩
  · rw [record_none]
    exact hKx

end

end InboxSaas.Product
