import InboxSaas.Product.Creations

/-!
# The outline of a start

`startTenantValidation` command by command among any other calls.  What a start read stays true
because nothing is taken back, and what it found missing stays missing because it holds the lock.
So it commits its rows only where none of them is taken, and each answer is true of the store from
then on.
-/

namespace InboxSaas.Product

open Reasoning

/-! ## Facts that the others leave alone -/

/-- The fact stays while the locks are held. -/
def Stable (locks : List Lock) (K : Store → Prop) : Prop :=
  ∀ db db', Keeps db db' → (∀ k ∈ locks, k.Protects db db') → K db → K db'

namespace Stable

variable {locks : List Lock} {K K' : Store → Prop}

theorem always (locks : List Lock) (P : Prop) : Stable locks fun _ => P :=
  fun _ _ _ _ h => h

theorem keeps (h : ∀ db db', Keeps db db' → K db → K db') : Stable locks K :=
  fun db db' hk _ hK => h db db' hk hK

theorem and (h : Stable locks K) (h' : Stable locks K') : Stable locks fun db => K db ∧ K' db :=
  fun db db' hk hp hK => ⟨h db db' hk hp hK.1, h' db db' hk hp hK.2⟩

theorem mono {more : List Lock} (h : Stable locks K) (hm : ∀ k ∈ locks, k ∈ more) : Stable more K :=
  fun db db' hk hp hK => h db db' hk (fun k hl => hp k (hm k hl)) hK

theorem tenantConnection {id : Uuid} (h : .tenantConnection id ∈ locks) :
    Stable locks fun db => db.tenantConnections.find id = none :=
  fun _ _ _ hp hnone => Eq.trans (hp _ h) hnone

theorem job {id : Uuid} (h : .job id ∈ locks) : Stable locks fun db => db.jobs.find id = none :=
  fun _ _ _ hp hnone => Eq.trans (hp _ h) hnone

theorem idempotencyRecord {id : Uuid} (h : .idempotencyRecord id ∈ locks) :
    Stable locks fun db => db.idempotencyRecords.find id = none :=
  fun _ _ _ hp hnone => Eq.trans (hp _ h) hnone

theorem idempotencyKey {organizationId : Uuid} {key : JsString}
    (h : .idempotencyKey organizationId key ∈ locks) :
    Stable locks fun db => db.idempotencyRecord organizationId key = none :=
  fun _ _ _ hp hnone => hp _ h hnone

theorem outboxEvent {id : Uuid} (h : .outboxEvent id ∈ locks) :
    Stable locks fun db => db.outboxEvents.find id = none :=
  fun _ _ _ hp hnone => Eq.trans (hp _ h) hnone

end Stable

/-! ## Commands of a start -/

section

variable {ι : Type} {calls : ι → Call} {db₀ : Store} {i : ι}

/-- What a start knows at a command: its connection, that it created nothing, and a fact. -/
structure At (i : ι) (s : Session Write Lock) (K : Store → Prop)
    (t : Database ι × List (ι × Creation)) : Prop where
  session : t.1.session i = s
  pending : Pending i t.2
  known : K t.1.db

/-- Another fact about the same store. -/
theorem At.know {s : Session Write Lock} {K F : Store → Prop}
    {t : Database ι × List (ι × Creation)} (h : At i s K t) (h' : F t.1.db) : At i s F t :=
  ⟨h.session, h.pending, h'⟩

theorem At.rely {s : Session Write Lock} {K : Store → Prop}
    {t u : Database ι × List (ι × Creation)} (h : At i s K t) (hK : Stable s.held K)
    (hr : (startContract calls db₀).rely i t u) : At i s K u where
  session := hr.1.trans h.session
  pending := h.pending.grows hr.2.2.2
  known := hK _ _ hr.2.2.2.1 (fun k hk => hr.2.2.1 k (h.session.symm ▸ hk)) h.known

variable [DecidableEq ι] {α : Type} {post : α → Database ι × List (ι × Creation) → Prop}
  {fail : JsError → Database ι × List (ι × Creation) → Prop} {s : Session Write Lock}
  {K : Store → Prop} {t : Database ι × List (ι × Creation)} {ws : List Write} {ks : List Lock}

/-- A command that commits nothing. -/
theorem start_command (hi : (calls i).isStart = true) {c : Command Statement}
    {next : Except JsError (c.Reply Statement.Reply) → DatabaseProgram α} (ht : At i s K t)
    (hK : Stable s.held K) (hread : ∀ db, (postgres.perform c db s).2.1 = db)
    (hnext : ∀ v, Started calls db₀ v.1 v.2 → At i (postgres.perform c v.1.db s).2.2 K v →
      (startContract calls db₀).Outline postgres.readCommitted i post fail
        (next (postgres.perform c v.1.db s).1) v) :
    (startContract calls db₀).Outline postgres.readCommitted i post fail (.call c next) t := by
  apply Contract.Outline.command
  intro u hr hu
  have hat := ht.rely hK hr
  refine ⟨fun _ => hat.pending, fun hfree => ⟨u.2, ?_⟩⟩
  have hdb : (postgres.advance u.1 i c).db = u.1.db := by
    rw [Engine.advance_db, hat.session, hread]
  have hstarted : Started calls db₀ (postgres.advance u.1 i c) u.2 :=
    hu.2.session hi hdb fun j hj => Engine.advance_session_ne _ _ _ _ hj
  refine ⟨hstarted, ?_, ?_⟩
  · have hsame : (postgres.perform c u.1.db (u.1.session i)).2.1 = u.1.db := hdb
    rw [hsame]
    exact ⟨.refl _ _, fun _ _ => rfl⟩
  · have hgoes := hnext (postgres.advance u.1 i c, u.2) hstarted
    have hdb' : (postgres.advance u.1 i c, u.2).1.db = u.1.db := hdb
    rw [hdb', ← hat.session] at hgoes
    refine hgoes ⟨Engine.advance_session _ _ _ _, hat.pending, ?_⟩
    rw [hdb']
    exact hat.known

/-- A statement of the transaction. -/
theorem start_query (hi : (calls i).isStart = true) {op : Statement}
    {f : op.Reply → TransactionProgram α} (ht : At i ⟨true, ws, ks⟩ K t) (hK : Stable ks K)
    (hnext : ∀ v r vs ls, Started calls db₀ v.1 v.2 →
      exec Store.activeElsewhere op (postgres.writes ws v.1.db) = (r, vs, ls) →
      At i ⟨true, ws ++ vs, ks ++ ls⟩ K v →
      (startContract calls db₀).Outline postgres.readCommitted i post fail
        (Program.resume f r).statements.finish v) :
    (startContract calls db₀).Outline postgres.readCommitted i post fail
      (query op >>= f).statements.finish t := by
  have hfinish : (query op >>= f).statements.finish =
      .call (.statement op) fun r => (Program.resume f r).statements.finish := by
    rw [query, Program.perform_bind]
    rfl
  rw [hfinish]
  apply start_command hi ht hK
  · exact fun db => rfl
  · exact fun v hv hat => hnext v _ _ _ hv rfl hat

/-- A query of the transaction while it has written nothing. -/
theorem start_select (hi : (calls i).isStart = true) {op : Statement}
    {f : op.Reply → TransactionProgram α} {found : Store → op.Reply}
    (hop : ∀ db, exec Store.activeElsewhere op db = (.ok (found db), [], []))
    (ht : At i ⟨true, [], []⟩ K t) (hK : Stable [] K)
    (hnext : ∀ v, Started calls db₀ v.1 v.2 → At i ⟨true, [], []⟩ K v →
      (startContract calls db₀).Outline postgres.readCommitted i post fail
        (f (found v.1.db)).statements.finish v) :
    (startContract calls db₀).Outline postgres.readCommitted i post fail
      (query op >>= f).statements.finish t := by
  apply start_query hi ht hK
  intro v r vs ls hv hx hat
  have hx' := (hop v.1.db).symm.trans hx
  cases hx'
  exact hnext v hv hat

/-- A query outside a transaction. -/
theorem start_execute (hi : (calls i).isStart = true) {op : Statement}
    {f : op.Reply → DatabaseProgram α} {found : Store → Except JsError op.Reply}
    (hop : ∀ db, exec Store.activeElsewhere op db = (found db, [], []))
    (ht : At i .idle K t) (hK : Stable [] K)
    (hnext : ∀ v, Started calls db₀ v.1 v.2 → At i .idle K v →
      (startContract calls db₀).Outline postgres.readCommitted i post fail
        (Program.resume f (found v.1.db)) v) :
    (startContract calls db₀).Outline postgres.readCommitted i post fail (execute op >>= f) t := by
  have hperform : ∀ db, postgres.perform (.statement op) db .idle = (found db, db, .idle) := by
    intro db
    change ((exec Store.activeElsewhere op db).1, postgres.writes
      (exec Store.activeElsewhere op db).2.1 db, Session.idle) = _
    rw [hop]
    rfl
  have hcall : (execute op >>= f) = .call (.statement op) (Program.resume f) := by
    rw [execute, autocommit, Program.perform_bind]
  rw [hcall]
  apply start_command hi ht hK
  · exact fun db => by rw [hperform]
  · intro v hv hat
    rw [hperform] at hat ⊢
    exact hnext v hv hat

/-- The transaction fails: it is rolled back and its error goes on. -/
theorem start_abort (hi : (calls i).isStart = true) {e : JsError} (ht : At i ⟨true, ws, ks⟩ K t)
    (hK : Stable [] K) (hfail : ∀ v, Started calls db₀ v.1 v.2 → At i .idle K v → fail e v) :
    (startContract calls db₀).Outline postgres.readCommitted i post fail
      (Program.raise e : TransactionProgram α).statements.finish t := by
  apply start_command hi ht (hK.mono fun _ hk => absurd hk List.not_mem_nil)
  · exact fun db => rfl
  · intro v hv hat u hr hu
    exact hfail u hu.2 (hat.rely hK hr)

/-- The transaction ends without having written. -/
theorem start_return (hi : (calls i).isStart = true) {a : α} (ht : At i ⟨true, [], []⟩ K t)
    (hK : Stable [] K) (hpost : ∀ v, Started calls db₀ v.1 v.2 → At i .idle K v → post a v) :
    (startContract calls db₀).Outline postgres.readCommitted i post fail
      (Program.ret a : TransactionProgram α).statements.finish t := by
  apply start_command hi ht hK
  · exact fun db => rfl
  · intro v hv hat u hr hu
    exact hpost u hu.2 (hat.rely hK hr)

/-- The transaction commits the rows of the start. -/
theorem start_commit {c : Creation} (hadmitted : (calls i).Admitted db₀ c) {a : α}
    (ht : At i ⟨true, c.writes, ks⟩ c.Fresh t) (hK : Stable ks c.Fresh)
    (hpost : ∀ v, Started calls db₀ v.1 v.2 → (i, c) ∈ v.2 → post a v) :
    (startContract calls db₀).Outline postgres.readCommitted i post fail
      (Program.ret a : TransactionProgram α).statements.finish t := by
  apply Contract.Outline.command
  intro u hr hu
  have hat := ht.rely hK hr
  refine ⟨fun _ => hat.pending, fun hfree => ⟨u.2 ++ [(i, c)], ?_⟩⟩
  have hdb : (postgres.advance u.1 i .commit).db = c.commit u.1.db := by
    rw [Engine.advance_db, hat.session]
    rfl
  have hstarted : Started calls db₀ (postgres.advance u.1 i .commit) (u.2 ++ [(i, c)]) :=
    hu.2.commit hadmitted hat.known hdb fun j hj => Engine.advance_session_ne _ _ _ _ hj
  refine ⟨hstarted, ⟨⟨?_, [(i, c)], rfl, fun e he => ?_⟩, fun _ he => ?_⟩, ?_⟩
  · have hsame : (postgres.perform .commit u.1.db (u.1.session i)).2.1 = c.commit u.1.db := hdb
    rw [hsame]
    exact hat.known.keeps
  · rw [List.mem_singleton.mp he]
  · have hlength := congrArg List.length he
    simp at hlength
  · intro v hr' hv
    obtain ⟨-, later, hlater, -⟩ := hr'.2.2.2
    refine hpost v hv.2 ?_
    rw [hlater]
    simp

end

/-! ## Generated ids -/

section

variable {ι : Type} (calls : ι → Call) (db₀ : Store)

/-- The ids that the starts generate are new and differ from each other, and no other call gives one
of them to an event. -/
structure StartsApart : Prop where
  tenantConnections : ∀ i j d d', (calls i).startDraws = some d → (calls j).startDraws = some d' →
    d.tenantConnectionId = d'.tenantConnectionId → i = j
  jobs : ∀ i j d d', (calls i).startDraws = some d → (calls j).startDraws = some d' →
    d.jobId = d'.jobId → i = j
  idempotencyRecords : ∀ i j d d', (calls i).startDraws = some d → (calls j).startDraws = some d' →
    d.idempotencyRecordId = d'.idempotencyRecordId → i = j
  outboxEvents : ∀ i j d, (calls i).startDraws = some d → (calls j).DrawsEvent d.outboxEventId → i = j
  new : ∀ i d, (calls i).startDraws = some d →
    db₀.tenantConnections.find d.tenantConnectionId = none ∧ db₀.jobs.find d.jobId = none ∧
      db₀.idempotencyRecords.find d.idempotencyRecordId = none ∧
      db₀.outboxEvents.find d.outboxEventId = none

/-- Nothing but another call of the pool can take the key or an id of the creation. -/
def Undisputed (c : Creation) : Prop :=
  StartsApart calls db₀ ∧ c.stored db₀ = none

variable {calls} {db₀} {i : ι} {c : Creation} {σ : Database ι} {g : List (ι × Creation)}

/-- A key list that grew by the creations of others has no key of mine. -/
theorem find_none_of_keys {ρ : Type} [Keyed ρ Uuid] {t₀ t : Table ρ} (id : Creation → Uuid)
    {mine : Uuid} (hkeys : t.rows.map key = t₀.rows.map key ++ g.map fun e => id e.2)
    (hnew : t₀.find mine = none) (hne : ∀ e ∈ g, id e.2 ≠ mine) : t.find mine = none := by
  by_contra hsome
  have hmem := Table.mem_keys.mpr (Option.isSome_iff_ne_none.mpr hsome)
  rw [hkeys] at hmem
  rcases List.mem_append.mp hmem with hmem | hmem
  · have hold := Table.mem_keys.mp hmem
    rw [hnew] at hold
    cases hold
  · obtain ⟨e, he, hid⟩ := List.mem_map.mp hmem
    exact hne e he hid

/-- While a start has created nothing, no row has an id that it generated. -/
theorem Started.untaken (h : Started calls db₀ σ g) (hapart : StartsApart calls db₀)
    {draws : StartDraws} (hdraws : (calls i).startDraws = some draws) (hp : Pending i g) :
    σ.db.tenantConnections.find draws.tenantConnectionId = none ∧
      σ.db.jobs.find draws.jobId = none ∧
      σ.db.idempotencyRecords.find draws.idempotencyRecordId = none ∧
      σ.db.outboxEvents.find draws.outboxEventId = none := by
  obtain ⟨hconnection, hjob, hrecord, hevent⟩ := hapart.new i draws hdraws
  have hother : ∀ e ∈ g, e.1 ≠ i := by
    intro e he hi
    exact hp (hi ▸ List.mem_map_of_mem he)
  refine ⟨?_, ?_, ?_, ?_⟩
  · apply find_none_of_keys (fun c => c.draws.tenantConnectionId) h.connectionIds hconnection
    intro e he hid
    exact hother e he (hapart.tenantConnections _ _ _ _ (h.admitted e he).draws hdraws hid)
  · apply find_none_of_keys (fun c => c.draws.jobId) h.jobIds hjob
    intro e he hid
    exact hother e he (hapart.jobs _ _ _ _ (h.admitted e he).draws hdraws hid)
  · have hkeys := congrArg (List.map key) h.records
    rw [List.map_append, List.map_map] at hkeys
    apply find_none_of_keys (fun c => c.draws.idempotencyRecordId) hkeys hrecord
    intro e he hid
    exact hother e he (hapart.idempotencyRecords _ _ _ _ (h.admitted e he).draws hdraws hid)
  · by_contra hsome
    rcases h.events _ (Option.isSome_iff_ne_none.mpr hsome) with hold | ⟨e, he, hid⟩ | ⟨j, hj, hd⟩
    · rw [hevent] at hold
      cases hold
    · have hdraw : (calls i).DrawsEvent e.2.draws.outboxEventId :=
        hid ▸ Call.drawsEvent_of_startDraws hdraws
      exact hother e he (hapart.outboxEvents _ _ _ (h.admitted e he).draws hdraw)
    · have hij := hapart.outboxEvents i j _ hdraws hd
      rw [← hij, Call.isStart_of_startDraws hdraws] at hj
      cases hj

theorem mem_of_stored {db : Store} {record : IdempotencyRecord} (h : c.stored db = some record) :
    record ∈ db.idempotencyRecords.rows ∧
      record.organizationId = c.targetWorkspace.organizationId ∧ record.key = c.idempotencyKey := by
  have hkey := List.find?_some h
  rw [Bool.and_eq_true, decide_eq_true_iff, decide_eq_true_iff] at hkey
  exact ⟨List.mem_of_find?_eq_some h, hkey⟩

/-- A record of a key that was free at first is the record of a creation. -/
theorem Started.stored (h : Started calls db₀ σ g) (hfree : c.stored db₀ = none)
    {record : IdempotencyRecord} (hr : c.stored σ.db = some record) :
    ∃ e ∈ g, e.2.record = record := by
  obtain ⟨hmem, horganization, hkey⟩ := mem_of_stored hr
  rw [h.records] at hmem
  rcases List.mem_append.mp hmem with hmem | hmem
  · have hnone := List.find?_eq_none.mp hfree record hmem
    simp [horganization, hkey] at hnone
  · exact List.mem_map.mp hmem

end

/-! ## Answers -/

/-- The answer names the job of the record and its connection. -/
def Names (db : Store) (record : IdempotencyRecord) (dto : TenantConnectionDto) (job : Job) : Prop :=
  job.id = record.jobId ∧
    (∃ row, db.jobs.find record.jobId = some row ∧ row.tenantConnectionId = dto.id) ∧
    ∃ connection, db.tenantConnections.find dto.id = some connection ∧
      dto.workspaceId = connection.workspaceId ∧ dto.organizationId = connection.organizationId

theorem Names.keeps {db db' : Store} {record : IdempotencyRecord} {dto : TenantConnectionDto}
    {job : Job} (h : Names db record dto job) (hk : Keeps db db') : Names db' record dto job := by
  obtain ⟨hid, ⟨row, hrow, htc⟩, connection, hc, hw, ho⟩ := h
  obtain ⟨row', hrow', htc'⟩ := hk.job hrow
  obtain ⟨connection', hc', hw', ho'⟩ := hk.connection hc
  exact ⟨hid, ⟨row', hrow', htc'.trans htc⟩, connection', hc', hw.trans hw'.symm,
    ho.trans ho'.symm⟩

section

variable {ι : Type} (calls : ι → Call) (db₀ : Store)

/-- What the answer of an admitted start says of the store. -/
def Answered (i : ι) (c : Creation) :
    StartTenantValidationResult → Database ι × List (ι × Creation) → Prop
  | .notFound, _ => False
  | .idempotencyConflict, t => Pending i t.2 ∧ (Undisputed calls db₀ c →
      ∃ record, c.stored t.1.db = some record ∧ record.payloadFingerprint ≠ c.payloadFingerprint)
  | .accepted dto job reused, t => (if reused then Pending i t.2 else (i, c) ∈ t.2) ∧
      ∃ record, c.stored t.1.db = some record ∧
        record.payloadFingerprint = c.payloadFingerprint ∧ Names t.1.db record dto job

/-- The transaction failed; where ids are new, it lost a race for the key. -/
def Aborted (i : ι) (c : Creation) (e : JsError) (t : Database ι × List (ι × Creation)) : Prop :=
  At i .idle (fun db => Undisputed calls db₀ c →
    isUniqueViolation e = true ∧ (c.stored db).isSome = true) t

variable {calls} {db₀} {i : ι} {c : Creation}

theorem stable_stored {ks : List Lock} {P Q : Prop} :
    Stable ks fun db => P → Q ∧ (c.stored db).isSome = true := by
  apply Stable.keeps
  intro db db' hk h hp
  obtain ⟨hq, hsome⟩ := h hp
  obtain ⟨record, hr⟩ := Option.isSome_iff_exists.mp hsome
  have hr' : c.stored db' = some record := hk.record hr
  rw [hr']
  exact ⟨hq, rfl⟩

theorem stable_record {ks : List Lock} {record : IdempotencyRecord} :
    Stable ks fun db => c.stored db = some record :=
  Stable.keeps fun _ _ hk h => hk.record h

/-- The job that was read keeps its connection. -/
theorem stable_job {ks : List Lock} {id tenantConnectionId : Uuid} :
    Stable ks fun db => ∃ row, db.jobs.find id = some row ∧
      row.tenantConnectionId = tenantConnectionId := by
  apply Stable.keeps
  intro db db' hk ⟨row, hrow, htc⟩
  obtain ⟨row', hrow', htc'⟩ := hk.job hrow
  exact ⟨row', hrow', htc'.trans htc⟩

theorem record_mismatch {record : IdempotencyRecord}
    (h : record.operation ≠ .tenantValidation ∨ record.payloadFingerprint ≠ c.payloadFingerprint) :
    record.payloadFingerprint ≠ c.payloadFingerprint := by
  rcases h with h | h
  · cases hop : record.operation
    exact absurd hop h
  · exact h

theorem record_match {record : IdempotencyRecord}
    (h : ¬ (record.operation ≠ .tenantValidation ∨
      record.payloadFingerprint ≠ c.payloadFingerprint)) :
    record.payloadFingerprint = c.payloadFingerprint := by
  rw [not_or, not_not, not_not] at h
  exact h.2

/-- Where the key was free at first, the record's job is stored. -/
theorem Started.job_of_record {σ : Database ι} {g : List (ι × Creation)}
    (h : Started calls db₀ σ g) (hu : Undisputed calls db₀ c) {record : IdempotencyRecord}
    (hr : c.stored σ.db = some record) : σ.db.jobs.find record.jobId ≠ none := by
  obtain ⟨e, he, rfl⟩ := h.stored hu.2 hr
  obtain ⟨row, hrow, -⟩ := (h.lasts e he).job
  intro hnone
  exact absurd (hnone.symm.trans hrow) (by simp)

/-- The rows read for an answer are named by it. -/
theorem names_of_read {σ : Database ι} {g : List (ι × Creation)} (h : Started calls db₀ σ g)
    {record : IdempotencyRecord} {job : Job} (hid : job.id = record.jobId)
    (hjob : ∃ row, σ.db.jobs.find record.jobId = some row ∧
      row.tenantConnectionId = job.tenantConnectionId) :
    ∃ connection, σ.db.tenantConnections.find job.tenantConnectionId = some connection ∧
      Names σ.db record (toTenantConnectionDto connection) job := by
  obtain ⟨row, hrow, htc⟩ := hjob
  have hsome := h.homed _ _ hrow
  rw [htc] at hsome
  obtain ⟨connection, hc⟩ := Option.isSome_iff_exists.mp hsome
  have hcid := Store.tenantConnection_id hc
  have hdto : (toTenantConnectionDto connection).id = job.tenantConnectionId := hcid
  refine ⟨connection, hc, hid, ⟨row, hrow, htc.trans hdto.symm⟩, connection, ?_, rfl, rfl⟩
  rw [hdto, hc]

end

/-! ## The transaction -/

section

variable {ι : Type} {calls : ι → Call} {db₀ : Store} {i : ι} {c : Creation}
  {t u : Database ι × List (ι × Creation)}

theorem Answered.rely {a : StartTenantValidationResult} (h : Answered calls db₀ i c a t)
    (hr : (startContract calls db₀).rely i t u) : Answered calls db₀ i c a u := by
  have hgrows := hr.2.2.2
  cases a with
  | notFound => exact absurd h not_false
  | idempotencyConflict =>
      refine ⟨h.1.grows hgrows, fun hu => ?_⟩
      obtain ⟨record, hrecord, hne⟩ := h.2 hu
      exact ⟨record, hgrows.1.record hrecord, hne⟩
  | accepted dto job reused =>
      obtain ⟨hmine, record, hrecord, hf, hnames⟩ := h
      refine ⟨?_, record, hgrows.1.record hrecord, hf, hnames.keeps hgrows.1⟩
      cases reused with
      | true =>
          have hpending : Pending i t.2 := hmine
          exact hpending.grows hgrows
      | false =>
          obtain ⟨-, later, hlater, -⟩ := hgrows
          have hmem : (i, c) ∈ u.2 := by
            rw [hlater]
            exact List.mem_append_left _ hmine
          exact hmem

/-- An error that cannot happen where ids are new. -/
theorem aborted_of_absurd {e : JsError} {s : Session Write Lock} {K : Store → Prop}
    (ht : At i s K t) (habsurd : ¬ Undisputed calls db₀ c) :
    At i s (fun db => Undisputed calls db₀ c →
      isUniqueViolation e = true ∧ (c.stored db).isSome = true) t :=
  ht.know fun hu => absurd hu habsurd

/-- The workspace that was found is there for the foreign key of the connection. -/
theorem Started.workspace {σ : Database ι} {g : List (ι × Creation)} (h : Started calls db₀ σ g)
    (hadmitted : (calls i).Admitted db₀ c) :
    (σ.db.workspace c.targetWorkspace.id c.targetWorkspace.organizationId).isSome = true := by
  cases hcall : calls i with
  | start grants input cipher draws =>
      rw [hcall] at hadmitted
      obtain ⟨id, -, hfind⟩ := Option.bind_eq_some_iff.mp hadmitted.2.2.found
      have hid : c.targetWorkspace.id = id := Table.key_of_find hfind
      rw [Store.workspace, h.keeps.workspaces, hid, hfind, Option.filter_some, if_pos (by simp)]
      rfl
  | claim => rw [hcall] at hadmitted; exact absurd hadmitted not_false
  | renew => rw [hcall] at hadmitted; exact absurd hadmitted not_false
  | recover => rw [hcall] at hadmitted; exact absurd hadmitted not_false
  | apply => rw [hcall] at hadmitted; exact absurd hadmitted not_false

/-- A connection that is not stored has no unfinished job. -/
theorem Started.nonTerminalElsewhere {σ : Database ι} {g : List (ι × Creation)}
    (h : Started calls db₀ σ g)
    (hconnection : σ.db.tenantConnections.find c.draws.tenantConnectionId = none) :
    (σ.db.putTenantConnection c.connection).nonTerminalElsewhere c.job = false := by
  rw [Store.nonTerminalElsewhere, List.any_eq_false]
  intro other ho
  have hfind := Table.find_of_mem (Table.mem_def.mpr ho)
  have hhome := h.homed _ _ hfind
  have hne : other.tenantConnectionId ≠ c.job.tenantConnectionId := by
    intro he
    have htc : c.job.tenantConnectionId = c.draws.tenantConnectionId := rfl
    rw [he, htc, hconnection] at hhome
    cases hhome
  simp [hne]

/-- Where ids are new, no row of an admitted start is taken before it creates one. -/
theorem At.taken {e : JsError} {s : Session Write Lock} {K : Store → Prop} (h : At i s K t)
    (hadmitted : (calls i).Admitted db₀ c) (ht : Started calls db₀ t.1 t.2)
    (htaken : (t.1.db.tenantConnections.find c.draws.tenantConnectionId).isSome = true ∨
      (t.1.db.jobs.find c.draws.jobId).isSome = true ∨
      (t.1.db.idempotencyRecords.find c.draws.idempotencyRecordId).isSome = true ∨
      (t.1.db.outboxEvents.find c.draws.outboxEventId).isSome = true) :
    At i s (fun db => Undisputed calls db₀ c →
      isUniqueViolation e = true ∧ (c.stored db).isSome = true) t := by
  apply aborted_of_absurd h
  intro hu
  obtain ⟨hconnection, hjob, hrecord, hevent⟩ := ht.untaken hu.1 hadmitted.draws h.pending
  rw [hconnection, hjob, hrecord, hevent] at htaken
  simp at htaken

variable [DecidableEq ι]

/-- An insert that finds an id of the start taken aborts its transaction. -/
theorem start_taken {α : Type} {post : α → Database ι × List (ι × Creation) → Prop} {e : JsError}
    {ws : List Write} {ks : List Lock} {K : Store → Prop} (hadmitted : (calls i).Admitted db₀ c)
    (ht : At i ⟨true, ws, ks⟩ K t) (hstarted : Started calls db₀ t.1 t.2)
    (htaken : (t.1.db.tenantConnections.find c.draws.tenantConnectionId).isSome = true ∨
      (t.1.db.jobs.find c.draws.jobId).isSome = true ∨
      (t.1.db.idempotencyRecords.find c.draws.idempotencyRecordId).isSome = true ∨
      (t.1.db.outboxEvents.find c.draws.outboxEventId).isSome = true) :
    (startContract calls db₀).Outline postgres.readCommitted i post (Aborted calls db₀ i c)
      (Program.raise e : TransactionProgram α).statements.finish t := by
  have hat := ht.taken (e := e) hadmitted hstarted htaken
  exact start_abort hadmitted.isStart hat stable_stored fun _ _ hat => hat

/-- The insert of the connection. -/
theorem start_insertTenantConnection {α : Type}
    {post : α → Database ι × List (ι × Creation) → Prop}
    {f : Option TenantConnection → TransactionProgram α} (hadmitted : (calls i).Admitted db₀ c)
    (ht : At i ⟨true, [], []⟩ (fun _ => True) t)
    (hnext : ∀ v, Started calls db₀ v.1 v.2 →
      At i ⟨true, [.tenantConnection c.connection], tenantConnectionLocks c.connection⟩
        (fun db => db.tenantConnections.find c.draws.tenantConnectionId = none) v →
      (startContract calls db₀).Outline postgres.readCommitted i post (Aborted calls db₀ i c)
        (f (some c.connection)).statements.finish v) :
    (startContract calls db₀).Outline postgres.readCommitted i post (Aborted calls db₀ i c)
      (query (.insertTenantConnection c.connection) >>= f).statements.finish t := by
  apply start_query hadmitted.isStart ht (Stable.always [] True)
  intro v r vs ls hv hx hat
  rw [exec_insertTenantConnection _ rfl (hv.workspace hadmitted)] at hx
  split at hx
  · rename_i hsome
    cases hx
    exact start_taken hadmitted hat hv (.inl hsome)
  · rename_i hnone
    cases hx
    exact hnext v hv (hat.know (Option.not_isSome_iff_eq_none.mp hnone))

/-- The insert of the job. -/
theorem start_insertJob {α : Type} {post : α → Database ι × List (ι × Creation) → Prop}
    {f : Option Job → TransactionProgram α} (hadmitted : (calls i).Admitted db₀ c)
    (ht : At i ⟨true, [.tenantConnection c.connection], tenantConnectionLocks c.connection⟩
      (fun db => db.tenantConnections.find c.draws.tenantConnectionId = none) t)
    (hnext : ∀ v, Started calls db₀ v.1 v.2 →
      At i ⟨true, [.tenantConnection c.connection, .job c.job],
          tenantConnectionLocks c.connection ++ jobLocks c.job⟩
        (fun db => db.tenantConnections.find c.draws.tenantConnectionId = none ∧
          db.jobs.find c.draws.jobId = none) v →
      (startContract calls db₀).Outline postgres.readCommitted i post (Aborted calls db₀ i c)
        (f (some c.job)).statements.finish v) :
    (startContract calls db₀).Outline postgres.readCommitted i post (Aborted calls db₀ i c)
      (query (.insertJob c.job) >>= f).statements.finish t := by
  -- the locks of the inserted rows keep what was found missing
  apply start_query hadmitted.isStart ht (Stable.tenantConnection List.mem_cons_self)
  intro v r vs ls hv hx hat
  have hstored : (((v.1.db.putTenantConnection c.connection).tenantConnections.find
      c.job.tenantConnectionId).isSome) = true := by
    have hfind : (v.1.db.putTenantConnection c.connection).tenantConnections.find
        c.job.tenantConnectionId = some c.connection := Table.find_put_self _ _
    rw [hfind]
    rfl
  have hx' := (exec_insertJob Store.activeElsewhere (hv.nonTerminalElsewhere hat.known)
    hstored).symm.trans hx
  split at hx'
  · rename_i hsome
    cases hx'
    exact start_taken hadmitted hat hv (.inr (.inl hsome))
  · rename_i hnone
    cases hx'
    exact hnext v hv (hat.know ⟨hat.known, Option.not_isSome_iff_eq_none.mp hnone⟩)

/-- The insert of the record: the key may have been taken since the transaction read it. -/
theorem start_insertIdempotencyRecord {α : Type}
    {post : α → Database ι × List (ι × Creation) → Prop} {f : Unit → TransactionProgram α}
    (hadmitted : (calls i).Admitted db₀ c)
    (ht : At i ⟨true, [.tenantConnection c.connection, .job c.job],
        tenantConnectionLocks c.connection ++ jobLocks c.job⟩
      (fun db => db.tenantConnections.find c.draws.tenantConnectionId = none ∧
        db.jobs.find c.draws.jobId = none) t)
    (hnext : ∀ v, Started calls db₀ v.1 v.2 →
      At i ⟨true, [.tenantConnection c.connection, .job c.job, .idempotencyRecord c.record],
          tenantConnectionLocks c.connection ++ jobLocks c.job ++
            (Write.idempotencyRecord c.record).locks⟩
        (fun db => (db.tenantConnections.find c.draws.tenantConnectionId = none ∧
            db.jobs.find c.draws.jobId = none) ∧
          db.idempotencyRecords.find c.draws.idempotencyRecordId = none ∧ c.stored db = none) v →
      (startContract calls db₀).Outline postgres.readCommitted i post (Aborted calls db₀ i c)
        (f ()).statements.finish v) :
    (startContract calls db₀).Outline postgres.readCommitted i post (Aborted calls db₀ i c)
      (query (.insertIdempotencyRecord c.record) >>= f).statements.finish t := by
  have hconnectionLock : Lock.tenantConnection c.draws.tenantConnectionId ∈
      tenantConnectionLocks c.connection ++ jobLocks c.job :=
    List.mem_append_left _ List.mem_cons_self
  have hjobLock : Lock.job c.draws.jobId ∈
      tenantConnectionLocks c.connection ++ jobLocks c.job :=
    List.mem_append_right _ List.mem_cons_self
  apply start_query hadmitted.isStart ht
    ((Stable.tenantConnection hconnectionLock).and (Stable.job hjobLock))
  intro v r vs ls hv hx hat
  have hstored : ((((v.1.db.putTenantConnection c.connection).putJob c.job).jobs.find
      c.record.jobId).isSome) = true := by
    have hfind : ((v.1.db.putTenantConnection c.connection).putJob c.job).jobs.find
        c.record.jobId = some c.job := Table.find_put_self _ _
    rw [hfind]
    rfl
  have hx' := (exec_insertIdempotencyRecord Store.activeElsewhere hstored).symm.trans hx
  -- a violation comes from the id, which is drawn apart, or from the key: then its record is stored
  split at hx'
  · rename_i hsome
    cases hx'
    rw [Bool.or_eq_true] at hsome
    rcases hsome with hsome | hsome
    · exact start_taken hadmitted hat hv (.inr (.inr (.inl hsome)))
    · apply start_abort hadmitted.isStart (hat.know (F := fun db => Undisputed calls db₀ c →
        isUniqueViolation uniqueViolation = true ∧ (c.stored db).isSome = true)
        fun _ => ⟨rfl, hsome⟩) stable_stored
      exact fun _ _ hat => hat
  · rename_i hfree
    cases hx'
    rw [Bool.or_eq_true, not_or] at hfree
    exact hnext v hv (hat.know ⟨hat.known, Option.not_isSome_iff_eq_none.mp hfree.1,
      Option.not_isSome_iff_eq_none.mp hfree.2⟩)

/-- The insert of the event, with which all four rows are known to be free. -/
theorem start_insertOutboxEvent {α : Type} {post : α → Database ι × List (ι × Creation) → Prop}
    {f : Unit → TransactionProgram α} (hadmitted : (calls i).Admitted db₀ c)
    (ht : At i ⟨true, [.tenantConnection c.connection, .job c.job, .idempotencyRecord c.record],
        tenantConnectionLocks c.connection ++ jobLocks c.job ++
          (Write.idempotencyRecord c.record).locks⟩
      (fun db => (db.tenantConnections.find c.draws.tenantConnectionId = none ∧
          db.jobs.find c.draws.jobId = none) ∧
        db.idempotencyRecords.find c.draws.idempotencyRecordId = none ∧ c.stored db = none) t)
    (hnext : ∀ v ks, Started calls db₀ v.1 v.2 → Stable ks c.Fresh →
      At i ⟨true, c.writes, ks⟩ c.Fresh v →
      (startContract calls db₀).Outline postgres.readCommitted i post (Aborted calls db₀ i c)
        (f ()).statements.finish v) :
    (startContract calls db₀).Outline postgres.readCommitted i post (Aborted calls db₀ i c)
      (query (.insertOutboxEvent c.event) >>= f).statements.finish t := by
  have hstable : Stable (tenantConnectionLocks c.connection ++ jobLocks c.job ++
      (Write.idempotencyRecord c.record).locks) fun db =>
      (db.tenantConnections.find c.draws.tenantConnectionId = none ∧
        db.jobs.find c.draws.jobId = none) ∧
      db.idempotencyRecords.find c.draws.idempotencyRecordId = none ∧ c.stored db = none := by
    apply Stable.and
    · apply Stable.and
      · exact Stable.tenantConnection
          (List.mem_append_left _ (List.mem_append_left _ List.mem_cons_self))
      · exact Stable.job (List.mem_append_left _ (List.mem_append_right _ List.mem_cons_self))
    · apply Stable.and
      · exact Stable.idempotencyRecord (List.mem_append_right _ List.mem_cons_self)
      · exact Stable.idempotencyKey
          (List.mem_append_right _ (List.mem_cons_of_mem _ List.mem_cons_self))
  apply start_query hadmitted.isStart ht hstable
  intro v r vs ls hv hx hat
  have hstored : (((((v.1.db.putTenantConnection c.connection).putJob
      c.job).putIdempotencyRecord c.record).jobs.find c.event.jobId).isSome) = true := by
    have hfind : (((v.1.db.putTenantConnection c.connection).putJob
        c.job).putIdempotencyRecord c.record).jobs.find c.event.jobId = some c.job :=
      Table.find_put_self _ _
    rw [hfind]
    rfl
  have hx' := (exec_insertOutboxEvent Store.activeElsewhere hstored).symm.trans hx
  split at hx'
  · rename_i hsome
    cases hx'
    exact start_taken hadmitted hat hv (.inr (.inr (.inr hsome)))
  · rename_i hevent
    cases hx'
    have hfresh : c.Fresh v.1.db := ⟨hat.known.1.1, hat.known.1.2, hat.known.2.1, hat.known.2.2,
      Option.not_isSome_iff_eq_none.mp hevent⟩
    -- what was seen free stays free: the locks that came with the inserts protect all of it
    refine hnext v _ hv ?_ (hat.know hfresh)
    intro db db' hk hp hf
    have hold := hstable db db' hk (fun k hl => hp k (List.mem_append_left _ hl))
      ⟨⟨hf.connection, hf.job⟩, hf.record, hf.key⟩
    have hevent := Stable.outboxEvent (List.mem_append_right _ List.mem_cons_self) db db' hk hp
      hf.event
    exact ⟨hold.1.1, hold.1.2, hold.2.1, hold.2.2, hevent⟩

/-- The transaction of an admitted start. -/
theorem outline_startTransaction (hadmitted : (calls i).Admitted db₀ c)
    (ht : At i .idle (fun _ => True) t) :
    (startContract calls db₀).Outline postgres.readCommitted i (Answered calls db₀ i c)
      (Aborted calls db₀ i c)
      (transaction (startTransaction c.targetWorkspace c.idempotencyKey c.encryptedCredentials
        c.payloadFingerprint c.draws)) t := by
  have hi := hadmitted.isStart
  unfold transaction startTransaction
  apply start_command hi ht (Stable.always [] True)
  · exact fun db => rfl
  intro v hv hat
  apply start_select hi (fun db => rfl) hat (Stable.always [] True)
  intro v hv hat
  cases hrecord : v.1.db.idempotencyRecord c.targetWorkspace.organizationId c.idempotencyKey with
  -- the key is taken: the answer names the job of the record
  | some record =>
      have hstored : c.stored v.1.db = some record := hrecord
      dsimp only
      split
      · rename_i hmismatch
        apply start_return hi (hat.know (F := fun db => c.stored db = some record) hstored)
          stable_record
        exact fun u _ hat => ⟨hat.pending, fun _ => ⟨record, hat.known, record_mismatch hmismatch⟩⟩
      rename_i hmatch
      apply start_select hi (fun db => rfl)
        (hat.know (F := fun db => c.stored db = some record) hstored) stable_record
      intro v hv hat
      cases hjob : v.1.db.jobs.find record.jobId with
      | none =>
          have habsurd : ¬ Undisputed calls db₀ c := fun hu => hv.job_of_record hu hat.known hjob
          exact start_abort hi (aborted_of_absurd hat habsurd) stable_stored fun _ _ hat => hat
      | some job =>
          have hid : job.id = record.jobId := Store.job_id hjob
          apply start_select hi (fun db => rfl)
            (hat.know (F := fun db => c.stored db = some record ∧
              ∃ row, db.jobs.find record.jobId = some row ∧
                row.tenantConnectionId = job.tenantConnectionId) ⟨hat.known, job, hjob, rfl⟩)
            (stable_record.and stable_job)
          intro v hv hat
          obtain ⟨connection, hconnection, hnames⟩ := names_of_read hv hid hat.known.2
          rw [hconnection]
          apply start_return hi (hat.know (F := fun db => c.stored db = some record ∧
            Names db record (toTenantConnectionDto connection) job) ⟨hat.known.1, hnames⟩)
          · exact stable_record.and (Stable.keeps fun _ _ hk h => h.keeps hk)
          · exact fun u _ hat => ⟨hat.pending, record, hat.known.1, record_match hmatch, hat.known.2⟩
  -- the key was free when it was read; each insert asks the indexes again
  | none =>
      apply start_insertTenantConnection hadmitted hat
      intro v hv hat
      apply start_insertJob hadmitted hat
      intro v hv hat
      apply start_insertIdempotencyRecord hadmitted hat
      intro v hv hat
      apply start_insertOutboxEvent hadmitted hat
      intro v ks hv hstable hat
      apply start_commit hadmitted hat hstable
      intro u hu hmem
      have hlasts := hu.lasts _ hmem
      obtain ⟨row, hrow, htc⟩ := hlasts.job
      obtain ⟨connection, hc, hw, ho⟩ := hlasts.connection
      exact ⟨hmem, c.record, hlasts.record, rfl, rfl, ⟨row, hrow, htc⟩, connection, hc, hw.symm,
        ho.symm⟩

/-- After a unique violation a start answers from the record that took its key. -/
theorem outline_startAfterViolation (hadmitted : (calls i).Admitted db₀ c)
    {fail : JsError → Database ι × List (ι × Creation) → Prop}
    (hfail : ∀ e v, Pending i v.2 → ¬ Undisputed calls db₀ c → fail e v)
    (ht : At i .idle (fun db => Undisputed calls db₀ c → True ∧ (c.stored db).isSome = true) t) :
    (startContract calls db₀).Outline postgres.readCommitted i (Answered calls db₀ i c) fail
      (startAfterViolation c.targetWorkspace c.idempotencyKey c.payloadFingerprint) t := by
  have hi := hadmitted.isStart
  unfold startAfterViolation
  apply start_execute hi (fun db => rfl) ht stable_stored
  intro v hv hat
  rw [Program.resume_ok]
  cases hrecord : v.1.db.idempotencyRecord c.targetWorkspace.organizationId c.idempotencyKey with
  -- a unique violation of an undisputed start comes from its key, which is stored by now
  | none =>
      intro u hr hu
      have hat' := hat.rely stable_stored hr
      refine ⟨hat'.pending, fun hund => ?_⟩
      have hsome := (hat.known hund).2
      rw [Creation.stored, hrecord] at hsome
      cases hsome
  | some record =>
      have hstored : c.stored v.1.db = some record := hrecord
      dsimp only
      split
      · rename_i hmismatch
        intro u hr hu
        have hat' := (hat.know (F := fun db => c.stored db = some record) hstored).rely
          stable_record hr
        exact ⟨hat'.pending, fun _ => ⟨record, hat'.known, record_mismatch hmismatch⟩⟩
      rename_i hmatch
      unfold getJobWithTenant
      rw [Program.bind_assoc]
      apply start_execute hi (fun db => rfl)
        (hat.know (F := fun db => c.stored db = some record) hstored) stable_record
      intro v hv hat
      rw [Program.resume_ok]
      cases hjob : v.1.db.jobs.find record.jobId with
      | none =>
          intro u hr hu
          have hat' := hat.rely stable_record hr
          exact hfail _ _ hat'.pending fun hund => hv.job_of_record hund hat.known hjob
      | some job =>
          have hid : job.id = record.jobId := Store.job_id hjob
          dsimp only
          rw [Program.bind_assoc]
          apply start_execute hi (fun db => rfl)
            (hat.know (F := fun db => c.stored db = some record ∧
              ∃ row, db.jobs.find record.jobId = some row ∧
                row.tenantConnectionId = job.tenantConnectionId) ⟨hat.known, job, hjob, rfl⟩)
            (stable_record.and stable_job)
          intro v hv hat
          obtain ⟨connection, hconnection, hnames⟩ := names_of_read hv hid hat.known.2
          rw [Program.resume_ok, hconnection]
          intro u hr hu
          have hat' := (hat.know (F := fun db => c.stored db = some record ∧
            Names db record (toTenantConnectionDto connection) job) ⟨hat.known.1, hnames⟩).rely
            (stable_record.and (Stable.keeps fun _ _ hk h => h.keeps hk)) hr
          exact ⟨hat'.pending, record, hat'.known.1, record_match hmatch, hat'.known.2⟩

/-! ## The whole call -/

/-- The answer of a start: not found for want of a workspace or of access, or that of its
transaction. -/
def StartAnswered (calls : ι → Call) (db₀ : Store) (i : ι) (grants : List AccessGrant)
    (input : StartTenantValidationInput) (a : StartTenantValidationResult)
    (t : Database ι × List (ι × Creation)) : Prop :=
  (a = .notFound ∧ Pending i t.2 ∧ (uuidIn input.workspaceId).isSome = true ∧
    ∀ targetWorkspace, (uuidIn input.workspaceId).bind db₀.workspaces.find = some targetWorkspace →
      isAuthorized grants
        ⟨targetWorkspace.organizationId, .write, .workspace targetWorkspace.id⟩ = false) ∨
  ∃ c, (calls i).Admitted db₀ c ∧ Answered calls db₀ i c a t

/-- What the error of a start tells. -/
def StartFailed (calls : ι → Call) (db₀ : Store) (i : ι) (grants : List AccessGrant)
    (input : StartTenantValidationInput) (e : JsError) (t : Database ι × List (ι × Creation)) :
    Prop :=
  Pending i t.2 ∧ (∀ c, (calls i).Admitted db₀ c → ¬ Undisputed calls db₀ c) ∧
    (assertStartInput input = .ok () →
      (uuidIn input.workspaceId = none ∧ e = invalidTextRepresentation) ∨
      ∃ targetWorkspace,
        (uuidIn input.workspaceId).bind db₀.workspaces.find = some targetWorkspace ∧
        isAuthorized grants
          ⟨targetWorkspace.organizationId, .write, .workspace targetWorkspace.id⟩ = true)

variable {grants : List AccessGrant} {input : StartTenantValidationInput}
  {cipher : TenantCredentialCipher} {draws : StartDraws}

omit [DecidableEq ι] in
theorem Call.Admitted.admits (hcall : calls i = .start grants input cipher draws)
    (h : (calls i).Admitted db₀ c) : Admits db₀ grants input cipher draws c.targetWorkspace
      c.encryptedCredentials c.payloadFingerprint := by
  rw [hcall] at h
  exact h.2.2

/-- A call that raises before its transaction was not admitted. -/
theorem start_refused {e : JsError} (ht : At i .idle (fun _ => True) t)
    (hnot : ∀ c, ¬ (calls i).Admitted db₀ c)
    (hwhy : assertStartInput input = .ok () →
      (uuidIn input.workspaceId = none ∧ e = invalidTextRepresentation) ∨
      ∃ targetWorkspace,
        (uuidIn input.workspaceId).bind db₀.workspaces.find = some targetWorkspace ∧
        isAuthorized grants
          ⟨targetWorkspace.organizationId, .write, .workspace targetWorkspace.id⟩ = true) :
    (startContract calls db₀).Outline postgres.readCommitted i
      (StartAnswered calls db₀ i grants input) (StartFailed calls db₀ i grants input)
      (.raise e) t := by
  intro u hr hu
  have hat := ht.rely (Stable.always _ True) hr
  exact ⟨hat.pending, fun c hc => absurd hc (hnot c), hwhy⟩

/-- A call whose workspace is missing, or not to be written by its caller. -/
theorem start_notFound (ht : At i .idle (fun _ => True) t)
    (hid : (uuidIn input.workspaceId).isSome = true)
    (hwhy : ∀ targetWorkspace,
      (uuidIn input.workspaceId).bind db₀.workspaces.find = some targetWorkspace →
      isAuthorized grants
        ⟨targetWorkspace.organizationId, .write, .workspace targetWorkspace.id⟩ = false) :
    (startContract calls db₀).Outline postgres.readCommitted i
      (StartAnswered calls db₀ i grants input) (StartFailed calls db₀ i grants input)
      (.ret .notFound) t := by
  intro u hr hu
  have hat := ht.rely (Stable.always _ True) hr
  exact .inl ⟨rfl, hat.pending, hid, hwhy⟩

/-- The transaction of an admitted call, and the second try after a unique violation. -/
theorem outline_admitted (hadmitted : (calls i).Admitted db₀ c)
    (hfound : (uuidIn input.workspaceId).bind db₀.workspaces.find = some c.targetWorkspace)
    (hauth : isAuthorized grants
      ⟨c.targetWorkspace.organizationId, .write, .workspace c.targetWorkspace.id⟩ = true)
    (ht : At i .idle (fun _ => True) t) :
    (startContract calls db₀).Outline postgres.readCommitted i
      (StartAnswered calls db₀ i grants input) (StartFailed calls db₀ i grants input)
      (Program.handle
        (transaction (startTransaction c.targetWorkspace c.idempotencyKey c.encryptedCredentials
          c.payloadFingerprint c.draws))
        (fun error =>
          if !isUniqueViolation error then .raise error
          else startAfterViolation c.targetWorkspace c.idempotencyKey c.payloadFingerprint)) t := by
  have hfailed : ∀ e (v : Database ι × List (ι × Creation)), Pending i v.2 →
      ¬ Undisputed calls db₀ c → StartFailed calls db₀ i grants input e v := by
    intro e v hp hnot
    refine ⟨hp, fun c' hc' => ?_, fun _ => .inr ⟨c.targetWorkspace, hfound, hauth⟩⟩
    rw [hc'.unique hadmitted]
    exact hnot
  apply Contract.Outline.handle (startContract_sound calls db₀) (fun _ _ _ _ h => h)
  apply (outline_startTransaction hadmitted ht).conseq
  · exact fun a u _ ha => .inr ⟨_, hadmitted, ha⟩
  intro e u _ haborted
  split
  · -- another error than a unique violation ends the call
    rename_i hother
    intro w hr hw
    have hat := At.rely haborted stable_stored hr
    apply hfailed e w hat.pending
    intro hund
    rw [(hat.known hund).1] at hother
    cases hother
  · apply (outline_startAfterViolation hadmitted hfailed (haborted.know
      fun hund => ⟨trivial, (haborted.known hund).2⟩)).conseq
    · exact fun a w _ ha => .inr ⟨_, hadmitted, ha⟩
    · exact fun _ _ _ h => h

/-- The outline of a start. -/
theorem outline_start (hcall : calls i = .start grants input cipher draws)
    (ht : At i .idle (fun _ => True) t) :
    (startContract calls db₀).Outline postgres.readCommitted i
      (StartAnswered calls db₀ i grants input) (StartFailed calls db₀ i grants input)
      (startTenantValidation grants input cipher draws) t := by
  have hi : (calls i).isStart = true := by rw [hcall]; rfl
  unfold startTenantValidation
  cases hinput : assertStartInput input with
  | error e =>
      rw [Program.ofExcept_error, Program.raise_bind]
      apply start_refused ht
      · intro c hadmitted
        have hchecked := (hadmitted.admits hcall).checked
        rw [hinput] at hchecked
        cases hchecked
      · intro h
        rw [hinput] at h
        cases h
  | ok _ =>
      rw [Program.ofExcept_ok, Program.ret_bind]
      -- no call writes a workspace, so what is read here is what the creation means
      apply start_execute hi (fun db => exec_selectWorkspace _) ht (Stable.always [] True)
      intro v hv hat
      cases hid : uuidIn input.workspaceId with
      | none =>
          apply start_refused hat
          · intro c hadmitted
            have hfound := (hadmitted.admits hcall).found
            rw [hid] at hfound
            cases hfound
          · exact fun _ => .inl ⟨hid, rfl⟩
      | some id =>
          have hworkspaces : (uuidIn input.workspaceId).bind db₀.workspaces.find =
              v.1.db.workspaces.find id := by
            rw [hid, Option.bind_some, hv.keeps.workspaces]
          have hsome : (uuidIn input.workspaceId).isSome = true := by rw [hid]; rfl
          dsimp only
          rw [Program.resume_ok]
          cases hfind : v.1.db.workspaces.find id with
          | none =>
              apply start_notFound hat hsome
              intro targetWorkspace hfound
              rw [hworkspaces, hfind] at hfound
              cases hfound
          | some targetWorkspace =>
              rw [hfind] at hworkspaces
              -- the checks before the transaction, in the order of the source: a call that one of
              -- them ends is not admitted
              cases hauth : isAuthorized grants
                  ⟨targetWorkspace.organizationId, .write, .workspace targetWorkspace.id⟩ with
              | false =>
                  dsimp only
                  rw [hauth, if_pos (show (!false) = true from rfl)]
                  apply start_notFound hat hsome
                  intro other hfound
                  rw [hworkspaces] at hfound
                  cases hfound
                  exact hauth
              | true =>
                  dsimp only
                  rw [hauth, if_neg (by decide), getOrganizationEntitlement_uuidOut,
                    Program.ofExcept_ok, Program.ret_bind]
                  dsimp only
                  rw [if_neg (by decide)]
                  have hsame : ∀ c, (calls i).Admitted db₀ c →
                      c.targetWorkspace = targetWorkspace := by
                    intro c hadmitted
                    have hfound := (hadmitted.admits hcall).found
                    exact Option.some.inj (hfound.symm.trans hworkspaces)
                  cases hencrypt : cipher.encrypt input.credentials
                      ⟨uuidOut targetWorkspace.id, .tenantValidation⟩ draws.iv with
                  | error e =>
                      rw [Program.ofExcept_error, Program.raise_bind]
                      apply start_refused hat
                      · intro c hadmitted
                        have he := (hadmitted.admits hcall).encrypted
                        rw [hsame c hadmitted, hencrypt] at he
                        cases he
                      · exact fun _ => .inr ⟨targetWorkspace, hworkspaces, hauth⟩
                  | ok encryptedCredentials =>
                      rw [Program.ofExcept_ok, Program.ret_bind]
                      cases hfingerprint : cipher.fingerprint
                          ⟨input.credentials, input.workspaceId, .tenantValidation⟩ with
                      | error e =>
                          rw [Program.ofExcept_error, Program.raise_bind]
                          apply start_refused hat
                          · intro c hadmitted
                            have hf := (hadmitted.admits hcall).fingerprint
                            rw [hfingerprint] at hf
                            cases hf
                          · exact fun _ => .inr ⟨targetWorkspace, hworkspaces, hauth⟩
                      | ok payloadFingerprint =>
                          rw [Program.ofExcept_ok, Program.ret_bind, Program.tryCatch_eq]
                          have hadmitted : (calls i).Admitted db₀ ⟨targetWorkspace,
                              input.idempotencyKey, encryptedCredentials, payloadFingerprint,
                              draws⟩ := by
                            rw [hcall]
                            exact ⟨rfl, rfl, hinput, hworkspaces, hauth, hencrypt, hfingerprint⟩
                          exact outline_admitted hadmitted hworkspaces hauth hat

end

end InboxSaas.Product
