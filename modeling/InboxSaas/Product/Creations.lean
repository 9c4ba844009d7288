import InboxSaas.Product.Keeping
import InboxSaas.Product.Locking

/-!
# Starts among other calls

Any number of calls of all kinds interleave on the database.  The ghost state lists the creations
that were committed, in order, with the calls that made them: the connections, jobs and records of
the store are the ones it had at first and one of each for every creation (`Started`).  Calls that
are no starts keep this whatever their statements do; what a start has to keep is the contract
`startContract`.
-/

namespace InboxSaas.Product

open Reasoning

/-- The database with its clients. -/
abbrev Database (ι : Type) : Type := Server ι Statement Statement.Reply JsError Store Write Lock

/-! ## The rows of a start -/

/-- What a start computed before its transaction inserts four rows. -/
structure Creation where
  targetWorkspace : Workspace
  idempotencyKey : JsString
  encryptedCredentials : EncryptedTenantCredentials
  payloadFingerprint : JsString
  draws : StartDraws

namespace Creation

variable (c : Creation)

def connection : TenantConnection :=
  newTenantConnection c.targetWorkspace c.encryptedCredentials c.draws

def job : Job := newJob c.draws c.draws.tenantConnectionId

def record : IdempotencyRecord :=
  newIdempotencyRecord c.targetWorkspace c.idempotencyKey c.payloadFingerprint c.draws c.draws.jobId

def event : OutboxEvent :=
  tenantValidationRequested c.draws.jobId c.draws.now ⟨c.draws.outboxEventId, c.draws.now⟩

def writes : List Write :=
  [.tenantConnection c.connection, .job c.job, .idempotencyRecord c.record, .outboxEvent c.event]

/-- The record that the store has for the key. -/
def stored (db : Store) : Option IdempotencyRecord :=
  db.idempotencyRecord c.targetWorkspace.organizationId c.idempotencyKey

/-- None of the four rows is taken, nor is the key. -/
structure Fresh (db : Store) : Prop where
  connection : db.tenantConnections.find c.draws.tenantConnectionId = none
  job : db.jobs.find c.draws.jobId = none
  record : db.idempotencyRecords.find c.draws.idempotencyRecordId = none
  key : c.stored db = none
  event : db.outboxEvents.find c.draws.outboxEventId = none

/-- The job that was started is there, with its connection, its record and its event. -/
structure Lasts (db : Store) : Prop where
  job : ∃ job, db.jobs.find c.draws.jobId = some job ∧
    job.tenantConnectionId = c.draws.tenantConnectionId
  connection : ∃ connection, db.tenantConnections.find c.draws.tenantConnectionId = some connection ∧
    connection.workspaceId = c.targetWorkspace.id ∧
    connection.organizationId = c.targetWorkspace.organizationId
  record : c.stored db = some c.record
  event : (db.outboxEvents.find c.draws.outboxEventId).isSome = true

variable {c} {db db' : Store}

theorem Lasts.keeps (h : c.Lasts db) (hk : Keeps db db') : c.Lasts db' where
  job := by
    obtain ⟨job, hjob, htc⟩ := h.job
    obtain ⟨job', hjob', htc'⟩ := hk.job hjob
    exact ⟨job', hjob', htc'.trans htc⟩
  connection := by
    obtain ⟨connection, hc, hw, ho⟩ := h.connection
    obtain ⟨connection', hc', hw', ho'⟩ := hk.connection hc
    exact ⟨connection', hc', hw'.trans hw, ho'.trans ho⟩
  record := hk.record h.record
  event := hk.event h.event

/-- The store after the four rows were committed. -/
def commit (c : Creation) (db : Store) : Store :=
  (((db.putTenantConnection c.connection).putJob c.job).putIdempotencyRecord c.record).putOutboxEvent
    c.event

theorem Fresh.keeps (h : c.Fresh db) : Keeps db (c.commit db) := by
  have hconnection : Keeps db (db.putTenantConnection c.connection) := by
    apply Keeps.putTenantConnection
    intro connection hc
    exact absurd (h.connection.symm.trans hc) (by simp)
  have hjob : Keeps (db.putTenantConnection c.connection)
      ((db.putTenantConnection c.connection).putJob c.job) := by
    apply Keeps.putJob
    intro job hj
    exact absurd (h.job.symm.trans hj) (by simp)
  have hrecord : Keeps ((db.putTenantConnection c.connection).putJob c.job)
      (((db.putTenantConnection c.connection).putJob c.job).putIdempotencyRecord c.record) :=
    .putIdempotencyRecord h.record
  exact ((hconnection.trans hjob).trans hrecord).trans (.putOutboxEvent _ _)

theorem Fresh.lasts (h : c.Fresh db) : c.Lasts (c.commit db) where
  job := ⟨c.job, Table.find_put_self _ _, rfl⟩
  connection := ⟨c.connection, Table.find_put_self _ _, rfl, rfl⟩
  record := by
    have hnew : (((db.putTenantConnection c.connection).putJob c.job)).idempotencyRecords.find
        c.record.id = none := h.record
    refine (idempotencyRecord_put hnew _ _).trans ?_
    change (c.stored db).or _ = _
    rw [h.key, Option.none_or, if_pos ⟨rfl, rfl⟩]
  event := by
    have hfind : (c.commit db).outboxEvents.find c.draws.outboxEventId = some c.event :=
      Table.find_put_self _ _
    rw [hfind]
    rfl

end Creation

/-- A move keeps what is stored, and adds a record only when it creates. -/
theorem Move.Step.creates {db db' : Store} {m : Move} (h : m.Step db db') :
    (Keeps db db' ∧ db'.idempotencyRecords = db.idempotencyRecords) ∨
      ∃ c : Creation, m = .started c.targetWorkspace c.idempotencyKey c.encryptedCredentials
        c.payloadFingerprint c.draws ∧ c.Fresh db ∧ db' = c.commit db := by
  -- an update leaves the job with its connection, and the connection in its workspace
  have hjob : ∀ {job : Job} (job' : Job), db.jobs.find job.id = some job → job'.id = job.id →
      job'.tenantConnectionId = job.tenantConnectionId → Keeps db (db.putJob job') := by
    intro job job' hfind hid htc
    apply Keeps.putJob
    intro other hother
    rw [hid, hfind] at hother
    rw [htc, Option.some.inj hother]
  have hconnection : ∀ {db₁ : Store} {connection : TenantConnection} (connection' : TenantConnection),
      db₁.tenantConnections.find connection.id = some connection →
      connection'.id = connection.id → connection'.workspaceId = connection.workspaceId →
      connection'.organizationId = connection.organizationId →
      Keeps db₁ (db₁.putTenantConnection connection') := by
    intro db₁ connection connection' hfind hid hworkspace horganization
    apply Keeps.putTenantConnection
    intro other hother
    rw [hid, hfind] at hother
    rw [hworkspace, horganization, Option.some.inj hother]
    exact ⟨rfl, rfl⟩
  cases h with
  | started h₁ h₂ h₃ h₄ h₅ =>
      exact .inr ⟨⟨_, _, _, _, _⟩, rfl, ⟨h₁, h₂, h₃, h₄, h₅⟩, rfl⟩
  | claimed hfind =>
      have hid := Store.job_id hfind
      subst hid
      exact .inl ⟨hjob _ hfind rfl rfl, rfl⟩
  | renewed hfind =>
      have hid := Store.job_id hfind
      subst hid
      exact .inl ⟨hjob _ hfind rfl rfl, rfl⟩
  | recovered hfind =>
      have hid := Store.job_id hfind
      subst hid
      exact .inl ⟨(hjob (Job.recover _ _) hfind rfl rfl).trans (.putOutboxEvent _ _), rfl⟩
  | retried hfind _ hc =>
      have hid := Store.job_id hfind
      have hcid := Store.tenantConnection_id hc
      subst hid
      rw [← hcid] at hc
      exact .inl ⟨((hjob (Job.retry _ _ _) hfind rfl rfl).trans
        (hconnection (TenantConnection.revalidate _) hc rfl rfl rfl)).trans
        (.putOutboxEvent _ _), rfl⟩
  | completed hfind _ hc =>
      have hid := Store.job_id hfind
      have hcid := Store.tenantConnection_id hc
      subst hid
      rw [← hcid] at hc
      exact .inl ⟨(hjob (Job.complete _ _) hfind rfl rfl).trans
        (hconnection (TenantConnection.activate _ _) hc rfl rfl rfl), rfl⟩
  | failed hfind _ hc =>
      have hid := Store.job_id hfind
      have hcid := Store.tenantConnection_id hc
      subst hid
      rw [← hcid] at hc
      exact .inl ⟨(hjob (Job.fail _ _ _ _) hfind rfl rfl).trans
        (hconnection (TenantConnection.reject _) hc rfl rfl rfl), rfl⟩

/-! ## Admitted starts -/

def Call.startDraws : Call → Option StartDraws
  | .start _ _ _ draws => some draws
  | _ => none

/-- The call is a start that reaches its transaction, to insert these rows. -/
def Call.Admitted (db : Store) (c : Creation) : Call → Prop
  | .start grants input cipher draws => c.draws = draws ∧ c.idempotencyKey = input.idempotencyKey ∧
      Admits db grants input cipher draws c.targetWorkspace c.encryptedCredentials
        c.payloadFingerprint
  | _ => False

theorem Call.Admitted.isStart {call : Call} {db : Store} {c : Creation} (h : call.Admitted db c) :
    call.isStart = true := by
  cases call with
  | start => rfl
  | claim => exact absurd h not_false
  | renew => exact absurd h not_false
  | recover => exact absurd h not_false
  | apply => exact absurd h not_false

theorem Call.Admitted.draws {call : Call} {db : Store} {c : Creation} (h : call.Admitted db c) :
    call.startDraws = some c.draws := by
  cases call with
  | start => exact congrArg some h.1.symm
  | claim => exact absurd h not_false
  | renew => exact absurd h not_false
  | recover => exact absurd h not_false
  | apply => exact absurd h not_false

theorem Call.isStart_of_startDraws {call : Call} {draws : StartDraws}
    (h : call.startDraws = some draws) : call.isStart = true := by
  cases call with
  | start => rfl
  | claim => cases h
  | renew => cases h
  | recover => cases h
  | apply => cases h

theorem Call.drawsEvent_of_startDraws {call : Call} {draws : StartDraws}
    (h : call.startDraws = some draws) : call.DrawsEvent draws.outboxEventId := by
  cases call with
  | start => exact congrArg StartDraws.outboxEventId (Option.some.inj h)
  | claim => cases h
  | renew => cases h
  | recover => cases h
  | apply => cases h

/-- A start computes one creation only. -/
theorem Call.Admitted.unique {call : Call} {db : Store} {c c' : Creation} (h : call.Admitted db c)
    (h' : call.Admitted db c') : c = c' := by
  cases call with
  | start grants input cipher draws =>
      obtain ⟨hd, hk, ha⟩ := h
      obtain ⟨hd', hk', ha'⟩ := h'
      have hw : c.targetWorkspace = c'.targetWorkspace :=
        Option.some.inj (ha.found.symm.trans ha'.found)
      have he := ha.encrypted
      rw [hw, ha'.encrypted] at he
      have hf := ha.fingerprint.symm.trans ha'.fingerprint
      cases c
      cases c'
      dsimp only at hd hd' hk hk' hw he hf
      rw [hd, hd', hk, hk', hw, Except.ok.inj he, Except.ok.inj hf]
  | claim => exact absurd h not_false
  | renew => exact absurd h not_false
  | recover => exact absurd h not_false
  | apply => exact absurd h not_false

/-! ## What holds whatever is interleaved -/

/-- Every job's connection is stored. -/
def Homed (db : Store) : Prop :=
  ∀ id job, db.jobs.find id = some job →
    (db.tenantConnections.find job.tenantConnectionId).isSome = true

theorem Homed.of_consistent {db : Store} (h : Consistent db) : Homed db := by
  intro id job hjob
  obtain ⟨connection, hc, -⟩ := h.connection hjob
  rw [hc]
  rfl

theorem Homed.rewritten {drawn : Uuid → Prop} {db db' : Store} (h : Homed db)
    (hr : Rewritten drawn db db') : Homed db' := by
  intro id job' hjob'
  have hkey : (db.jobs.find id).isSome = true := by
    rw [← Table.mem_keys, ← hr.jobIds, Table.mem_keys, hjob']
    rfl
  obtain ⟨job, hjob⟩ := Option.isSome_iff_exists.mp hkey
  obtain ⟨other, hother, htc⟩ := hr.job hjob
  rw [hjob'] at hother
  cases hother
  obtain ⟨connection, hc⟩ := Option.isSome_iff_exists.mp (h id job hjob)
  obtain ⟨connection', hc', -⟩ := hr.connection hc
  rw [htc, hc']
  rfl

theorem Homed.commit {c : Creation} {db : Store} (h : Homed db) : Homed (c.commit db) := by
  intro id job hjob
  change (db.jobs.put c.job).find id = some job at hjob
  change ((db.tenantConnections.put c.connection).find job.tenantConnectionId).isSome = true
  rw [Table.find_put] at hjob ⊢
  split at hjob
  · cases hjob
    rw [if_pos (show key c.connection = c.job.tenantConnectionId from rfl)]
    rfl
  · split
    · rfl
    · exact h id job hjob

section

variable {ι : Type} (calls : ι → Call) (db₀ : Store)

/-- The store is the first one with the creations of the ghost state, and the transactions of the
other calls are open on rewritten rows only. -/
structure Started (σ : Database ι) (g : List (ι × Creation)) : Prop where
  keeps : Keeps db₀ σ.db
  homed : Homed σ.db
  admitted : ∀ e ∈ g, (calls e.1).Admitted db₀ e.2
  lasts : ∀ e ∈ g, e.2.Lasts σ.db
  connectionIds : σ.db.tenantConnections.rows.map key =
    db₀.tenantConnections.rows.map key ++ g.map fun e => e.2.draws.tenantConnectionId
  jobIds : σ.db.jobs.rows.map key = db₀.jobs.rows.map key ++ g.map fun e => e.2.draws.jobId
  records : σ.db.idempotencyRecords.rows =
    db₀.idempotencyRecords.rows ++ g.map fun e => e.2.record
  events : ∀ id, (σ.db.outboxEvents.find id).isSome = true →
    (db₀.outboxEvents.find id).isSome = true ∨ (∃ e ∈ g, e.2.draws.outboxEventId = id) ∨
      ∃ i, (calls i).isStart = false ∧ (calls i).DrawsEvent id
  pending : ∀ i, (calls i).isStart = false →
    ∀ w ∈ (σ.session i).pending, w.Rewrites (calls i).DrawsEvent σ.db

theorem Started.initial (h : Homed db₀) : Started calls db₀ (Server.initial db₀ : Database ι) [] where
  keeps := .refl db₀
  homed := h
  admitted _ he := absurd he List.not_mem_nil
  lasts _ he := absurd he List.not_mem_nil
  connectionIds := (List.append_nil _).symm
  jobIds := (List.append_nil _).symm
  records := (List.append_nil _).symm
  events _ he := .inl he
  pending _ _ _ hw := absurd hw List.not_mem_nil

variable {calls} {db₀}

/-- The store changes as `h` says while the creations stay the same. -/
theorem Started.rewritten {σ σ' : Database ι} {g : List (ι × Creation)} {i : ι}
    (h : Started calls db₀ σ g) (hi : (calls i).isStart = false)
    (hr : Rewritten (calls i).DrawsEvent σ.db σ'.db)
    (hsession : ∀ j, j ≠ i → σ'.session j = σ.session j)
    (hpending : ∀ w ∈ (σ'.session i).pending, w.Rewrites (calls i).DrawsEvent σ'.db) :
    Started calls db₀ σ' g where
  keeps := h.keeps.trans hr.toKeeps
  homed := h.homed.rewritten hr
  admitted := h.admitted
  lasts e he := (h.lasts e he).keeps hr.toKeeps
  connectionIds := hr.connectionIds.trans h.connectionIds
  jobIds := hr.jobIds.trans h.jobIds
  records := by rw [hr.records, h.records]
  events id he := by
    rcases hr.events he with he | hd
    · exact h.events id he
    · exact .inr (.inr ⟨i, hi, hd⟩)
  pending j hj w hw := by
    by_cases hji : j = i
    · subst hji
      exact hpending w hw
    · rw [hsession j hji] at hw
      exact (h.pending j hj w hw).mono hr.toKeeps

/-- A start changes its own connection only. -/
theorem Started.session {σ σ' : Database ι} {g : List (ι × Creation)} {i : ι}
    (h : Started calls db₀ σ g) (hi : (calls i).isStart = true) (hdb : σ'.db = σ.db)
    (hsession : ∀ j, j ≠ i → σ'.session j = σ.session j) : Started calls db₀ σ' g where
  keeps := hdb ▸ h.keeps
  homed := hdb ▸ h.homed
  admitted := h.admitted
  lasts := hdb ▸ h.lasts
  connectionIds := hdb ▸ h.connectionIds
  jobIds := hdb ▸ h.jobIds
  records := hdb ▸ h.records
  events := hdb ▸ h.events
  pending j hj w hw := by
    have hji : j ≠ i := by
      intro he
      rw [he, hi] at hj
      cases hj
    rw [hsession j hji] at hw
    rw [hdb]
    exact h.pending j hj w hw

/-- A start commits its rows. -/
theorem Started.commit {σ σ' : Database ι} {g : List (ι × Creation)} {i : ι} {c : Creation}
    (h : Started calls db₀ σ g) (hadmitted : (calls i).Admitted db₀ c) (hfresh : c.Fresh σ.db)
    (hdb : σ'.db = c.commit σ.db) (hsession : ∀ j, j ≠ i → σ'.session j = σ.session j) :
    Started calls db₀ σ' (g ++ [(i, c)]) where
  keeps := hdb ▸ h.keeps.trans hfresh.keeps
  homed := hdb ▸ h.homed.commit
  admitted e he := by
    rcases List.mem_append.mp he with he | he
    · exact h.admitted e he
    · rw [List.mem_singleton.mp he]
      exact hadmitted
  lasts e he := by
    rw [hdb]
    rcases List.mem_append.mp he with he | he
    · exact (h.lasts e he).keeps hfresh.keeps
    · rw [List.mem_singleton.mp he]
      exact hfresh.lasts
  connectionIds := by
    have hput : (c.commit σ.db).tenantConnections.rows.map key =
        σ.db.tenantConnections.rows.map key ++ [c.draws.tenantConnectionId] :=
      Table.keys_put_of_find_none (r := c.connection) hfresh.connection
    rw [hdb, hput, h.connectionIds, List.append_assoc, List.map_append, List.map_singleton]
  jobIds := by
    have hput : (c.commit σ.db).jobs.rows.map key = σ.db.jobs.rows.map key ++ [c.draws.jobId] :=
      Table.keys_put_of_find_none (r := c.job) hfresh.job
    rw [hdb, hput, h.jobIds, List.append_assoc, List.map_append, List.map_singleton]
  records := by
    have hput : (c.commit σ.db).idempotencyRecords.rows = σ.db.idempotencyRecords.rows ++ [c.record] :=
      Table.rows_put_of_find_none (r := c.record) hfresh.record
    rw [hdb, hput, h.records, List.append_assoc, List.map_append, List.map_singleton]
  events id he := by
    rw [hdb] at he
    change ((σ.db.outboxEvents.put c.event).find id).isSome = true at he
    rw [Table.find_put] at he
    split at he
    · rename_i hid
      exact .inr (.inl ⟨(i, c), by simp, hid⟩)
    · rcases h.events id he with hold | ⟨e, hmem, hid⟩ | hdrawn
      · exact .inl hold
      · exact .inr (.inl ⟨e, List.mem_append_left _ hmem, hid⟩)
      · exact .inr (.inr hdrawn)
  pending j hj w hw := by
    have hji : j ≠ i := by
      intro he
      rw [he, hadmitted.isStart] at hj
      cases hj
    rw [hsession j hji] at hw
    rw [hdb]
    exact (h.pending j hj w hw).mono hfresh.keeps

/-! ## The contract -/

/-- Nothing is taken back, and the further creations are those of the calls `who`. -/
def Grows (who : ι → Prop) (t u : Store × List (ι × Creation)) : Prop :=
  Keeps t.1 u.1 ∧ ∃ later, u.2 = t.2 ++ later ∧ ∀ e ∈ later, who e.1

theorem Grows.refl (who : ι → Prop) (t : Store × List (ι × Creation)) : Grows who t t :=
  ⟨.refl t.1, [], (List.append_nil _).symm, fun _ he => absurd he List.not_mem_nil⟩

theorem Grows.trans {who : ι → Prop} {t u v : Store × List (ι × Creation)} (h : Grows who t u)
    (h' : Grows who u v) : Grows who t v := by
  obtain ⟨hk, later, hg, hwho⟩ := h
  obtain ⟨hk', later', hg', hwho'⟩ := h'
  refine ⟨hk.trans hk', later ++ later', by rw [hg', hg, List.append_assoc], fun e he => ?_⟩
  rcases List.mem_append.mp he with he | he
  · exact hwho e he
  · exact hwho' e he

theorem Grows.mono {who who' : ι → Prop} {t u : Store × List (ι × Creation)} (h : Grows who t u)
    (hwho : ∀ i, who i → who' i) : Grows who' t u := by
  obtain ⟨hk, later, hg, hall⟩ := h
  exact ⟨hk, later, hg, fun e he => hwho e.1 (hall e he)⟩

/-- The call has not created anything. -/
def Pending (i : ι) (g : List (ι × Creation)) : Prop :=
  i ∉ g.map Prod.fst

theorem Pending.grows {i : ι} {t u : Store × List (ι × Creation)} (h : Pending i t.2)
    (hg : Grows (· ≠ i) t u) : Pending i u.2 := by
  obtain ⟨-, later, hlater, hne⟩ := hg
  unfold Pending at h ⊢
  rw [hlater, List.map_append, List.mem_append, not_or]
  refine ⟨h, fun hi => ?_⟩
  obtain ⟨e, he, hei⟩ := List.mem_map.mp hi
  exact hne e he hei

variable (calls) (db₀)

/-- A start changes the store only by what it creates. -/
def StartGuarantee (i : ι) (t u : Store × List (ι × Creation)) : Prop :=
  Grows (· = i) t u ∧ ((calls i).isStart = true → u.2 = t.2 → u.1 = t.1)

/-- Starts among calls of all kinds; a start that still has a command to send created nothing. -/
def startContract : Contract ι (Database ι) (List (ι × Creation)) (Command Statement) :=
  readCommittedContract productLocking (fun t => Started calls db₀ t.1 t.2)
    (fun i => Grows (· ≠ i)) (StartGuarantee calls)
    (fun i _ t => (calls i).isStart = true → Pending i t.2)

variable [DecidableEq ι]

theorem startContract_sound : (startContract calls db₀).Sound postgres.readCommitted := by
  apply readCommitted_sound
  · exact fun i t => Grows.refl _ t
  · exact fun i t u v => Grows.trans
  · intro i j t u hij hg
    exact hg.1.mono fun k hk => by rw [hk]; exact hij

variable {calls} {db₀}

/-! ## Calls that start nothing -/

/-- A command of a transaction on rewritten rows. -/
theorem rewrites_perform {drawn : Uuid → Prop} {c : Command Statement} {db : Store}
    {s : Session Write Lock} (hc : c.Sends (Statement.Rewrites drawn))
    (hidle : s.inTransaction = false → s = .idle) (hs : ∀ w ∈ s.pending, w.Rewrites drawn db) :
    Rewritten drawn db (postgres.perform c db s).2.1 ∧
      ∀ w ∈ (postgres.perform c db s).2.2.pending,
        w.Rewrites drawn (postgres.perform c db s).2.1 := by
  cases c with
  | begin => exact ⟨.refl db, fun w hw => absurd hw List.not_mem_nil⟩
  | commit => exact ⟨Write.Rewrites.writes hs, fun w hw => absurd hw List.not_mem_nil⟩
  | rollback => exact ⟨.refl db, fun w hw => absurd hw List.not_mem_nil⟩
  | statement op =>
      have hview : Rewritten drawn db (postgres.writes s.pending db) := Write.Rewrites.writes hs
      have hws := Statement.Rewrites.exec hc Store.activeElsewhere (postgres.writes s.pending db)
      unfold Engine.perform
      dsimp only
      split
      · refine ⟨.refl db, fun w hw => ?_⟩
        rcases List.mem_append.mp hw with hw | hw
        · exact hs w hw
        · exact (hws w hw).back hview
      · rename_i ht
        have hempty := hidle (Bool.eq_false_iff.mpr ht)
        subst hempty
        exact ⟨Write.Rewrites.writes hws, fun w hw => absurd hw List.not_mem_nil⟩

theorem outline_rewrites {i : ι} (hi : (calls i).isStart = false)
    (t : Database ι × List (ι × Creation)) :
    (startContract calls db₀).Outline postgres.readCommitted i (fun _ _ => True) (fun _ _ => True)
      (calls i).program t := by
  apply Contract.Outline.of_issues (P := Command.Sends (Statement.Rewrites (calls i).DrawsEvent))
  · exact fun _ _ _ _ hh => hh
  · intro c u hc hu
    refine ⟨fun hs => absurd (hs.symm.trans hi) (by decide), ?_⟩
    rintro r s ⟨hfree, rfl, rfl⟩
    obtain ⟨hr, hpending⟩ := rewrites_perform hc (hu.1.idle i) (hu.2.pending i hi)
    refine ⟨u.2, readCommittedContract_advance hu hfree ?_ ?_⟩
    · apply hu.2.rewritten hi hr
      · exact fun j hj => Engine.advance_session_ne _ _ _ _ hj
      · rw [Engine.advance_session]
        exact hpending
    · refine ⟨⟨hr.toKeeps, [], (List.append_nil _).symm, fun _ he => absurd he List.not_mem_nil⟩, ?_⟩
      exact fun hs => absurd (hs.symm.trans hi) (by decide)
  · exact Call.issues_rewrites hi

end

end InboxSaas.Product
