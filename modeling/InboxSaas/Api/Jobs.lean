import InboxSaas.Api.UuidParameter
import InboxSaas.Api.WriteAuthority
import InboxSaas.Product.ControlPlane
import InboxSaas.Product.Lookups
import InboxSaas.Product.StatementAtomicity

/-!
# The public route that polls a job

`GET /jobs/:jobId`, after the API key of the caller was resolved to its grant.  The handler reads the
job and its connection in two statements and no transaction, so an answer can show a job that was
still open with a connection that is settled already.  It is never the other way round, and later
answers only move on: `polled_jobs`.
-/

namespace InboxSaas.Api

open InboxSaas.Product Reasoning

inductive GetJobResponse where
  | notFound
  | found (job : PublicTenantValidationJob) (tenantConnection : TenantConnectionDto)
  deriving DecidableEq, Repr

def getJob (grant : AccessGrant) (jobId : JsString) : DatabaseProgram GetJobResponse :=
  if !isUuid jobId then return .notFound
  else do
    match ← getTenantValidationJob [grant] jobId with
    | .notFound => return .notFound
    | .found tenantConnection job =>
        return .found (toPublicTenantValidationJob job) tenantConnection

/-- The grant lets its holder read the workspace of the connection. -/
def Reads (grant : AccessGrant) (connection : TenantConnectionDto) : Prop :=
  isAuthorized [grant] (readWorkspace connection.organizationId connection.workspaceId) = true

/-! ## One poll -/

/-- What a poll answers, from a job that it read before the job's connection. -/
inductive Poll (grant : AccessGrant) (jobId : JsString) (db : Store) :
    Except JsError GetJobResponse → Store → Prop where
  | failed {e : JsError} {db' : Store} (he : Infrastructure e) (hlater : Later db db') :
      Poll grant jobId db (.error e) db'
  | malformed (huuid : isUuid jobId = false) : Poll grant jobId db (.ok .notFound) db
  | missing {id : Uuid} {db' : Store} (hid : uuidIn jobId = some id) (hlater : Later db db')
      (hjob : db'.jobs.find id = none) : Poll grant jobId db (.ok .notFound) db'
  | hidden {id : Uuid} {db₁ db' : Store} {job : Job} {connection : TenantConnection}
      (hid : uuidIn jobId = some id) (hlater : Later db db₁) (hlater' : Later db₁ db')
      (hjob : db₁.jobs.find id = some job)
      (hconnection : db'.tenantConnections.find job.tenantConnectionId = some connection)
      (hreads : ¬ Reads grant (toTenantConnectionDto connection)) :
      Poll grant jobId db (.ok .notFound) db'
  | found {id : Uuid} {db₁ db' : Store} {job : Job} {connection : TenantConnection}
      (huuid : isUuid jobId = true) (hid : uuidIn jobId = some id) (hlater : Later db db₁)
      (hlater' : Later db₁ db')
      (hjob : db₁.jobs.find id = some job)
      (hconnection : db'.tenantConnections.find job.tenantConnectionId = some connection)
      (hreads : Reads grant (toTenantConnectionDto connection)) :
      Poll grant jobId db
        (.ok (.found (toPublicTenantValidationJob job) (toTenantConnectionDto connection))) db'

/-- Every poll is one of these: where it fails, the infrastructure failed. -/
theorem amid_getJob {grant : AccessGrant} {jobId : JsString} {db db' : Store}
    {o : Except JsError GetJobResponse} {s' : Session Write Lock} (hc : Consistent db)
    (h : postgres.Amid Later Infrastructure (getJob grant jobId) db .idle o db' s') :
    Poll grant jobId db o db' := by
  unfold getJob at h
  by_cases huuid : isUuid jobId = true
  swap
  · rw [Bool.not_eq_true] at huuid
    rw [huuid] at h
    obtain ⟨rfl, rfl, -⟩ := h
    exact .malformed huuid
  rw [huuid] at h
  obtain ⟨id, hid, -⟩ := uuidIn_of_isUuid huuid
  unfold getTenantValidationJob at h
  rw [hid] at h
  rcases Engine.amid_bind h with ⟨result, db₁, s₁, hget, hret⟩ | ⟨e, rfl, hget⟩
  · rcases Engine.amid_bind hget with ⟨stored, db₂, s₂, hstored, hcheck⟩ | ⟨e, he, -⟩
    swap
    · cases he
    obtain ⟨rfl, hlooks⟩ := amid_getJobWithTenant hc hstored
    -- the lookup is two reads, and other calls may come between them
    cases hlooks with
    | missing hlater hjob =>
        obtain ⟨hresult, rfl, rfl⟩ := hcheck
        cases hresult
        obtain ⟨rfl, rfl, -⟩ := hret
        exact .missing hid hlater hjob
    | @found db₁' _ job connection hlater hlater' hjob hconnection =>
        dsimp only at hcheck
        split at hcheck
        · rename_i hnot
          obtain ⟨hresult, rfl, rfl⟩ := hcheck
          cases hresult
          obtain ⟨rfl, rfl, -⟩ := hret
          refine .hidden hid hlater hlater' hjob hconnection fun hreads => ?_
          rw [Bool.not_eq_true'] at hnot
          exact Bool.false_ne_true (hnot.symm.trans hreads)
        · rename_i hnot
          obtain ⟨hresult, rfl, rfl⟩ := hcheck
          cases hresult
          obtain ⟨rfl, rfl, -⟩ := hret
          rw [Bool.not_eq_true', Bool.not_eq_false] at hnot
          exact .found huuid hid hlater hlater' hjob hconnection hnot
  · rcases Engine.amid_bind hget with ⟨stored, db₂, s₂, hstored, hcheck⟩ | ⟨e', he, hstored⟩
    · cases stored with
      | none => cases hcheck.1
      | some found =>
          dsimp only at hcheck
          split at hcheck <;> cases hcheck.1
    · cases he
      obtain ⟨-, hlooks⟩ := amid_getJobWithTenant hc hstored
      cases hlooks with
      | failed he hlater => exact .failed he hlater

/-! ## What an answer shows -/

/-- The job and the connection of one answer fit together. -/
structure Coherent (job : PublicTenantValidationJob) (connection : TenantConnectionDto) :
    Prop where
  completed : job.status = .completed →
    job.failureCode = none ∧ job.retryable = none ∧ connection.state = .active
  failed : job.status = .failed →
    job.failureCode ≠ none ∧ job.retryable ≠ none ∧ connection.state = .validationFailed
  tenant : connection.microsoftTenantId ≠ none ↔ connection.state = .active
  attached : connection.state ≠ .detached

/-- The later of two answers about one job is at least as far, and what is settled stays. -/
structure Advances (job : PublicTenantValidationJob) (connection : TenantConnectionDto)
    (job' : PublicTenantValidationJob) (connection' : TenantConnectionDto) : Prop where
  id : job'.id = job.id
  connectionId : connection'.id = connection.id
  workspaceId : connection'.workspaceId = connection.workspaceId
  organizationId : connection'.organizationId = connection.organizationId
  finished : job.status ≠ .processing → job' = job ∧ connection' = connection
  settled : connection.state ≠ .validating →
    job'.status ≠ .processing ∧ connection' = connection

theorem completed_iff {job : Job} :
    (toPublicTenantValidationJob job).status = .completed ↔ job.state = .completed := by
  unfold toPublicTenantValidationJob
  cases job.state <;> simp [publicStatus]

theorem failed_iff {job : Job} (h : job.state ≠ .cancelled) :
    (toPublicTenantValidationJob job).status = .failed ↔ job.state = .failed := by
  unfold toPublicTenantValidationJob
  cases hstate : job.state <;> simp [publicStatus]
  exact h hstate

theorem finished_iff {job : Job} (h : job.state ≠ .cancelled) :
    (toPublicTenantValidationJob job).status ≠ .processing ↔ job.finished := by
  unfold toPublicTenantValidationJob Job.finished
  cases hstate : job.state <;> simp [publicStatus]
  exact h hstate

/-- An answer was made of the rows of a job at some moment and of its connection at a later one,
both past. -/
def Seen (id : Uuid) (db : Store) (job : PublicTenantValidationJob)
    (connection : TenantConnectionDto) : Prop :=
  ∃ db₁ db₂ stored row, Consistent db₁ ∧ Later db₁ db₂ ∧ Later db₂ db ∧
    db₁.jobs.find id = some stored ∧
    db₂.tenantConnections.find stored.tenantConnectionId = some row ∧
    job = toPublicTenantValidationJob stored ∧ connection = toTenantConnectionDto row

namespace Seen

variable {db db' : Store} {id : Uuid} {job : PublicTenantValidationJob}
  {connection : TenantConnectionDto}

theorem later (h : Seen id db job connection) (hlater : Later db db') :
    Seen id db' job connection := by
  obtain ⟨db₁, db₂, stored, row, hc, h₁, h₂, hjob, hrow, hj, hconn⟩ := h
  exact ⟨db₁, db₂, stored, row, hc, h₁, h₂.trans hlater, hjob, hrow, hj, hconn⟩

theorem id_eq (h : Seen id db job connection) : job.id = id := by
  obtain ⟨db₁, db₂, stored, row, -, -, -, hjob, -, rfl, -⟩ := h
  exact Store.job_id hjob

theorem coherent (h : Seen id db job connection) : Coherent job connection := by
  obtain ⟨db₁, db₂, stored, row, hc, hlater, -, hjob, hrow, rfl, rfl⟩ := h
  obtain ⟨_, -, ha₁⟩ := hc.connection hjob
  obtain ⟨job', row', -, -, hrow', ha'⟩ := hlater.connection hc hjob
  rw [hrow] at hrow'
  cases hrow'
  have hagrees : stored.finished → Agrees stored row := fun hf => hlater.agrees hc hjob hf hrow
  constructor
  · intro hs
    have hcompleted := completed_iff.mp hs
    have ha := hagrees (.inl hcompleted)
    exact ⟨(ha.completed hcompleted).1, (ha.completed hcompleted).2.1, ha.active.mp hcompleted⟩
  · intro hs
    have hfailed := (failed_iff ha₁.cancelled).mp hs
    have ha := hagrees (.inr hfailed)
    exact ⟨(ha.failed hfailed).1, (ha.failed hfailed).2.1, ha.validationFailed.mp hfailed⟩
  · exact ha'.tenant
  · exact ha'.attached

/-- What was answered before and what is read now. -/
theorem advances (h : Seen id db job connection) {db₃ db₄ : Store} {stored : Job}
    {row : TenantConnection} (h₃ : Later db db₃) (h₄ : Later db₃ db₄)
    (hjob : db₃.jobs.find id = some stored)
    (hrow : db₄.tenantConnections.find stored.tenantConnectionId = some row) :
    Advances job connection (toPublicTenantValidationJob stored) (toTenantConnectionDto row) := by
  obtain ⟨db₁, db₂, stored₁, row₁, hc, h₁, h₂, hjob₁, hrow₁, rfl, rfl⟩ := h
  have hc₂ := h₁.consistent hc
  have hlater := h₂.trans h₃
  have hc₃ := hlater.consistent hc₂
  obtain ⟨row', hrow', ha⟩ := hc.connection hjob₁
  obtain ⟨job₂, row₂, hjob₂, htc₂, hrow₂, ha₂⟩ := h₁.connection hc hjob₁
  obtain ⟨job₃, row₃, hjob₃, htc₃, -, -⟩ := hlater.connection hc₂ hjob₂
  -- one connection at every moment
  rw [hrow₁] at hrow₂
  cases hrow₂
  rw [hjob] at hjob₃
  cases hjob₃
  have htc := htc₃.trans htc₂
  rw [htc] at hrow
  obtain ⟨other, hother, hworkspace, horganization⟩ :=
    ((hlater.trans h₄).keeps hc₂).connection hrow₁
  rw [hrow] at hother
  cases hother
  -- once finished, the rows at all later moments are the same
  have hsame : job₂.finished → stored = job₂ ∧ row = row₁ := by
    intro hf
    have hs₃ := hlater.sameJob hc₂ hjob₂ hf
    have hs₄ := (hlater.trans h₄).sameJob hc₂ hjob₂ hf
    refine ⟨Option.some.inj (hjob.symm.trans (hs₃.job.trans hjob₂)), ?_⟩
    have hconnection := hs₄.connection hjob₂
    rw [htc₂, hrow, hrow₁] at hconnection
    exact Option.some.inj hconnection
  constructor
  · exact (Store.job_id hjob).trans (Store.job_id hjob₁).symm
  · exact (Store.tenantConnection_id hrow).trans (Store.tenantConnection_id hrow₁).symm
  · exact hworkspace
  · exact horganization
  · intro hs
    have hf := (finished_iff ha.cancelled).mp hs
    have hjobs := (h₁.sameJob hc hjob₁ hf).job
    rw [hjob₂, hjob₁] at hjobs
    cases hjobs
    obtain ⟨rfl, rfl⟩ := hsame hf
    exact ⟨rfl, rfl⟩
  · intro hs
    have hf := ha₂.finished hs
    obtain ⟨rfl, rfl⟩ := hsame hf
    exact ⟨(finished_iff ha₂.cancelled).mpr hf, rfl⟩

end Seen

/-! ## Many polls -/

/-- What the holder of a grant was answered. -/
abbrev Answered : Type := AccessGrant × Except JsError GetJobResponse

/-- A later answer, given what was shown before. -/
structure Follows (job : PublicTenantValidationJob) (connection : TenantConnectionDto)
    (later : Answered) : Prop where
  found : Reads later.1 connection → later.2 ≠ .ok .notFound
  advances : ∀ job' connection', later.2 = .ok (.found job' connection') →
    Advances job connection job' connection'

/-- An answer by itself. -/
structure Sound (jobId : JsString) (a : Answered) : Prop where
  error : ∀ e, a.2 = .error e → Infrastructure e
  reads : ∀ job connection, a.2 = .ok (.found job connection) →
    isUuid jobId = true ∧ uuidIn jobId = some job.id ∧ Reads a.1 connection ∧
      Coherent job connection

/-- Polls of one job, one after the other, by holders of any grants and among other calls. -/
inductive Polls (jobId : JsString) : Store → List Answered → Store → Prop where
  | nil (db : Store) : Polls jobId db [] db
  | cons {db db₁ db₂ db' : Store} {grant : AccessGrant} {o : Except JsError GetJobResponse}
      {s : Session Write Lock} {answers : List Answered} (later : Later db db₁)
      (poll : postgres.Amid Later Infrastructure (getJob grant jobId) db₁ .idle o db₂ s)
      (rest : Polls jobId db₂ answers db') : Polls jobId db ((grant, o) :: answers) db'

section

variable {jobId : JsString} {db db' : Store} {grant : AccessGrant}
  {o : Except JsError GetJobResponse}

theorem Poll.later (h : Poll grant jobId db o db') : Later db db' := by
  cases h with
  | failed _ hlater => exact hlater
  | malformed => exact .refl _
  | missing _ hlater => exact hlater
  | hidden _ hlater hlater' => exact hlater.trans hlater'
  | found _ _ hlater hlater' => exact hlater.trans hlater'

theorem Poll.seen (h : Poll grant jobId db o db') (hc : Consistent db)
    {job : PublicTenantValidationJob} {connection : TenantConnectionDto}
    (ho : o = .ok (.found job connection)) :
    isUuid jobId = true ∧ Reads grant connection ∧
      ∃ id, uuidIn jobId = some id ∧ Seen id db' job connection := by
  cases h with
  | failed => cases ho
  | malformed => cases ho
  | missing => cases ho
  | hidden => cases ho
  | found huuid hid hlater hlater' hjob hconnection hreads =>
      cases ho
      exact ⟨huuid, hreads, _, hid, _, _, _, _, hlater.consistent hc, hlater', .refl _, hjob,
        hconnection, rfl, rfl⟩

theorem Poll.sound (h : Poll grant jobId db o db') (hc : Consistent db) :
    Sound jobId (grant, o) := by
  constructor
  · rintro e rfl
    cases h with
    | failed he => exact he
  · intro job connection ho
    obtain ⟨huuid, hreads, id, hid, hseen⟩ := h.seen hc ho
    exact ⟨huuid, hid.trans (congrArg some hseen.id_eq.symm), hreads, hseen.coherent⟩

/-- A poll after the job was shown. -/
theorem Poll.follows (h : Poll grant jobId db o db') {id : Uuid} (huuid : isUuid jobId = true)
    (hid : uuidIn jobId = some id) {job : PublicTenantValidationJob}
    {connection : TenantConnectionDto} (hseen : Seen id db job connection) :
    Follows job connection (grant, o) := by
  have hsame : ∀ {other}, uuidIn jobId = some other → other = id := fun hother =>
    Option.some.inj (hother.symm.trans hid)
  cases h with
  | failed => exact ⟨fun _ => nofun, fun _ _ => nofun⟩
  | malformed hnot =>
      rw [huuid] at hnot
      cases hnot
  | missing hother hlater hnone =>
      cases hsame hother
      obtain ⟨db₁, db₂, stored, row, hc, h₁, h₂, hjob, -⟩ := hseen
      obtain ⟨job', hjob', -⟩ := (((h₁.trans h₂).trans hlater).keeps hc).job hjob
      rw [hnone] at hjob'
      cases hjob'
  | hidden hother hlater hlater' hjob hconnection hnot =>
      cases hsame hother
      have hadvances := hseen.advances hlater hlater' hjob hconnection
      refine ⟨fun hreads => absurd ?_ hnot, fun _ _ => nofun⟩
      rw [Reads, hadvances.organizationId, hadvances.workspaceId]
      exact hreads
  | found _ hother hlater hlater' hjob hconnection =>
      cases hsame hother
      refine ⟨fun _ => nofun, fun job' connection' he => ?_⟩
      cases he
      exact hseen.advances hlater hlater' hjob hconnection

end

/-- The answers of polls after the job was shown. -/
theorem Polls.follows {jobId : JsString} {db db' : Store} {answers : List Answered}
    (h : Polls jobId db answers db') (hc : Consistent db) {id : Uuid} (huuid : isUuid jobId = true)
    (hid : uuidIn jobId = some id) {job : PublicTenantValidationJob}
    {connection : TenantConnectionDto} (hseen : Seen id db job connection) :
    ∀ a ∈ answers, Follows job connection a := by
  induction h with
  | nil => exact fun a ha => absurd ha List.not_mem_nil
  | cons later poll _ ih =>
      have hpoll := amid_getJob (later.consistent hc) poll
      have hseen' := hseen.later later
      intro a ha
      rcases List.mem_cons.mp ha with rfl | ha
      · exact hpoll.follows huuid hid hseen'
      · exact ih (hpoll.later.consistent (later.consistent hc)) (hseen'.later hpoll.later) a ha

theorem Polls.sound {jobId : JsString} {db db' : Store} {answers : List Answered}
    (h : Polls jobId db answers db') (hc : Consistent db) : ∀ a ∈ answers, Sound jobId a := by
  induction h with
  | nil => exact fun a ha => absurd ha List.not_mem_nil
  | cons later poll _ ih =>
      have hpoll := amid_getJob (later.consistent hc) poll
      intro a ha
      rcases List.mem_cons.mp ha with rfl | ha
      · exact hpoll.sound (later.consistent hc)
      · exact ih (hpoll.later.consistent (later.consistent hc)) a ha

/-- Whatever is called in between, the answers about a job are coherent, a job that was shown is
found by whoever may read its workspace, and later answers only move on: what is finished is
answered the same ever after. -/
theorem polled_jobs {jobId : JsString} {db db' : Store} {answers : List Answered}
    (hdb : Reachable db) (h : Polls jobId db answers db') :
    (∀ a ∈ answers, Sound jobId a) ∧
      answers.Pairwise (fun a later => ∀ job connection, a.2 = .ok (.found job connection) →
        Follows job connection later) ∧
      ∀ id job row, isUuid jobId = true → uuidIn jobId = some id → db.jobs.find id = some job →
        db.tenantConnections.find job.tenantConnectionId = some row →
        ∀ a ∈ answers, Follows (toPublicTenantValidationJob job) (toTenantConnectionDto row) a := by
  have hc := hdb.consistent
  refine ⟨h.sound hc, ?_, fun id job row huuid hid hjob hrow => h.follows hc huuid hid
    ⟨db, db, job, row, hc, .refl db, .refl db, hjob, hrow, rfl, rfl⟩⟩
  clear hdb
  induction h with
  | nil => exact .nil
  | cons later poll rest ih =>
      have hpoll := amid_getJob (later.consistent hc) poll
      have hc' := hpoll.later.consistent (later.consistent hc)
      refine .cons (fun a ha job connection ho => ?_) (ih hc')
      obtain ⟨huuid, -, id, hid, hseen⟩ := hpoll.seen (later.consistent hc) ho
      exact rest.follows hc' huuid hid hseen a ha

namespace Sample

/-- The result of the validation arrives. -/
def validated (db : Store) : Store :=
  runAll db [.apply 11 20 (.success (js "tenant")) 6 ⟨14, 6⟩]

/-- It arrives between the two statements of the first poll. -/
def tornPoll : Except JsError GetJobResponse × Store × Session Write Lock :=
  postgres.runAmid [id, validated] (getJob ⟨2, .read, .organization⟩ (uuidOut 11))
    Product.Sample.leased .idle

def secondPoll : Except JsError GetJobResponse × Store × Session Write Lock :=
  postgres.runAmid [] (getJob ⟨2, .read, .workspace 1⟩ (uuidOut 11)) tornPoll.2.1 .idle

def polls : List Answered :=
  [(⟨2, .read, .organization⟩, tornPoll.1), (⟨2, .read, .workspace 1⟩, secondPoll.1)]

theorem polls_run : Polls (uuidOut 11) Product.Sample.leased polls secondPoll.2.1 := by
  have hvalidated : ∀ change ∈ [id, validated], ∀ db, Later db (change db) := by
    intro change hchange db
    rcases List.mem_cons.mp hchange with rfl | hchange
    · exact .refl db
    · rw [List.mem_singleton.mp hchange]
      exact ⟨_, Product.Sample.history_run db _⟩
  refine .cons (.refl _) (Engine.amid_runAmid _ Later.refl hvalidated _ _ _) ?_
  refine .cons (.refl _) (Engine.amid_runAmid _ Later.refl ?_ _ _ _) (.nil _)
  exact fun change hchange => absurd hchange List.not_mem_nil

/-- What an answer shows of the job and of its connection. -/
def shown (a : Answered) : Option (PublicJobStatus × TenantConnectionState) :=
  match a.2 with
  | .ok (.found job connection) => some (job.status, connection.state)
  | _ => none

end Sample

/-- The first poll shows an open job with an active connection, the second one both settled. -/
theorem polled_jobs_torn :
    ((∀ a ∈ Sample.polls, Sound (uuidOut 11) a) ∧
      Sample.polls.Pairwise fun a later => ∀ job connection, a.2 = .ok (.found job connection) →
        Follows job connection later) ∧
    Sample.polls.map Sample.shown = [some (.processing, .active), some (.completed, .active)] := by
  obtain ⟨hsound, hpairwise, -⟩ := polled_jobs
    (((Reachable.empty Product.Sample.workspaces).runAll _).runAll _) Sample.polls_run
  exact ⟨⟨hsound, hpairwise⟩, by decide +kernel⟩

end InboxSaas.Api
