import InboxSaas.Api.Jobs
import InboxSaas.Product.AcceptedStarts

/-!
# From the request to the result

What `POST` accepts, `GET` finds: under the id it was accepted with, for every holder of a grant on
its workspace, the caller among them, and never less far along.  The job belongs to the workspace
the caller named, also where an earlier request with the same key created it.
-/

namespace InboxSaas.Api

open InboxSaas.Product Reasoning

/-- A grant that lets its holder start a validation lets it read the job. -/
theorem isAuthorized_read {grants : List AccessGrant} {organizationId workspaceId : Uuid}
    (h : isAuthorized grants ⟨organizationId, .write, .workspace workspaceId⟩ = true) :
    isAuthorized grants (readWorkspace organizationId workspaceId) = true := by
  rw [isAuthorized_iff] at h ⊢
  obtain ⟨grant, hgrant, horganization, -, hscope⟩ := h
  exact ⟨grant, hgrant, horganization, fun _ => rfl, hscope⟩

section

variable {platform : Platform} {key : Bytes} {db db' : Store}

/-- The record of a payload for a workspace has its job there. -/
theorem LinkedTo.workspace {record : IdempotencyRecord} {workspace targetWorkspace : Workspace}
    (hmac : Function.Injective (platform.hmacSha256 key))
    (h : LinkedTo platform key db record workspace)
    (hf : Fingerprints platform key db targetWorkspace record.payloadFingerprint) :
    workspace = targetWorkspace := by
  obtain ⟨credentials, workspaceId, hprint, hnamed⟩ := h.fingerprint
  obtain ⟨credentials', workspaceId', hprint', hnamed'⟩ := hf
  obtain ⟨id, hid, -⟩ := Option.bind_eq_some_iff.mp hnamed
  obtain ⟨id', hid', -⟩ := Option.bind_eq_some_iff.mp hnamed'
  have hsame : workspaceId = workspaceId' := workspaceId_of_fingerprint hmac hprint hprint' hid hid'
  rw [hsame, hnamed'] at hnamed
  exact (Option.some.inj hnamed).symm

/-- What an accepted request was answered. -/
structure Accepts (db db' : Store) (grant : AccessGrant) (request : PostTenantConnectionRequest)
    (idempotencyKey : JsString) (job : PublicTenantValidationJob)
    (connection : TenantConnectionDto) : Prop where
  later : Later db db'
  idempotencyKey : request.idempotencyKey = some idempotencyKey
  workspace : uuidIn request.workspaceId = some connection.workspaceId
  writes : isAuthorized [grant]
    ⟨connection.organizationId, .write, .workspace connection.workspaceId⟩ = true
  stored : ∃ row ∈ db'.tenantConnections, connection = toTenantConnectionDto row
  seen : Seen job.id db' job connection

theorem idempotencyKey_of_accepted {request : PostTenantConnectionRequest}
    {input : StartTenantValidationInput} (h : accepted request = some input) :
    request.idempotencyKey = some input.idempotencyKey := by
  unfold accepted at h
  split at h
  · rename_i key contentType hkey hcontentType
    split at h
    · cases h
    split at h
    · cases h
    split at h
    · cases h
    cases h
    exact hkey
  · cases h

theorem runs_postTenantConnection {keyVersion : JsString} {cipher : TenantCredentialCipher}
    (hcipher : createTenantCredentialCipher platform key keyVersion = .ok cipher)
    (hmac : Function.Injective (platform.hmacSha256 key)) (hc : Consistent db)
    (hlinks : Linked platform key db) {grant : AccessGrant}
    {request : PostTenantConnectionRequest} {draws : StartDraws} {idempotencyKey : JsString}
    {job : PublicTenantValidationJob} {connection : TenantConnectionDto} {s' : Session Write Lock}
    (h : postgres.Runs Infrastructure (postTenantConnection grant request cipher draws) db .idle
      (.ok (.accepted idempotencyKey job connection)) db' s') :
    Accepts db db' grant request idempotencyKey job connection := by
  unfold postTenantConnection at h
  cases haccepted : accepted request with
  | none =>
      rw [haccepted] at h
      cases h.1
  | some input =>
      rw [haccepted] at h
      obtain ⟨hworkspaceId, -⟩ := accepted_eq_some haccepted
      rcases Engine.runs_bind h with ⟨result, db₁, s₁, hstart, hret⟩ | ⟨e, he, -⟩
      swap
      · cases he
      cases result with
      | notFound => cases hret.1
      | idempotencyConflict => cases hret.1
      | accepted dto stored reused =>
          have hruns : (Call.start [grant] input cipher draws).Runs db
              (.ok (.accepted dto stored reused)) db₁ := ⟨_, hstart⟩
          have hlater : Later db db₁ := ⟨_, .single hruns⟩
          obtain ⟨hresponse, rfl, -⟩ := hret
          cases hresponse
          have hkey : UsesKey platform key (.start [grant] input cipher draws) := ⟨_, hcipher⟩
          have hlinked := hlinks.call hc hkey hruns
          obtain ⟨targetWorkspace, encryptedCredentials, payloadFingerprint, hadmits, record, row,
            hrecord, hfingerprint, hjob, hrow, rfl⟩ := accepted_start hc hstart
          obtain ⟨workspace, hto⟩ := hlinked record (List.mem_of_find?_eq_some hrecord)
          -- the record's payload and the call's name one workspace
          have hprint : Fingerprints platform key db' targetWorkspace record.payloadFingerprint := by
            obtain ⟨credentials, workspaceId, hf, hnamed⟩ := fingerprints_of_admits hadmits hkey
            refine ⟨credentials, workspaceId, hfingerprint ▸ hf, ?_⟩
            rwa [named_keeps (hlater.keeps hc)]
          obtain ⟨stored', row', hjob', hrow', hworkspace, horganization⟩ := hto.connection
          rw [hjob] at hjob'
          cases hjob'
          rw [hrow] at hrow'
          cases hrow'
          rw [hto.workspace hmac hprint] at hworkspace horganization
          obtain ⟨id, hid, hfind⟩ := Option.bind_eq_some_iff.mp hadmits.found
          have hjobId : stored.id = record.jobId := Store.job_id hjob
          refine ⟨hlater, idempotencyKey_of_accepted haccepted, ?_, ?_,
            ⟨row, Table.mem_of_find hrow, rfl⟩, ?_⟩
          · rw [← hworkspaceId, hid]
            exact congrArg some ((Table.key_of_find hfind).symm.trans hworkspace.symm)
          · have hwrite := hadmits.authorized
            rw [← hworkspace, ← horganization] at hwrite
            exact hwrite
          · refine ⟨_, _, stored, row, hlater.consistent hc, .refl _, .refl _, ?_, hrow, rfl, rfl⟩
            rw [← hjob, ← hjobId]
            rfl

/-- What the request accepted is coherent and of the workspace it names, and whoever may read this
workspace finds it under its id from then on, never less far along. -/
theorem accepted_jobs_found {keyVersion : JsString} {cipher : TenantCredentialCipher}
    (hcipher : createTenantCredentialCipher platform key keyVersion = .ok cipher)
    (hmac : Function.Injective (platform.hmacSha256 key)) (hdb : ReachableUnder platform key db)
    {grant : AccessGrant} {request : PostTenantConnectionRequest} {draws : StartDraws}
    {idempotencyKey : JsString} {job : PublicTenantValidationJob}
    {connection : TenantConnectionDto} {db₁ : Store} {s : Session Write Lock}
    (hpost : postgres.Runs Infrastructure (postTenantConnection grant request cipher draws) db .idle
      (.ok (.accepted idempotencyKey job connection)) db₁ s) {answers : List Answered}
    (hpolls : Polls (uuidOut job.id) db₁ answers db') :
    Coherent job connection ∧ request.idempotencyKey = some idempotencyKey ∧
      uuidIn request.workspaceId = some connection.workspaceId ∧ Reads grant connection ∧
      ∀ a ∈ answers, Sound (uuidOut job.id) a ∧ Follows job connection a := by
  have hconsistent := hdb.reachable.consistent
  have haccepts := runs_postTenantConnection hcipher hmac hconsistent hdb.linked hpost
  have hc := haccepts.later.consistent hconsistent
  refine ⟨haccepts.seen.coherent, haccepts.idempotencyKey, haccepts.workspace,
    isAuthorized_read haccepts.writes, fun a ha => ⟨hpolls.sound hc a ha, ?_⟩⟩
  exact hpolls.follows hc (isUuid_uuidOut _) (uuidIn_uuidOut _) haccepts.seen a ha

end

namespace Sample

/-- The request that starts a validation, and the store and the answer after it. -/
def posted : Except JsError PostTenantConnectionResponse × Store × Session Write Lock :=
  postgres.run (postTenantConnection grant (request lowerId "correct horse") cipher (draws 1 10)) db
    .idle

def postedJob : PublicTenantValidationJob := ⟨11, .tenantValidation, .processing, none, none⟩

def postedConnection : TenantConnectionDto := ⟨10, 2, workspace.id, .validating, none⟩

theorem posted_accepted :
    posted.1 = .ok (.accepted (js "k1") postedJob postedConnection) := by
  decide +kernel

/-- A poll by a holder of another grant on the workspace, after the job was claimed. -/
def laterPoll : Except JsError GetJobResponse × Store × Session Write Lock :=
  postgres.run (getJob ⟨2, .read, .workspace workspace.id⟩ (uuidOut postedJob.id))
    (runAll posted.2.1 [.claim 11 5 60000 20]) .idle

end Sample

/-- The job that was accepted is found by another reader of its workspace. -/
theorem accepted_jobs_found_later :
    (Coherent Sample.postedJob Sample.postedConnection ∧
      Follows Sample.postedJob Sample.postedConnection
        (⟨2, .read, .workspace Sample.workspace.id⟩, Sample.laterPoll.1)) ∧
    Sample.laterPoll.1 = .ok (.found Sample.postedJob Sample.postedConnection) := by
  have hdb : ReachableUnder Sample.platform Sample.key Sample.db :=
    ⟨_, [], .nil _, fun _ he => absurd he List.not_mem_nil⟩
  have hpost := Engine.runs_run postgres Infrastructure
    (postTenantConnection Sample.grant (Sample.request Sample.lowerId "correct horse")
      Sample.cipher (Sample.draws 1 10)) Sample.db .idle
  change postgres.Runs _ _ _ _ Sample.posted.1 Sample.posted.2.1 _ at hpost
  rw [Sample.posted_accepted] at hpost
  have hpolls : Polls (uuidOut Sample.postedJob.id) Sample.posted.2.1
      [(⟨2, .read, .workspace Sample.workspace.id⟩, Sample.laterPoll.1)] Sample.laterPoll.2.1 :=
    .cons ⟨_, Product.Sample.history_run _ _⟩
      ((Engine.runs_run postgres Infrastructure _ _ _).amid Later.refl) (.nil _)
  obtain ⟨hcoherent, -, -, -, hanswers⟩ := accepted_jobs_found Sample.cipher_eq
    Sample.hmacSha256_injective hdb hpost hpolls
  exact ⟨⟨hcoherent, (hanswers _ List.mem_cons_self).2⟩, by decide +kernel⟩

end InboxSaas.Api
