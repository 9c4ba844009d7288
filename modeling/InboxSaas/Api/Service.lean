import InboxSaas.Api.AcceptedJobs
import InboxSaas.Auth.Accounts
import InboxSaas.Product.ApiKeys
import InboxSaas.Product.ForeignKeys
import InboxSaas.Reasoning.History

/-!
# The service

Sign-ups, API keys, workers and requests of the public API work on one database.  The middleware
resolves the key of a request to a grant when the request comes in, and its route answers with this
grant later, whatever happened in between.
-/

namespace InboxSaas.Api

open Auth Product Reasoning

/-! ## Requests -/

/-- `match[1]` of `/^Bearer\s+(\S+)$/i` -/
def bearerToken (authorization : JsString) : Option JsString :=
  let rest := authorization.drop 6
  let token := rest.dropWhile isWhiteSpace
  if (authorization.take 6).map asciiLower = js "bearer" ∧ rest.takeWhile isWhiteSpace ≠ [] ∧
      token ≠ [] ∧ !token.any isWhiteSpace then some token
  else none

inductive V1Request where
  | workspaces
  | postTenantConnection (request : PostTenantConnectionRequest)
  | job (jobId : JsString)

inductive V1Response where
  | unauthorized
  | workspaces (workspaces : List WorkspaceDto)
  | postTenantConnection (response : PostTenantConnectionResponse)
  | job (response : GetJobResponse)
  deriving DecidableEq, Repr

/-- The middleware: the grant of the caller, or nothing where it answers `unauthorized`. -/
def authorize (sha256 : Bytes → Bytes) (authorization : Option JsString) (now : Time)
    (keys : ApiKeyStore) : Except JsError (Option AccessGrant) :=
  match authorization.bind bearerToken with
  | none => .ok none
  | some token => authenticateApiKey sha256 token now keys

/-- A request the middleware let through or will refuse. -/
structure Received where
  grant : Except JsError (Option AccessGrant)
  request : V1Request

/-- Calls of workers lead from one store to the other. -/
def Works (db db' : Store) : Prop :=
  ∃ history, Run db history db' ∧ ∀ e ∈ history, e.call.isStart = false

/-- The answer to a request, and the product tables it leaves; workers may come in between the
statements of a lookup. -/
inductive Responds (cipher : TenantCredentialCipher) (db : ControlPlaneStore) :
    Received → Except JsError V1Response → Store → Prop where
  | failed {e : JsError} {request : V1Request} :
      Responds cipher db ⟨.error e, request⟩ (.error e) db.product
  | unauthorized {request : V1Request} :
      Responds cipher db ⟨.ok none, request⟩ (.ok .unauthorized) db.product
  | workspaces {grant : AccessGrant} : Responds cipher db ⟨.ok (some grant), .workspaces⟩
      (.ok (.workspaces (getAccessibleControlPlane db [grant]).workspaces)) db.product
  | failedWorkspaces {grant : AccessGrant} {e : JsError} (he : Infrastructure e) :
      Responds cipher db ⟨.ok (some grant), .workspaces⟩ (.error e) db.product
  | postTenantConnection {grant : AccessGrant} {request : PostTenantConnectionRequest}
      {draws : StartDraws} {o : Except JsError PostTenantConnectionResponse} {product' : Store}
      {s' : Session Write Lock}
      (h : postgres.Runs Infrastructure (postTenantConnection grant request cipher draws) db.product
        .idle o product' s') :
      Responds cipher db ⟨.ok (some grant), .postTenantConnection request⟩
        (o.map .postTenantConnection) product'
  | job {grant : AccessGrant} {jobId : JsString} {o : Except JsError GetJobResponse}
      {product' : Store} {s' : Session Write Lock}
      (h : postgres.Amid Works Infrastructure (getJob grant jobId) db.product .idle o product' s') :
      Responds cipher db ⟨.ok (some grant), .job jobId⟩ (o.map .job) product'

/-! ## States and events -/

structure Service (ι : Type) where
  accounts : AccountStore
  apiKeys : Table ApiKey
  received : ι → Option Received

namespace Service

variable {ι : Type}

def initial : Service ι := ⟨⟨∅, ∅, ⟨.empty ∅, ∅, fun _ => []⟩⟩, ∅, fun _ => none⟩

abbrev controlPlane (s : Service ι) : ControlPlaneStore := s.accounts.controlPlane

abbrev product (s : Service ι) : Store := s.controlPlane.product

/-- The tables of the API keys; ids of users are text. -/
def keys (s : Service ι) : ApiKeyStore :=
  ⟨s.accounts.users.rows.map (fun row => row.id.flatMap Encoding.encodeChar),
    s.controlPlane.organizations, s.product.workspaces, s.apiKeys⟩

def withAccounts (s : Service ι) (accounts : AccountStore) : Service ι :=
  { s with accounts := accounts }

def withApiKeys (s : Service ι) (apiKeys : Table ApiKey) : Service ι :=
  { s with apiKeys := apiKeys }

def withProduct (s : Service ι) (product : Store) : Service ι :=
  { s with accounts := { s.accounts with controlPlane := s.controlPlane.withProduct product } }

/-- What is seen of the service: what it is asked, and what it answers. -/
inductive Event (ι : Type) where
  | signUp (user : NewUser Encoding.Json) (created : Bool)
  | issueApiKey (input : IssueApiKeyInput) (result : Except JsError IssuedApiKey)
  | revokeApiKey (apiKeyId : JsString)
  | work (call : Call)
  | receive (i : ι) (authorization : Option JsString) (now : Time) (request : V1Request)
  | answer (i : ι) (response : Except JsError V1Response)

def Event.revokes : Event ι → Uuid → Prop
  | .revokeApiKey apiKeyId, id => uuidIn apiKeyId = some id
  | _, _ => False

def Event.answers : Event ι → ι → Prop
  | .answer j _, i => j = i
  | _, _ => False

section

variable [DecidableEq ι] (sha256 : Bytes → Bytes) (cipher : TenantCredentialCipher)

inductive Step : Service ι → Event ι → Service ι → Prop where
  | signUp {s : Service ι} {ids : ControlPlaneIds} {user : NewUser Encoding.Json}
      {accounts : AccountStore} (h : Auth.signUp ids user s.accounts = some accounts) :
      Step s (.signUp user true) (s.withAccounts accounts)
  | refusedSignUp {s : Service ι} {ids : ControlPlaneIds} {user : NewUser Encoding.Json}
      (h : Auth.signUp ids user s.accounts = none) : Step s (.signUp user false) s
  | issueApiKey {s : Service ι} (input : IssueApiKeyInput) (draw : ApiKeyDraw) :
      Step s (.issueApiKey input (Product.issueApiKey sha256 input draw s.keys).1)
        (s.withApiKeys (Product.issueApiKey sha256 input draw s.keys).2.apiKeys)
  | revokeApiKey {s : Service ι} (apiKeyId : JsString) (now : Time) :
      Step s (.revokeApiKey apiKeyId)
        (s.withApiKeys (Product.revokeApiKey apiKeyId now s.keys).2.apiKeys)
  | work {s : Service ι} {call : Call} {o : Except JsError call.Result} {product : Store}
      (hstart : call.isStart = false) (h : call.Runs s.product o product) :
      Step s (.work call) (s.withProduct product)
  | receive {s : Service ι} {i : ι} {authorization : Option JsString} {now : Time}
      {request : V1Request} {grant : Except JsError (Option AccessGrant)}
      (hgrant : grant = authorize sha256 authorization now s.keys ∨
        ∃ e, Infrastructure e ∧ grant = .error e)
      (hfree : s.received i = none) :
      Step s (.receive i authorization now request)
        { s with received := Function.update s.received i (some ⟨grant, request⟩) }
  | answer {s : Service ι} {i : ι} {received : Received} {response : Except JsError V1Response}
      {product : Store} (hreceived : s.received i = some received)
      (h : Responds cipher s.controlPlane received response product) :
      Step s (.answer i response)
        { s.withProduct product with received := Function.update s.received i none }

/-- Everything that can be seen of the service from an empty database on. -/
abbrev Runs : List (Event ι) → Service ι → Prop :=
  History (Step sha256 cipher) initial

end

end Service

/-! ## The product tables -/

namespace Works

variable {db db₁ db' : Store}

theorem refl (db : Store) : Works db db :=
  ⟨[], .nil db, fun _ he => absurd he List.not_mem_nil⟩

theorem trans (h : Works db db₁) (h' : Works db₁ db') : Works db db' := by
  obtain ⟨history, hrun, hworks⟩ := h
  obtain ⟨history', hrun', hworks'⟩ := h'
  refine ⟨_, hrun.append hrun', fun e he => ?_⟩
  exact (List.mem_append.mp he).elim (hworks e) (hworks' e)

theorem later (h : Works db db') : Later db db' := by
  obtain ⟨history, hrun, -⟩ := h
  exact ⟨history, hrun⟩

theorem single {call : Call} {o : Except JsError call.Result} (hstart : call.isStart = false)
    (h : call.Runs db o db') : Works db db' := by
  refine ⟨_, .single h, fun e he => ?_⟩
  rw [List.mem_singleton.mp he]
  exact hstart

end Works

/-- The product tables are consistent, linked and refer to rows that are there. -/
structure Intact (platform : Platform) (key : Bytes) (db : ControlPlaneStore) : Prop where
  consistent : Consistent db.product
  linked : Linked platform key db.product
  foreignKeys : ForeignKeys db

namespace Intact

variable {platform : Platform} {key : Bytes} {db : ControlPlaneStore} {product' : Store}

theorem call (h : Intact platform key db) {call : Call} {o : Except JsError call.Result}
    (hkey : UsesKey platform key call) (hruns : call.Runs db.product o product') :
    Intact platform key (db.withProduct product') where
  consistent := h.consistent.call hruns
  linked := h.linked.call h.consistent hkey hruns
  foreignKeys := h.foreignKeys.call h.consistent hruns

theorem run (h : Intact platform key db) {history : List Entry}
    (hrun : Run db.product history product') (hkey : ∀ e ∈ history, UsesKey platform key e.call) :
    Intact platform key (db.withProduct product') := by
  generalize hproduct : db.product = product at hrun
  induction hrun generalizing db with
  | nil =>
      subst hproduct
      exact h
  | cons runs _ ih =>
      subst hproduct
      have hhead := h.call (hkey _ List.mem_cons_self) runs
      have hrest := ih hhead (fun e he => hkey e (List.mem_cons_of_mem _ he)) rfl
      exact hrest

theorem works (h : Intact platform key db) (hworks : Works db.product product') :
    Intact platform key (db.withProduct product') := by
  obtain ⟨history, hrun, hstart⟩ := hworks
  refine h.run hrun fun e he => ?_
  have hnot := hstart e he
  cases hcall : e.call with
  | start =>
      rw [hcall] at hnot
      cases hnot
  | _ => trivial

end Intact

/-- A request that is refused reaches no start. -/
theorem runs_postTenantConnection_start {cipher : TenantCredentialCipher} {grant : AccessGrant}
    {request : PostTenantConnectionRequest} {draws : StartDraws} {db db' : Store}
    {o : Except JsError PostTenantConnectionResponse} {s' : Session Write Lock}
    (h : postgres.Runs Infrastructure (postTenantConnection grant request cipher draws) db .idle o
      db' s') :
    (o = .ok .invalidRequest ∧ db' = db) ∨
      ∃ input result, accepted request = some input ∧
        (Call.start [grant] input cipher draws).Runs db result db' ∧
        o = result.map (respond input.idempotencyKey) := by
  unfold postTenantConnection at h
  cases haccepted : accepted request with
  | none =>
      rw [haccepted] at h
      exact .inl ⟨h.1, h.2.1⟩
  | some input =>
      rw [haccepted] at h
      right
      rcases Engine.runs_bind h with ⟨result, db₁, s₁, hstart, hret⟩ | ⟨e, rfl, hstart⟩
      · obtain ⟨rfl, rfl, -⟩ := hret
        exact ⟨input, .ok result, rfl, ⟨_, hstart⟩, rfl⟩
      · exact ⟨input, .error e, rfl, ⟨_, hstart⟩, rfl⟩

/-- The statements of a lookup only read. -/
theorem issues_getJob (grant : AccessGrant) (jobId : JsString) :
    (getJob grant jobId).Issues
      (fun c => ∃ op, c = .statement op ∧ ∀ db, (postgres.exec op db).2.1 = []) := by
  unfold getJob
  split
  · trivial
  · unfold getTenantValidationJob
    cases uuidIn jobId with
    | none => trivial
    | some id =>
        refine Program.Issues.bind (Program.Issues.bind ?_ fun found => ?_) fun result => ?_
        · unfold getJobWithTenant
          refine Program.issues_perform_bind ⟨_, rfl, fun _ => rfl⟩ fun job => ?_
          cases job with
          | none => trivial
          | some job =>
              refine Program.issues_perform_bind ⟨_, rfl, fun _ => rfl⟩ fun connection => ?_
              cases connection <;> trivial
        · cases found with
          | none => trivial
          | some found =>
              dsimp only
              split <;> trivial
        · cases result <;> trivial

/-- An answer keeps the product tables intact and the workspaces as they are. -/
theorem Responds.intact {platform : Platform} {key : Bytes} {keyVersion : JsString}
    {cipher : TenantCredentialCipher}
    (hcipher : createTenantCredentialCipher platform key keyVersion = .ok cipher)
    {db : ControlPlaneStore} (h : Intact platform key db) {received : Received}
    {response : Except JsError V1Response} {product' : Store}
    (hr : Responds cipher db received response product') :
    Intact platform key (db.withProduct product') ∧
      product'.workspaces = db.product.workspaces := by
  cases hr with
  | failed => exact ⟨h, rfl⟩
  | unauthorized => exact ⟨h, rfl⟩
  | workspaces => exact ⟨h, rfl⟩
  | failedWorkspaces => exact ⟨h, rfl⟩
  | @postTenantConnection grant request draws _ _ _ hruns =>
      rcases runs_postTenantConnection_start hruns with ⟨-, rfl⟩ | ⟨input, result, -, hstart, -⟩
      · exact ⟨h, rfl⟩
      · have hlater : Later db.product product' := ⟨_, .single hstart⟩
        have hkey : UsesKey platform key (.start [grant] input cipher draws) := ⟨_, hcipher⟩
        exact ⟨h.call hkey hstart, (hlater.keeps h.consistent).workspaces⟩
  | job hamid =>
      have hworks := hamid.drifts Works.refl (fun _ _ _ => Works.trans) (issues_getJob _ _)
      exact ⟨h.works hworks, (hworks.later.keeps h.consistent).workspaces⟩

/-- New rows of other tables leave the records linked. -/
theorem Linked.join {platform : Platform} {key : Bytes} {db : Store} (h : Linked platform key db)
    {workspace : Workspace} (hnew : db.workspaces.find workspace.id = none) :
    Linked platform key { db with workspaces := db.workspaces.put workspace } := by
  intro record hrecord
  obtain ⟨target, hlinked⟩ := h record hrecord
  obtain ⟨credentials, workspaceId, hprint, hnamed⟩ := hlinked.fingerprint
  refine ⟨target, ⟨credentials, workspaceId, hprint, ?_⟩, hlinked.connection⟩
  obtain ⟨id, hid, hfind⟩ := Option.bind_eq_some_iff.mp hnamed
  have hne : workspace.id ≠ id := find_ne_of_none hnew (by rw [hfind]; rfl)
  rw [named, hid, Option.bind_some]
  exact (Table.find_put_ne _ hne).trans hfind

theorem Intact.join {platform : Platform} {key : Bytes} {db : AccountStore}
    (h : Intact platform key db.controlPlane) {ids : ControlPlaneIds} {row : UserRow}
    (hjoins : Joins ids row db) : Intact platform key (db.join ids row).controlPlane where
  consistent := ⟨h.consistent.connection, h.consistent.job, h.consistent.unique⟩
  linked := Linked.join h.linked hjoins.workspace
  foreignKeys :=
    { workspace_organization := fun workspace hworkspace => by
        rcases Table.mem_put.mp hworkspace with rfl | ⟨hold, -⟩
        · exact ⟨_, Table.mem_put_self _ _, rfl⟩
        · exact Table.exists_key_put (h.foreignKeys.workspace_organization workspace hold)
      tenantConnection_organization := fun connection hconnection =>
        Table.exists_key_put (h.foreignKeys.tenantConnection_organization connection hconnection)
      tenantConnection_workspace := fun connection hconnection => by
        obtain ⟨workspace, hmem, hid, horganization⟩ :=
          h.foreignKeys.tenantConnection_workspace connection hconnection
        have hne : workspace.id ≠ ids.workspaceId :=
          Ne.symm (find_ne_of_none hjoins.workspace (by
            rw [show db.controlPlane.product.workspaces.find workspace.id = some workspace from
              Table.find_of_mem hmem]
            rfl))
        exact ⟨workspace, Table.mem_put.mpr (.inr ⟨hmem, hne⟩), hid, horganization⟩
      job_tenantConnection := h.foreignKeys.job_tenantConnection
      idempotencyRecord_organization := fun record hrecord =>
        Table.exists_key_put (h.foreignKeys.idempotencyRecord_organization record hrecord)
      idempotencyRecord_job := h.foreignKeys.idempotencyRecord_job
      outboxEvent_job := h.foreignKeys.outboxEvent_job }

namespace Service

variable {ι : Type} [DecidableEq ι] {sha256 : Bytes → Bytes} {cipher : TenantCredentialCipher}
  {s s' : Service ι} {e : Event ι} {events : List (Event ι)}

/-! ## What every step keeps -/

/-- A step seen as a call on the table of API keys. -/
theorem Step.call (h : Step sha256 cipher s e s') :
    ∃ call : ApiKeyCall, s'.apiKeys = (call.run sha256 s.keys).apiKeys ∧
      (∀ id, call.revokes id ↔ e.revokes id) ∧
      (∀ input draw, call = .issue input draw →
        e = .issueApiKey input (Product.issueApiKey sha256 input draw s.keys).1) ∧
      ∀ input issued, e = .issueApiKey input (.ok issued) →
        ∃ draw, call = .issue input draw ∧
          (Product.issueApiKey sha256 input draw s.keys).1 = .ok issued := by
  have hnone : s'.apiKeys = s.apiKeys → (∀ id, ¬ e.revokes id) →
      (∀ input issued, e ≠ .issueApiKey input (.ok issued)) → ∃ call : ApiKeyCall,
        s'.apiKeys = (call.run sha256 s.keys).apiKeys ∧ (∀ id, call.revokes id ↔ e.revokes id) ∧
        (∀ input draw, call = .issue input draw →
          e = .issueApiKey input (Product.issueApiKey sha256 input draw s.keys).1) ∧
        ∀ input issued, e = .issueApiKey input (.ok issued) →
          ∃ draw, call = .issue input draw ∧
            (Product.issueApiKey sha256 input draw s.keys).1 = .ok issued := by
    intro hkeys hrevokes hissues
    refine ⟨.authenticate [] 0, hkeys, fun id => ⟨False.elim, fun h => hrevokes id h⟩, ?_, ?_⟩
    · intro input draw hcall
      cases hcall
    · exact fun input issued he => absurd he (hissues input issued)
  cases h with
  | signUp => exact hnone rfl (fun _ h => h) fun _ _ he => by cases he
  | refusedSignUp => exact hnone rfl (fun _ h => h) fun _ _ he => by cases he
  | issueApiKey input draw =>
      refine ⟨.issue input draw, rfl, fun _ => Iff.rfl, ?_, ?_⟩
      · intro input' draw' hcall
        cases hcall
        rfl
      · intro input' issued he
        injection he with hinput hresult
        subst hinput
        exact ⟨draw, rfl, hresult⟩
  | revokeApiKey apiKeyId now =>
      refine ⟨.revoke apiKeyId now, rfl, fun _ => Iff.rfl, ?_, ?_⟩
      · intro input draw hcall
        cases hcall
      · intro input issued he
        cases he
  | work => exact hnone rfl (fun _ h => h) fun _ _ he => by cases he
  | receive => exact hnone rfl (fun _ h => h) fun _ _ he => by cases he
  | answer => exact hnone rfl (fun _ h => h) fun _ _ he => by cases he

/-- The database in every state. -/
structure Ordered (platform : Platform) (key : Bytes) (s : Service ι) : Prop where
  intact : Intact platform key s.controlPlane
  homes : Homes s.accounts
  tokenPrefix : ∀ row ∈ s.apiKeys, ∀ other ∈ s.apiKeys, row.tokenPrefix = other.tokenPrefix →
    row = other

omit [DecidableEq ι] in
theorem Ordered.initial {platform : Platform} {key : Bytes} :
    (Service.initial : Service ι).Ordered platform key where
  intact :=
    { consistent := Consistent.empty ∅
      linked := fun _ h => absurd h List.not_mem_nil
      foreignKeys := by
        constructor <;> exact fun _ h => absurd h List.not_mem_nil }
  homes := .empty
  tokenPrefix _ h := absurd h List.not_mem_nil

/-- A prefix finds one row. -/
theorem Step.tokenPrefix (h : Step sha256 cipher s e s')
    (hs : ∀ row ∈ s.apiKeys, ∀ other ∈ s.apiKeys, row.tokenPrefix = other.tokenPrefix →
      row = other) :
    ∀ row ∈ s'.apiKeys, ∀ other ∈ s'.apiKeys, row.tokenPrefix = other.tokenPrefix →
      row = other := by
  intro row hrow other hother hprefix
  obtain ⟨call, hkeys, -⟩ := h.call
  have hid : row.id = other.id := by
    rw [hkeys] at hrow hother
    rcases mem_run sha256 hrow with ⟨old, hold, hleaves⟩ | ⟨input, draw, rfl, rfl, hreturned⟩
    · rcases mem_run sha256 hother with ⟨old', hold', hleaves'⟩ | ⟨_, _, rfl, rfl, hreturned⟩
      · rw [hleaves.tokenPrefix_eq, hleaves'.tokenPrefix_eq] at hprefix
        rw [hleaves.id_eq, hleaves'.id_eq, hs old hold old' hold' hprefix]
      · rw [hleaves.tokenPrefix_eq] at hprefix
        exact absurd hprefix (fresh_tokenPrefix sha256 hreturned hold)
    · rcases mem_run sha256 hother with ⟨old', hold', hleaves'⟩ | ⟨_, _, hcall, rfl, -⟩
      · rw [hleaves'.tokenPrefix_eq] at hprefix
        exact absurd hprefix.symm (fresh_tokenPrefix sha256 hreturned hold')
      · cases hcall
        rfl
  exact Table.eq_of_key_eq hrow hother hid

theorem Step.ordered {platform : Platform} {key : Bytes} {keyVersion : JsString}
    (hcipher : createTenantCredentialCipher platform key keyVersion = .ok cipher)
    (h : Step sha256 cipher s e s') (hs : s.Ordered platform key) : s'.Ordered platform key := by
  have hprefix := h.tokenPrefix hs.tokenPrefix
  cases h with
  | signUp hsignUp =>
      obtain ⟨name, -, -, -, hjoins, rfl⟩ := signUp_eq_some hsignUp
      exact ⟨hs.intact.join hjoins, hs.homes.join hjoins, hprefix⟩
  | refusedSignUp => exact hs
  | issueApiKey => exact ⟨hs.intact, hs.homes, hprefix⟩
  | revokeApiKey => exact ⟨hs.intact, hs.homes, hprefix⟩
  | work hstart hruns =>
      have hworks := Works.single hstart hruns
      refine ⟨hs.intact.works hworks, hs.homes.withProduct ?_, hprefix⟩
      exact (hworks.later.keeps hs.intact.consistent).workspaces
  | receive => exact ⟨hs.intact, hs.homes, hprefix⟩
  | answer _ hresponds =>
      obtain ⟨hintact, hworkspaces⟩ := hresponds.intact hcipher hs.intact
      exact ⟨hintact, hs.homes.withProduct hworkspaces, hprefix⟩

theorem Runs.ordered {platform : Platform} {key : Bytes} {keyVersion : JsString}
    (hcipher : createTenantCredentialCipher platform key keyVersion = .ok cipher)
    (h : Runs sha256 cipher events s) : s.Ordered platform key :=
  h.invariant (P := fun _ s => s.Ordered platform key) .initial
    fun _ _ _ _ _ hs hstep => hstep.ordered hcipher hs

end Service

end InboxSaas.Api
