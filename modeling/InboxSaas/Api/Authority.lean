import InboxSaas.Api.Service

/-!
# Where authority comes from

Every answer of the public API is given on the authority of an API key that had been issued, and not
revoked, when the request came in, and shows and does what this key covers: `answered_within_grants`.
Every user sees the organization of its own sign-up and nothing else: `own_control_planes`.
-/

namespace InboxSaas.Api

open Auth Product Reasoning

namespace Service

variable {ι : Type} [DecidableEq ι] {sha256 : Bytes → Bytes} {cipher : TenantCredentialCipher}
  {s s' : Service ι} {e : Event ι} {events : List (Event ι)}

/-! ## Keys -/

/-- The key was issued and not revoked since. -/
def Unrevoked (events : List (Event ι)) (input : IssueApiKeyInput) (issued : IssuedApiKey) : Prop :=
  Stands (fun _ e => e = .issueApiKey input (.ok issued)) (fun e => e.revokes issued.id) events

/-- The token is that of a key which gives this access. -/
def Live (events : List (Event ι)) (token : JsString) (now : Time) (grant : AccessGrant) : Prop :=
  ∃ input issued, Unrevoked events input issued ∧ issued.token = token ∧ now < input.expiresAt ∧
    input.toAccessGrant = grant

/-- The rows are those of the issued keys. -/
structure KeyHistory (sha256 : Bytes → Bytes) (events : List (Event ι)) (s : Service ι) : Prop where
  stored : ∀ row ∈ s.apiKeys, ∃ input issued, Records sha256 input issued row ∧
    .issueApiKey input (.ok issued) ∈ events ∧
    (row.revokedAt = none → Unrevoked events input issued)
  issued : ∀ input issued, Unrevoked events input issued →
    ∃ row ∈ s.apiKeys, Records sha256 input issued row ∧ row.revokedAt = none

theorem Step.keyHistory (h : Step sha256 cipher s e s') (hs : KeyHistory sha256 events s) :
    KeyHistory sha256 (events ++ [e]) s' := by
  obtain ⟨call, hkeys, hrevokes, hissue, hissued⟩ := h.call
  constructor
  · intro row' hrow'
    rw [hkeys] at hrow'
    rcases mem_run sha256 hrow' with ⟨row, hrow, hleaves⟩ | ⟨input, draw, hcall, rfl, hreturned⟩
    · obtain ⟨input, issued, hrecords, hseen, hlive⟩ := hs.stored row hrow
      refine ⟨input, issued, hrecords.leaves hleaves, List.mem_append_left _ hseen, fun hnone => ?_⟩
      obtain ⟨hold, hnot⟩ := hleaves.revokedAt_eq_none.mp hnone
      rw [hrevokes, hrecords.id] at hnot
      exact (hlive hold).append hnot
    · have he := hissue input draw hcall
      rw [hreturned] at he
      refine ⟨input, draw.issued input, records_apiKeyRow sha256 input draw, ?_, fun _ => .seen he⟩
      exact List.mem_append_right _ (List.mem_singleton.mpr he.symm)
  · intro input issued hlive
    rw [hkeys]
    rcases stands_append.mp hlive with he | ⟨hbefore, hnot⟩
    · obtain ⟨draw, rfl, hreturned⟩ := hissued input issued he
      rcases issueApiKey_cases sha256 input draw s.keys with ⟨e', he'⟩ | ⟨-, hok⟩
      · rw [he'] at hreturned
        cases hreturned
      · rw [hok] at hreturned
        cases hreturned
        refine ⟨apiKeyRow sha256 input draw, ?_, records_apiKeyRow sha256 input draw, rfl⟩
        rw [ApiKeyCall.run, hok]
        exact Table.mem_put_self _ _
    · obtain ⟨row, hrow, hrecords, hnone⟩ := hs.issued input issued hbefore
      obtain ⟨row', hrow', hleaves⟩ := run_mem sha256 call (show row ∈ s.keys.apiKeys from hrow)
      refine ⟨row', hrow', hrecords.leaves hleaves, hleaves.revokedAt_eq_none.mpr ⟨hnone, ?_⟩⟩
      rw [hrevokes, hrecords.id]
      exact hnot

theorem Runs.keyHistory (h : Runs sha256 cipher events s) : KeyHistory sha256 events s :=
  h.invariant ⟨fun _ h => absurd h List.not_mem_nil, fun _ _ h => absurd h not_stands_nil⟩
    fun _ _ _ _ _ hs hstep => hstep.keyHistory hs

omit [DecidableEq ι] in
/-- After any history, a token authenticates exactly with the access of its live key. -/
theorem KeyHistory.authenticate (h : KeyHistory sha256 events s)
    (htokenPrefix : ∀ row ∈ s.apiKeys, ∀ other ∈ s.apiKeys, row.tokenPrefix = other.tokenPrefix →
      row = other) {token : JsString} (now : Time)
    (hsha256 : ∀ input issued, .issueApiKey input (.ok issued) ∈ events →
      ¬ Collide sha256 token issued.token) :
    ∃ found, authenticateApiKey sha256 token now s.keys = .ok found ∧
      ∀ grant, found = some grant ↔ Live events token now grant := by
  -- the row of a live key has the prefix of the token
  have hrow : ∀ grant, Live events token now grant → ∃ row ∈ s.apiKeys,
      matchToken token = some row.tokenPrefix ∧ row.secretHash = hashToken sha256 token ∧
        row.revokedAt = none ∧ now < row.expiresAt ∧ toAccessGrant row = .ok grant := by
    rintro grant ⟨input, issued, hlive, rfl, hnow, rfl⟩
    obtain ⟨row, hmem, hrecords, hnone⟩ := h.issued input issued hlive
    exact ⟨row, hmem, hrecords.tokenPrefix, hrecords.secretHash, hnone,
      hrecords.expiresAt ▸ hnow, hrecords.grant⟩
  cases hmatch : matchToken token with
  | none =>
      refine ⟨none, authenticateApiKey_malformed hmatch, fun grant => ⟨nofun, fun hlive => ?_⟩⟩
      obtain ⟨row, -, hprefix, -⟩ := hrow grant hlive
      rw [hmatch] at hprefix
      cases hprefix
  | some tokenPrefix =>
      cases hfind : s.keys.apiKeyOfPrefix tokenPrefix with
      | none =>
          refine ⟨none, authenticateApiKey_unknown hmatch hfind,
            fun grant => ⟨nofun, fun hlive => ?_⟩⟩
          obtain ⟨row, hmem, hprefix, -⟩ := hrow grant hlive
          have hnone := List.find?_eq_none.mp hfind row hmem
          rw [hmatch] at hprefix
          simp [Option.some.inj hprefix] at hnone
      | some row =>
          have hmem : row ∈ s.apiKeys := List.mem_of_find?_eq_some hfind
          have hprefix : row.tokenPrefix = tokenPrefix := by simpa using List.find?_some hfind
          obtain ⟨input, issued, hrecords, hseen, hlive⟩ := h.stored row hmem
          refine ⟨_, authenticateApiKey_found hmatch hfind hrecords, fun grant => ⟨?_, ?_⟩⟩
          · split
            · rintro ⟨⟩
              rename_i hvalid
              refine ⟨input, issued, hlive hvalid.2.1, ?_, hrecords.expiresAt ▸ hvalid.2.2, rfl⟩
              exact hrecords.token_eq hmatch (hsha256 input issued hseen) hvalid.1
            · exact nofun
          · intro hlive
            obtain ⟨row', hmem', hprefix', hhash, hnone, hnow, hgrant⟩ := hrow grant hlive
            rw [hmatch] at hprefix'
            have hsame : row' = row := htokenPrefix row' hmem' row hmem
              ((Option.some.inj hprefix').symm.trans hprefix.symm)
            rw [hsame] at hhash hnone hnow hgrant
            rw [if_pos ⟨hhash, hnone, hnow⟩]
            rw [hrecords.grant] at hgrant
            exact congrArg some (Except.ok.inj hgrant)

/-! ## Requests -/

/-- The request came in as `received`, and is not answered yet. -/
def CameIn (sha256 : Bytes → Bytes) (cipher : TenantCredentialCipher) (events : List (Event ι))
    (i : ι) (received : Received) : Prop :=
  Stands (fun before e => ∃ authorization now s, e = .receive i authorization now received.request ∧
    Runs sha256 cipher before s ∧ (received.grant = authorize sha256 authorization now s.keys ∨
      ∃ e, Infrastructure e ∧ received.grant = .error e)) (fun e => e.answers i) events

theorem Step.received {i : ι} {received : Received} (hruns : Runs sha256 cipher events s)
    (h : Step sha256 cipher s e s') (hs : ∀ i received, s.received i = some received →
      CameIn sha256 cipher events i received) (hi : s'.received i = some received) :
    CameIn sha256 cipher (events ++ [e]) i received := by
  cases h with
  | signUp => exact (hs i received hi).append id
  | refusedSignUp => exact (hs i received hi).append id
  | issueApiKey => exact (hs i received hi).append id
  | revokeApiKey => exact (hs i received hi).append id
  | work => exact (hs i received hi).append id
  | @receive j authorization now request grant hgrant hfree =>
      change Function.update s.received j (some ⟨grant, request⟩) i = some received at hi
      by_cases hj : i = j
      · subst hj
        rw [Function.update_self] at hi
        cases hi
        exact .seen ⟨authorization, now, s, rfl, hruns, hgrant⟩
      · rw [Function.update_of_ne hj] at hi
        exact (hs i received hi).append id
  | @answer j =>
      change Function.update s.received j none i = some received at hi
      by_cases hj : i = j
      · subst hj
        rw [Function.update_self] at hi
        cases hi
      · rw [Function.update_of_ne hj] at hi
        exact (hs i received hi).append (Ne.symm hj)

theorem Runs.received (h : Runs sha256 cipher events s) :
    ∀ i received, s.received i = some received → CameIn sha256 cipher events i received :=
  h.invariant nofun fun _ _ _ _ hruns hs hstep _ _ hi => hstep.received hruns hs hi

end Service

/-! ## Answers -/

/-- The connection is in a workspace that the grant covers. -/
def CoversConnection (grant : AccessGrant) (db : ControlPlaneStore)
    (connection : TenantConnectionDto) : Prop :=
  ∃ workspace ∈ db.product.workspaces, workspace.id = connection.workspaceId ∧
    workspace.organizationId = connection.organizationId ∧ grant.Covers workspace

/-- What an answer shows and what the request did, between two stores, is what the grant covers. -/
def Within (grant : AccessGrant) (before after : ControlPlaneStore) : V1Request → V1Response → Prop
  | .workspaces, .workspaces workspaces => after = before ∧
      ∀ dto, dto ∈ workspaces ↔ ∃ workspace ∈ before.product.workspaces,
        dto = before.workspaceDto workspace ∧ grant.Covers workspace
  | .postTenantConnection request, .postTenantConnection (.accepted _ _ connection) =>
      uuidIn request.workspaceId = some connection.workspaceId ∧ grant.permission = .write ∧
        CoversConnection grant after connection
  | .postTenantConnection _, .postTenantConnection _ => after = before
  | .job jobId, .job (.found job connection) => Works before.product after.product ∧
      uuidIn jobId = some job.id ∧ CoversConnection grant after connection
  | .job jobId, .job .notFound => Works before.product after.product ∧
      (isUuid jobId = true → ∀ id job row, uuidIn jobId = some id →
        after.product.jobs.find id = some job →
        after.product.tenantConnections.find job.tenantConnectionId = some row →
        ¬ CoversConnection grant after (toTenantConnectionDto row))
  | _, _ => False

section

variable {platform : Platform} {key : Bytes} {db : ControlPlaneStore} {grant : AccessGrant}

theorem covers_of_isAuthorized {permission : Permission} (hdb : ForeignKeys db)
    {row : TenantConnection} (hrow : row ∈ db.product.tenantConnections)
    (h : isAuthorized [grant] ⟨row.organizationId, permission, .workspace row.workspaceId⟩ = true) :
    CoversConnection grant db (toTenantConnectionDto row) ∧
      (permission = .write → grant.permission = .write) := by
  obtain ⟨workspace, hmem, hid, horganization⟩ := hdb.tenantConnection_workspace row hrow
  obtain ⟨found, hfound, hsame, hpermission, hscope⟩ := isAuthorized_iff.mp h
  rw [List.mem_singleton] at hfound
  subst hfound
  refine ⟨⟨workspace, hmem, hid, horganization, hsame.trans horganization.symm, ?_⟩, ?_⟩
  · rcases hscope with hscope | ⟨workspaceId, hscope, hrequest⟩
    · exact .inl hscope
    · right
      rw [hscope, hid]
      exact hrequest.symm
  · intro hwrite
    cases hread : found.permission with
    | write => rfl
    | read => exact absurd (hwrite.symm.trans (hpermission hread)) nofun

theorem reads_of_covers {connection : TenantConnectionDto}
    (h : CoversConnection grant db connection) : Reads grant connection := by
  obtain ⟨workspace, -, hid, horganization, hcovers⟩ := h
  rw [Reads, ← hid, ← horganization, isAuthorized_readWorkspace]
  exact ⟨grant, List.mem_singleton_self grant, hcovers⟩

/-- A start that accepts nothing changes nothing. -/
theorem unchanged_of_not_accepted {cipher : TenantCredentialCipher} {draws : StartDraws}
    {input : StartTenantValidationInput} {result : StartTenantValidationResult} {db db' : Store}
    (hc : Consistent db) (h : (Call.start [grant] input cipher draws).Runs db (.ok result) db')
    (hnot : ∀ connection job reused, result ≠ .accepted connection job reused) : db' = db := by
  obtain ⟨s', hruns⟩ := h
  rcases runs_start_cases hruns with ⟨-, rfl, -⟩ | ⟨_, _, _, -, htx⟩
  · rfl
  · obtain ⟨-, hcommit⟩ := runs_startTransaction (fun _ he => he) hc htx
    cases hcommit with
    | unchanged => rfl
    | created _ ho =>
        rcases ho with ho | ⟨e, ho⟩
        · exact absurd (Except.ok.inj ho) (hnot _ _ _)
        · cases ho

theorem runs_postTenantConnection_within {keyVersion : JsString} {cipher : TenantCredentialCipher}
    (hcipher : createTenantCredentialCipher platform key keyVersion = .ok cipher)
    (hmac : Function.Injective (platform.hmacSha256 key)) (hdb : Intact platform key db)
    {request : PostTenantConnectionRequest} {draws : StartDraws}
    {response : PostTenantConnectionResponse} {product' : Store} {s' : Session Write Lock}
    (h : postgres.Runs Infrastructure (postTenantConnection grant request cipher draws) db.product
      .idle (.ok response) product' s') :
    Within grant db (db.withProduct product') (.postTenantConnection request)
      (.postTenantConnection response) := by
  have hafter := (Responds.postTenantConnection h).intact hcipher hdb
  have hother : (∀ idempotencyKey job connection,
      response ≠ .accepted idempotencyKey job connection) → product' = db.product := by
    intro hnot
    rcases runs_postTenantConnection_start h with ⟨-, rfl⟩ | ⟨input, result, -, hstart, ho⟩
    · rfl
    · cases result with
      | error e => cases ho
      | ok result =>
          cases ho
          refine unchanged_of_not_accepted hdb.consistent hstart fun connection job reused he => ?_
          subst he
          exact hnot _ _ _ rfl
  cases response with
  | invalidRequest => exact congrArg db.withProduct (hother fun _ _ _ => nofun)
  | notFound => exact congrArg db.withProduct (hother fun _ _ _ => nofun)
  | idempotencyConflict => exact congrArg db.withProduct (hother fun _ _ _ => nofun)
  | accepted idempotencyKey job connection =>
      have haccepts := runs_postTenantConnection hcipher hmac hdb.consistent hdb.linked h
      obtain ⟨row, hrow, rfl⟩ := haccepts.stored
      obtain ⟨hcovers, hpermission⟩ :=
        covers_of_isAuthorized hafter.1.foreignKeys hrow haccepts.writes
      exact ⟨haccepts.workspace, hpermission rfl, hcovers⟩

theorem amid_getJob_within (hdb : Intact platform key db) {jobId : JsString}
    {response : GetJobResponse} {product' : Store} {s' : Session Write Lock}
    (h : postgres.Amid Works Infrastructure (getJob grant jobId) db.product .idle (.ok response)
      product' s') :
    Within grant db (db.withProduct product') (.job jobId) (.job response) := by
  have hworks := h.drifts Works.refl (fun _ _ _ => Works.trans) (issues_getJob _ _)
  have hafter := (hdb.works hworks).foreignKeys
  have hpoll := amid_getJob hdb.consistent (h.mono fun _ _ => Works.later)
  generalize ho : Except.ok response = o at hpoll
  cases hpoll with
  | failed => cases ho
  | malformed hnot =>
      cases ho
      refine ⟨hworks, fun huuid => ?_⟩
      rw [huuid] at hnot
      cases hnot
  | missing hid hlater hjob =>
      cases ho
      refine ⟨hworks, fun _ id job row hid' hjob' => ?_⟩
      rw [hid] at hid'
      cases hid'
      exact absurd (hjob'.symm.trans hjob) nofun
  | hidden hid hlater hlater' hjob hconnection hnot =>
      cases ho
      refine ⟨hworks, fun _ id job row hid' hjob' hrow hcovers => hnot ?_⟩
      rw [hid] at hid'
      cases hid'
      obtain ⟨job₁, hjob₁, htc⟩ := (hlater'.keeps (hlater.consistent hdb.consistent)).job hjob
      have hsame : job = job₁ := Option.some.inj (hjob'.symm.trans hjob₁)
      rw [hsame, htc] at hrow
      have hrows : some _ = some row := hconnection.symm.trans hrow
      cases hrows
      exact reads_of_covers hcovers
  | found _ hid hlater hlater' hjob hconnection hreads =>
      cases ho
      have hjobId := Store.job_id hjob
      refine ⟨hworks, hid.trans (congrArg some hjobId.symm), ?_⟩
      exact (covers_of_isAuthorized hafter (Table.mem_of_find hconnection) hreads).1

/-- An answer given with a grant is within it. -/
theorem Responds.within {keyVersion : JsString} {cipher : TenantCredentialCipher}
    (hcipher : createTenantCredentialCipher platform key keyVersion = .ok cipher)
    (hmac : Function.Injective (platform.hmacSha256 key)) (hdb : Intact platform key db)
    {request : V1Request} {response : V1Response} {product' : Store}
    (h : Responds cipher db ⟨.ok (some grant), request⟩ (.ok response) product') :
    response ≠ .unauthorized ∧ Within grant db (db.withProduct product') request response := by
  generalize hreceived : (⟨.ok (some grant), request⟩ : Received) = received at h
  generalize ho : Except.ok response = o at h
  cases h with
  | failed => cases hreceived
  | unauthorized => cases hreceived
  | workspaces =>
      cases hreceived
      cases ho
      refine ⟨nofun, rfl, fun dto => mem_workspaces.trans ?_⟩
      simp only [List.mem_singleton, exists_eq_left]
  | failedWorkspaces => cases ho
  | @postTenantConnection _ _ _ result _ _ hruns =>
      cases hreceived
      cases result with
      | error e => cases ho
      | ok answer =>
          cases ho
          exact ⟨nofun, runs_postTenantConnection_within hcipher hmac hdb hruns⟩
  | @job _ _ result _ _ hamid =>
      cases hreceived
      cases result with
      | error e => cases ho
      | ok answer =>
          cases ho
          exact ⟨nofun, amid_getJob_within hdb hamid⟩

end

/-- No presented token has the digest of an issued one that is another. -/
def CollisionFree {ι : Type} (sha256 : Bytes → Bytes) (events : List (Service.Event ι)) : Prop :=
  ∀ i authorization now request token input issued,
    .receive i authorization now request ∈ events → authorization.bind bearerToken = some token →
    .issueApiKey input (.ok issued) ∈ events → ¬ Collide sha256 token issued.token

section

variable {ι : Type} [DecidableEq ι] {sha256 : Bytes → Bytes} {cipher : TenantCredentialCipher}
  {s : Service ι} {events : List (Service.Event ι)}

/-- The middleware lets a request through exactly with the access of the live key it presents. -/
theorem authorize_live (h : Service.Runs sha256 cipher events s)
    (htokenPrefix : ∀ row ∈ s.apiKeys, ∀ other ∈ s.apiKeys, row.tokenPrefix = other.tokenPrefix →
      row = other) {authorization : Option JsString} (now : Time)
    (hsha256 : ∀ token, authorization.bind bearerToken = some token → ∀ input issued,
      .issueApiKey input (.ok issued) ∈ events → ¬ Collide sha256 token issued.token) :
    ∃ found, authorize sha256 authorization now s.keys = .ok found ∧
      ∀ grant, found = some grant ↔ ∃ token, authorization.bind bearerToken = some token ∧
        Service.Live events token now grant := by
  unfold authorize
  cases htoken : authorization.bind bearerToken with
  | none =>
      refine ⟨none, rfl, fun grant => ⟨nofun, ?_⟩⟩
      rintro ⟨token, ⟨⟩, -⟩
  | some token =>
      obtain ⟨found, hfound, hlive⟩ :=
        h.keyHistory.authenticate htokenPrefix now (hsha256 token htoken)
      refine ⟨found, hfound, fun grant => (hlive grant).trans ⟨fun h => ⟨token, rfl, h⟩, ?_⟩⟩
      rintro ⟨_, ⟨⟩, h⟩
      exact h

/-- Whatever happens in between, a request is answered with the access of the key it came in with:
an answer is `unauthorized` exactly if it presented no token of a key that had been issued, not
revoked and not expired, and any other answer shows and does only what the grant of such a key
covers. -/
theorem answered_within_grants {platform : Platform} {key : Bytes} {keyVersion : JsString}
    (hcipher : createTenantCredentialCipher platform key keyVersion = .ok cipher)
    (hmac : Function.Injective (platform.hmacSha256 key))
    (h : Service.Runs sha256 cipher events s) (hsha256 : CollisionFree sha256 events)
    {before after : List (Service.Event ι)} {i : ι} {response : Except JsError V1Response}
    (he : events = before ++ .answer i response :: after) :
    ∃ earlier authorization now request between s₁ s₂,
      before = earlier ++ .receive i authorization now request :: between ∧
      (∀ e ∈ between, ¬ e.answers i) ∧ Service.Runs sha256 cipher before s₁ ∧
      Service.Step sha256 cipher s₁ (.answer i response) s₂ ∧
      ∀ r, response = .ok r →
        (r = .unauthorized ↔ ¬ ∃ token grant, authorization.bind bearerToken = some token ∧
          Service.Live earlier token now grant) ∧
        (r ≠ .unauthorized → ∃ token grant, authorization.bind bearerToken = some token ∧
          Service.Live earlier token now grant ∧
          Within grant s₁.controlPlane s₂.controlPlane request r) := by
  obtain ⟨s₁, s₂, hbefore, hstep⟩ := h.split he
  have hanswer := hstep
  generalize hevent : Service.Event.answer i response = e at hstep
  cases hstep with
  | signUp => cases hevent
  | refusedSignUp => cases hevent
  | issueApiKey => cases hevent
  | revokeApiKey => cases hevent
  | work => cases hevent
  | receive => cases hevent
  | @answer _ received _ product hreceived hresponds =>
      cases hevent
      obtain ⟨earlier, _, between, hsplit, ⟨authorization, now, s₀, rfl, hearlier, hgrant⟩, hnone⟩ :=
        Service.Runs.received hbefore i received hreceived
      refine ⟨earlier, authorization, now, received.request, between, s₁, _, hsplit, hnone, hbefore,
        hanswer, ?_⟩
      rintro r rfl
      -- what was issued before the request came in is among the events
      have hcollide : ∀ token, authorization.bind bearerToken = some token → ∀ input issued,
          .issueApiKey input (.ok issued) ∈ earlier → ¬ Collide sha256 token issued.token := by
        intro token htoken input issued hissued
        apply hsha256 i authorization now received.request token input issued _ htoken
        · rw [he, hsplit]
          exact List.mem_append_left _ (List.mem_append_left _ hissued)
        · rw [he, hsplit]
          exact List.mem_append_left _ (List.mem_append_right _ List.mem_cons_self)
      obtain ⟨found, hfound, hlive⟩ :=
        authorize_live hearlier (Service.Runs.ordered hcipher hearlier).tokenPrefix now hcollide
      obtain ⟨grant, request⟩ := received
      rcases hgrant with hgrant | ⟨e, -, hgrant⟩
      swap
      · dsimp only at hgrant
        subst hgrant
        cases hresponds
      dsimp only at hgrant
      rw [hfound] at hgrant
      subst hgrant
      cases found with
      | none =>
          have hr : r = .unauthorized := by
            cases hresponds
            rfl
          refine ⟨⟨fun _ => ?_, fun _ => hr⟩, fun hnot => absurd hr hnot⟩
          rintro ⟨token, grant, htoken, hkey⟩
          exact absurd ((hlive grant).mpr ⟨token, htoken, hkey⟩) nofun
      | some grant =>
          obtain ⟨token, htoken, hkey⟩ := (hlive grant).mp rfl
          have hintact := (Service.Runs.ordered hcipher hbefore).intact
          obtain ⟨hr, hwithin⟩ := hresponds.within hcipher hmac hintact
          refine ⟨⟨fun h => absurd h hr, fun hnot => ?_⟩, fun _ => ?_⟩
          · exact absurd ⟨token, grant, htoken, hkey⟩ hnot
          · exact ⟨token, grant, htoken, hkey, hwithin⟩

/-- The users are those whose sign-up went through. -/
structure SignedUp (events : List (Service.Event ι)) (db : AccountStore) : Prop where
  created : ∀ user, .signUp user true ∈ events → ∃ name,
    user.initialOrganizationName = .string name ∧ 2 ≤ zodLength (trim name) ∧
      zodLength (trim name) ≤ 100 ∧ newUserRow user name ∈ db.users
  stored : ∀ row ∈ db.users, ∃ user, .signUp user true ∈ events ∧ Encoding.chars user.id = row.id

omit [DecidableEq ι] in
theorem SignedUp.append {e : Service.Event ι} {db : AccountStore} (h : SignedUp events db)
    (he : ∀ user, e ≠ .signUp user true) : SignedUp (events ++ [e]) db where
  created user hmem := by
    rcases List.mem_append.mp hmem with hold | hnew
    · exact h.created user hold
    · exact absurd (List.mem_singleton.mp hnew).symm (he user)
  stored row hrow := by
    obtain ⟨user, hmem, hid⟩ := h.stored row hrow
    exact ⟨user, List.mem_append_left _ hmem, hid⟩

theorem Service.Runs.signedUp (h : Service.Runs sha256 cipher events s) :
    SignedUp events s.accounts := by
  refine h.invariant (P := fun events s => SignedUp events s.accounts)
    ⟨fun _ h => absurd h List.not_mem_nil, fun _ h => absurd h List.not_mem_nil⟩ ?_
  intro events s e s' _ hs hstep
  cases hstep with
  | refusedSignUp => exact hs.append fun _ he => by cases he
  | issueApiKey => exact hs.append fun _ he => by cases he
  | revokeApiKey => exact hs.append fun _ he => by cases he
  | @work call _ _ _ _ =>
      have hsame : SignedUp (events ++ [.work call]) s.accounts := hs.append fun _ he => by cases he
      exact ⟨hsame.created, hsame.stored⟩
  | receive => exact hs.append fun _ he => by cases he
  | @answer i _ response _ _ _ =>
      have hsame : SignedUp (events ++ [.answer i response]) s.accounts :=
        hs.append fun _ he => by cases he
      exact ⟨hsame.created, hsame.stored⟩
  | @signUp ids user accounts hsignUp =>
      obtain ⟨name, hname, h2, h100, hjoins, rfl⟩ := signUp_eq_some hsignUp
      constructor
      · intro other hmem
        rcases List.mem_append.mp hmem with hold | hnew
        · obtain ⟨name', hname', h2', h100', hrow⟩ := hs.created other hold
          -- the id was free, so the rows of other users stay
          have hne : (newUserRow user name).id ≠ (newUserRow other name').id :=
            find_ne_of_none hjoins.user (by
              rw [show s.accounts.users.find (newUserRow other name').id = some _ from
                Table.find_of_mem hrow]
              rfl)
          exact ⟨name', hname', h2', h100', Table.mem_put.mpr (.inr ⟨hrow, Ne.symm hne⟩)⟩
        · cases List.mem_singleton.mp hnew
          exact ⟨name, hname, h2, h100, Table.mem_put_self _ _⟩
      · intro row hrow
        rcases Table.mem_put.mp hrow with rfl | ⟨hold, -⟩
        · exact ⟨user, List.mem_append_right _ (List.mem_singleton_self _), rfl⟩
        · obtain ⟨other, hmem, hid⟩ := hs.stored row hold
          exact ⟨other, List.mem_append_left _ hmem, hid⟩

/-- At any time a user sees exactly the organization of its own sign-up, under the trimmed name of 2
to 100 characters, and its one workspace; whoever never signed up sees nothing, and no two users see
anything in common. -/
theorem own_control_planes {platform : Platform} {key : Bytes} {keyVersion : JsString}
    (hcipher : createTenantCredentialCipher platform key keyVersion = .ok cipher)
    (h : Service.Runs sha256 cipher events s) :
    (∀ user, .signUp user true ∈ events → ∃ name organizationId workspaceId,
      user.initialOrganizationName = .string name ∧ 2 ≤ zodLength (trim name) ∧
      zodLength (trim name) ≤ 100 ∧
      controlPlane s.accounts (some (Encoding.chars user.id)) =
        .ok ⟨[⟨organizationId, Encoding.toWellFormed (trim name)⟩],
          [⟨workspaceId, organizationId, js "Default"⟩]⟩) ∧
      (∀ userId, (∀ user, .signUp user true ∈ events → Encoding.chars user.id ≠ userId) →
        controlPlane s.accounts (some userId) = .ok ⟨[], []⟩) ∧
      ∀ userId otherId plane other, userId ≠ otherId →
        controlPlane s.accounts (some userId) = .ok plane →
        controlPlane s.accounts (some otherId) = .ok other →
        (∀ a ∈ plane.organizations, ∀ b ∈ other.organizations, a.id ≠ b.id) ∧
          ∀ a ∈ plane.workspaces, ∀ b ∈ other.workspaces, a.id ≠ b.id := by
  have hhomes := (h.ordered hcipher).homes
  have hsignedUp := h.signedUp
  refine ⟨fun user hmem => ?_, fun userId hnone => ?_,
    fun _ _ _ _ hne hplane hother => hhomes.disjoint hne hplane hother⟩
  · obtain ⟨name, hname, h2, h100, hrow⟩ := hsignedUp.created user hmem
    obtain ⟨ids, hhome⟩ := hhomes.home _ hrow
    exact ⟨name, ids.organizationId, ids.workspaceId, hname, h2, h100, hhome.controlPlane⟩
  · apply hhomes.stranger
    rw [Table.find_eq_none]
    intro row hrow hid
    obtain ⟨user, hmem, huser⟩ := hsignedUp.stored row hrow
    exact hnone user hmem (huser.trans hid)

end

namespace Sample

def newUser : NewUser Encoding.Json :=
  ⟨js "user", js "Ada", js "ada@example.test", .string (js "  Example Company ")⟩

def start : Service Nat := Service.initial

theorem signUp_isSome : (signUp ⟨1, 2, 3⟩ newUser start.accounts).isSome = true := by
  decide +kernel

/-- The user has signed up. -/
def signedUp : Service Nat :=
  start.withAccounts ((signUp ⟨1, 2, 3⟩ newUser start.accounts).get signUp_isSome)

/-- It was issued a key for its workspace. -/
def keyed : Service Nat :=
  signedUp.withApiKeys (issueApiKey sampleSha256 sampleIssue sampleDraw signedUp.keys).2.apiKeys

def authorization : JsString := js "bearer  " ++ sampleDraw.token

/-- A request came in with the key. -/
def requested : Service Nat := { keyed with
  received := Function.update keyed.received 0
    (some ⟨.ok (some sampleIssue.toAccessGrant), .workspaces⟩) }

/-- Then the key was revoked. -/
def revoked : Service Nat :=
  requested.withApiKeys (revokeApiKey (uuidOut 7) 20 requested.keys).2.apiKeys

def ownWorkspace : Except JsError V1Response := .ok (.workspaces [⟨2, 1, js "Default"⟩])

def seen : List (Service.Event Nat) :=
  [.signUp newUser true, .issueApiKey sampleIssue (.ok (sampleDraw.issued sampleIssue)),
    .receive 0 (some authorization) 15 .workspaces, .revokeApiKey (uuidOut 7),
    .answer 0 ownWorkspace]

theorem seen_collisionFree : CollisionFree sampleSha256 seen :=
  fun _ _ _ _ _ _ _ _ _ _ hcollide => hcollide.1 (sampleSha256_injective hcollide.2)

theorem seen_runs : ∃ s, Service.Runs sampleSha256 cipher seen s := by
  have hcreated : signUp ⟨1, 2, 3⟩ newUser start.accounts = some signedUp.accounts :=
    (Option.some_get signUp_isSome).symm
  have hsignUp : Service.Step sampleSha256 cipher start (.signUp newUser true) signedUp :=
    .signUp hcreated
  have hissue : Service.Step sampleSha256 cipher signedUp
      (.issueApiKey sampleIssue (.ok (sampleDraw.issued sampleIssue))) keyed := by
    have hissued : (issueApiKey sampleSha256 sampleIssue sampleDraw signedUp.keys).1 =
        .ok (sampleDraw.issued sampleIssue) := by decide +kernel
    rw [← hissued]
    exact .issueApiKey sampleIssue sampleDraw
  have hreceive : Service.Step sampleSha256 cipher keyed
      (.receive 0 (some authorization) 15 .workspaces) requested := by
    refine .receive (.inl ?_) rfl
    decide +kernel
  have hrevoke : Service.Step sampleSha256 cipher requested (.revokeApiKey (uuidOut 7)) revoked :=
    .revokeApiKey (uuidOut 7) 20
  have hresponse : ownWorkspace = .ok (.workspaces (getAccessibleControlPlane
      revoked.controlPlane [sampleIssue.toAccessGrant]).workspaces) := by decide +kernel
  have hresponds : Responds cipher revoked.controlPlane
      ⟨.ok (some sampleIssue.toAccessGrant), .workspaces⟩ ownWorkspace revoked.product := by
    rw [hresponse]
    exact .workspaces
  have hanswer : ∃ s, Service.Step sampleSha256 cipher revoked (.answer 0 ownWorkspace) s :=
    ⟨_, .answer rfl hresponds⟩
  obtain ⟨s, hanswer⟩ := hanswer
  exact ⟨s, ((((History.nil.snoc hsignUp).snoc hissue).snoc hreceive).snoc hrevoke).snoc hanswer⟩

end Sample

/-- A request is answered with the key that it came in with, also after the key was revoked. -/
theorem answered_within_grants_revoked :
    ∃ earlier authorization now request between s₁ s₂,
      Sample.seen.take 4 = earlier ++ .receive 0 authorization now request :: between ∧
      (∀ e ∈ between, ¬ e.answers 0) ∧
      Service.Runs sampleSha256 Sample.cipher (Sample.seen.take 4) s₁ ∧
      Service.Step sampleSha256 Sample.cipher s₁ (.answer 0 Sample.ownWorkspace) s₂ ∧
      ∀ r, Sample.ownWorkspace = .ok r →
        (r = .unauthorized ↔ ¬ ∃ token grant, authorization.bind bearerToken = some token ∧
          Service.Live earlier token now grant) ∧
        (r ≠ .unauthorized → ∃ token grant, authorization.bind bearerToken = some token ∧
          Service.Live earlier token now grant ∧
          Within grant s₁.controlPlane s₂.controlPlane request r) := by
  obtain ⟨s, hs⟩ := Sample.seen_runs
  exact answered_within_grants Sample.cipher_eq Sample.hmacSha256_injective hs
    Sample.seen_collisionFree rfl

/-- The one user sees the organization of its sign-up. -/
theorem own_control_planes_sample : ∃ s : Service Nat,
    Service.Runs sampleSha256 Sample.cipher Sample.seen s ∧ ∃ organizationId workspaceId,
      controlPlane s.accounts (some (Encoding.chars (js "user"))) =
        .ok ⟨[⟨organizationId, js "Example Company"⟩],
          [⟨workspaceId, organizationId, js "Default"⟩]⟩ := by
  obtain ⟨s, hs⟩ := Sample.seen_runs
  obtain ⟨hown, -⟩ := own_control_planes Sample.cipher_eq hs
  obtain ⟨name, organizationId, workspaceId, hname, -, -, hplane⟩ :=
    hown Sample.newUser List.mem_cons_self
  cases hname
  refine ⟨s, hs, organizationId, workspaceId, hplane.trans ?_⟩
  rw [show Encoding.toWellFormed (trim (js "  Example Company ")) = js "Example Company" by
    decide +kernel]

end InboxSaas.Api
