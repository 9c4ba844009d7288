import InboxSaas.Provisioner.SessionRuns

/-!
# Verified sessions

A process that `ensure` returns passed a health check in that very call (`verified_path`).
`validate` takes the tenant id from a further check, of which it asks only that there is one.
`validated_tenant` says exactly when that tenant is the verified one all the same.
-/

namespace InboxSaas.Provisioner

open Reasoning Program TenantSessionRegistry

/-- The operations that decide which session a call goes by. -/
def ProvisionerOp.confirms : ProvisionerOp → Bool
  | .touch _ _ _ | .setSession _ _ | .healthCheck .isCandidateHealthy _ => true
  | _ => false

def confirming (l : List ProvisionerEvent) : List ProvisionerEvent :=
  l.filter (fun e => e.op.confirms)

@[simp] theorem confirming_nil : confirming [] = [] := rfl

@[simp] theorem confirming_append (l m : List ProvisionerEvent) :
    confirming (l ++ m) = confirming l ++ confirming m := List.filter_append ..

@[simp] theorem confirming_cons (e : ProvisionerEvent) (l : List ProvisionerEvent) :
    confirming (e :: l) = if e.op.confirms then e :: confirming l else confirming l :=
  List.filter_cons

theorem mem_confirming {e : ProvisionerEvent} {l : List ProvisionerEvent}
    (he : e.op.confirms = true) : e ∈ confirming l ↔ e ∈ l := by
  rw [confirming, List.mem_filter]
  exact and_iff_left he

section

variable (casefold : PyString → PyString) (c : PyString) (credentials : TenantCredentials)

/-- The events of a call in which `ensure` returned a process: the session was retained, fresh and
healthy, or it is new, of the same user and healthy. -/
inductive VerifiedPath : List ProvisionerEvent → AuthenticatedTenantSession →
    TenantPowerShellHealthCheck → Prop where
  | retained {session : TenantSession} {time touched : Int} {health : TenantPowerShellHealthCheck}
      (hfresh : time - session.lastUsedAt < sessionIdleTtl)
      (hhealth : healthy casefold session credentials health = true) :
      VerifiedPath [did (.lock c) (), did (.getSession c) (some session), did .now time,
        did (.healthCheck .isHealthy session.process) health, did .now touched,
        did (.touch c session.process touched) (), did (.unlock c) ()]
        session.toAuthenticatedTenantSession health
  | new {l : List ProvisionerEvent} {candidate : AuthenticatedTenantSession}
      {health : TenantPowerShellHealthCheck} (time : Int)
      (huser : SameUser casefold credentials candidate)
      (hhealth : candidateHealthy casefold candidate health = true)
      (hl : confirming l = [did (.healthCheck .isCandidateHealthy candidate.process) health,
        did (.setSession c ⟨candidate, time⟩) ()]) :
      VerifiedPath l candidate health

end

variable {casefold : PyString → PyString} {c : PyString} {credentials : TenantCredentials}
variable {l : List ProvisionerEvent}

/-- Both predicates for a report come to the same. -/
theorem VerifiedPath.health {session : AuthenticatedTenantSession}
    {health : TenantPowerShellHealthCheck}
    (h : VerifiedPath casefold c credentials l session health) :
    health.graphConnected = true ∧ health.exchangeConnected = true ∧
      health.microsoftTenantId = some session.microsoftTenantId ∧
      normalizedUpn casefold health.userPrincipalName =
        normalizedUpn casefold (some session.userPrincipalName) ∧
      SameUser casefold credentials session := by
  cases h with
  | retained _ hhealth =>
      simp only [healthy, Bool.and_eq_true, decide_eq_true_iff] at hhealth
      obtain ⟨⟨⟨⟨hgraph, hexchange⟩, htenant⟩, hupn⟩, huser⟩ := hhealth
      exact ⟨hgraph, hexchange, htenant, hupn, huser⟩
  | new _ huser hhealth =>
      simp only [candidateHealthy, Bool.and_eq_true, decide_eq_true_iff] at hhealth
      obtain ⟨⟨⟨hgraph, hexchange⟩, htenant⟩, hupn⟩ := hhealth
      exact ⟨hgraph, hexchange, htenant, hupn, huser⟩

theorem ReusePath.confirming_none {session : TenantSession}
    (h : ReusePath casefold c credentials session l (.ok none)) : confirming l = [] := by
  generalize ho : (Except.ok none : Except PyError (Option Process)) = o at h
  cases h with
  | reused => cases ho
  | _ => rfl

theorem DisposePath.confirming_nil {o : Except PyError Unit} (h : DisposePath c l o) :
    confirming l = [] := by
  cases h <;> rfl

variable {authenticate : PyString → TenantCredentials →
  ProvisionerProgram AuthenticatedTenantSession}

theorem rejection_ne_ok {r : Except PyError Unit} {process : Process} :
    Except.ok process ≠ rejection r := by
  rcases r with (_ | _) | _ <;> exact fun h => by cases h

/-- A process that `ensure` returns was verified in the call. -/
theorem verified_path
    (hauth : ∀ credentials l o, AllPossible l → Ends (authenticate c credentials) l o →
      confirming l = [])
    {process : Process} (hl : AllPossible l)
    (h : Ends (ensure casefold authenticate c credentials) l (.ok process)) :
    ∃ session health, session.process = process ∧
      VerifiedPath casefold c credentials l session health := by
  -- a new session, whatever came before
  have hnew : ∀ {b n : List ProvisionerEvent}, AllPossible n → confirming b = [] →
      EstablishPath casefold authenticate c credentials n (.ok process) →
      ∃ session health, session.process = process ∧
        VerifiedPath casefold c credentials (b ++ n ++ [did (.unlock c) ()]) session health := by
    intro b n hn hb hpath
    generalize ho : (Except.ok process : Except PyError Process) = o at hpath
    cases hpath with
    | @registered l candidate health time hcandidate huser hhealth =>
        cases ho
        refine ⟨candidate, health, rfl, .new time huser hhealth ?_⟩
        rw [allPossible_append] at hn
        simp only [confirming_append, hb, hauth _ _ _ hn.1 hcandidate]
        rfl
    | notAuthenticated => cases ho
    | interrupted => cases ho
    | otherUser => exact absurd ho rejection_ne_ok
    | failed => exact absurd ho rejection_ne_ok
    | unhealthy => exact absurd ho rejection_ne_ok
  rcases ensure_path casefold _ hl h with ⟨-, ho⟩ | ⟨m, rfl, hlocked⟩
  · cases ho
  · rw [allPossible_cons, allPossible_append] at hl
    generalize ho : (Except.ok process : Except PyError Process) = o at hlocked
    cases hlocked with
    | interrupted => cases ho
    | notReplaced => cases ho
    | @reused session l p hreuse =>
        generalize hp : (Except.ok (some p) : Except PyError (Option Process)) = x at hreuse
        cases hreuse with
        | reused hfresh hhealth =>
            cases hp
            cases ho
            exact ⟨_, _, rfl, .retained hfresh hhealth⟩
        | _ => cases hp
    | @new n _ hpath =>
        subst ho
        exact hnew (b := [did (.lock c) (), did (.getSession c) none])
          (allPossible_cons.mp hl.2.1).2 rfl hpath
    | @replaced session l m n _ hreuse hdispose hpath =>
        subst ho
        have hn := (allPossible_cons.mp hl.2.1).2
        rw [allPossible_append, allPossible_append] at hn
        have hlist : did (.lock c) () :: (did (.getSession c) (some session) :: (l ++ (m ++ n)) ++
            [did (.unlock c) ()]) = (did (.lock c) () :: did (.getSession c) (some session) ::
              (l ++ m)) ++ n ++ [did (.unlock c) ()] := by simp
        rw [hlist]
        refine hnew hn.2.2 ?_ hpath
        simp [hreuse.confirming_none, hdispose.confirming_nil, ProvisionerOp.confirms]

/-! ## The validated tenant -/

theorem AuthenticatePath.confirming_nil {o : Except PyError AuthenticatedTenantSession}
    (h : AuthenticatePath credentials l o) : confirming l = [] := by
  have hsign : ∀ {process : Process} {m : List ProvisionerEvent}
      {x : Except PyError AuthenticatedTenantSession}, SignInPath process credentials m x →
      confirming m = [] := by
    intro process m x hm
    cases hm <;> rfl
  cases h with
  | notStarted => rfl
  | authenticated h => simp [hsign h, ProvisionerOp.confirms]
  | stopped h => simp [hsign h, ProvisionerOp.confirms]
  | notStopped h => simp [hsign h, ProvisionerOp.confirms]

/-- The session that `ensure` verified in a call, with the report it went by: it was found and
touched, or it was registered. -/
def Verified (c : PyString) (l : List ProvisionerEvent) (session : AuthenticatedTenantSession)
    (report : TenantPowerShellHealthCheck) : Prop :=
  (∃ (retained : TenantSession) (touched : Int),
    did (.getSession c) (some retained) ∈ l ∧ did (.touch c retained.process touched) () ∈ l ∧
      did (.healthCheck .isHealthy retained.process) report ∈ l ∧
      session = retained.toAuthenticatedTenantSession) ∨
  ∃ time, did (.setSession c ⟨session, time⟩) () ∈ l ∧
    did (.healthCheck .isCandidateHealthy session.process) report ∈ l

theorem VerifiedPath.verified_iff {session session' : AuthenticatedTenantSession}
    {health report : TenantPowerShellHealthCheck}
    (h : VerifiedPath casefold c credentials l session health) :
    Verified c l session' report ↔ session' = session ∧ report = health := by
  cases h with
  | @retained retained time touched health hfresh hhealth =>
      constructor
      · rintro (⟨found, touched', hget, -, hcheck, rfl⟩ | ⟨time', hset, -⟩)
        · simp at hget
          subst hget
          simp at hcheck
          exact ⟨rfl, hcheck⟩
        · simp at hset
      · rintro ⟨rfl, rfl⟩
        exact .inl ⟨retained, touched, by simp, by simp, by simp, rfl⟩
  | new time huser hhealth hl =>
      have hmem : ∀ {e : ProvisionerEvent}, e.op.confirms = true → (e ∈ l ↔
          e = did (.healthCheck .isCandidateHealthy session.process) health ∨
            e = did (.setSession c ⟨session, time⟩) ()) := by
        intro e he
        rw [← mem_confirming he, hl, List.mem_cons, List.mem_singleton]
      constructor
      · rintro (⟨found, touched, -, htouch, -, -⟩ | ⟨time', hset, hcheck⟩)
        · rcases (hmem rfl).mp htouch with he | he
          · cases he
          · cases he
        · rcases (hmem rfl).mp hset with he | he
          · cases he
          · cases he
            rcases (hmem rfl).mp hcheck with he | he
            · cases he
              exact ⟨rfl, rfl⟩
            · cases he
      · rintro ⟨rfl, rfl⟩
        exact .inr ⟨time, (hmem rfl).mpr (.inr rfl), (hmem rfl).mpr (.inl rfl)⟩

/-- The report of the last check of a call of `validate`. -/
def Reported (l : List ProvisionerEvent) (report : TenantPowerShellHealthCheck) : Prop :=
  ∃ m process, l = m ++ [did (.healthCheck .validate process) report]

theorem verified_snoc {process : Process} {r : Except PyError TenantPowerShellHealthCheck}
    {session : AuthenticatedTenantSession} {report : TenantPowerShellHealthCheck} :
    Verified c (l ++ [⟨.healthCheck .validate process, r⟩]) session report ↔
      Verified c l session report := by
  simp [Verified]

theorem reported_snoc {process : Process} {report report' : TenantPowerShellHealthCheck} :
    Reported (l ++ [did (.healthCheck .validate process) report]) report' ↔ report' = report := by
  constructor
  · rintro ⟨m, p, hlist⟩
    have hlast := (List.append_inj' hlist rfl).2
    cases hlast
    rfl
  · rintro rfl
    exact ⟨l, process, rfl⟩

/-- The reports agree, as far as they are looked at. -/
def SameReport (casefold : PyString → PyString) (verified reported : TenantPowerShellHealthCheck) :
    Prop :=
  reported.graphConnected = verified.graphConnected ∧
    reported.exchangeConnected = verified.exchangeConnected ∧
    reported.microsoftTenantId = verified.microsoftTenantId ∧
    normalizedUpn casefold reported.userPrincipalName =
      normalizedUpn casefold verified.userPrincipalName

/-- Success takes the tenant id of the last report. -/
theorem reported_success {r : Except PyError TenantPowerShellHealthCheck}
    {microsoftTenantId : PyString} (h : reported r = .ok (.success microsoftTenantId)) :
    ∃ health, r = .ok health ∧ health.microsoftTenantId = some microsoftTenantId := by
  have hanswered : ∀ e, answered e ≠ .ok (.success microsoftTenantId) := by
    rintro (_ | error) he
    · cases he
    · cases error <;> cases he
  rcases r with e | health
  · exact absurd h (hanswered e)
  · refine ⟨health, rfl, ?_⟩
    simp only [reported_ok, verdict] at h
    rcases htenant : health.microsoftTenantId with _ | tenant
    · simp only [htenant] at h
      exact absurd h (hanswered _)
    · by_cases hempty : tenant = []
      · simp only [htenant, if_pos hempty] at h
        exact absurd h (hanswered _)
      · simp only [htenant, if_neg hempty] at h
        cases h
        rfl

theorem validate_success {request : TenantValidationRequest} {microsoftTenantId : PyString}
    (hl : AllPossible l)
    (h : Ends (RealTenantValidationService.validate casefold
      RealTenantValidationService.authenticate request) l (.ok (.success microsoftTenantId))) :
    ∃ m session verified reported, l = m ++ [did (.healthCheck .validate session.process) reported] ∧
      VerifiedPath casefold request.tenantConnectionId request.credentials m session verified ∧
      reported.microsoftTenantId = some microsoftTenantId := by
  rcases (validate_ends casefold _).mp h with ⟨e, -, he⟩ | ⟨m, process, r, rfl, hensure, hr⟩
  · rcases e with _ | error
    · cases he
    · cases error <;> cases he
  · obtain ⟨health, rfl, htenant⟩ := reported_success hr.symm
    rw [allPossible_append] at hl
    obtain ⟨session, verified, rfl, hpath⟩ := verified_path
      (fun credentials l o hl hauth => (authenticate_path hl hauth).confirming_nil) hl.1 hensure
    exact ⟨m, session, verified, health, rfl, hpath, htenant⟩

section

variable {ι : Type} [DecidableEq ι] {calls : ι → SessionCall} {w : Sessions ι}

/-- Whenever `validate` returned success, there is a session that `ensure` verified in the call and
a report that the tenant was taken from.  The tenant is the session's, and the report that of a
connected session of the submitted user, exactly if the report agrees with the verified one. -/
theorem validated_tenant (h : Runs casefold RealTenantValidationService.authenticate calls w)
    {i : ι} {request : TenantValidationRequest} (hcall : calls i = .validate request)
    {microsoftTenantId : PyString}
    (hdone : w.prog i = .ret (.validated (.success microsoftTenantId))) :
    (∃ session verified reported,
      Verified request.tenantConnectionId (own i w.shared.2) session verified ∧
        Reported (own i w.shared.2) reported) ∧
      ∀ session verified reported,
        Verified request.tenantConnectionId (own i w.shared.2) session verified →
        Reported (own i w.shared.2) reported →
        ((microsoftTenantId = session.microsoftTenantId ∧ reported.graphConnected = true ∧
          reported.exchangeConnected = true ∧
          normalizedUpn casefold reported.userPrincipalName =
            some (normalizedEmail casefold request.credentials)) ↔
          SameReport casefold verified reported) := by
  obtain ⟨hl, hends⟩ := h.ends (o := .ok _) hdone
  rw [hcall] at hends
  obtain ⟨l₁, l₂, result, heq, hvalidate, hret⟩ | ⟨e, he, -⟩ := ends_bind.mp hends
  · obtain ⟨rfl, hresult⟩ := ends_ret.mp hret
    cases hresult
    rw [List.append_nil] at heq
    rw [heq] at hl ⊢
    obtain ⟨m, session, verified, reported, rfl, hpath, htenant⟩ := validate_success hl hvalidate
    refine ⟨⟨session, verified, reported, verified_snoc.mpr (hpath.verified_iff.mpr ⟨rfl, rfl⟩),
      reported_snoc.mpr rfl⟩, ?_⟩
    intro session' verified' reported' hverified hreported
    obtain ⟨rfl, rfl⟩ := hpath.verified_iff.mp (verified_snoc.mp hverified)
    cases reported_snoc.mp hreported
    obtain ⟨hgraph, hexchange, hid, hupn, huser⟩ := hpath.health
    unfold SameReport
    rw [hgraph, hexchange, hid, htenant, hupn, huser, Option.some.injEq]
    constructor
    · rintro ⟨htenant, hgraph, hexchange, hupn⟩
      exact ⟨hgraph, hexchange, htenant, hupn⟩
    · rintro ⟨hgraph, hexchange, htenant, hupn⟩
      exact ⟨htenant, hgraph, hexchange, hupn⟩
  · cases he

end

/-! ## A session that loses Exchange -/

/-- The connection to Exchange is gone. -/
def disconnectedReport : TenantPowerShellHealthCheck :=
  { sampleReport with exchangeConnected := false }

theorem validatedRun_own (last : TenantPowerShellHealthCheck) :
    Verified sampleRequest.tenantConnectionId (own () (validatedRun last).shared.2)
        ⟨0, "tenant".toList, "admin@contoso.com".toList⟩ sampleReport ∧
      Reported (own () (validatedRun last).shared.2) last := by
  rw [validatedRun_trace]
  have hown : ∀ l : List ProvisionerEvent, own () (l.map fun e => ((), e)) = l := by
    intro l
    simp [own, Function.comp_def]
  rw [hown]
  refine ⟨.inr ⟨0, ?_, ?_⟩, ?_⟩
  · simp
  · simp
  · exact ⟨_, 0, (List.dropLast_append_getLast (List.cons_ne_nil _ _)).symm⟩

theorem validatedRun_disconnected :
    (validatedRun disconnectedReport).prog () =
      .ret (.validated (.success "tenant".toList)) := by
  rfl

theorem validated_tenant_disconnected : ¬ SameReport id sampleReport disconnectedReport := by
  intro h
  have hiff := (validated_tenant (w := validatedRun disconnectedReport) (i := ()) (plays _ _ _ _) rfl
    validatedRun_disconnected).2 _ _ _ (validatedRun_own disconnectedReport).1
    (validatedRun_own disconnectedReport).2
  exact absurd (hiff.mpr h).2.2.1 Bool.false_ne_true

/-- The last check may report that Exchange is not connected; the tenant is validated all the same. -/
theorem disconnected_tenant_validated :
    ∃ w : Sessions Unit,
      Runs id RealTenantValidationService.authenticate (fun _ => .validate sampleRequest) w ∧
        w.prog () = .ret (.validated (.success "tenant".toList)) ∧
        ∃ session verified reported,
          Verified sampleRequest.tenantConnectionId (own () w.shared.2) session verified ∧
            Reported (own () w.shared.2) reported ∧ reported.exchangeConnected = false :=
  ⟨validatedRun disconnectedReport, plays _ _ _ _, validatedRun_disconnected, _, _, _,
    (validatedRun_own disconnectedReport).1, (validatedRun_own disconnectedReport).2, rfl⟩

end InboxSaas.Provisioner
