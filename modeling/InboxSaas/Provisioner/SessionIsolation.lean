import InboxSaas.Provisioner.NoLeakedProcess
import InboxSaas.Provisioner.VerifiedSessions

/-!
# Session isolation

A registry over any `authenticate` that gives a fresh process each time.  The process that `ensure`
returns was authenticated for its connection and no other and verified in the call; no process is
ever registered for two connections; a process that is found expired or unhealthy is out of the
registry before another takes its place, and nobody gets it again (`session_isolation`).
-/

namespace InboxSaas.Provisioner

open Reasoning Program TenantSessionRegistry

/-- The function that the registry is constructed with. -/
def givenAuthenticate (c : PyString) (credentials : TenantCredentials) :
    ProvisionerProgram AuthenticatedTenantSession := await (.authenticate c credentials)

variable {ι : Type} [DecidableEq ι] {casefold : PyString → PyString} {calls : ι → SessionCall}

theorem givenAuthenticate_signsIn : AllSignIn casefold SignedInFor givenAuthenticate :=
  fun c last => await_signsIn casefold c last

/-- Somebody authenticated the session for the connection. -/
def AuthenticatedFor (tr : SessionTrace ι) (c : PyString) (session : AuthenticatedTenantSession) :
    Prop := ∃ i credentials, (i, did (.authenticate c credentials) session) ∈ tr

omit [DecidableEq ι] in
theorem AuthenticatedFor.append {tr tr' : SessionTrace ι} {c : PyString}
    {session : AuthenticatedTenantSession} (h : AuthenticatedFor tr c session) :
    AuthenticatedFor (tr ++ tr') c session := by
  obtain ⟨i, credentials, h⟩ := h
  exact ⟨i, credentials, List.mem_append_left _ h⟩

/-- Where sessions come from. -/
structure Provenance (calls : ι → SessionCall) (s : ServiceState ι) (tr : SessionTrace ι) :
    Prop where
  made : ∀ c session, AuthenticatedFor tr c session → session.process ∈ s.processes
  distinct : ∀ c c' session session', AuthenticatedFor tr c session →
    AuthenticatedFor tr c' session' → session.process = session'.process →
    c = c' ∧ session = session'
  retained : ∀ c session, s.sessions c = some session →
    AuthenticatedFor tr c session.toAuthenticatedTenantSession
  registered : ∀ i c session, (i, did (.setSession c session) ()) ∈ tr →
    c = (calls i).connection ∧ AuthenticatedFor tr c session.toAuthenticatedTenantSession
  found : ∀ i c session, (i, did (.getSession c) (some session)) ∈ tr →
    AuthenticatedFor tr c session.toAuthenticatedTenantSession
  touched : ∀ i c process time, (i, did (.touch c process time) ()) ∈ tr →
    c = (calls i).connection ∧ ∃ session, AuthenticatedFor tr c session ∧ session.process = process

omit [DecidableEq ι] in
/-- What an operation does to the registry. -/
theorem Performs.sessions_cases {i : ι} {s s' : ServiceState ι} {op : ProvisionerOp}
    {r : Except PyError op.Reply} (h : Performs i s op r s') :
    s'.sessions = s.sessions ∨
      (∃ c, op = .popSession c ∧ s'.sessions = Function.update s.sessions c none) ∨
      (∃ c session, op = .setSession c session ∧
        s'.sessions = Function.update s.sessions c (some session)) ∨
      ∃ c process time, op = .touch c process time ∧
        s'.sessions = Function.update s.sessions c ((s.sessions c).map fun session =>
          if session.process = process then { session with lastUsedAt := time } else session) := by
  cases h with
  | popSession => exact .inr (.inl ⟨_, rfl, rfl⟩)
  | setSession => exact .inr (.inr (.inl ⟨_, _, rfl, rfl⟩))
  | touch => exact .inr (.inr (.inr ⟨_, _, _, rfl, rfl⟩))
  | _ => exact .inl rfl

omit [DecidableEq ι] in
theorem mem_snoc {i j : ι} {e e' : ProvisionerEvent} {tr : SessionTrace ι} :
    (j, e') ∈ tr ++ [(i, e)] ↔ (j, e') ∈ tr ∨ j = i ∧ e' = e := by
  rw [List.mem_append, List.mem_singleton, Prod.mk.injEq]

omit [DecidableEq ι] in
theorem authenticatedFor_snoc {i : ι} {e : ProvisionerEvent} {tr : SessionTrace ι} {c : PyString}
    {session : AuthenticatedTenantSession} :
    AuthenticatedFor (tr ++ [(i, e)]) c session ↔ AuthenticatedFor tr c session ∨
      ∃ credentials, e = did (.authenticate c credentials) session := by
  constructor
  · rintro ⟨j, credentials, h⟩
    rcases mem_snoc.mp h with h | ⟨-, h⟩
    · exact .inl ⟨j, credentials, h⟩
    · exact .inr ⟨credentials, h.symm⟩
  · rintro (h | ⟨credentials, rfl⟩)
    · exact h.append
    · exact ⟨i, credentials, mem_snoc.mpr (.inr ⟨rfl, rfl⟩)⟩

omit [DecidableEq ι] in
/-- The process of an `authenticate` did not exist before. -/
theorem Performs.fresh {i : ι} {s s' : ServiceState ι} {op : ProvisionerOp}
    {r : Except PyError op.Reply} (h : Performs i s op r s') {c : PyString}
    {credentials : TenantCredentials} {session : AuthenticatedTenantSession}
    (he : (⟨op, r⟩ : ProvisionerEvent) = did (.authenticate c credentials) session) :
    session.process ∉ s.processes ∧ session.process ∈ s'.processes := by
  cases he
  cases h with
  | authenticated hfresh => exact ⟨hfresh, List.mem_cons_self⟩

omit [DecidableEq ι] in
theorem Provenance.initial : Provenance calls (.initial ι) [] where
  made _ _ h := by
    obtain ⟨_, _, h⟩ := h
    cases h
  distinct _ _ _ _ h := by
    obtain ⟨_, _, h⟩ := h
    cases h
  retained _ _ h := by cases h
  registered _ _ _ h := by cases h
  found _ _ _ h := by cases h
  touched _ _ _ _ h := by cases h

theorem Provenance.step {i : ι} {op : ProvisionerOp} {r : Except PyError op.Reply}
    {s s' : ServiceState ι} {tr : SessionTrace ι} (h : Provenance calls s tr)
    (hc : Consistent (fun i => (calls i).connection) (phases tr) (Stopped tr) s)
    (hpermits : (phases tr i).Permits (calls i).connection (calls i).Validates op)
    (hregisters : Registers casefold (SignedInFor (calls i).connection) (own i tr) op)
    (hperf : Performs i s op r s') : Provenance calls s' (tr ++ [(i, ⟨op, r⟩)]) where
  made c session hs := by
    rcases authenticatedFor_snoc.mp hs with hs | ⟨credentials, he⟩
    · exact hperf.processes_subset (h.made c session hs)
    -- a sign-in gives a process that nobody has
    · exact (hperf.fresh he).2
  distinct c c' session session' hs hs' hp := by
    rcases authenticatedFor_snoc.mp hs with hs | ⟨credentials, he⟩
    · rcases authenticatedFor_snoc.mp hs' with hs' | ⟨credentials', he'⟩
      · exact h.distinct c c' session session' hs hs' hp
      · have hmade := h.made c session hs
        rw [hp] at hmade
        exact absurd hmade (hperf.fresh he').1
    · rcases authenticatedFor_snoc.mp hs' with hs' | ⟨credentials', he'⟩
      · have hmade := h.made c' session' hs'
        rw [← hp] at hmade
        exact absurd hmade (hperf.fresh he).1
      · rw [he] at he'
        cases he'
        exact ⟨rfl, rfl⟩
  retained c session hs := by
    rcases hperf.sessions_cases with heq | ⟨d, rfl, heq⟩ | ⟨d, new, rfl, heq⟩ |
      ⟨d, process, time, rfl, heq⟩
    · rw [heq] at hs
      exact (h.retained c session hs).append
    · rw [heq] at hs
      by_cases hcd : c = d
      · rw [hcd, Function.update_self] at hs
        cases hs
      · rw [Function.update_of_ne hcd] at hs
        exact (h.retained c session hs).append
    · rw [heq] at hs
      by_cases hcd : c = d
      -- a session is stored by the call that was given it, under its own connection
      · subst hcd
        rw [Function.update_self] at hs
        cases hs
        obtain ⟨credentials, horigin⟩ := hregisters.1
        rw [hpermits.1]
        exact AuthenticatedFor.append ⟨i, credentials, mem_own.mp horigin⟩
      · rw [Function.update_of_ne hcd] at hs
        exact (h.retained c session hs).append
    · rw [heq] at hs
      by_cases hcd : c = d
      · subst hcd
        rw [Function.update_self] at hs
        obtain ⟨retained, hretained, hs⟩ := Option.map_eq_some_iff.mp hs
        have hfor := h.retained c retained hretained
        split at hs
        · cases hs
          exact hfor.append
        · cases hs
          exact hfor.append
      · rw [Function.update_of_ne hcd] at hs
        exact (h.retained c session hs).append
  registered j c session hs := by
    rcases mem_snoc.mp hs with hs | ⟨rfl, he⟩
    · obtain ⟨hconn, hfor⟩ := h.registered j c session hs
      exact ⟨hconn, hfor.append⟩
    · cases he
      obtain ⟨credentials, horigin⟩ := hregisters.1
      rw [hpermits.1]
      exact ⟨rfl, AuthenticatedFor.append ⟨j, credentials, mem_own.mp horigin⟩⟩
  found j c session hs := by
    rcases mem_snoc.mp hs with hs | ⟨rfl, he⟩
    · exact (h.found j c session hs).append
    · cases he
      generalize hr : (Except.ok (some session) : Except PyError (Option TenantSession)) = r at hperf
      cases hperf with
      | getSession =>
          exact (h.retained c session (Except.ok.inj hr).symm).append
  touched j c process time hs := by
    rcases mem_snoc.mp hs with hs | ⟨rfl, he⟩
    · obtain ⟨hconn, session, hfor, hp⟩ := h.touched j c process time hs
      exact ⟨hconn, session, hfor.append, hp⟩
    · cases he
      obtain ⟨hconn, session, hslot, hp⟩ := hpermits
      refine ⟨hconn, session.toAuthenticatedTenantSession, ?_, hp⟩
      have hretained : s.sessions (calls j).connection = some session := hc.slot j _ hslot
      rw [hconn]
      exact (h.retained _ _ hretained).append

theorem Runs.provenance {w : Sessions ι} (h : Runs casefold givenAuthenticate calls w) :
    Provenance calls w.shared.1 w.shared.2 :=
  (h.consistent givenAuthenticate_signsIn (R := Provenance calls) .initial
    fun _ _ _ _ _ _ hc hr hpermits hregisters hperf => hr.step hc hpermits hregisters hperf).1.2

/-! ## What `ensure` returns -/

/-- What a process that call `i` of `ensure` returned is, by its session and the report of a health
check in the call. -/
structure Returned (casefold : PyString → PyString) (tr : SessionTrace ι) (i : ι) (c : PyString)
    (credentials : TenantCredentials) (session : AuthenticatedTenantSession)
    (health : TenantPowerShellHealthCheck) : Prop where
  authenticated : AuthenticatedFor tr c session
  nowhereElse : ∀ c' other, AuthenticatedFor tr c' other → other.process = session.process → c' = c
  checked : ∃ site, did (.healthCheck site session.process) health ∈ own i tr
  connected : health.graphConnected = true ∧ health.exchangeConnected = true
  tenant : health.microsoftTenantId = some session.microsoftTenantId
  recordedUser : normalizedUpn casefold health.userPrincipalName =
    normalizedUpn casefold (some session.userPrincipalName)
  submittedUser : normalizedUpn casefold health.userPrincipalName =
    some (normalizedEmail casefold credentials)
  /-- It is new, or was found, and fresh when it was examined. -/
  examined : (∃ time, did (.setSession c ⟨session, time⟩) () ∈ own i tr) ∨
    ∃ lastUsedAt time rest, own i tr = did (.lock c) () ::
      did (.getSession c) (some ⟨session, lastUsedAt⟩) :: did .now time :: rest ∧
        time - lastUsedAt < sessionIdleTtl

theorem givenAuthenticate_confirming {c : PyString} (credentials : TenantCredentials)
    (l : List ProvisionerEvent) (o : Except PyError AuthenticatedTenantSession)
    (_ : AllPossible l) (h : Ends (givenAuthenticate c credentials) l o) : confirming l = [] := by
  rw [ends_perform.mp h]
  rfl

/-- The path of a call of `ensure` that returned a process. -/
theorem Runs.verified {w : Sessions ι} (h : Runs casefold givenAuthenticate calls w) {i : ι}
    {c : PyString} {credentials : TenantCredentials} (hcall : calls i = .ensure c credentials)
    {process : Process} (hdone : w.prog i = .ret (.process process)) :
    ∃ session health, session.process = process ∧
      VerifiedPath casefold c credentials (own i w.shared.2) session health := by
  obtain ⟨hl, hends⟩ := h.ends (o := .ok _) hdone
  rw [hcall] at hends
  rcases ends_bind.mp hends with ⟨l₁, l₂, p, heq, hensure, hret⟩ | ⟨e, he, -⟩
  · obtain ⟨rfl, hp⟩ := ends_ret.mp hret
    cases hp
    rw [List.append_nil] at heq
    rw [heq] at hl ⊢
    exact verified_path givenAuthenticate_confirming hl hensure
  · cases he

theorem ensure_returned {w : Sessions ι} (h : Runs casefold givenAuthenticate calls w) {i : ι}
    {c : PyString} {credentials : TenantCredentials} (hcall : calls i = .ensure c credentials)
    {process : Process} (hdone : w.prog i = .ret (.process process)) :
    ∃ session health, session.process = process ∧
      Returned casefold w.shared.2 i c credentials session health := by
  obtain ⟨session, health, rfl, hpath⟩ := h.verified hcall hdone
  refine ⟨session, health, rfl, ?_⟩
  have hprovenance := h.provenance
  obtain ⟨hgraph, hexchange, htenant, hupn, huser⟩ := hpath.health
  have hverified := hpath.verified_iff.mpr ⟨rfl, rfl⟩
  have hauth : AuthenticatedFor w.shared.2 c session := by
    rcases hverified with ⟨retained, touched, hget, -, -, rfl⟩ | ⟨time, hset, -⟩
    · exact hprovenance.found i c retained (mem_own.mp hget)
    · exact (hprovenance.registered i c _ (mem_own.mp hset)).2
  refine ⟨hauth, fun c' other hother hp => ?_, ?_, ⟨hgraph, hexchange⟩, htenant, hupn,
    hupn.trans huser, ?_⟩
  · exact (hprovenance.distinct c' c other session hother hauth hp).1
  · rcases hverified with ⟨retained, touched, -, -, hcheck, rfl⟩ | ⟨time, -, hcheck⟩
    · exact ⟨_, hcheck⟩
    · exact ⟨_, hcheck⟩
  · generalize hl : own i w.shared.2 = l at hpath
    cases hpath with
    | retained hfresh _ => exact .inr ⟨_, _, _, rfl, hfresh⟩
    | new time _ _ hconfirming =>
        refine .inl ⟨time, (mem_confirming rfl).mp ?_⟩
        rw [hconfirming]
        exact List.mem_cons_of_mem _ List.mem_cons_self

/-! ## What `ensure` removes -/

/-- A call has found a session that has expired or failed its check, and has done nothing since. -/
def FoundUnusable (casefold : PyString → PyString) (c : PyString) (credentials : TenantCredentials)
    (l : List ProvisionerEvent) (session : TenantSession) : Prop :=
  ∃ m, l = did (.lock c) () :: did (.getSession c) (some session) :: m ∧
    ReusePath casefold c credentials session m (.ok none)

/-- Call `i` takes the process out before the connection gets another session. -/
def RemovedFirst (i : ι) (c : PyString) (process : Process) (more : SessionTrace ι) : Prop :=
  ∀ earlier j replacement later,
    more = earlier ++ (j, did (.setSession c replacement) ()) :: later →
    ∃ removed : TenantSession, removed.process = process ∧
      (i, did (.popSession c) (some removed)) ∈ earlier

/-- The event uses the process again, or registers it. -/
def Uses (process : Process) : ProvisionerEvent → Prop
  | ⟨.touch _ used _, _⟩ => used = process
  | ⟨.setSession _ session, _⟩ => session.process = process
  | _ => False

/-- The process is not new to any call, and will not be. -/
structure NoCandidate (s : ServiceState ι) (tr : SessionTrace ι) (process : Process) : Prop where
  made : process ∈ s.processes
  notFresh : ∀ i, (phases tr i).hand ≠ .fresh process

/-- The process is out of the registry for good: no call is about to register it. -/
structure Gone (s : ServiceState ι) (tr : SessionTrace ι) (process : Process) : Prop
    extends NoCandidate s tr process where
  unregistered : ∀ c session, s.sessions c = some session → session.process ≠ process
  notChecked : ∀ i report, (phases tr i).hand ≠ .checked process report

section

variable {c : PyString} {credentials : TenantCredentials} {session : TenantSession}

theorem FoundUnusable.phase {l : List ProvisionerEvent}
    (h : FoundUnusable casefold c credentials l session) :
    Provisioner.phase l = ⟨.holding (some (some session)), .empty⟩ := by
  obtain ⟨m, rfl, hreuse⟩ := h
  generalize ho : (Except.ok none : Except PyError (Option Process)) = o at hreuse
  cases hreuse with
  | reused => cases ho
  | interrupted => cases ho
  | _ => rfl

theorem FoundUnusable.unused {l : List ProvisionerEvent}
    (h : FoundUnusable casefold c credentials l session) : ∀ e ∈ l, ∀ p, ¬ Uses p e := by
  obtain ⟨m, rfl, hreuse⟩ := h
  generalize ho : (Except.ok none : Except PyError (Option Process)) = o at hreuse
  cases hreuse with
  | reused => cases ho
  | interrupted => cases ho
  | _ => simp [Uses]

/-- The next thing the call does is to take the session out. -/
theorem FoundUnusable.next {l : List ProvisionerEvent}
    {authenticate : PyString → TenantCredentials → ProvisionerProgram AuthenticatedTenantSession}
    {q : ProvisionerProgram SessionOutcome}
    (h : FoundUnusable casefold c credentials l session)
    (hq : Path ((SessionCall.ensure c credentials).program casefold authenticate) l q) :
    ∃ next, q = .call (.popSession c) next := by
  obtain ⟨m, rfl, hreuse⟩ := h
  have hlocked : Path (ensureLocked casefold authenticate c credentials)
      (did (.getSession c) (some session) :: m)
      (disposeLocked c >>= fun _ => establish casefold authenticate c credentials) :=
    Path.cons (Path.bind hreuse.ends _)
  have hprogram : Path ((SessionCall.ensure c credentials).program casefold authenticate)
      (did (.lock c) () :: did (.getSession c) (some session) :: m) _ :=
    Path.cons (((hlocked.handle _).bind _).bind _)
  rw [hq.unique hprogram]
  exact ⟨_, rfl⟩

/-- Only a start or an `authenticate` puts a fresh process into a hand. -/
theorem Phase.next_fresh {phase : Phase} {e : ProvisionerEvent} {process : Process}
    (h : (phase.next e).hand = .fresh process) :
    e = did .start process ∨ (∃ c credentials session, session.process = process ∧
      e = did (.authenticate c credentials) session) ∨ phase.hand = .fresh process := by
  unfold Phase.next at h
  split at h
  · exact .inr (.inr h)
  · exact .inr (.inr h)
  · exact .inr (.inr h)
  · exact .inr (.inr h)
  · cases h
  · cases h
  · exact .inr (.inr h)
  · cases h
    exact .inl rfl
  · cases h
    exact .inr (.inl ⟨_, _, _, rfl, rfl⟩)
  · cases h
  · cases h
  · exact .inr (.inr h)

variable {s s' : ServiceState ι} {tr : SessionTrace ι} {i : ι} {op : ProvisionerOp}
variable {r : Except PyError op.Reply} {process : Process}

/-- What a permitted operation uses is in the registry, or in the hand of the call. -/
theorem Uses.place (hc : Consistent (fun i => (calls i).connection) (phases tr) (Stopped tr) s)
    (hpermits : (phases tr i).Permits (calls i).connection (calls i).Validates op)
    (h : Uses process ⟨op, r⟩) :
    (phases tr i).Holds ∧
      ((∃ session : TenantSession, s.sessions (calls i).connection = some session ∧
        session.process = process) ∨ ∃ report, (phases tr i).hand = .checked process report) := by
  cases op with
  | touch c used time =>
      obtain ⟨-, session, hslot, hp⟩ := hpermits
      exact ⟨⟨_, hslot⟩, .inl ⟨session, hc.slot i _ hslot, hp.trans h⟩⟩
  | setSession c session =>
      obtain ⟨-, hslot, report, hhand⟩ := hpermits
      have hp : session.process = process := h
      rw [hp] at hhand
      exact ⟨⟨_, hslot⟩, .inr ⟨report, hhand⟩⟩
  | _ => exact h.elim

theorem Gone.unused (h : Gone s tr process)
    (hc : Consistent (fun i => (calls i).connection) (phases tr) (Stopped tr) s)
    (hpermits : (phases tr i).Permits (calls i).connection (calls i).Validates op) :
    ¬ Uses process ⟨op, r⟩ := by
  intro huses
  rcases (huses.place hc hpermits).2 with ⟨session, hsession, hp⟩ | ⟨report, hhand⟩
  · exact h.unregistered _ session hsession hp
  · exact h.notChecked i report hhand

omit [DecidableEq ι] in
/-- A session that is registered afterwards was before, or has just been registered. -/
theorem Performs.registered {s s' : ServiceState ι} {op : ProvisionerOp}
    {r : Except PyError op.Reply} (h : Performs i s op r s') {c : PyString}
    {session : TenantSession} (hs : s'.sessions c = some session) :
    (∃ before : TenantSession, s.sessions c = some before ∧ before.process = session.process) ∨
      op = .setSession c session := by
  rcases h.sessions_cases with heq | ⟨d, -, heq⟩ | ⟨d, new, rfl, heq⟩ | ⟨d, process, time, -, heq⟩
  · rw [heq] at hs
    exact .inl ⟨session, hs, rfl⟩
  · rw [heq] at hs
    by_cases hcd : c = d
    · rw [hcd, Function.update_self] at hs
      cases hs
    · rw [Function.update_of_ne hcd] at hs
      exact .inl ⟨session, hs, rfl⟩
  · rw [heq] at hs
    by_cases hcd : c = d
    · rw [hcd, Function.update_self] at hs
      cases hs
      exact .inr (by rw [hcd])
    · rw [Function.update_of_ne hcd] at hs
      exact .inl ⟨session, hs, rfl⟩
  · rw [heq] at hs
    by_cases hcd : c = d
    · subst hcd
      rw [Function.update_self] at hs
      obtain ⟨retained, hretained, hs⟩ := Option.map_eq_some_iff.mp hs
      refine .inl ⟨retained, hretained, ?_⟩
      split at hs
      · rw [← hs]
      · rw [hs]
    · rw [Function.update_of_ne hcd] at hs
      exact .inl ⟨session, hs, rfl⟩

theorem NoCandidate.step (h : NoCandidate s tr process) (hperf : Performs i s op r s') :
    NoCandidate s' (tr ++ [(i, ⟨op, r⟩)]) process where
  made := hperf.processes_subset h.made
  notFresh j hj := by
    rw [phases_snoc] at hj
    by_cases hji : j = i
    · rw [hji, Function.update_self] at hj
      rcases Phase.next_fresh hj with he | ⟨c, credentials, session, hp, he⟩ | hhand
      · cases he
        cases hperf with
        | started hfresh => exact hfresh h.made
      · have hfresh := (hperf.fresh he).1
        rw [hp] at hfresh
        exact hfresh h.made
      · exact h.notFresh i hhand
    · rw [Function.update_of_ne hji] at hj
      exact h.notFresh j hj

/-- A checked candidate was checked before, in the same hand. -/
theorem NoCandidate.checked (h : NoCandidate s tr process)
    (hpermits : (phases tr i).Permits (calls i).connection (calls i).Validates op) {j : ι}
    {report : Except PyError TenantPowerShellHealthCheck}
    (hj : (phases (tr ++ [(i, ⟨op, r⟩)]) j).hand = .checked process report) :
    (phases tr j).hand = .checked process report := by
  rw [phases_snoc] at hj
  by_cases hji : j = i
  · rw [hji, Function.update_self] at hj
    rcases Phase.next_checked hj with he | hhand
    · cases he
      exact absurd hpermits.2 (h.notFresh i)
    · rwa [hji]
  · rwa [Function.update_of_ne hji] at hj

theorem Gone.step (h : Gone s tr process)
    (hc : Consistent (fun i => (calls i).connection) (phases tr) (Stopped tr) s)
    (hpermits : (phases tr i).Permits (calls i).connection (calls i).Validates op)
    (hperf : Performs i s op r s') : Gone s' (tr ++ [(i, ⟨op, r⟩)]) process where
  toNoCandidate := h.toNoCandidate.step hperf
  unregistered c session hs hp := by
    rcases hperf.registered hs with ⟨earlier, hearlier, hsame⟩ | rfl
    · exact h.unregistered c earlier hearlier (hsame.trans hp)
    · exact h.unused hc hpermits (r := r) hp
  notChecked j report hj := h.notChecked j report (h.toNoCandidate.checked hpermits hj)

/-- What has happened in `more` since call `i` found the session: nothing to the session, or it was
taken out and is gone. -/
structure SinceFound (i : ι) (c : PyString) (session : TenantSession) (s : ServiceState ι)
    (tr more : SessionTrace ι) : Prop where
  unused : ∀ e ∈ more, ¬ Uses session.process e.2
  removed : (own i more = [] ∧ s.sessions c = some session ∧
      ∀ j replacement, (j, did (.setSession c replacement) ()) ∉ more) ∨
    ((∃ removed : TenantSession, removed.process = session.process ∧
      (i, did (.popSession c) (some removed)) ∈ more) ∧ RemovedFirst i c session.process more ∧
      Gone s tr session.process)

omit [DecidableEq ι] in
theorem RemovedFirst.snoc {c : PyString} {more : SessionTrace ι} {j : ι} {e : ProvisionerEvent}
    (h : RemovedFirst i c process more) (hpop : ∃ removed : TenantSession,
      removed.process = process ∧ (i, did (.popSession c) (some removed)) ∈ more) :
    RemovedFirst i c process (more ++ [(j, e)]) := by
  intro earlier k replacement later heq
  rcases List.eq_nil_or_concat' later with rfl | ⟨rest, last, rfl⟩
  · obtain ⟨rfl, -⟩ := List.append_inj' heq rfl
    exact hpop
  · rw [← List.cons_append, ← List.append_assoc] at heq
    exact h earlier k replacement rest (List.append_inj' heq rfl).1

omit [DecidableEq ι] in
theorem RemovedFirst.of_not_mem {c : PyString} {more : SessionTrace ι}
    (h : ∀ j replacement, (j, did (.setSession c replacement) ()) ∉ more) :
    RemovedFirst i c process more := by
  rintro earlier j replacement later rfl
  exact absurd (List.mem_append_right earlier List.mem_cons_self) (h j replacement)

variable {c : PyString} {session : TenantSession} {more : SessionTrace ι} {j : ι}

/-- While call `i` holds the lock, nobody else comes near its session. -/
theorem SinceFound.other (h : SinceFound i c session s tr more)
    (hc : Consistent (fun i => (calls i).connection) (phases tr) (Stopped tr) s)
    (hconnection : (calls i).connection = c) (hij : j ≠ i)
    (hfound : own i more = [] ∧ s.sessions c = some session ∧
      ∀ j replacement, (j, did (.setSession c replacement) ()) ∉ more)
    (hholds : (phases tr i).Holds)
    (hpermits : (phases tr j).Permits (calls j).connection (calls j).Validates op)
    (hperf : Performs j s op r s') :
    SinceFound i c session s' (tr ++ [(j, ⟨op, r⟩)]) (more ++ [(j, ⟨op, r⟩)]) := by
  obtain ⟨hown, hsession, hset⟩ := hfound
  have hplace : place (phases tr) s (.connection c) = some session.process := by
    rw [place, hsession]
    rfl
  -- the others that hold a lock hold another one
  have hother : (phases tr j).Holds → (calls j).connection ≠ c := by
    intro hj hjc
    have hlock := (hc.lock c j).mpr ⟨hjc, hj⟩
    rw [(hc.lock c i).mpr ⟨hconnection, hholds⟩] at hlock
    exact hij (Option.some.inj hlock).symm
  have hunused : ¬ Uses session.process ⟨op, r⟩ := by
    intro huses
    obtain ⟨hj, hused⟩ := huses.place hc hpermits
    rcases hused with ⟨retained, hretained, hp⟩ | ⟨report, hhand⟩
    · have hconn : place (phases tr) s (.connection (calls j).connection) =
          some session.process := by
        rw [place, hretained, Option.map_some, hp]
      exact hother hj (Owner.connection.inj (hc.custody.unique _ _ _ hconn hplace))
    · have hcall : place (phases tr) s (.call j) = some session.process := by
        rw [place, hhand]
        rfl
      cases hc.custody.unique _ _ _ hcall hplace
  refine ⟨?_, .inl ⟨?_, ?_, ?_⟩⟩
  · intro e he
    rcases List.mem_append.mp he with he | he
    · exact h.unused e he
    · rw [List.mem_singleton.mp he]
      exact hunused
  · rw [own_append, hown, own_ne hij, List.nil_append]
  · rcases hperf.sessions_cases with heq | ⟨d, rfl, heq⟩ | ⟨d, new, rfl, heq⟩ |
      ⟨d, used, time, rfl, heq⟩
    · rw [heq, hsession]
    · rw [heq, Function.update_of_ne, hsession]
      rintro rfl
      exact hother hpermits.2.1 hpermits.1.symm
    · rw [heq, Function.update_of_ne, hsession]
      rintro rfl
      exact hother ⟨_, hpermits.2.1⟩ hpermits.1.symm
    · rw [heq, Function.update_of_ne, hsession]
      rintro rfl
      obtain ⟨hd, _, hslot, -⟩ := hpermits
      exact hother ⟨_, hslot⟩ hd.symm
  · intro k replacement hk
    rcases mem_snoc.mp hk with hk | ⟨rfl, he⟩
    · exact hset k replacement hk
    · cases he
      exact hother ⟨_, hpermits.2.1⟩ hpermits.1.symm

/-- Then call `i` takes it out. -/
theorem SinceFound.pop (h : SinceFound i c session s tr more)
    (hc : Consistent (fun i => (calls i).connection) (phases tr) (Stopped tr) s)
    (hfound : own i more = [] ∧ s.sessions c = some session ∧
      ∀ j replacement, (j, did (.setSession c replacement) ()) ∉ more)
    {r : Except PyError (Option TenantSession)} (hperf : Performs i s (.popSession c) r s') :
    SinceFound i c session s' (tr ++ [(i, ⟨.popSession c, r⟩)])
      (more ++ [(i, ⟨.popSession c, r⟩)]) := by
  obtain ⟨hown, hsession, hset⟩ := hfound
  have hplace : place (phases tr) s (.connection c) = some session.process := by
    rw [place, hsession]
    rfl
  have hmade := hc.custody.exists_made _ _ hplace
  have hpopped : r = .ok (some session) ∧ s'.sessions = Function.update s.sessions c none := by
    cases hperf with
    | popSession => exact ⟨by rw [hsession], rfl⟩
  obtain ⟨rfl, hsessions⟩ := hpopped
  -- the process has one place, the registry; so no call holds it
  have hcall : ∀ k, (phases tr k).hand.process ≠ some session.process := by
    intro k hk
    cases hc.custody.unique (.call k) _ _ hk hplace
  refine ⟨?_, .inr ⟨⟨session, rfl, mem_snoc.mpr (.inr ⟨rfl, rfl⟩)⟩, ?_, ?_⟩⟩
  · intro e he
    rcases List.mem_append.mp he with he | he
    · exact h.unused e he
    · rw [List.mem_singleton.mp he]
      exact fun hu => hu
  · refine RemovedFirst.of_not_mem fun k replacement hk => ?_
    rcases mem_snoc.mp hk with hk | ⟨-, he⟩
    · exact hset k replacement hk
    · cases he
  · refine ⟨⟨hperf.processes_subset hmade, fun k hk => ?_⟩, fun d other hd hp => ?_,
      fun k report hk => ?_⟩
    · rw [phases_snoc] at hk
      by_cases hki : k = i
      · rw [hki, Function.update_self] at hk
        cases hk
      · rw [Function.update_of_ne hki] at hk
        exact hcall k (by rw [hk]; rfl)
    · rw [hsessions] at hd
      by_cases hdc : d = c
      · rw [hdc, Function.update_self] at hd
        cases hd
      · rw [Function.update_of_ne hdc] at hd
        have hd' : place (phases tr) s (.connection d) = some session.process := by
          rw [place, hd, Option.map_some, hp]
        exact hdc (Owner.connection.inj (hc.custody.unique _ _ _ hd' hplace))
    · rw [phases_snoc] at hk
      by_cases hki : k = i
      · rw [hki, Function.update_self] at hk
        cases hk
      · rw [Function.update_of_ne hki] at hk
        exact hcall k (by rw [hk]; rfl)

/-- And then it is gone. -/
theorem SinceFound.gone (h : SinceFound i c session s tr more)
    (hc : Consistent (fun i => (calls i).connection) (phases tr) (Stopped tr) s)
    (hpop : ∃ removed : TenantSession, removed.process = session.process ∧
      (i, did (.popSession c) (some removed)) ∈ more)
    (hfirst : RemovedFirst i c session.process more) (hgone : Gone s tr session.process)
    (hpermits : (phases tr j).Permits (calls j).connection (calls j).Validates op)
    (hperf : Performs j s op r s') :
    SinceFound i c session s' (tr ++ [(j, ⟨op, r⟩)]) (more ++ [(j, ⟨op, r⟩)]) := by
  refine ⟨?_, .inr ⟨?_, hfirst.snoc hpop, hgone.step hc hpermits hperf⟩⟩
  · intro e he
    rcases List.mem_append.mp he with he | he
    · exact h.unused e he
    · rw [List.mem_singleton.mp he]
      exact hgone.unused hc hpermits
  · obtain ⟨removed, hp, hmem⟩ := hpop
    exact ⟨removed, hp, List.mem_append_left _ hmem⟩

end

/-- However the run goes on. -/
theorem since_found {w w' : Sessions ι} (h : Runs casefold givenAuthenticate calls w) {i : ι}
    {c : PyString} {credentials : TenantCredentials} (hcall : calls i = .ensure c credentials)
    {session : TenantSession}
    (hfound : FoundUnusable casefold c credentials (own i w.shared.2) session)
    (hw : Pool.Reaches (eventLoop ι).traced w w') :
    ∃ more, w'.shared.2 = w.shared.2 ++ more ∧
      SinceFound i c session w'.shared.1 w'.shared.2 more := by
  have hconnection : (calls i).connection = c := by rw [hcall]; rfl
  have hinvariant := hw.invariant (P := fun v => Runs casefold givenAuthenticate calls v ∧
    ∃ more, v.shared.2 = w.shared.2 ++ more ∧
      SinceFound i c session v.shared.1 v.shared.2 more) ⟨h, [], (List.append_nil _).symm, ?_⟩ ?_
  · exact hinvariant.2
  · -- the call holds the lock, and knows the session
    refine ⟨fun _ he => (List.not_mem_nil he).elim, .inl ⟨rfl, ?_, fun _ _ => List.not_mem_nil⟩⟩
    rw [← hconnection]
    exact (h.registry givenAuthenticate_signsIn).slot i _ (congrArg Phase.stage hfound.phase)
  · rintro v label v' ⟨hv, more, htrace, hsince⟩ hs
    refine ⟨Pool.Reaches.step hv hs, ?_⟩
    have hc := hv.registry givenAuthenticate_signsIn
    obtain ⟨j, op, next, r, hprog, -, hnext, hperf, hpermits, -⟩ :=
      hv.step_cases givenAuthenticate_signsIn hs
    refine ⟨more ++ [(j, ⟨op, r⟩)], ?_, ?_⟩
    · rw [hnext, htrace, List.append_assoc]
    · rw [hnext]
      rcases hsince.removed with hremoved | ⟨hpop, hfirst, hgone⟩
      · have hown : own i v.shared.2 = own i w.shared.2 := by
          rw [htrace, own_append, hremoved.1, List.append_nil]
        have hfoundv : FoundUnusable casefold c credentials (own i v.shared.2) session := by
          rw [hown]
          exact hfound
        by_cases hij : j = i
        · subst hij
          have hpath := Pool.Reaches.path (M := eventLoop ι) (fun _ _ _ _ h => h) hv j
          rw [hprog] at hpath
          change Path ((calls j).program casefold givenAuthenticate) _ _ at hpath
          rw [hcall] at hpath
          obtain ⟨next', hcallpop⟩ := hfoundv.next hpath
          cases hcallpop
          exact hsince.pop hc hremoved hperf
        · refine hsince.other hc hconnection hij hremoved ?_ hpermits hperf
          exact ⟨_, congrArg Phase.stage hfoundv.phase⟩
      · exact hsince.gone hc hpop hfirst hgone hpermits hperf

/-- A call that has used a process has been in the lock. -/
theorem Uses.stage {l : List ProvisionerEvent} {e : ProvisionerEvent} {process : Process}
    (he : e ∈ l) (h : Uses process e) (hpossible : AllPossible l) :
    (phase l).stage ≠ .waiting := by
  have hnext : ∀ {ph : Phase} {e : ProvisionerEvent}, (ph.next e).stage = .waiting →
      ph.stage = .waiting := by
    intro ph e hph
    unfold Phase.next at hph
    split at hph
    · cases hph
    · cases hph
    · cases hph
    · cases hph
    · cases hph
    · cases hph
    · cases hph
    · exact hph
    · exact hph
    · exact hph
    · exact hph
    · exact hph
  induction l using List.reverseRecOn with
  | nil => cases he
  | append_singleton l last ih =>
      rw [allPossible_append] at hpossible
      rw [phase_snoc]
      intro hwaiting
      rcases List.mem_append.mp he with he | he
      · exact ih he hpossible.1 (hnext hwaiting)
      · cases List.mem_singleton.mp he
        have hreply := hpossible.2 e List.mem_cons_self
        obtain ⟨op, r⟩ := e
        cases op with
        | touch =>
            cases hreply
            cases hwaiting
        | setSession =>
            cases hreply
            cases hwaiting
        | _ => exact h.elim

/-- Once it has left the lock, a call has nothing to do but `validate`'s last check. -/
theorem Phase.Permits.left {phase : Phase} {c : PyString} {last : Prop} {op : ProvisionerOp}
    (h : phase.Permits c last op) (hleft : phase.stage = .left) : last := by
  have hholds : ¬ phase.Holds := by
    rintro ⟨slot, hslot⟩
    rw [hleft] at hslot
    cases hslot
  cases op with
  | lock =>
      rw [h.2] at hleft
      cases hleft
  | unlock => exact absurd h.2 hholds
  | getSession => exact absurd h.2 hholds
  | popSession => exact absurd h.2.1 hholds
  | setSession => exact absurd ⟨_, h.2.1⟩ hholds
  | touch => exact absurd ⟨_, h.2.choose_spec.1⟩ hholds
  | start => exact absurd h.1 hholds
  | authenticate => exact absurd h.2.1 hholds
  | healthCheck site process =>
      cases site with
      | validate => exact h.2
      | isCandidateHealthy => exact absurd h.1 hholds
      | _ => exact absurd h hholds
  | stop => exact absurd h.1 hholds
  | _ => exact absurd h hholds

/-- A process that was found unusable is not returned to anybody who has not returned yet. -/
theorem not_returned_again {w w' : Sessions ι} (h : Runs casefold givenAuthenticate calls w) {i : ι}
    {c : PyString} {credentials : TenantCredentials} (hcall : calls i = .ensure c credentials)
    {session : TenantSession}
    (hfound : FoundUnusable casefold c credentials (own i w.shared.2) session)
    (hw : Pool.Reaches (eventLoop ι).traced w w') {j : ι} {c' : PyString}
    {credentials' : TenantCredentials} (hcall' : calls j = .ensure c' credentials')
    (hdone : w'.prog j = .ret (.process session.process)) :
    w.prog j = .ret (.process session.process) := by
  obtain ⟨more, htrace, hsince⟩ := since_found h hcall hfound hw
  have hw' : Runs casefold givenAuthenticate calls w' := Relation.ReflTransGen.trans h hw
  have hc := h.registry givenAuthenticate_signsIn
  have hprovenance := h.provenance
  have hconnection : (calls i).connection = c := by rw [hcall]; rfl
  have hconnection' : (calls j).connection = c' := by rw [hcall']; rfl
  have hholds : (phases w.shared.2 i).Holds := ⟨_, congrArg Phase.stage hfound.phase⟩
  have hsession : AuthenticatedFor w.shared.2 c session.toAuthenticatedTenantSession := by
    refine hprovenance.retained c session ?_
    rw [← hconnection]
    exact hc.slot i _ (congrArg Phase.stage hfound.phase)
  -- the call has used the process, and had done so before
  have hused : ∃ e ∈ own j w.shared.2, Uses session.process e ∧
      ∃ other, AuthenticatedFor w.shared.2 c' other ∧ other.process = session.process := by
    obtain ⟨session', health, hp, hpath⟩ := hw'.verified hcall' hdone
    have hearlier : ∀ e ∈ own j w'.shared.2, Uses session.process e → e ∈ own j w.shared.2 := by
      intro e he huses
      rw [htrace, own_append] at he
      rcases List.mem_append.mp he with he | he
      · exact he
      · exact absurd huses (hsince.unused _ (mem_own.mp he))
    rcases hpath.verified_iff.mpr ⟨rfl, rfl⟩ with ⟨retained, touched, -, htouch, -, rfl⟩ |
      ⟨time, hset, -⟩
    · have hmem := hearlier _ htouch hp
      exact ⟨_, hmem, hp, by
        obtain ⟨-, other, hother, hsame⟩ := hprovenance.touched j c' _ _ (mem_own.mp hmem)
        exact ⟨other, hother, hsame.trans hp⟩⟩
    · have hmem := hearlier _ hset hp
      exact ⟨_, hmem, hp, _, (hprovenance.registered j c' _ (mem_own.mp hmem)).2, hp⟩
  obtain ⟨e, he, huses, other, hother, hsame⟩ := hused
  obtain rfl := (hprovenance.distinct c' c _ _ hother hsession hsame).1
  have hpossible : AllPossible (own j w.shared.2) := fun e he =>
    Pool.Reaches.events (M := eventLoop ι) (Q := fun _ e => Possible e)
      (fun _ _ _ _ _ hperf => hperf.possible) h (j, e) (mem_own.mp he)
  have hwaiting := huses.stage he hpossible
  cases hstage : (phases w.shared.2 j).stage with
  | waiting => exact absurd hstage hwaiting
  | holding slot =>
      -- it is in the same lock as the call that found the session
      have hlock := (hc.lock c' j).mpr ⟨hconnection', slot, hstage⟩
      rw [(hc.lock c' i).mpr ⟨hconnection, hholds⟩] at hlock
      obtain rfl := Option.some.inj hlock
      exact absurd huses (hfound.unused e he _)
  | left =>
      have hobeys := h.obeys givenAuthenticate_signsIn j
      cases hprog : w.prog j with
      | call op next =>
          rw [hprog] at hobeys
          obtain ⟨request, hrequest⟩ := hobeys.1.1.left hstage
          rw [hcall'] at hrequest
          cases hrequest
      | ret a =>
          have hover := hw.over (o := .ok a) hprog
          rw [hdone] at hover
          exact hover.symm
      | raise error =>
          have hover := hw.over (o := .error error) hprog
          rw [hdone] at hover
          cases hover

/-! ## What `ensure` rejects -/

/-- Somebody has registered the process. -/
def Registered (tr : SessionTrace ι) (process : Process) : Prop :=
  ∃ i c session, (i, did (.setSession c session) ()) ∈ tr ∧ session.process = process

/-- How candidates are checked: once, and before they are registered. -/
structure Vetted (casefold : PyString → PyString) (s : ServiceState ι) (tr : SessionTrace ι) :
    Prop where
  once : ∀ i process report, (i, ⟨.healthCheck .isCandidateHealthy process, report⟩) ∈ tr →
    NoCandidate s tr process ∧
      ∀ j report', (phases tr j).hand = .checked process report' → report' = report
  released : ∀ process, Registered tr process →
    NoCandidate s tr process ∧ ∀ j report, (phases tr j).hand ≠ .checked process report
  passed : ∀ i (report : Except PyError TenantPowerShellHealthCheck) j c (session : TenantSession),
    (i, ⟨.healthCheck .isCandidateHealthy session.process, report⟩) ∈ tr →
    (j, did (.setSession c session) ()) ∈ tr → ∃ health, report = .ok health ∧
      candidateHealthy casefold session.toAuthenticatedTenantSession health = true
  retained : ∀ c session, s.sessions c = some session → Registered tr session.process
  found : ∀ i c session, (i, did (.getSession c) (some session)) ∈ tr →
    Registered tr session.process

omit [DecidableEq ι] in
theorem registered_snoc {i : ι} {e : ProvisionerEvent} {tr : SessionTrace ι} {process : Process} :
    Registered (tr ++ [(i, e)]) process ↔ Registered tr process ∨
      ∃ c session, e = did (.setSession c session) () ∧ session.process = process := by
  constructor
  · rintro ⟨j, c, session, h, hp⟩
    rcases mem_snoc.mp h with h | ⟨-, h⟩
    · exact .inl ⟨j, c, session, h, hp⟩
    · exact .inr ⟨c, session, h.symm, hp⟩
  · rintro (⟨j, c, session, h, hp⟩ | ⟨c, session, rfl, hp⟩)
    · exact ⟨j, c, session, List.mem_append_left _ h, hp⟩
    · exact ⟨i, c, session, mem_snoc.mpr (.inr ⟨rfl, rfl⟩), hp⟩

section

variable {s s' : ServiceState ι} {tr : SessionTrace ι} {i : ι} {op : ProvisionerOp}
variable {r : Except PyError op.Reply} {process : Process}

/-- What a call has in its hand, no other has. -/
theorem Consistent.alone
    (hc : Consistent (fun i => (calls i).connection) (phases tr) (Stopped tr) s)
    (hhand : (phases tr i).hand.process = some process) {j : ι} (hji : j ≠ i) :
    (phases tr j).hand.process ≠ some process := fun hj =>
  hji (Owner.call.inj (hc.custody.unique (.call j) (.call i) process hj hhand))

/-- A call that checks its candidate has checked it once and for all. -/
theorem once_checked
    (hc : Consistent (fun i => (calls i).connection) (phases tr) (Stopped tr) s)
    (hhand : (phases tr i).hand = .fresh process)
    {report : Except PyError TenantPowerShellHealthCheck}
    (hperf : Performs i s (.healthCheck .isCandidateHealthy process) report s') :
    NoCandidate s' (tr ++ [(i, ⟨.healthCheck .isCandidateHealthy process, report⟩)]) process ∧
      ∀ j report', (phases (tr ++ [(i, ⟨.healthCheck .isCandidateHealthy process, report⟩)]) j).hand =
        .checked process report' → report' = report := by
  have hprocess : (phases tr i).hand.process = some process := by
    rw [hhand]
    rfl
  refine ⟨⟨hperf.processes_subset (hc.custody.exists_made (.call i) _ hprocess), fun j hj => ?_⟩,
    fun j report' hj => ?_⟩
  · rw [phases_snoc] at hj
    by_cases hji : j = i
    · rw [hji, Function.update_self] at hj
      cases hj
    · rw [Function.update_of_ne hji] at hj
      exact hc.alone hprocess hji (by rw [hj]; rfl)
  · rw [phases_snoc] at hj
    by_cases hji : j = i
    · rw [hji, Function.update_self] at hj
      cases hj
      rfl
    · rw [Function.update_of_ne hji] at hj
      exact absurd (by rw [hj]; rfl) (hc.alone hprocess hji)

/-- A call that registers its candidate lets it go. -/
theorem released_registered
    (hc : Consistent (fun i => (calls i).connection) (phases tr) (Stopped tr) s) {c : PyString}
    {session : TenantSession} {report : Except PyError TenantPowerShellHealthCheck}
    (hhand : (phases tr i).hand = .checked session.process report)
    (hperf : Performs i s (.setSession c session) (.ok ()) s') :
    NoCandidate s' (tr ++ [(i, did (.setSession c session) ())]) session.process ∧
      ∀ j report', (phases (tr ++ [(i, did (.setSession c session) ())]) j).hand ≠
        .checked session.process report' := by
  have hprocess : (phases tr i).hand.process = some session.process := by
    rw [hhand]
    rfl
  refine ⟨⟨hperf.processes_subset (hc.custody.exists_made (.call i) _ hprocess), fun j hj => ?_⟩,
    fun j report' hj => ?_⟩
  · rw [phases_snoc] at hj
    by_cases hji : j = i
    · rw [hji, Function.update_self] at hj
      cases hj
    · rw [Function.update_of_ne hji] at hj
      exact hc.alone hprocess hji (by rw [hj]; rfl)
  · rw [phases_snoc] at hj
    by_cases hji : j = i
    · rw [hji, Function.update_self] at hj
      cases hj
    · rw [Function.update_of_ne hji] at hj
      exact hc.alone hprocess hji (by rw [hj]; rfl)

omit [DecidableEq ι] in
theorem Vetted.initial [DecidableEq ι] : Vetted casefold (.initial ι) [] where
  once _ _ _ h := (List.not_mem_nil h).elim
  released _ h := by
    obtain ⟨_, _, _, h, -⟩ := h
    cases h
  passed _ _ _ _ _ h := (List.not_mem_nil h).elim
  retained _ _ h := by cases h
  found _ _ _ h := (List.not_mem_nil h).elim

theorem Vetted.step
    {origin : List ProvisionerEvent → AuthenticatedTenantSession → Prop}
    (h : Vetted casefold s tr)
    (hc : Consistent (fun i => (calls i).connection) (phases tr) (Stopped tr) s)
    (hpermits : (phases tr i).Permits (calls i).connection (calls i).Validates op)
    (hregisters : Registers casefold origin (own i tr) op) (hperf : Performs i s op r s') :
    Vetted casefold s' (tr ++ [(i, ⟨op, r⟩)]) where
  once j p report hj := by
    rcases mem_snoc.mp hj with hj | ⟨rfl, he⟩
    · obtain ⟨hno, hsame⟩ := h.once j p report hj
      exact ⟨hno.step hperf, fun k report' hk => hsame k report' (hno.checked hpermits hk)⟩
    · cases he
      exact once_checked hc hpermits.2 hperf
  released p hp := by
    rcases registered_snoc.mp hp with hp | ⟨c, session, he, rfl⟩
    · obtain ⟨hno, hchecked⟩ := h.released p hp
      exact ⟨hno.step hperf, fun k report hk => hchecked k report (hno.checked hpermits hk)⟩
    · cases he
      obtain ⟨-, -, report, hhand⟩ := hpermits
      exact released_registered hc hhand hperf
  passed j report k c session hj hk := by
    rcases mem_snoc.mp hj with hold | ⟨rfl, he⟩
    · rcases mem_snoc.mp hk with hset | ⟨rfl, he⟩
      · exact h.passed j report k c session hold hset
      · cases he
        obtain ⟨-, health, hhand, hhealth⟩ := hregisters
        exact ⟨health, ((h.once j _ report hold).2 k _ hhand).symm, hhealth⟩
    · rcases mem_snoc.mp hk with hset | ⟨-, he'⟩
      · cases he
        exact absurd hpermits.2 ((h.released _ ⟨k, c, session, hset, rfl⟩).1.notFresh j)
      · rw [← he] at he'
        cases he'
  retained c session hs := by
    rcases hperf.registered hs with ⟨earlier, hearlier, hsame⟩ | rfl
    · rw [← hsame]
      exact registered_snoc.mpr (.inl (h.retained c earlier hearlier))
    · cases hperf with
      | setSession => exact registered_snoc.mpr (.inr ⟨c, session, rfl, rfl⟩)
  found j c session hj := by
    rcases mem_snoc.mp hj with hj | ⟨rfl, he⟩
    · exact registered_snoc.mpr (.inl (h.found j c session hj))
    · cases he
      generalize hr : (Except.ok (some session) : Except PyError (Option TenantSession)) = x at hperf
      cases hperf with
      | getSession =>
          exact registered_snoc.mpr (.inl (h.retained c session (Except.ok.inj hr).symm))

end

theorem Runs.vetted {w : Sessions ι} (h : Runs casefold givenAuthenticate calls w) :
    Vetted casefold w.shared.1 w.shared.2 :=
  (h.consistent givenAuthenticate_signsIn (R := Vetted casefold) .initial
    fun _ _ _ _ _ _ hc hr hpermits hregisters hperf => hr.step hc hpermits hregisters hperf).1.2

/-- A candidate whose check fails is neither registered nor returned. -/
theorem rejected_candidate {w : Sessions ι} (h : Runs casefold givenAuthenticate calls w) {i : ι}
    {c : PyString} {candidate : AuthenticatedTenantSession}
    (hauth : AuthenticatedFor w.shared.2 c candidate)
    {report : Except PyError TenantPowerShellHealthCheck}
    (hcheck : (i, ⟨.healthCheck .isCandidateHealthy candidate.process, report⟩) ∈ w.shared.2)
    (hfailed : ∀ health, report = .ok health →
      candidateHealthy casefold candidate health = false) :
    ¬ Registered w.shared.2 candidate.process ∧
      ∀ j c' credentials', calls j = .ensure c' credentials' →
        w.prog j ≠ .ret (.process candidate.process) := by
  have hunregistered : ¬ Registered w.shared.2 candidate.process := by
    rintro ⟨j, c', session, hset, hp⟩
    have hsame := (h.provenance.distinct c c' candidate _ hauth
      (h.provenance.registered j c' session hset).2 hp.symm).2
    rw [← hp] at hcheck
    obtain ⟨health, hreport, hhealth⟩ := h.vetted.passed i report j c' session hcheck hset
    rw [← hsame, hfailed health hreport] at hhealth
    cases hhealth
  refine ⟨hunregistered, fun j c' credentials' hcall hdone => hunregistered ?_⟩
  obtain ⟨session, health, hp, hpath⟩ := h.verified hcall hdone
  rcases hpath.verified_iff.mpr ⟨rfl, rfl⟩ with ⟨retained, touched, hget, -, -, rfl⟩ |
    ⟨time, hset, -⟩
  · have hfound := h.vetted.found j c' retained (mem_own.mp hget)
    rwa [hp] at hfound
  · exact ⟨j, c', _, mem_own.mp hset, hp⟩

/-! ## Isolation -/

/-- In every state that any interleaving leads to: what `ensure` returned was authenticated for its
connection alone, and verified in the call; no process was ever registered for two connections; a
session that is found unusable is removed first and never returned again; and a candidate that fails
its check is neither registered nor returned. -/
theorem session_isolation {w : Sessions ι} (h : Runs casefold givenAuthenticate calls w) :
    (∀ i c credentials process, calls i = .ensure c credentials →
      w.prog i = .ret (.process process) → ∃ session health, session.process = process ∧
        Returned casefold w.shared.2 i c credentials session health) ∧
    (∀ i c session j c' session', (i, did (.setSession c session) ()) ∈ w.shared.2 →
      (j, did (.setSession c' session') ()) ∈ w.shared.2 →
      session.process = session'.process → c = c') ∧
    (∀ c (session : TenantSession) c' (session' : TenantSession),
      w.shared.1.sessions c = some session → w.shared.1.sessions c' = some session' →
      session.process = session'.process → c = c') ∧
    (∀ i c credentials session, calls i = .ensure c credentials →
      FoundUnusable casefold c credentials (own i w.shared.2) session →
      ∀ w', Pool.Reaches (eventLoop ι).traced w w' →
        (∃ more, w'.shared.2 = w.shared.2 ++ more ∧ RemovedFirst i c session.process more) ∧
        ∀ j c' credentials', calls j = .ensure c' credentials' →
          w'.prog j = .ret (.process session.process) →
          w.prog j = .ret (.process session.process)) ∧
    ∀ i c candidate (report : Except PyError TenantPowerShellHealthCheck),
      AuthenticatedFor w.shared.2 c candidate →
      (i, ⟨.healthCheck .isCandidateHealthy candidate.process, report⟩) ∈ w.shared.2 →
      (∀ health, report = .ok health → candidateHealthy casefold candidate health = false) →
      ¬ Registered w.shared.2 candidate.process ∧
        ∀ j c' credentials', calls j = .ensure c' credentials' →
          w.prog j ≠ .ret (.process candidate.process) := by
  refine ⟨?_, ?_, ?_, ?_, ?_⟩
  · exact fun i c credentials process hcall hdone => ensure_returned h hcall hdone
  -- a process comes from one sign-in, and so belongs to one connection
  · intro i c session j c' session' hset hset' hp
    exact (h.provenance.distinct c c' _ _ (h.provenance.registered i c session hset).2
      (h.provenance.registered j c' session' hset').2 hp).1
  · intro c session c' session' hs hs' hp
    exact (h.provenance.distinct c c' _ _ (h.provenance.retained c session hs)
      (h.provenance.retained c' session' hs') hp).1
  · intro i c credentials session hcall hfound w' hw
    obtain ⟨more, htrace, hsince⟩ := since_found h hcall hfound hw
    refine ⟨⟨more, htrace, ?_⟩, fun j c' credentials' hcall' hdone => ?_⟩
    · rcases hsince.removed with ⟨-, -, hset⟩ | ⟨-, hfirst, -⟩
      · exact RemovedFirst.of_not_mem hset
      · exact hfirst
    · exact not_returned_again h hcall hfound hw hcall' hdone
  · exact fun i c candidate report hauth hcheck hfailed =>
      rejected_candidate h hauth hcheck hfailed

/-- A call of `ensure` on a new registry. -/
def ensuredRun : Sessions Unit :=
  (sessionPlayer Unit).traced.play
    (sessionSystem id givenAuthenticate fun _ =>
      .ensure sampleRequest.tenantConnectionId sampleRequest.credentials)
    [.run () .done, .run () .done,
      .run () (.session ⟨0, "tenant".toList, "admin@contoso.com".toList⟩),
      .run () (.report sampleReport), .run () (.time 0), .run () .done, .run () .done]

theorem ensuredRun_process : ensuredRun.prog () = .ret (.process 0) := by
  rfl

theorem session_isolation_ensured : ∃ session health, session.process = 0 ∧
    Returned id ensuredRun.shared.2 () sampleRequest.tenantConnectionId sampleRequest.credentials
      session health :=
  (session_isolation (plays _ _ _ _)).1 () _ _ 0 rfl ensuredRun_process

end InboxSaas.Provisioner
