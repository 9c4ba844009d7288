import InboxSaas.Reasoning.Protocol
import InboxSaas.Reasoning.Custody
import InboxSaas.Provisioner.SessionPaths

/-!
# The protocol of a call

What a call may do depends on its `Phase`: how it stands with the lock of its connection, what it
knows of the session there, and which process it alone answers for.  `ensure`, `dispose` and
`validate` obey the protocol (`sessionCall_obeys`), and the registry is consistent wherever calls
that obey it get (`Consistent.step`).
-/

namespace InboxSaas.Provisioner

open Reasoning Program TenantSessionRegistry

/-- A call that holds the lock may know what the registry has for the connection. -/
inductive Stage where
  | waiting
  | holding (slot : Option (Option TenantSession))
  | left

/-- The process that a call alone answers for: it started it and may have checked it, or it took it
out of the registry. -/
inductive Hand where
  | empty
  | fresh (process : Process)
  | checked (process : Process) (report : Except PyError TenantPowerShellHealthCheck)
  | removed (process : Process)

def Hand.process : Hand → Option Process
  | .empty => none
  | .fresh process => some process
  | .checked process _ => some process
  | .removed process => some process

structure Phase where
  stage : Stage
  hand : Hand

namespace Phase

def initial : Phase := ⟨.waiting, .empty⟩

def Holds (phase : Phase) : Prop := ∃ slot, phase.stage = .holding slot

/-- The phase after one more event. -/
def next (phase : Phase) : ProvisionerEvent → Phase
  | ⟨.lock _, .ok _⟩ => { phase with stage := .holding none }
  | ⟨.unlock _, .ok _⟩ => { phase with stage := .left }
  | ⟨.getSession _, .ok session⟩ => { phase with stage := .holding (some session) }
  | ⟨.popSession _, .ok none⟩ => { phase with stage := .holding (some none) }
  | ⟨.popSession _, .ok (some session)⟩ => ⟨.holding (some none), .removed session.process⟩
  | ⟨.setSession _ session, .ok _⟩ => ⟨.holding (some (some session)), .empty⟩
  | ⟨.touch _ _ _, .ok _⟩ => { phase with stage := .holding none }
  | ⟨.start, .ok process⟩ => { phase with hand := .fresh process }
  | ⟨.authenticate _ _, .ok session⟩ => { phase with hand := .fresh session.process }
  | ⟨.healthCheck .isCandidateHealthy process, report⟩ =>
      { phase with hand := .checked process report }
  | ⟨.stop _ _, _⟩ => { phase with hand := .empty }
  | _ => phase

/-- The operations of a call on connection `c` that are permitted in a phase.  Only `validate` has a
`last` check to make. -/
def Permits (c : PyString) (last : Prop) (phase : Phase) : ProvisionerOp → Prop
  | .lock c' => c' = c ∧ phase = .initial
  | .unlock c' => c' = c ∧ phase.Holds
  | .getSession c' => c' = c ∧ phase.Holds
  | .popSession c' => c' = c ∧ phase.Holds ∧ phase.hand = .empty
  | .setSession c' session => c' = c ∧ phase.stage = .holding (some none) ∧
      ∃ report, phase.hand = .checked session.process report
  | .touch c' process _ => c' = c ∧
      ∃ session : TenantSession, phase.stage = .holding (some (some session)) ∧
        session.process = process
  | .start => phase.Holds ∧ phase.hand = .empty
  | .authenticate c' _ => c' = c ∧ phase.Holds ∧ phase.hand = .empty
  | .healthCheck .isCandidateHealthy process => phase.Holds ∧ phase.hand = .fresh process
  | .healthCheck .validate _ => phase.stage = .left ∧ last
  | .stop _ process => phase.Holds ∧ phase.hand.process = some process
  | _ => phase.Holds

end Phase

/-- The phase of a call that has performed the events `l`. -/
def phase (l : List ProvisionerEvent) : Phase := l.foldl Phase.next .initial

@[simp] theorem phase_nil : phase [] = .initial := rfl

@[simp] theorem phase_snoc (l : List ProvisionerEvent) (e : ProvisionerEvent) :
    phase (l ++ [e]) = (phase l).next e := by
  simp [phase]

section

variable (casefold : PyString → PyString) (c : PyString) (last : Prop)
variable (origin : List ProvisionerEvent → AuthenticatedTenantSession → Prop)

/-- What else is asked: a session is registered only if it is known where it comes from and its
check was as it should be. -/
def Registers (l : List ProvisionerEvent) : ProvisionerOp → Prop
  | .setSession _ session => origin l session.toAuthenticatedTenantSession ∧
      ∃ health, (phase l).hand = .checked session.process (.ok health) ∧
        candidateHealthy casefold session.toAuthenticatedTenantSession health = true
  | _ => True

def sessionProtocol : Protocol ProvisionerOp ProvisionerOp.Reply PyError where
  possible := Possible
  permits l op := (phase l).Permits c last op ∧ Registers casefold origin l op

/-- A call ends without a process in its hand, unless it was cancelled while a new one was
checked. -/
def Settled : Hand → Prop
  | .empty => True
  | .checked _ (.error .cancelled) => True
  | _ => False

variable {l : List ProvisionerEvent}

/-! ## The registry obeys -/

theorem obeys_checkHealth {site : Site} {process : Process}
    {post : Except PyError (Option TenantPowerShellHealthCheck) → List ProvisionerEvent → Prop}
    (hpermits : (phase l).Permits c last (.healthCheck site process))
    (hpost : ∀ r, post (checked r) (l ++ [⟨.healthCheck site process, r⟩])) :
    Obeys (sessionProtocol casefold c last origin) post (checkHealth site process) l := by
  unfold checkHealth
  change Obeys _ _ (.call _ _) l
  refine ⟨⟨hpermits, trivial⟩, fun r _ => ?_⟩
  rcases r with (_ | _) | health
  · exact hpost (.error .cancelled)
  · exact hpost (.error (.exception _))
  · exact hpost (.ok health)

theorem obeys_stop {site : Site} {process : Process}
    {post : Except PyError Unit → List ProvisionerEvent → Prop}
    (hpermits : (phase l).Permits c last (.stop site process))
    (hpost : ∀ r, post (quiet r) (l ++ [⟨.stop site process, r⟩])) :
    Obeys (sessionProtocol casefold c last origin) post (TenantSessionRegistry.stop site process) l := by
  unfold TenantSessionRegistry.stop
  change Obeys _ _ (.call _ _) l
  refine ⟨⟨hpermits, trivial⟩, fun r _ => ?_⟩
  rcases r with (_ | _) | _
  · exact hpost (.error .cancelled)
  · exact hpost (.error (.exception _))
  · exact hpost (.ok ())

/-- What `reuse` leaves: nothing is touched unless the session is used again. -/
def Reused (session : TenantSession) :
    Except PyError (Option Process) → List ProvisionerEvent → Prop
  | .ok (some _), m => phase m = ⟨.holding none, .empty⟩
  | _, m => phase m = ⟨.holding (some (some session)), .empty⟩

theorem obeys_reuse {credentials : TenantCredentials} {session : TenantSession}
    (hl : phase l = ⟨.holding (some (some session)), .empty⟩) :
    Obeys (sessionProtocol casefold c last origin) (Reused session)
      (reuse casefold c credentials (some session)) l := by
  change Obeys _ _ (isExpired session >>= fun expired => if expired = true then .ret none else
    isHealthy casefold session credentials >>= fun healthy => if healthy = true then
      await .now >>= fun now => await (.touch c session.process now) >>= fun _ =>
        .ret (some session.process) else .ret none) l
  have hholds : ∀ {m : List ProvisionerEvent},
      phase m = ⟨.holding (some (some session)), .empty⟩ → (phase m).Holds :=
    fun hm => ⟨_, congrArg Phase.stage hm⟩
  refine Obeys.bind (Q := fun _ m => phase m = ⟨.holding (some (some session)), .empty⟩)
    ?_ (fun expired m hm => ?_) (fun e m hm => hm)
  · refine obeys_perform_bind ⟨hholds hl, trivial⟩ (fun now _ => ?_) (fun e _ => ?_)
    · exact (phase_snoc l _).trans hl
    · exact (phase_snoc l _).trans hl
  split
  · exact hm
  refine Obeys.bind (Q := fun _ m => phase m = ⟨.holding (some (some session)), .empty⟩)
    ?_ (fun healthy m hm => ?_) (fun e m hm => hm)
  · refine Obeys.bind (Q := fun _ m => phase m = ⟨.holding (some (some session)), .empty⟩)
      (obeys_checkHealth casefold c last origin (hholds hm) fun r => ?_) (fun health m hm => ?_)
      (fun e m hm => hm)
    · exact (phase_snoc _ _).trans hm
    · cases health <;> exact hm
  split
  · refine obeys_perform_bind ⟨hholds hm, trivial⟩ (fun touched _ => ?_) (fun e _ => ?_)
    · refine obeys_perform_bind ⟨⟨rfl, session, ?_, rfl⟩, trivial⟩ (fun _ _ => ?_) (fun e he => ?_)
      · rw [phase_snoc, hm]
        rfl
      · change phase _ = _
        rw [phase_snoc, phase_snoc, hm]
        rfl
      · cases he
    · exact (phase_snoc m _).trans hm
  · exact hm

/-- What `disposeLocked` leaves: nothing in the registry, and nothing in the hand. -/
theorem obeys_disposeLocked {slot : Option (Option TenantSession)}
    (hl : phase l = ⟨.holding slot, .empty⟩) :
    Obeys (sessionProtocol casefold c last origin)
      (fun _ m => phase m = ⟨.holding (some none), .empty⟩) (disposeLocked c) l := by
  unfold disposeLocked
  refine obeys_perform_bind ⟨⟨rfl, ⟨slot, congrArg Phase.stage hl⟩, congrArg Phase.hand hl⟩, trivial⟩
    (fun session _ => ?_) (fun e he => ?_)
  · cases session with
    | none =>
        change phase _ = _
        rw [phase_snoc, hl]
        rfl
    | some session =>
        refine obeys_stop casefold c last origin ?_ fun r => ?_
        · rw [phase_snoc, hl]
          exact ⟨⟨_, rfl⟩, rfl⟩
        · rw [phase_snoc, phase_snoc, hl]
          rfl
  · obtain ⟨_, he⟩ := he
    cases he

variable (authenticate : PyString → TenantCredentials →
  ProvisionerProgram AuthenticatedTenantSession)

/-- What is asked of the function that a registry is constructed with: the process of the session it
returns is left to the registry, and nothing is when it raises. -/
def SignsIn : Prop :=
  ∀ (credentials : TenantCredentials) (l : List ProvisionerEvent),
    phase l = ⟨.holding (some none), .empty⟩ →
    Obeys (sessionProtocol casefold c last origin)
      (fun r m => match r with
        | .ok session => phase m = ⟨.holding (some none), .fresh session.process⟩ ∧
            ∀ l', origin (m ++ l') session
        | .error _ => phase m = ⟨.holding (some none), .empty⟩)
      (authenticate c credentials) l

/-- Inside the lock, when it is about to be left. -/
def Leaving (l : List ProvisionerEvent) : Prop := (phase l).Holds ∧ Settled (phase l).hand

variable {authenticate}

/-- What the check of a candidate leaves. -/
def CandidateChecked (candidate : AuthenticatedTenantSession) :
    Except PyError Bool → List ProvisionerEvent → Prop
  | .ok true, m => (∀ l', origin (m ++ l') candidate) ∧ ∃ health,
      phase m = ⟨.holding (some none), .checked candidate.process (.ok health)⟩ ∧
        candidateHealthy casefold candidate health = true
  | .ok false, m => (phase m).Holds ∧ (phase m).hand.process = some candidate.process
  | .error _, m => phase m = ⟨.holding (some none), .checked candidate.process (.error .cancelled)⟩

theorem obeys_isCandidateHealthy {candidate : AuthenticatedTenantSession}
    {credentials : TenantCredentials}
    (hl : phase l = ⟨.holding (some none), .fresh candidate.process⟩)
    (horigin : ∀ l', origin (l ++ l') candidate) :
    Obeys (sessionProtocol casefold c last origin) (CandidateChecked casefold origin candidate)
      (isCandidateHealthy casefold candidate credentials) l := by
  unfold isCandidateHealthy
  dsimp only
  split
  · change (phase l).Holds ∧ _
    rw [hl]
    exact ⟨⟨_, rfl⟩, rfl⟩
  · refine Obeys.bind (Q := fun r m => ∃ report, r = checked report ∧
      (∀ l', origin (m ++ l') candidate) ∧
        phase m = ⟨.holding (some none), .checked candidate.process report⟩)
      (obeys_checkHealth casefold c last origin ?_ fun report => ⟨report, rfl, fun l' => ?_, ?_⟩)
      (fun health m hm => ?_) (fun e m hm => ?_)
    · rw [hl]
      exact ⟨⟨_, rfl⟩, rfl⟩
    · rw [List.append_assoc]
      exact horigin _
    · rw [phase_snoc, hl]
      rfl
    · obtain ⟨report, hreport, hm, hphase⟩ := hm
      rcases report with (_ | error) | report
      · cases hreport
      · cases hreport
        change (phase m).Holds ∧ _
        rw [hphase]
        exact ⟨⟨_, rfl⟩, rfl⟩
      · cases hreport
        change CandidateChecked casefold origin candidate
          (.ok (candidateHealthy casefold candidate report)) m
        cases hhealth : candidateHealthy casefold candidate report with
        | true => exact ⟨hm, report, hphase, hhealth⟩
        | false =>
            change (phase m).Holds ∧ _
            rw [hphase]
            exact ⟨⟨_, rfl⟩, rfl⟩
    · obtain ⟨report, hreport, -, hphase⟩ := hm
      rcases report with (_ | error) | report
      · exact hphase
      · cases hreport
      · cases hreport

theorem obeys_establish (hauth : SignsIn casefold c last origin authenticate)
    {credentials : TenantCredentials} (hl : phase l = ⟨.holding (some none), .empty⟩) :
    Obeys (sessionProtocol casefold c last origin) (fun _ m => Leaving m)
      (establish casefold authenticate c credentials) l := by
  change Obeys _ _ (authenticate c credentials >>= fun candidate =>
    isCandidateHealthy casefold candidate credentials >>= fun healthy =>
      if (!healthy) = true then
        TenantSessionRegistry.stop .ensure candidate.process >>= fun _ =>
          .raise (.exception .tenantSessionAuthentication)
      else await .now >>= fun now => await (.setSession c ⟨candidate, now⟩) >>= fun _ =>
        .ret candidate.process) l
  refine Obeys.bind (hauth credentials l hl) (fun candidate m hm => ?_) (fun e m hm => ?_)
  · refine Obeys.bind (obeys_isCandidateHealthy casefold c last origin hm.1 hm.2)
      (fun healthy n hn => ?_) (fun e n hn => ?_)
    · cases healthy with
      | true =>
          obtain ⟨horigin, health, hphase, hhealth⟩ := hn
          refine obeys_perform_bind ⟨?_, trivial⟩ (fun now _ => ?_) (fun e he => ?_)
          · rw [hphase]
            exact ⟨_, rfl⟩
          · have hnow : phase (n ++ [did .now now]) =
                ⟨.holding (some none), .checked candidate.process (.ok health)⟩ :=
              (phase_snoc n _).trans hphase
            refine obeys_perform_bind ⟨?_, horigin _, health, ?_, hhealth⟩ (fun _ _ => ?_)
              (fun e he => ?_)
            · rw [hnow]
              exact ⟨rfl, rfl, _, rfl⟩
            · rw [hnow]
            · change Leaving _
              rw [Leaving, phase_snoc, hnow]
              exact ⟨⟨_, rfl⟩, trivial⟩
            · cases he
          · obtain ⟨_, he⟩ := he
            cases he
      | false =>
          refine Obeys.bind (Q := fun _ m => Leaving m)
            (obeys_stop casefold c last origin hn fun r => ?_) (fun _ m hm => hm) (fun e m hm => hm)
          obtain ⟨slot, hslot⟩ := hn.1
          rw [Leaving, phase_snoc]
          exact ⟨⟨slot, hslot⟩, trivial⟩
    · rw [Leaving, hn]
      exact ⟨⟨_, rfl⟩, trivial⟩
  · rw [Leaving, hm]
    exact ⟨⟨_, rfl⟩, trivial⟩

theorem obeys_ensureLocked (hauth : SignsIn casefold c last origin authenticate)
    {credentials : TenantCredentials} (hl : phase l = ⟨.holding none, .empty⟩) :
    Obeys (sessionProtocol casefold c last origin) (fun _ m => Leaving m)
      (ensureLocked casefold authenticate c credentials) l := by
  unfold ensureLocked
  refine obeys_perform_bind ⟨?_, trivial⟩ (fun session _ => ?_) (fun e he => ?_)
  · rw [hl]
    exact ⟨rfl, _, rfl⟩
  · have hget : phase (l ++ [did (.getSession c) session]) =
        ⟨.holding (some session), .empty⟩ := by
      rw [phase_snoc, hl]
      rfl
    cases session with
    | none => exact obeys_establish casefold c last origin hauth hget
    | some session =>
        refine Obeys.bind (obeys_reuse casefold c last origin hget) (fun retained m hm => ?_)
          (fun e m hm => ?_)
        · cases retained with
          | some process =>
              change Leaving m
              rw [Leaving, hm]
              exact ⟨⟨_, rfl⟩, trivial⟩
          | none =>
              change Obeys _ _ (disposeLocked c >>= fun _ =>
                establish casefold authenticate c credentials) m
              refine Obeys.bind (obeys_disposeLocked casefold c last origin hm) (fun _ n hn => ?_)
                (fun e n hn => ?_)
              · exact obeys_establish casefold c last origin hauth hn
              · rw [Leaving, hn]
                exact ⟨⟨_, rfl⟩, trivial⟩
        · rw [Leaving, hm]
          exact ⟨⟨_, rfl⟩, trivial⟩
  · obtain ⟨_, he⟩ := he
    cases he

/-- A call that is over holds no lock, and no process either unless it leaked one. -/
def Over (l : List ProvisionerEvent) : Prop := ¬ (phase l).Holds ∧ Settled (phase l).hand

theorem obeys_locked {α : Type} {body : ProvisionerProgram α}
    (hbody : ∀ m, phase m = ⟨.holding none, .empty⟩ →
      Obeys (sessionProtocol casefold c last origin) (fun _ m => Leaving m) body m) :
    Obeys (sessionProtocol casefold c last origin)
      (fun r m => Over m ∧ ∀ a, r = .ok a → (phase m).stage = .left)
      (asyncWith (.lock c) (.unlock c) body) [] := by
  unfold asyncWith
  have hunlock : ∀ {m : List ProvisionerEvent}, Leaving m →
      phase (m ++ [did (.unlock c) ()]) = ⟨.left, (phase m).hand⟩ := fun _ => phase_snoc _ _
  have hover : ∀ {m : List ProvisionerEvent}, Leaving m → Over (m ++ [did (.unlock c) ()]) := by
    intro m hm
    rw [Over, hunlock hm]
    refine ⟨?_, hm.2⟩
    rintro ⟨_, hslot⟩
    cases hslot
  refine obeys_perform_bind ⟨⟨rfl, rfl⟩, trivial⟩ (fun _ _ => ?_) (fun e _ => ?_)
  · refine Obeys.bind (Q := fun r m => match r with
        | .ok _ => Leaving m
        | .error _ => Over m) ?_ (fun a m hm => ?_) (fun e m hm => ?_)
    · refine Obeys.handle (hbody _ rfl) (fun a m hm => hm) (fun e m hm => ?_)
      refine obeys_perform_bind ⟨⟨rfl, hm.1⟩, trivial⟩ (fun _ _ => hover hm) (fun e he => ?_)
      cases he
    · refine obeys_perform_bind ⟨⟨rfl, hm.1⟩, trivial⟩ (fun _ _ => ⟨hover hm, fun _ _ => ?_⟩)
        (fun e he => ?_)
      · rw [hunlock hm]
      · cases he
    · exact ⟨hm, fun _ h => by cases h⟩
  · refine ⟨⟨?_, trivial⟩, fun _ h => by cases h⟩
    rintro ⟨_, hslot⟩
    cases hslot

theorem obeys_ensure (hauth : SignsIn casefold c last origin authenticate)
    (credentials : TenantCredentials) :
    Obeys (sessionProtocol casefold c last origin)
      (fun r m => Over m ∧ ∀ a, r = .ok a → (phase m).stage = .left)
      (ensure casefold authenticate c credentials) [] :=
  obeys_locked casefold c last origin fun _ hm => obeys_ensureLocked casefold c last origin hauth hm

theorem obeys_dispose :
    Obeys (sessionProtocol casefold c last origin)
      (fun r m => Over m ∧ ∀ a, r = .ok a → (phase m).stage = .left) (dispose c) [] := by
  refine obeys_locked casefold c last origin fun m hm => ?_
  refine (obeys_disposeLocked casefold c last origin hm).mono fun _ m hm => ?_
  rw [Leaving, hm]
  exact ⟨⟨_, rfl⟩, trivial⟩

end

/-- The connection that a call is about. -/
def SessionCall.connection : SessionCall → PyString
  | .ensure c _ => c
  | .dispose c => c
  | .validate request => request.tenantConnectionId

theorem obeys_failure {P : Protocol ProvisionerOp ProvisionerOp.Reply PyError}
    {post : Except PyError TenantValidationResult → List ProvisionerEvent → Prop}
    {l : List ProvisionerEvent} {e : PyError} (h : ∀ r, post r l) :
    Obeys P post (RealTenantValidationService.failure e) l := by
  rcases e with _ | error
  · exact h _
  · cases error <;> exact h _

/-- Only `validate` makes a check after it has left the lock. -/
def SessionCall.Validates (call : SessionCall) : Prop := ∃ request, call = .validate request

theorem sessionCall_obeys (casefold : PyString → PyString)
    (origin : List ProvisionerEvent → AuthenticatedTenantSession → Prop)
    {authenticate : PyString → TenantCredentials → ProvisionerProgram AuthenticatedTenantSession}
    (call : SessionCall)
    (hauth : SignsIn casefold call.connection call.Validates origin authenticate) :
    Obeys (sessionProtocol casefold call.connection call.Validates origin) (fun _ m => Over m)
      (call.program casefold authenticate) [] := by
  cases call with
  | ensure c credentials =>
      exact Obeys.bind (obeys_ensure casefold c _ origin hauth credentials) (fun _ _ hm => hm.1)
        (fun _ _ hm => hm.1)
  | dispose c =>
      exact Obeys.bind (obeys_dispose casefold c _ origin) (fun _ _ hm => hm.1)
        (fun _ _ hm => hm.1)
  | validate request =>
      refine Obeys.bind (Q := fun _ m => Over m) ?_ (fun _ _ hm => hm) (fun _ _ hm => hm)
      refine Obeys.handle (Q := fun _ m => Over m) ?_ (fun _ _ hm => hm)
        (fun e m hm => obeys_failure fun _ => hm)
      refine Obeys.bind (obeys_ensure casefold _ _ origin hauth request.credentials)
        (fun process m hm => ?_) (fun _ _ hm => hm.1)
      have hover : ∀ r, Over (m ++ [⟨.healthCheck .validate process, r⟩]) := by
        intro r
        rw [Over, phase_snoc]
        exact hm.1
      refine obeys_perform_bind ⟨⟨hm.2 _ rfl, request, rfl⟩, trivial⟩ (fun health _ => ?_)
        (fun e _ => hover _)
      rcases health.microsoftTenantId with _ | microsoftTenantId
      · exact hover _
      · change Obeys _ _ (RealTenantValidationService.tenantValidationSuccess _) _
        unfold RealTenantValidationService.tenantValidationSuccess
        split
        · exact hover _
        · exact hover _

/-! ## Signing in obeys -/

section

variable (casefold : PyString → PyString) (c : PyString) (last : Prop)

theorem obeys_signIn {origin : List ProvisionerEvent → AuthenticatedTenantSession → Prop}
    {process : Process} {credentials : TenantCredentials} {l : List ProvisionerEvent}
    (hl : phase l = ⟨.holding (some none), .fresh process⟩) :
    Obeys (sessionProtocol casefold c last origin)
      (fun r m => phase m = ⟨.holding (some none), .fresh process⟩ ∧
        ∀ session, r = .ok session → session.process = process)
      (RealTenantValidationService.signIn process credentials) l := by
  have hholds : ∀ {m : List ProvisionerEvent},
      phase m = ⟨.holding (some none), .fresh process⟩ → (phase m).Holds :=
    fun hm => ⟨_, congrArg Phase.stage hm⟩
  unfold RealTenantValidationService.signIn
  refine Obeys.bind (Q := fun _ m => phase m = ⟨.holding (some none), .fresh process⟩) ?_
    (fun _ m hm => ?_) (fun e m hm => ⟨hm, fun _ h => by cases h⟩)
  · unfold asyncWith
    refine obeys_perform_bind ⟨hholds hl, trivial⟩ (fun _ _ => ?_)
      (fun e _ => (phase_snoc l _).trans hl)
    have hbrowser := (phase_snoc l (did .acquireBrowser ())).trans hl
    refine Obeys.bind (Q := fun _ m => phase m = ⟨.holding (some none), .fresh process⟩) ?_
      (fun _ m hm => ?_) (fun e m hm => hm)
    · refine Obeys.handle (Q := fun _ m => phase m = ⟨.holding (some none), .fresh process⟩) ?_
        (fun _ m hm => hm) (fun e m hm => ?_)
      · refine obeys_perform_bind ⟨hholds hbrowser, trivial⟩ (fun _ _ => ?_)
          (fun e _ => (phase_snoc _ _).trans hbrowser)
        have hgraph := (phase_snoc (l ++ [did .acquireBrowser ()])
          (did (.authenticateGraph process credentials) ())).trans hbrowser
        exact obeys_perform ⟨hholds hgraph, trivial⟩ fun r _ => (phase_snoc _ _).trans hgraph
      · exact obeys_perform_bind ⟨hholds hm, trivial⟩ (fun _ _ => (phase_snoc m _).trans hm)
          (fun e _ => (phase_snoc m _).trans hm)
    · exact obeys_perform_bind ⟨hholds hm, trivial⟩ (fun _ _ => (phase_snoc m _).trans hm)
        (fun e _ => (phase_snoc m _).trans hm)
  · refine obeys_perform_bind ⟨hholds hm, trivial⟩ (fun health _ => ?_)
      (fun e _ => ⟨(phase_snoc m _).trans hm, fun _ h => by cases h⟩)
    split
    · exact ⟨(phase_snoc m _).trans hm, fun _ h => by cases h; rfl⟩
    · exact ⟨(phase_snoc m _).trans hm, fun _ h => by cases h⟩

theorem authenticate_signsIn :
    SignsIn casefold c last (fun _ _ => True) RealTenantValidationService.authenticate := by
  intro credentials l hl
  unfold RealTenantValidationService.authenticate
  refine obeys_perform_bind ⟨?_, trivial⟩ (fun process _ => ?_) (fun e _ => ?_)
  · rw [hl]
    exact ⟨⟨_, rfl⟩, rfl⟩
  · have hstart : phase (l ++ [did .start process]) = ⟨.holding (some none), .fresh process⟩ := by
      rw [phase_snoc, hl]
      rfl
    refine Obeys.handle (obeys_signIn casefold c last hstart) (fun session m hm => ?_)
      (fun e m hm => ?_)
    · refine ⟨?_, fun _ => trivial⟩
      rw [hm.2 session rfl]
      exact hm.1
    · have hstop : ∀ r, phase (m ++ [⟨.stop .authenticate process, r⟩]) =
          ⟨.holding (some none), .empty⟩ := by
        intro r
        rw [phase_snoc, hm.1]
        rfl
      refine obeys_perform_bind ⟨?_, trivial⟩ (fun _ _ => hstop _) (fun e _ => hstop _)
      rw [hm.1]
      exact ⟨⟨_, rfl⟩, rfl⟩
  · exact (phase_snoc l _).trans hl

/-- The session came from `authenticate` for the connection. -/
def SignedInFor (c : PyString) (l : List ProvisionerEvent)
    (session : AuthenticatedTenantSession) : Prop :=
  ∃ credentials, did (.authenticate c credentials) session ∈ l

theorem await_signsIn :
    SignsIn casefold c last (SignedInFor c) (fun c credentials => await (.authenticate c credentials)) := by
  intro credentials l hl
  refine obeys_perform ⟨?_, trivial⟩ fun r _ => ?_
  · rw [hl]
    exact ⟨rfl, ⟨_, rfl⟩, rfl⟩
  · cases r with
    | ok session =>
        refine ⟨?_, fun l' => ⟨credentials, ?_⟩⟩
        · rw [phase_snoc, hl]
          rfl
        · exact List.mem_append_left _ (List.mem_append_right _ List.mem_cons_self)
    | error e => exact (phase_snoc l _).trans hl

end

/-! ## The registry is consistent -/

/-- Where a process can be. -/
inductive Owner (ι : Type) where
  | call (i : ι)
  | connection (c : PyString)
  deriving DecidableEq

section

variable {ι : Type}

def place (phases : ι → Phase) (w : ServiceState ι) : Owner ι → Option Process
  | .call i => (phases i).hand.process
  | .connection c => (w.sessions c).map (fun session => session.process)

structure Consistent (connection : ι → PyString) (phases : ι → Phase) (stopped : Process → Prop)
    (w : ServiceState ι) : Prop where
  lock : ∀ c i, w.locks c = some i ↔ connection i = c ∧ (phases i).Holds
  slot : ∀ i session, (phases i).stage = .holding (some session) →
    w.sessions (connection i) = session
  custody : Custody (place phases w) (fun process => process ∈ w.processes) stopped

variable {connection : ι → PyString} {phases : ι → Phase} {stopped : Process → Prop}
variable {w : ServiceState ι}

theorem Consistent.initial :
    Consistent connection (fun _ => .initial) stopped (.initial ι) where
  lock c i := by
    constructor
    · intro h
      cases h
    · rintro ⟨-, _, h⟩
      cases h
  slot i session h := by cases h
  custody := by
    have hplace : place (fun _ : ι => Phase.initial) (.initial ι) = fun _ => none := by
      funext a
      cases a <;> rfl
    rw [hplace]
    exact Custody.empty.congr fun p => ⟨False.elim, fun h => by cases h⟩

variable [DecidableEq ι]

theorem place_update_call (i : ι) (x : Phase) :
    place (Function.update phases i x) w =
      Function.update (place phases w) (.call i) x.hand.process := by
  funext a
  cases a with
  | call j =>
      by_cases hj : j = i
      · subst hj
        simp [place]
      · rw [Function.update_of_ne (by simpa using hj)]
        simp [place, hj]
  | connection c => rw [Function.update_of_ne (by simp)]; rfl

theorem place_update_connection (c : PyString) (session : Option TenantSession) :
    place phases { w with sessions := Function.update w.sessions c session } =
      Function.update (place phases w) (.connection c) (session.map (fun s => s.process)) := by
  funext a
  cases a with
  | call j => rw [Function.update_of_ne (by simp)]; rfl
  | connection d =>
      by_cases hd : d = c
      · subst hd
        simp [place]
      · rw [Function.update_of_ne (by simpa using hd)]
        simp [place, hd]

theorem place_stay {i : ι} {x : Phase} (hhand : x.hand.process = (phases i).hand.process) :
    place (Function.update phases i x) w = place phases w := by
  rw [place_update_call, hhand]
  exact Function.update_eq_self (Owner.call i) (place phases w)

/-- A step that keeps to itself. -/
theorem Consistent.stay (h : Consistent connection phases stopped w) {i : ι} {x : Phase}
    (hstage : x.stage = (phases i).stage) (hhand : x.hand.process = (phases i).hand.process) :
    Consistent connection (Function.update phases i x) stopped w where
  lock c j := by
    rw [h.lock]
    by_cases hj : j = i
    · rw [hj, Function.update_self, Phase.Holds, Phase.Holds, hstage]
    · rw [Function.update_of_ne hj]
  slot j session hj := by
    by_cases hji : j = i
    · rw [hji, Function.update_self, hstage] at hj
      rw [hji]
      exact h.slot i session hj
    · rw [Function.update_of_ne hji] at hj
      exact h.slot j session hj
  custody := by
    rw [place_stay hhand]
    exact h.custody

/-- A step under the lock changes the session of its own connection at most. -/
theorem Consistent.within (h : Consistent connection phases stopped w) {i : ι} {x : Phase}
    {stopped' : Process → Prop} (sessions : PyString → Option TenantSession)
    (processes : List Process) (hi : (phases i).Holds) (hx : x.Holds)
    (hslot : ∀ session, x.stage = .holding (some session) → sessions (connection i) = session)
    (hother : ∀ c, c ≠ connection i → sessions c = w.sessions c)
    (hcustody : Custody (place (Function.update phases i x) { w with
      sessions := sessions, processes := processes }) (fun p => p ∈ processes) stopped') :
    Consistent connection (Function.update phases i x) stopped'
      { w with sessions := sessions, processes := processes } where
  lock c j := by
    change w.locks c = some j ↔ _
    rw [h.lock]
    by_cases hj : j = i
    · rw [hj, Function.update_self, iff_true_intro hi, iff_true_intro hx]
    · rw [Function.update_of_ne hj]
  slot j session hj := by
    by_cases hji : j = i
    · rw [hji, Function.update_self] at hj
      rw [hji]
      exact hslot session hj
    · rw [Function.update_of_ne hji] at hj
      change sessions _ = _
      rw [hother, h.slot j session hj]
      -- nobody else is in the lock
      intro hc
      have hlocks := (h.lock (connection i) j).mpr ⟨hc, _, hj⟩
      rw [(h.lock (connection i) i).mpr ⟨rfl, hi⟩] at hlocks
      exact hji (Option.some.inj hlocks).symm
  custody := hcustody

omit [DecidableEq ι] in
theorem Consistent.weaken {stopped' : Process → Prop} (h : Consistent connection phases stopped w)
    (hstopped : ∀ p, stopped p → stopped' p) : Consistent connection phases stopped' w :=
  ⟨h.lock, h.slot, h.custody.weaken hstopped⟩

omit [DecidableEq ι] in
theorem Consistent.browser (h : Consistent connection phases stopped w) (browser : Option ι) :
    Consistent connection phases stopped { w with browser := browser } :=
  ⟨h.lock, h.slot, h.custody⟩

theorem Consistent.locked (h : Consistent connection phases stopped w) {i : ι}
    (hi : phases i = .initial) (hfree : w.locks (connection i) = none) :
    Consistent connection (Function.update phases i ⟨.holding none, .empty⟩) stopped
      { w with locks := Function.update w.locks (connection i) (some i) } where
  lock c j := by
    change Function.update w.locks (connection i) (some i) c = some j ↔ _
    by_cases hj : j = i
    · subst hj
      rw [Function.update_self]
      by_cases hc : connection j = c
      · rw [← hc, Function.update_self]
        exact iff_of_true rfl ⟨rfl, _, rfl⟩
      · rw [Function.update_of_ne (Ne.symm hc), h.lock, hi]
        exact iff_of_false (fun h => hc h.1) (fun h => hc h.1)
    · rw [Function.update_of_ne hj]
      by_cases hc : c = connection i
      · rw [hc, Function.update_self, ← h.lock, hfree]
        exact iff_of_false (fun h => hj (Option.some.inj h).symm) (fun h => by cases h)
      · rw [Function.update_of_ne hc, h.lock]
  slot j session hj := by
    by_cases hji : j = i
    · rw [hji, Function.update_self] at hj
      cases hj
    · rw [Function.update_of_ne hji] at hj
      exact h.slot j session hj
  custody := by
    change Custody (place (Function.update phases i ⟨.holding none, .empty⟩) w) _ _
    rw [place_stay (by rw [hi]; rfl)]
    exact h.custody

theorem Consistent.unlocked (h : Consistent connection phases stopped w) {i : ι}
    (hi : (phases i).Holds) :
    Consistent connection (Function.update phases i ⟨.left, (phases i).hand⟩) stopped
      { w with locks := Function.update w.locks (connection i) none } where
  lock c j := by
    change Function.update w.locks (connection i) none c = some j ↔ _
    have hmine := (h.lock (connection i) i).mpr ⟨rfl, hi⟩
    by_cases hj : j = i
    · subst hj
      rw [Function.update_self]
      by_cases hc : c = connection j
      · rw [hc, Function.update_self]
        exact iff_of_false (fun h => by cases h) (fun h => by cases h.2.choose_spec)
      · rw [Function.update_of_ne hc, h.lock]
        exact iff_of_false (fun h => hc h.1.symm) (fun h => hc h.1.symm)
    · rw [Function.update_of_ne hj]
      by_cases hc : c = connection i
      · rw [hc, Function.update_self, ← h.lock, hmine]
        exact iff_of_false (fun h => by cases h) (fun h => hj (Option.some.inj h).symm)
      · rw [Function.update_of_ne hc, h.lock]
  slot j session hj := by
    by_cases hji : j = i
    · rw [hji, Function.update_self] at hj
      cases hj
    · rw [Function.update_of_ne hji] at hj
      exact h.slot j session hj
  custody := by
    have hplace : place (Function.update phases i ⟨.left, (phases i).hand⟩) w = place phases w :=
      place_stay rfl
    change Custody (place (Function.update phases i ⟨.left, (phases i).hand⟩) w) _ _
    rw [hplace]
    exact h.custody

/-- A change under the lock that moves no process. -/
theorem Consistent.rewritten (h : Consistent connection phases stopped w) {i : ι} {x : Phase}
    (hi : (phases i).Holds) (hx : x.Holds) (hhand : x.hand.process = (phases i).hand.process)
    {session : Option TenantSession}
    (hslot : ∀ known, x.stage = .holding (some known) → session = known)
    (hprocess : session.map (fun s => s.process) =
      (w.sessions (connection i)).map (fun s => s.process)) :
    Consistent connection (Function.update phases i x) stopped
      { w with sessions := Function.update w.sessions (connection i) session } := by
  refine h.within _ w.processes hi hx ?_ ?_ ?_
  · intro known hknown
    rw [Function.update_self]
    exact hslot known hknown
  · exact fun c hc => Function.update_of_ne hc _ _
  · have hplace : place (Function.update phases i x)
        { w with sessions := Function.update w.sessions (connection i) session } =
          place phases w := by
      rw [place_update_connection, place_update_call, hhand]
      funext a
      by_cases ha : a = .connection (connection i)
      · rw [ha, Function.update_self]
        exact hprocess
      · rw [Function.update_of_ne ha]
        exact congrFun (Function.update_eq_self (Owner.call i) (place phases w)) a
    rw [hplace]
    exact h.custody

theorem Consistent.popped (h : Consistent connection phases stopped w) {i : ι}
    (hi : (phases i).Holds) (hhand : (phases i).hand = .empty) {session : TenantSession}
    (hsession : w.sessions (connection i) = some session) :
    Consistent connection
      (Function.update phases i ⟨.holding (some none), .removed session.process⟩) stopped
      { w with sessions := Function.update w.sessions (connection i) none } := by
  refine h.within _ w.processes hi ⟨_, rfl⟩ ?_ ?_ ?_
  · intro known hknown
    cases hknown
    exact Function.update_self ..
  · exact fun c hc => Function.update_of_ne hc _ _
  · have hmove := h.custody.move (a := .connection (connection i)) (b := .call i) (by simp)
      (by rw [place, hhand]; rfl)
    rw [place_update_connection, place_update_call]
    have hfrom : place phases w (.connection (connection i)) = some session.process := by
      rw [place, hsession]
      rfl
    rw [hfrom] at hmove
    exact hmove

theorem Consistent.registered (h : Consistent connection phases stopped w) {i : ι}
    (hslot : (phases i).stage = .holding (some none)) {session : TenantSession}
    (hhand : (phases i).hand.process = some session.process) :
    Consistent connection
      (Function.update phases i ⟨.holding (some (some session)), .empty⟩) stopped
      { w with sessions := Function.update w.sessions (connection i) (some session) } := by
  refine h.within _ w.processes ⟨_, hslot⟩ ⟨_, rfl⟩ ?_ ?_ ?_
  · intro known hknown
    cases hknown
    exact Function.update_self ..
  · exact fun c hc => Function.update_of_ne hc _ _
  · have hmove := h.custody.move (a := .call i) (b := .connection (connection i)) (by simp)
      (by rw [place, h.slot i none hslot]; rfl)
    rw [place_update_connection, place_update_call, Function.update_comm (by simp)]
    have hfrom : place phases w (.call i) = some session.process := hhand
    rw [hfrom] at hmove
    exact hmove

theorem Consistent.started (h : Consistent connection phases stopped w) {i : ι}
    (hi : (phases i).Holds) (hhand : (phases i).hand = .empty) {process : Process}
    (hprocess : process ∉ w.processes) :
    Consistent connection
      (Function.update phases i { phases i with hand := .fresh process }) stopped
      { w with processes := process :: w.processes } := by
  refine h.within _ _ hi hi (fun session hstage => h.slot i session hstage) (fun _ _ => rfl) ?_
  have hmake := h.custody.make (a := .call i) (r := process) (by rw [place, hhand]; rfl) hprocess
  have hplace : place (Function.update phases i { phases i with hand := .fresh process })
      { w with processes := process :: w.processes } =
        Function.update (place phases w) (.call i) (some process) :=
    place_update_call (w := w) i _
  rw [hplace]
  exact hmake.congr fun p => List.mem_cons.symm

theorem Consistent.released (h : Consistent connection phases stopped w) {i : ι}
    (hi : (phases i).Holds) {process : Process} (hhand : (phases i).hand.process = some process) :
    Consistent connection (Function.update phases i { phases i with hand := .empty })
      (fun p => stopped p ∨ p = process) w := by
  refine h.within w.sessions w.processes hi hi
    (fun session hstage => h.slot i session hstage) (fun _ _ => rfl) ?_
  change Custody (place (Function.update phases i _) w) _ _
  rw [place_update_call]
  refine (h.custody.weaken fun p hp => .inl hp).release fun p hp => .inr ?_
  have hp : (phases i).hand.process = some p := hp
  rw [hhand] at hp
  exact (Option.some.inj hp).symm

/-- What a permitted operation does to a consistent registry. -/
theorem Consistent.step (h : Consistent connection phases stopped w) {i : ι} {op : ProvisionerOp}
    {r : Except PyError op.Reply} {w' : ServiceState ι}
    {last : Prop} (hpermits : (phases i).Permits (connection i) last op)
    (hperf : Performs i w op r w') :
    Consistent connection (Function.update phases i ((phases i).next ⟨op, r⟩))
      (fun p => stopped p ∨ ∃ site, op = .stop site p) w' := by
  have hstay : Consistent connection phases (fun p => stopped p ∨ ∃ site, op = .stop site p) w :=
    h.weaken fun p hp => .inl hp
  cases hperf with
  | locked hfree =>
      obtain ⟨rfl, hi⟩ := hpermits
      have hlocked := hstay.locked hi hfree
      rw [hi]
      exact hlocked
  | notLocked => exact hstay.stay rfl rfl
  | unlock =>
      obtain ⟨rfl, hi⟩ := hpermits
      exact hstay.unlocked hi
  | getSession =>
      obtain ⟨rfl, hi⟩ := hpermits
      have hplace : place (Function.update phases i
          { phases i with stage := .holding (some (w.sessions (connection i))) }) w =
            place phases w := place_stay rfl
      refine hstay.within w.sessions w.processes hi ⟨_, rfl⟩ (fun known hknown => ?_)
        (fun _ _ => rfl) ?_
      · cases hknown
        rfl
      · have hcustody := hstay.custody
        rw [← hplace] at hcustody
        exact hcustody
  -- the session goes from the registry into the hand of the call
  | popSession =>
      obtain ⟨rfl, hi, hhand⟩ := hpermits
      cases hsession : w.sessions (connection i) with
      | none =>
          refine hstay.rewritten (x := { phases i with stage := .holding (some none) }) hi ⟨_, rfl⟩
            rfl (fun known hknown => ?_) ?_
          · cases hknown
            rfl
          · rw [hsession]
      | some session => exact hstay.popped hi hhand hsession
  | setSession =>
      obtain ⟨rfl, hslot, report, hhand⟩ := hpermits
      exact hstay.registered hslot (by rw [hhand]; rfl)
  -- only the time of use is written
  | touch =>
      obtain ⟨rfl, session, hslot, rfl⟩ := hpermits
      refine hstay.rewritten (x := { phases i with stage := .holding none }) ⟨_, hslot⟩ ⟨_, rfl⟩ rfl
        (fun known hknown => by cases hknown) ?_
      cases hsession : w.sessions (connection i) with
      | none => rfl
      | some retained =>
          rw [Option.map_some, Option.map_some, Option.map_some]
          split <;> rfl
  | now => exact hstay.stay rfl rfl
  | acquiredBrowser => exact (hstay.stay rfl rfl).browser _
  | notAcquiredBrowser => exact hstay.stay rfl rfl
  | releaseBrowser => exact (hstay.stay rfl rfl).browser _
  | started hprocess => exact hstay.started hpermits.1 hpermits.2 hprocess
  | notStarted => exact hstay.stay rfl rfl
  | authenticateGraph => exact hstay.stay rfl rfl
  | authenticateExchange => exact hstay.stay rfl rfl
  | @healthCheck site process r =>
      cases site with
      | isCandidateHealthy =>
          refine hstay.stay rfl ?_
          change some process = _
          rw [hpermits.2]
          rfl
      | _ => exact hstay.stay rfl rfl
  | stop =>
      refine (h.released hpermits.1 hpermits.2).weaken fun p hp => ?_
      rcases hp with hp | rfl
      · exact .inl hp
      · exact .inr ⟨_, rfl⟩
  | authenticated hprocess => exact hstay.started hpermits.2.1 hpermits.2.2 hprocess
  | notAuthenticated => exact hstay.stay rfl rfl

end

end InboxSaas.Provisioner
