import InboxSaas.Provisioner.SessionProtocol

/-!
# Runs of the session service

What holds in every state that any number of calls on a new registry lead to, and a player that runs
a schedule of them.
-/

namespace InboxSaas.Provisioner

open Reasoning Program

variable {ι : Type} [DecidableEq ι]

abbrev SessionTrace (ι : Type) : Type := Trace ι ProvisionerOp ProvisionerOp.Reply PyError

/-- The phase of every call. -/
def phases (tr : SessionTrace ι) (i : ι) : Phase := phase (own i tr)

/-- Somebody has called `stop` on the process. -/
def Stopped (tr : SessionTrace ι) (process : Process) : Prop :=
  ∃ i site r, (i, ⟨.stop site process, r⟩) ∈ tr

theorem phases_snoc (tr : SessionTrace ι) (i : ι) (e : ProvisionerEvent) :
    phases (tr ++ [(i, e)]) = Function.update (phases tr) i ((phases tr i).next e) := by
  funext j
  unfold phases
  rw [own_append]
  by_cases hj : i = j
  · subst hj
    rw [own_self, phase_snoc, Function.update_self]
  · rw [own_ne hj, List.append_nil, Function.update_of_ne (Ne.symm hj)]

section

variable {casefold : PyString → PyString} {calls : ι → SessionCall}
variable {origin : PyString → List ProvisionerEvent → AuthenticatedTenantSession → Prop}
variable {authenticate : PyString → TenantCredentials →
  ProvisionerProgram AuthenticatedTenantSession}

/-- The worlds of a run of calls on a new registry. -/
def Runs (casefold : PyString → PyString)
    (authenticate : PyString → TenantCredentials → ProvisionerProgram AuthenticatedTenantSession)
    (calls : ι → SessionCall) (w : Sessions ι) : Prop :=
  Pool.Reaches (eventLoop ι).traced (sessionSystem casefold authenticate calls) w

/-- A call that is over has taken a path of its program. -/
theorem Runs.ends {w : Sessions ι} (h : Runs casefold authenticate calls w) {i : ι}
    {o : Except PyError SessionOutcome} (hi : w.prog i = ofExcept o) :
    AllPossible (own i w.shared.2) ∧
      Ends ((calls i).program casefold authenticate) (own i w.shared.2) o := by
  constructor
  · intro e he
    exact Pool.Reaches.events (M := eventLoop ι) (Q := fun _ e => Possible e)
      (fun _ _ _ _ _ hperf => hperf.possible) h (i, e) (mem_own.mp he)
  · have hpath := Pool.Reaches.path (M := eventLoop ι) (fun _ _ _ _ h => h) h i
    rw [hi] at hpath
    exact hpath

/-- Where calls come from a function that signs in, whatever the connection. -/
abbrev AllSignIn (casefold : PyString → PyString)
    (origin : PyString → List ProvisionerEvent → AuthenticatedTenantSession → Prop)
    (authenticate : PyString → TenantCredentials →
      ProvisionerProgram AuthenticatedTenantSession) : Prop :=
  ∀ c last, SignsIn casefold c last (origin c) authenticate

/-- What every permitted operation of a consistent registry preserves holds in every state. -/
theorem Runs.consistent {w : Sessions ι} (h : Runs casefold authenticate calls w)
    (hauth : AllSignIn casefold origin authenticate)
    {R : ServiceState ι → SessionTrace ι → Prop} (hinitial : R (.initial ι) [])
    (hstep : ∀ i op s r s' tr,
      Consistent (fun i => (calls i).connection) (phases tr) (Stopped tr) s → R s tr →
      (phases tr i).Permits (calls i).connection (calls i).Validates op →
      Registers casefold (origin (calls i).connection) (own i tr) op → Performs i s op r s' →
      R s' (tr ++ [(i, ⟨op, r⟩)])) :
    (Consistent (fun i => (calls i).connection) (phases w.shared.2) (Stopped w.shared.2) w.shared.1 ∧
      R w.shared.1 w.shared.2) ∧
      ∀ i, Obeys (sessionProtocol casefold (calls i).connection (calls i).Validates
        (origin (calls i).connection)) (fun _ m => Over m) (w.prog i) (own i w.shared.2) := by
  refine Pool.Reaches.protocol (M := eventLoop ι)
    (R := fun s tr =>
      Consistent (fun i => (calls i).connection) (phases tr) (Stopped tr) s ∧ R s tr)
    h (fun _ _ _ _ h => h) (fun _ _ _ _ h => h.elim) (fun _ _ _ _ _ h => h.possible) ?_ ?_ ?_
  · exact fun i => sessionCall_obeys casefold _ (calls i) (hauth _ _)
  · exact ⟨.initial, hinitial⟩
  · rintro i op s r s' tr ⟨hc, hr⟩ ⟨hpermits, hregisters⟩ hperf
    refine ⟨?_, hstep i op s r s' tr hc hr hpermits hregisters hperf⟩
    rw [phases_snoc]
    refine (hc.step hpermits hperf).weaken fun p hp => ?_
    rcases hp with ⟨j, site, r', hp⟩ | ⟨site, rfl⟩
    · exact ⟨j, site, r', List.mem_append_left _ hp⟩
    · exact ⟨i, site, r, List.mem_append_right _ List.mem_cons_self⟩

theorem Runs.registry {w : Sessions ι} (h : Runs casefold authenticate calls w)
    (hauth : AllSignIn casefold origin authenticate) :
    Consistent (fun i => (calls i).connection) (phases w.shared.2) (Stopped w.shared.2)
      w.shared.1 :=
  (h.consistent hauth (R := fun _ _ => True) trivial
    (fun _ _ _ _ _ _ _ _ _ _ _ => trivial)).1.1

theorem Runs.obeys {w : Sessions ι} (h : Runs casefold authenticate calls w)
    (hauth : AllSignIn casefold origin authenticate) (i : ι) :
    Obeys (sessionProtocol casefold (calls i).connection (calls i).Validates
      (origin (calls i).connection)) (fun _ m => Over m) (w.prog i) (own i w.shared.2) :=
  (h.consistent hauth (R := fun _ _ => True) trivial
    (fun _ _ _ _ _ _ _ _ _ _ _ => trivial)).2 i

/-- A step of a run is a permitted operation of one call. -/
theorem Runs.step_cases {v v' : Sessions ι} {label : Label ι}
    (h : Runs casefold authenticate calls v) (hauth : AllSignIn casefold origin authenticate)
    (hs : Pool.Step (eventLoop ι).traced v label v') :
    ∃ i op next r, v.prog i = .call op next ∧ v'.prog = Function.update v.prog i (next r) ∧
      v'.shared.2 = v.shared.2 ++ [(i, ⟨op, r⟩)] ∧ Performs i v.shared.1 op r v'.shared.1 ∧
      (phases v.shared.2 i).Permits (calls i).connection (calls i).Validates op ∧
      Registers casefold (origin (calls i).connection) (own i v.shared.2) op := by
  cases hs with
  | @run i op next r s hprog hperf =>
      have hobeys := h.obeys hauth i
      rw [hprog] at hobeys
      exact ⟨i, op, next, r, hprog, rfl, hperf.2, hperf.1, hobeys.1⟩
  | halt _ hhalt => exact hhalt.1.elim
  | drift hdrift => exact hdrift.1.elim

end

/-! ## Playing a run -/

/-- How an awaited operation ends in a schedule. -/
inductive Answer where
  | done
  | started (process : Process)
  | time (time : Int)
  | report (health : TenantPowerShellHealthCheck)
  | session (session : AuthenticatedTenantSession)
  | raises (e : PyError)
  deriving DecidableEq

/-- One operation with a scripted answer. -/
def ServiceState.perform (i : ι) (op : ProvisionerOp) (answer : Answer) (w : ServiceState ι) :
    Option (Except PyError op.Reply × ServiceState ι) :=
  match op, answer with
  | .lock c, .done =>
      if (w.locks c).isNone then
        some (.ok (), { w with locks := Function.update w.locks c (some i) })
      else none
  | .lock _, .raises .cancelled => some (.error .cancelled, w)
  | .unlock c, .done => some (.ok (), { w with locks := Function.update w.locks c none })
  | .getSession c, .done => some (.ok (w.sessions c), w)
  | .popSession c, .done =>
      some (.ok (w.sessions c), { w with sessions := Function.update w.sessions c none })
  | .setSession c session, .done =>
      some (.ok (), { w with sessions := Function.update w.sessions c (some session) })
  | .now, .time time => some (.ok time, w)
  | .acquireBrowser, .done =>
      if w.browser.isNone then some (.ok (), { w with browser := some i }) else none
  | .releaseBrowser, .done => some (.ok (), { w with browser := none })
  | .start, .started process =>
      if process ∈ w.processes then none
      else some (.ok process, { w with processes := process :: w.processes })
  | .authenticateGraph _ _, .done => some (.ok (), w)
  | .authenticateExchange _ _, .done => some (.ok (), w)
  | .healthCheck _ _, .report health => some (.ok health, w)
  | .healthCheck _ _, .raises e => some (.error e, w)
  | .stop _ _, .done => some (.ok (), w)
  | .authenticate _ _, .session session =>
      if session.process ∈ w.processes then none
      else some (.ok session, { w with processes := session.process :: w.processes })
  | _, _ => none

omit [DecidableEq ι] in
theorem ServiceState.performs {i : ι} {op : ProvisionerOp} {answer : Answer} {w w' : ServiceState ι}
    {r : Except PyError op.Reply} (h : w.perform i op answer = some (r, w')) :
    Performs i w op r w' := by
  unfold ServiceState.perform at h
  split at h
  · split at h
    · rename_i hfree
      cases h
      exact .locked (Option.isNone_iff_eq_none.mp hfree)
    · cases h
  · cases h
    exact .notLocked
  · cases h
    exact .unlock
  · cases h
    exact .getSession
  · cases h
    exact .popSession
  · cases h
    exact .setSession
  · cases h
    exact .now
  · split at h
    · rename_i hfree
      cases h
      exact .acquiredBrowser (Option.isNone_iff_eq_none.mp hfree)
    · cases h
  · cases h
    exact .releaseBrowser
  · split at h
    · cases h
    · rename_i hfresh
      cases h
      exact .started hfresh
  · cases h
    exact .authenticateGraph
  · cases h
    exact .authenticateExchange
  · cases h
    exact .healthCheck
  · cases h
    exact .healthCheck
  · cases h
    exact .stop
  · split at h
    · cases h
    · rename_i hfresh
      cases h
      exact .authenticated hfresh
  · cases h

def sessionPlayer (ι : Type) : Pool.Player (eventLoop ι) Answer Unit where
  perform i op answer w := w.perform i op answer
  drift _ _ := none
  performs := ServiceState.performs
  drifts h := by cases h

theorem plays (casefold : PyString → PyString)
    (authenticate : PyString → TenantCredentials → ProvisionerProgram AuthenticatedTenantSession)
    (calls : ι → SessionCall) (turns : List (Pool.Turn ι Answer Unit)) :
    Runs casefold authenticate calls
      ((sessionPlayer ι).traced.play (sessionSystem casefold authenticate calls) turns) :=
  (sessionPlayer ι).traced.reaches _ turns

def sampleRequest : TenantValidationRequest :=
  ⟨"job".toList, "connection".toList, ⟨"admin@contoso.com".toList, "secret".toList⟩⟩

/-- A report of the user and the tenant of the sample. -/
def sampleReport : TenantPowerShellHealthCheck :=
  ⟨true, true, some "tenant".toList, some "admin@contoso.com".toList⟩

/-- A sign-in up to the report that identifies the session: the lock is taken, and nothing found. -/
def signInTurns (i : ι) (process : Process) : List (Pool.Turn ι Answer Unit) :=
  [.run i .done, .run i .done, .run i (.started process), .run i .done, .run i .done, .run i .done,
    .run i .done, .run i (.report sampleReport)]

/-- A call of `validate` on a new registry whose last check reports `last`. -/
def validatedRun (last : TenantPowerShellHealthCheck) : Sessions Unit :=
  (sessionPlayer Unit).traced.play
    (sessionSystem id RealTenantValidationService.authenticate fun _ => .validate sampleRequest)
    (signInTurns () 0 ++ [.run () (.report sampleReport), .run () (.time 0), .run () .done,
      .run () .done, .run () (.report last)])

theorem validatedRun_trace (last : TenantPowerShellHealthCheck) : (validatedRun last).shared.2 =
    ([did (.lock sampleRequest.tenantConnectionId) (),
      did (.getSession sampleRequest.tenantConnectionId) none, did .start 0, did .acquireBrowser (),
      did (.authenticateGraph 0 sampleRequest.credentials) (),
      did (.authenticateExchange 0 sampleRequest.credentials) (), did .releaseBrowser (),
      did (.healthCheck .authenticate 0) sampleReport,
      did (.healthCheck .isCandidateHealthy 0) sampleReport, did .now 0,
      did (.setSession sampleRequest.tenantConnectionId
        ⟨⟨0, "tenant".toList, "admin@contoso.com".toList⟩, 0⟩) (),
      did (.unlock sampleRequest.tenantConnectionId) (),
      did (.healthCheck .validate 0) last].map fun e => ((), e)) := by
  rfl

end InboxSaas.Provisioner
