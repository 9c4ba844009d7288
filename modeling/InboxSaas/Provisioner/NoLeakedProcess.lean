import Mathlib.Data.List.Induction
import InboxSaas.Provisioner.SessionRuns

/-!
# No leaked process

Every process that was started is stopped, registered, or in the hand of one call.  A call that ends
has nothing in its hand, except a call that is cancelled while it awaits the first health check of a
new process: `ensure` neither registers nor stops that one (`cancelled_check_leaks`).
-/

namespace InboxSaas.Provisioner

open Reasoning Program

variable {ι : Type} [DecidableEq ι]

/-- Only the check of a candidate says that it is checked. -/
theorem Phase.next_checked {phase : Phase} {e : ProvisionerEvent} {process : Process}
    {report : Except PyError TenantPowerShellHealthCheck}
    (h : (phase.next e).hand = .checked process report) :
    e = ⟨.healthCheck .isCandidateHealthy process, report⟩ ∨
      phase.hand = .checked process report := by
  unfold Phase.next at h
  split at h
  · exact .inr h
  · exact .inr h
  · exact .inr h
  · exact .inr h
  · cases h
  · cases h
  · exact .inr h
  · cases h
  · cases h
  · cases h
    exact .inl rfl
  · cases h
  · exact .inr h

theorem checked_mem {process : Process} {report : Except PyError TenantPowerShellHealthCheck}
    {l : List ProvisionerEvent} (h : (phase l).hand = .checked process report) :
    ⟨.healthCheck .isCandidateHealthy process, report⟩ ∈ l := by
  induction l using List.reverseRecOn with
  | nil => cases h
  | append_singleton l e ih =>
      rw [phase_snoc] at h
      rcases Phase.next_checked h with rfl | h
      · exact List.mem_append_right l List.mem_cons_self
      · exact List.mem_append_left _ (ih h)

omit [DecidableEq ι] in
theorem Performs.processes_subset {i : ι} {s s' : ServiceState ι} {op : ProvisionerOp}
    {r : Except PyError op.Reply} (h : Performs i s op r s') {process : Process}
    (hp : process ∈ s.processes) : process ∈ s'.processes := by
  cases h with
  | started => exact List.mem_cons_of_mem _ hp
  | authenticated => exact List.mem_cons_of_mem _ hp
  | _ => exact hp

/-- No call is in progress: each is over or has not begun. -/
def Idle (w : Sessions ι) : Prop :=
  ∀ i, own i w.shared.2 = [] ∨ ∃ o, w.prog i = ofExcept o

/-- Exactly one connection has the process registered. -/
def RegisteredOnce (s : ServiceState ι) (process : Process) : Prop :=
  ∃! c, ∃ session : TenantSession, s.sessions c = some session ∧ session.process = process

/-- The process was started, and is stopped or registered once. -/
def Kept (w : Sessions ι) (process : Process) : Prop :=
  Stopped w.shared.2 process ∨ RegisteredOnce w.shared.1 process

section

variable {casefold : PyString → PyString} {calls : ι → SessionCall} {w : Sessions ι}

/-- Every started process is stopped, registered once, or in the hand of one call. -/
theorem started_somewhere
    (h : Runs casefold RealTenantValidationService.authenticate calls w) {i : ι}
    {process : Process} (hstart : (i, did .start process) ∈ w.shared.2) :
    Kept w process ∨ ∃ j, (phases w.shared.2 j).hand.process = some process := by
  obtain ⟨⟨hconsistent, hprocesses⟩, -⟩ := h.consistent
    (R := fun s tr => ∀ i process, (i, did .start process) ∈ tr → process ∈ s.processes)
    (fun c last => authenticate_signsIn casefold c last) (fun _ _ h => by cases h) (by
      intro i op s r s' tr _ hr _ _ hperf j p hp
      rcases List.mem_append.mp hp with hp | hp
      · exact hperf.processes_subset (hr j p hp)
      · cases List.mem_singleton.mp hp
        cases hperf with
        | started => exact List.mem_cons_self)
  rcases hconsistent.custody.kept process (hprocesses i process hstart) with hstopped | ⟨a, ha⟩
  · exact .inl (.inl hstopped)
  · cases a with
    | call j => exact .inr ⟨j, ha⟩
    | connection c =>
        obtain ⟨session, hsession, hp⟩ := Option.map_eq_some_iff.mp ha
        refine .inl (.inr ⟨c, ⟨session, hsession, hp⟩, ?_⟩)
        rintro d ⟨other, hother, hq⟩
        have hd : place (phases w.shared.2) w.shared.1 (.connection d) = some process :=
          Option.map_eq_some_iff.mpr ⟨other, hother, hq⟩
        exact Owner.connection.inj (hconsistent.custody.unique _ _ _ hd ha)

/-- If no call is cancelled while it awaits the health check of a fresh candidate, then whenever no
call is in progress, every process that was started is stopped or registered for one connection. -/
theorem no_leaked_process (h : Runs casefold RealTenantValidationService.authenticate calls w)
    (hchecks : ∀ i process,
      (i, raised (.healthCheck .isCandidateHealthy process) .cancelled) ∉ w.shared.2)
    (hidle : Idle w) {i : ι} {process : Process} (hstart : (i, did .start process) ∈ w.shared.2) :
    Kept w process := by
  rcases started_somewhere h hstart with hkept | ⟨j, hj⟩
  · exact hkept
  · exfalso
    have hobeys := h.obeys fun c last => authenticate_signsIn casefold c last
    rcases hidle j with hnew | ⟨o, ho⟩
    · rw [phases, hnew] at hj
      cases hj
    · -- the hand of a call that is over
      have hover := hobeys j
      rw [ho] at hover
      have hsettled : Settled (phase (own j w.shared.2)).hand := hover.post.2
      have hhand : (phase (own j w.shared.2)).hand.process = some process := hj
      cases hcase : (phase (own j w.shared.2)).hand with
      | empty =>
          rw [hcase] at hhand
          cases hhand
      | checked p report =>
          rw [hcase] at hsettled
          rcases report with (_ | _) | _
          · exact hchecks j p (mem_own.mp (checked_mem hcase))
          · exact hsettled
          · exact hsettled
      | fresh p =>
          rw [hcase] at hsettled
          exact hsettled
      | removed p =>
          rw [hcase] at hsettled
          exact hsettled

end

/-- The call is cancelled while it awaits the first check of the new process. -/
def leakedRun : Sessions Unit :=
  (sessionPlayer Unit).traced.play
    (sessionSystem id RealTenantValidationService.authenticate fun _ => .validate sampleRequest)
    (signInTurns () 0 ++ [.run () (.raises .cancelled), .run () .done])

theorem leakedRun_trace : leakedRun.shared.2 = ([did (.lock sampleRequest.tenantConnectionId) (),
    did (.getSession sampleRequest.tenantConnectionId) none, did .start 0, did .acquireBrowser (),
    did (.authenticateGraph 0 sampleRequest.credentials) (),
    did (.authenticateExchange 0 sampleRequest.credentials) (), did .releaseBrowser (),
    did (.healthCheck .authenticate 0) sampleReport,
    raised (.healthCheck .isCandidateHealthy 0) .cancelled,
    did (.unlock sampleRequest.tenantConnectionId) ()].map fun e => ((), e)) := by
  rfl

theorem leakedRun_over : leakedRun.prog () = .raise .cancelled := by
  rfl

theorem leakedRun_sessions (c : PyString) : leakedRun.shared.1.sessions c = none := by
  rfl

/-- A cancelled check leaks the process: it is neither stopped nor registered. -/
theorem cancelled_check_leaks :
    ∃ w : Sessions Unit,
      Runs id RealTenantValidationService.authenticate (fun _ => .validate sampleRequest) w ∧
        Idle w ∧ ((), did .start 0) ∈ w.shared.2 ∧ ¬ Kept w 0 := by
  refine ⟨leakedRun, plays _ _ _ _, fun _ => .inr ⟨.error .cancelled, leakedRun_over⟩, ?_, ?_⟩
  · rw [leakedRun_trace]
    simp
  · rintro (⟨i, site, r, hstop⟩ | ⟨c, ⟨session, hsession, -⟩, -⟩)
    · rw [leakedRun_trace] at hstop
      simp at hstop
    · rw [leakedRun_sessions] at hsession
      cases hsession

theorem no_leaked_process_validated : Kept (validatedRun sampleReport) 0 := by
  refine no_leaked_process (plays _ _ _ _) (fun i process hmem => ?_)
    (fun _ => .inr ⟨.ok (.validated (.success "tenant".toList)), rfl⟩) (i := ()) ?_
  · change _ ∈ (validatedRun sampleReport).shared.2 at hmem
    rw [validatedRun_trace] at hmem
    simp at hmem
  · change _ ∈ (validatedRun sampleReport).shared.2
    rw [validatedRun_trace]
    simp

end InboxSaas.Provisioner
