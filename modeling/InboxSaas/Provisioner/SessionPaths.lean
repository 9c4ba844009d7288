import InboxSaas.Provisioner.TenantSessions

/-!
# The paths of one call

What each method of the registry and of the validation service awaits, with every reply, and how it
ends: one inductive predicate for each method, with a constructor for each way through it.
-/

namespace InboxSaas.Provisioner

open Reasoning Program

/-- The replies that the event loop gives: only an awaited operation raises. -/
def Possible : ProvisionerEvent → Prop
  | ⟨.lock _, r⟩ => r = .ok () ∨ r = .error .cancelled
  | ⟨.unlock _, r⟩ => r = .ok ()
  | ⟨.getSession _, r⟩ => ∃ session, r = .ok session
  | ⟨.popSession _, r⟩ => ∃ session, r = .ok session
  | ⟨.setSession _ _, r⟩ => r = .ok ()
  | ⟨.touch _ _ _, r⟩ => r = .ok ()
  | ⟨.now, r⟩ => ∃ time, r = .ok time
  | ⟨.acquireBrowser, r⟩ =>
      r = .ok () ∨ r = .error .cancelled ∨ r = .error (.exception .timeout)
  | ⟨.releaseBrowser, r⟩ => r = .ok ()
  | _ => True

theorem Performs.possible {ι : Type} {i : ι} {w w' : ServiceState ι} {op : ProvisionerOp}
    {r : Except PyError op.Reply} (h : Performs i w op r w') : Possible ⟨op, r⟩ := by
  cases h with
  | locked => exact .inl rfl
  | notLocked => exact .inr rfl
  | unlock => exact rfl
  | getSession => exact ⟨_, rfl⟩
  | popSession => exact ⟨_, rfl⟩
  | setSession => exact rfl
  | touch => exact rfl
  | now => exact ⟨_, rfl⟩
  | acquiredBrowser => exact .inl rfl
  | notAcquiredBrowser h =>
      rcases h with rfl | rfl
      · exact .inr (.inl rfl)
      · exact .inr (.inr rfl)
  | releaseBrowser => exact rfl
  | _ => exact trivial

/-- Every event of a list is possible. -/
def AllPossible (l : List ProvisionerEvent) : Prop := ∀ e ∈ l, Possible e

@[simp] theorem allPossible_cons {e : ProvisionerEvent} {l : List ProvisionerEvent} :
    AllPossible (e :: l) ↔ Possible e ∧ AllPossible l := List.forall_mem_cons

@[simp] theorem allPossible_append {l m : List ProvisionerEvent} :
    AllPossible (l ++ m) ↔ AllPossible l ∧ AllPossible m := List.forall_mem_append

@[simp] theorem allPossible_nil : AllPossible [] := fun _ h => by cases h

/-! ## Health checks and stops -/

/-- What is left of a health check under `except Exception`. -/
def checked : Except PyError TenantPowerShellHealthCheck →
    Except PyError (Option TenantPowerShellHealthCheck)
  | .ok health => .ok (some health)
  | .error (.exception _) => .ok none
  | .error .cancelled => .error .cancelled

/-- What is left of a stop under `except Exception`. -/
def quiet : Except PyError Unit → Except PyError Unit
  | .error (.exception _) => .ok ()
  | r => r

variable {l : List ProvisionerEvent}

theorem checkHealth_ends {site : Site} {process : Process}
    {o : Except PyError (Option TenantPowerShellHealthCheck)} :
    Ends (checkHealth site process) l o ↔
      ∃ r, l = [⟨.healthCheck site process, r⟩] ∧ o = checked r := by
  unfold checkHealth
  change Ends (.call _ _) l o ↔ _
  rw [ends_call]
  constructor
  · rintro ⟨r, rest, rfl, h⟩
    refine ⟨r, ?_⟩
    rcases r with (_ | _) | health
    · obtain ⟨rfl, ho⟩ := ends_raise.mp h
      exact ⟨rfl, ho⟩
    · obtain ⟨rfl, ho⟩ := ends_ret.mp h
      exact ⟨rfl, ho⟩
    · obtain ⟨rfl, ho⟩ := ends_ret.mp h
      exact ⟨rfl, ho⟩
  · rintro ⟨r, rfl, rfl⟩
    refine ⟨r, [], rfl, ?_⟩
    rcases r with (_ | _) | health <;> exact Path.nil _

theorem stop_ends {site : Site} {process : Process} {o : Except PyError Unit} :
    Ends (TenantSessionRegistry.stop site process) l o ↔
      ∃ r, l = [⟨.stop site process, r⟩] ∧ o = quiet r := by
  unfold TenantSessionRegistry.stop
  change Ends (.call _ _) l o ↔ _
  rw [ends_call]
  constructor
  · rintro ⟨r, rest, rfl, h⟩
    refine ⟨r, ?_⟩
    rcases r with (_ | _) | _
    · obtain ⟨rfl, ho⟩ := ends_raise.mp h
      exact ⟨rfl, ho⟩
    · obtain ⟨rfl, ho⟩ := ends_ret.mp h
      exact ⟨rfl, ho⟩
    · obtain ⟨rfl, ho⟩ := ends_ret.mp h
      exact ⟨rfl, ho⟩
  · rintro ⟨r, rfl, rfl⟩
    refine ⟨r, [], rfl, ?_⟩
    rcases r with (_ | _) | _ <;> exact Path.nil _

/-- An operation that returned. -/
abbrev did (op : ProvisionerOp) (r : op.Reply) : ProvisionerEvent := ⟨op, .ok r⟩

/-- An operation that raised. -/
abbrev raised (op : ProvisionerOp) (e : PyError) : ProvisionerEvent := ⟨op, .error e⟩

/-- The operations between which nothing else runs. -/
def ProvisionerOp.immediate : ProvisionerOp → Bool
  | .unlock _ | .getSession _ | .popSession _ | .setSession _ _ | .touch _ _ _ => true
  | .now | .releaseBrowser => true
  | _ => false

theorem not_possible_raised {op : ProvisionerOp} (hop : op.immediate = true) (e : PyError) :
    ¬ Possible (raised op e) := by
  intro h
  cases op with
  | unlock => cases h
  | getSession =>
      obtain ⟨_, h⟩ := h
      cases h
  | popSession =>
      obtain ⟨_, h⟩ := h
      cases h
  | setSession => cases h
  | touch => cases h
  | now =>
      obtain ⟨_, h⟩ := h
      cases h
  | releaseBrowser => cases h
  | _ => cases hop

/-- An immediate operation returns, and what follows goes on. -/
theorem ends_immediate {α : Type} {op : ProvisionerOp} (hop : op.immediate = true)
    {f : op.Reply → ProvisionerProgram α} {o : Except PyError α} (hl : AllPossible l)
    (h : Ends (await op >>= f) l o) :
    ∃ r rest, l = did op r :: rest ∧ AllPossible rest ∧ Ends (f r) rest o := by
  rcases ends_perform_bind.mp h with ⟨e, rfl, -⟩ | ⟨r, rest, rfl, hrest⟩
  · exact absurd (hl _ List.mem_cons_self) (not_possible_raised hop e)
  · exact ⟨r, rest, rfl, (allPossible_cons.mp hl).2, hrest⟩

/-- `async with`: if it is entered, it is left after the body. -/
theorem ends_of_asyncWith {α : Type} {enter exit : ProvisionerOp} {body : ProvisionerProgram α}
    {o : Except PyError α} (hexit : exit.immediate = true) (hl : AllPossible l)
    (h : Ends (asyncWith enter exit body) l o) :
    (∃ e, l = [raised enter e] ∧ o = .error e) ∨
      ∃ r m a, l = did enter r :: (m ++ [did exit a]) ∧ AllPossible m ∧ Ends body m o := by
  unfold asyncWith at h
  rcases ends_perform_bind.mp h with hraised | ⟨r, rest, rfl, hrest⟩
  · exact .inl hraised
  · right
    rw [allPossible_cons] at hl
    rcases ends_bind.mp hrest with ⟨l₁, l₂, a, rfl, h₁, h₂⟩ | ⟨e, rfl, h₁⟩
    · rw [allPossible_append] at hl
      obtain ⟨x, rest, rfl, -, hret⟩ := ends_immediate hexit hl.2.2 h₂
      obtain ⟨rfl, rfl⟩ := ends_ret.mp hret
      rcases ends_handle.mp h₁ with ⟨b, hb, hbody⟩ | ⟨m₁, m₂, e, rfl, -, hraise⟩
      · cases hb
        exact ⟨r, l₁, x, rfl, hl.2.1, hbody⟩
      · rw [allPossible_append] at hl
        obtain ⟨x, rest, -, -, hret⟩ := ends_immediate hexit hl.2.1.2 hraise
        cases (ends_raise.mp hret).2
    · rcases ends_handle.mp h₁ with ⟨b, hb, -⟩ | ⟨m₁, m₂, e', rfl, hbody, hraise⟩
      · cases hb
      · rw [allPossible_append] at hl
        obtain ⟨x, rest, rfl, -, hret⟩ := ends_immediate hexit hl.2.2 hraise
        obtain ⟨rfl, he⟩ := ends_raise.mp hret
        cases he
        exact ⟨r, m₁, x, rfl, hl.2.1, hbody⟩

theorem asyncWith_ends {α : Type} {enter exit : ProvisionerOp} {body : ProvisionerProgram α}
    {o : Except PyError α} {r : enter.Reply} {a : exit.Reply} (h : Ends body l o) :
    Ends (asyncWith enter exit body) (did enter r :: (l ++ [did exit a])) o := by
  unfold asyncWith await
  refine ends_perform_bind.mpr (.inr ⟨r, _, rfl, ?_⟩)
  rcases o with e | b
  · refine ends_bind.mpr (.inr ⟨e, rfl, ends_handle.mpr (.inr ⟨l, _, e, rfl, h, ?_⟩)⟩)
    exact ends_perform_bind.mpr (.inr ⟨a, [], rfl, Path.nil _⟩)
  · refine ends_bind.mpr (.inl ⟨l, _, b, rfl, ends_handle.mpr (.inl ⟨b, rfl, h⟩), ?_⟩)
    exact ends_perform_bind.mpr (.inr ⟨a, [], rfl, Path.nil _⟩)

/-! ## The registry -/

section

variable (casefold : PyString → PyString)

open TenantSessionRegistry

/-- What `reuse` does with a retained session. -/
inductive ReusePath (c : PyString) (credentials : TenantCredentials) (session : TenantSession) :
    List ProvisionerEvent → Except PyError (Option Process) → Prop where
  | expired {time : Int} (h : sessionIdleTtl ≤ time - session.lastUsedAt) :
      ReusePath c credentials session [did .now time] (.ok none)
  | interrupted {time : Int} (h : time - session.lastUsedAt < sessionIdleTtl) :
      ReusePath c credentials session
        [did .now time, raised (.healthCheck .isHealthy session.process) .cancelled]
        (.error .cancelled)
  | failed {time : Int} {error : ExceptionClass} (h : time - session.lastUsedAt < sessionIdleTtl) :
      ReusePath c credentials session
        [did .now time, raised (.healthCheck .isHealthy session.process) (.exception error)]
        (.ok none)
  | unhealthy {time : Int} {health : TenantPowerShellHealthCheck}
      (h : time - session.lastUsedAt < sessionIdleTtl)
      (hhealth : healthy casefold session credentials health = false) :
      ReusePath c credentials session
        [did .now time, did (.healthCheck .isHealthy session.process) health] (.ok none)
  | reused {time touched : Int} {health : TenantPowerShellHealthCheck}
      (h : time - session.lastUsedAt < sessionIdleTtl)
      (hhealth : healthy casefold session credentials health = true) :
      ReusePath c credentials session
        [did .now time, did (.healthCheck .isHealthy session.process) health,
          did .now touched, did (.touch c session.process touched) ()] (.ok (some session.process))

theorem isExpired_ends {session : TenantSession} {o : Except PyError Bool} (hl : AllPossible l) :
    Ends (isExpired session) l o ↔ ∃ time, l = [did .now time] ∧
      o = .ok (decide (sessionIdleTtl ≤ time - session.lastUsedAt)) := by
  unfold isExpired await
  rw [ends_perform_bind]
  constructor
  · rintro (⟨e, rfl, -⟩ | ⟨time, rest, rfl, hret⟩)
    · obtain ⟨_, ht⟩ := hl _ List.mem_cons_self
      cases ht
    · obtain ⟨rfl, ho⟩ := ends_ret.mp hret
      exact ⟨time, rfl, ho⟩
  · rintro ⟨time, rfl, ho⟩
    exact .inr ⟨time, [], rfl, ends_ret.mpr ⟨rfl, ho⟩⟩

/-- A check whose report is asked something. -/
theorem asked_ends {site : Site} {process : Process} {ask : TenantPowerShellHealthCheck → Bool}
    {o : Except PyError Bool} :
    Ends (checkHealth site process >>= fun health => match health with
      | none => .ret false
      | some health => .ret (ask health)) l o ↔
      ∃ r, l = [⟨.healthCheck site process, r⟩] ∧ o = (checked r).map (Option.any ask) := by
  rw [ends_bind]
  simp only [checkHealth_ends]
  constructor
  · rintro (⟨l₁, l₂, health, rfl, ⟨r, rfl, hr⟩, hret⟩ | ⟨e, rfl, r, rfl, hr⟩)
    · refine ⟨r, ?_⟩
      rw [← hr]
      cases health with
      | none =>
          obtain ⟨rfl, ho⟩ := ends_ret.mp hret
          exact ⟨rfl, ho⟩
      | some health =>
          obtain ⟨rfl, ho⟩ := ends_ret.mp hret
          exact ⟨rfl, ho⟩
    · exact ⟨r, rfl, by rw [← hr]; rfl⟩
  · rintro ⟨r, rfl, rfl⟩
    rcases hr : checked r with e | health
    · exact .inr ⟨e, rfl, r, rfl, hr.symm⟩
    · refine .inl ⟨_, [], health, rfl, ⟨r, rfl, hr.symm⟩, ?_⟩
      cases health <;> exact Path.nil _

theorem isHealthy_ends {session : TenantSession} {credentials : TenantCredentials}
    {o : Except PyError Bool} :
    Ends (isHealthy casefold session credentials) l o ↔
      ∃ r, l = [⟨.healthCheck .isHealthy session.process, r⟩] ∧
        o = (checked r).map (Option.any (healthy casefold session credentials)) :=
  asked_ends

theorem reuse_path {c : PyString} {credentials : TenantCredentials} {session : TenantSession}
    {o : Except PyError (Option Process)} (hl : AllPossible l)
    (h : Ends (reuse casefold c credentials (some session)) l o) :
    ReusePath casefold c credentials session l o := by
  change Ends (isExpired session >>= fun expired => if expired = true then .ret none else
    isHealthy casefold session credentials >>= fun healthy => if healthy = true then
      await .now >>= fun now => await (.touch c session.process now) >>= fun _ =>
        .ret (some session.process) else .ret none) l o at h
  rcases ends_bind.mp h with ⟨l₁, l₂, expired, rfl, hexpired, hrest⟩ | ⟨e, -, hexpired⟩
  · rw [allPossible_append] at hl
    obtain ⟨time, rfl, he⟩ := (isExpired_ends hl.1).mp hexpired
    cases he
    split at hrest
    · rename_i hold
      obtain ⟨rfl, rfl⟩ := ends_ret.mp hrest
      exact .expired (of_decide_eq_true hold)
    · rename_i hold
      have hfresh : time - session.lastUsedAt < sessionIdleTtl := by
        rw [decide_eq_true_iff, Int.not_le] at hold
        exact hold
      rcases ends_bind.mp hrest with ⟨l₁, l₂, ok, rfl, hok, hlast⟩ | ⟨e, rfl, hok⟩
      · obtain ⟨r, rfl, hr⟩ := (isHealthy_ends casefold).mp hok
        rcases r with (_ | error) | health
        · cases hr
        · cases hr
          obtain ⟨rfl, rfl⟩ := ends_ret.mp hlast
          exact .failed hfresh
        · cases hr
          split at hlast
          · rename_i hhealth
            rw [allPossible_append] at hl
            obtain ⟨touched, rest, rfl, hpossible, htouch⟩ := ends_immediate rfl hl.2.2 hlast
            obtain ⟨_, rest, rfl, -, hret⟩ := ends_immediate rfl hpossible htouch
            obtain ⟨rfl, rfl⟩ := ends_ret.mp hret
            exact .reused hfresh hhealth
          · rename_i hhealth
            obtain ⟨rfl, rfl⟩ := ends_ret.mp hlast
            exact .unhealthy hfresh (Bool.eq_false_iff.mpr hhealth)
      · obtain ⟨r, rfl, hr⟩ := (isHealthy_ends casefold).mp hok
        rcases r with (_ | error) | health
        · cases hr
          exact .interrupted hfresh
        · cases hr
        · cases hr
  · obtain ⟨time, -, he⟩ := (isExpired_ends hl).mp hexpired
    cases he

theorem ReusePath.ends {c : PyString} {credentials : TenantCredentials} {session : TenantSession}
    {o : Except PyError (Option Process)} (h : ReusePath casefold c credentials session l o) :
    Ends (reuse casefold c credentials (some session)) l o := by
  change Ends (isExpired session >>= fun expired => if expired = true then .ret none else
    isHealthy casefold session credentials >>= fun healthy => if healthy = true then
      await .now >>= fun now => await (.touch c session.process now) >>= fun _ =>
        .ret (some session.process) else .ret none) l o
  -- the session is fresh, and the check of its process answers
  have hcheck : ∀ {time : Int} {r : Except PyError TenantPowerShellHealthCheck}
      {rest : List ProvisionerEvent} {b : Bool},
      time - session.lastUsedAt < sessionIdleTtl →
      (checked r).map (Option.any (healthy casefold session credentials)) = .ok b →
      Ends (if b = true then
        await .now >>= fun now => await (.touch c session.process now) >>= fun _ =>
          .ret (some session.process) else .ret none) rest o →
      Ends (isExpired session >>= fun expired => if expired = true then .ret none else
        isHealthy casefold session credentials >>= fun healthy => if healthy = true then
          await .now >>= fun now => await (.touch c session.process now) >>= fun _ =>
            .ret (some session.process) else .ret none)
        (did .now time :: ⟨.healthCheck .isHealthy session.process, r⟩ :: rest) o := by
    intro time r rest b hfresh hr hrest
    refine ends_bind.mpr (.inl ⟨[_], _, _, rfl, Path.cons (Path.nil _), ?_⟩)
    rw [if_neg (by simpa using hfresh)]
    exact ends_bind.mpr (.inl ⟨[_], rest, b, rfl,
      (isHealthy_ends casefold).mpr ⟨r, rfl, hr.symm⟩, hrest⟩)
  cases h with
  | expired hold =>
      refine ends_bind.mpr (.inl ⟨[_], [], _, rfl, Path.cons (Path.nil _), ?_⟩)
      rw [if_pos (decide_eq_true hold)]
      exact Path.nil _
  | interrupted hfresh =>
      refine ends_bind.mpr (.inl ⟨[_], _, _, rfl, Path.cons (Path.nil _), ?_⟩)
      rw [if_neg (by simpa using hfresh)]
      exact ends_bind.mpr (.inr ⟨_, rfl, (isHealthy_ends casefold).mpr ⟨_, rfl, rfl⟩⟩)
  | failed hfresh => exact hcheck (b := false) hfresh rfl (Path.nil _)
  | unhealthy hfresh hhealth =>
      exact hcheck (b := false) hfresh (congrArg Except.ok hhealth) (Path.nil _)
  | reused hfresh hhealth =>
      exact hcheck (b := true) hfresh (congrArg Except.ok hhealth)
        (Path.cons (Path.cons (Path.nil _)))

/-- What `disposeLocked` does. -/
inductive DisposePath (c : PyString) : List ProvisionerEvent → Except PyError Unit → Prop where
  | empty : DisposePath c [did (.popSession c) none] (.ok ())
  | stopped {session : TenantSession} {r : Except PyError Unit} :
      DisposePath c
        [did (.popSession c) (some session), ⟨.stop .disposeLocked session.process, r⟩] (quiet r)

theorem disposeLocked_path {c : PyString} {o : Except PyError Unit} (hl : AllPossible l)
    (h : Ends (disposeLocked c) l o) : DisposePath c l o := by
  unfold disposeLocked at h
  obtain ⟨session, rest, rfl, -, hrest⟩ := ends_immediate rfl hl h
  cases session with
  | none =>
      obtain ⟨rfl, rfl⟩ := ends_ret.mp hrest
      exact .empty
  | some session =>
      obtain ⟨r, rfl, rfl⟩ := stop_ends.mp hrest
      exact .stopped

theorem DisposePath.ends {c : PyString} {o : Except PyError Unit} (h : DisposePath c l o) :
    Ends (disposeLocked c) l o := by
  unfold disposeLocked
  cases h with
  | empty => exact ends_perform_bind.mpr (.inr ⟨none, [], rfl, Path.nil _⟩)
  | stopped => exact ends_perform_bind.mpr (.inr ⟨some _, _, rfl, stop_ends.mpr ⟨_, rfl, rfl⟩⟩)

/-- How `ensure` raises when it rejects a candidate. -/
def rejection (r : Except PyError Unit) : Except PyError Process :=
  match quiet r with
  | .ok _ => .error (.exception .tenantSessionAuthentication)
  | .error e => .error e

variable (authenticate : PyString → TenantCredentials →
  ProvisionerProgram AuthenticatedTenantSession)

/-- The candidate is signed in as the user of the credentials. -/
abbrev SameUser (credentials : TenantCredentials) (candidate : AuthenticatedTenantSession) : Prop :=
  normalizedUpn casefold (some candidate.userPrincipalName) =
    some (normalizedEmail casefold credentials)

/-- What `establish` does. -/
inductive EstablishPath (c : PyString) (credentials : TenantCredentials) :
    List ProvisionerEvent → Except PyError Process → Prop where
  | notAuthenticated {l : List ProvisionerEvent} {e : PyError}
      (h : Ends (authenticate c credentials) l (.error e)) :
      EstablishPath c credentials l (.error e)
  | otherUser {l : List ProvisionerEvent} {candidate : AuthenticatedTenantSession}
      {r : Except PyError Unit} (h : Ends (authenticate c credentials) l (.ok candidate))
      (huser : ¬ SameUser casefold credentials candidate) :
      EstablishPath c credentials (l ++ [⟨.stop .ensure candidate.process, r⟩]) (rejection r)
  | interrupted {l : List ProvisionerEvent} {candidate : AuthenticatedTenantSession}
      (h : Ends (authenticate c credentials) l (.ok candidate))
      (huser : SameUser casefold credentials candidate) :
      EstablishPath c credentials
        (l ++ [raised (.healthCheck .isCandidateHealthy candidate.process) .cancelled])
        (.error .cancelled)
  | failed {l : List ProvisionerEvent} {candidate : AuthenticatedTenantSession}
      {error : ExceptionClass} {r : Except PyError Unit}
      (h : Ends (authenticate c credentials) l (.ok candidate))
      (huser : SameUser casefold credentials candidate) :
      EstablishPath c credentials
        (l ++ [raised (.healthCheck .isCandidateHealthy candidate.process) (.exception error),
          ⟨.stop .ensure candidate.process, r⟩]) (rejection r)
  | unhealthy {l : List ProvisionerEvent} {candidate : AuthenticatedTenantSession}
      {health : TenantPowerShellHealthCheck} {r : Except PyError Unit}
      (h : Ends (authenticate c credentials) l (.ok candidate))
      (huser : SameUser casefold credentials candidate)
      (hhealth : candidateHealthy casefold candidate health = false) :
      EstablishPath c credentials
        (l ++ [did (.healthCheck .isCandidateHealthy candidate.process) health,
          ⟨.stop .ensure candidate.process, r⟩]) (rejection r)
  | registered {l : List ProvisionerEvent} {candidate : AuthenticatedTenantSession}
      {health : TenantPowerShellHealthCheck} {time : Int}
      (h : Ends (authenticate c credentials) l (.ok candidate))
      (huser : SameUser casefold credentials candidate)
      (hhealth : candidateHealthy casefold candidate health = true) :
      EstablishPath c credentials
        (l ++ [did (.healthCheck .isCandidateHealthy candidate.process) health,
          did .now time, did (.setSession c ⟨candidate, time⟩) ()]) (.ok candidate.process)

theorem isCandidateHealthy_ends {candidate : AuthenticatedTenantSession}
    {credentials : TenantCredentials} {o : Except PyError Bool} :
    Ends (isCandidateHealthy casefold candidate credentials) l o ↔
      (¬ SameUser casefold credentials candidate ∧ l = [] ∧ o = .ok false) ∨
      (SameUser casefold credentials candidate ∧
        ∃ r, l = [⟨.healthCheck .isCandidateHealthy candidate.process, r⟩] ∧
          o = (checked r).map (Option.any (candidateHealthy casefold candidate))) := by
  unfold isCandidateHealthy
  dsimp only
  by_cases huser : SameUser casefold credentials candidate
  · rw [if_neg (not_not.mpr huser)]
    constructor
    · exact fun h => .inr ⟨huser, asked_ends.mp h⟩
    · exact fun h => asked_ends.mpr (h.resolve_left fun hother => hother.1 huser).2
  · rw [if_pos huser]
    constructor
    · exact fun h => .inl ⟨huser, ends_ret.mp h⟩
    · exact fun h => ends_ret.mpr (h.resolve_right fun hsame => huser hsame.1).2

theorem establish_path {c : PyString} {credentials : TenantCredentials}
    {o : Except PyError Process} (hl : AllPossible l)
    (h : Ends (establish casefold authenticate c credentials) l o) :
    EstablishPath casefold authenticate c credentials l o := by
  change Ends (authenticate c credentials >>= fun candidate =>
    isCandidateHealthy casefold candidate credentials >>= fun healthy =>
      if (!healthy) = true then
        TenantSessionRegistry.stop .ensure candidate.process >>= fun _ =>
          .raise (.exception .tenantSessionAuthentication)
      else await .now >>= fun now => await (.setSession c ⟨candidate, now⟩) >>= fun _ =>
        .ret candidate.process) l o at h
  -- what follows a candidate that is rejected
  have hreject : ∀ {candidate : AuthenticatedTenantSession} {m : List ProvisionerEvent},
      Ends (TenantSessionRegistry.stop .ensure candidate.process >>= fun _ =>
        (.raise (.exception .tenantSessionAuthentication) : ProvisionerProgram Process)) m o →
      ∃ r, m = [⟨.stop .ensure candidate.process, r⟩] ∧ o = rejection r := by
    intro candidate m hm
    rcases ends_bind.mp hm with ⟨m₁, m₂, _, rfl, hstop, hraise⟩ | ⟨e, rfl, hstop⟩
    · obtain ⟨r, rfl, hr⟩ := stop_ends.mp hstop
      obtain ⟨rfl, rfl⟩ := ends_raise.mp hraise
      exact ⟨r, rfl, by rw [rejection, ← hr]⟩
    · obtain ⟨r, rfl, hr⟩ := stop_ends.mp hstop
      exact ⟨r, rfl, by rw [rejection, ← hr]⟩
  rcases ends_bind.mp h with ⟨l₁, l₂, candidate, rfl, hauth, hrest⟩ | ⟨e, rfl, hauth⟩
  · rw [allPossible_append] at hl
    rcases ends_bind.mp hrest with ⟨m₁, m₂, answer, rfl, hcheck, hlast⟩ | ⟨e, rfl, hcheck⟩
    · rw [allPossible_append] at hl
      rcases (isCandidateHealthy_ends casefold).mp hcheck with ⟨huser, rfl, ha⟩ | ⟨huser, x, rfl, ha⟩
      · cases ha
        obtain ⟨r, rfl, rfl⟩ := hreject hlast
        exact .otherUser hauth huser
      · rcases x with (_ | error) | health
        · cases ha
        · cases ha
          obtain ⟨r, rfl, rfl⟩ := hreject hlast
          exact .failed hauth huser
        · cases ha
          cases hhealth : candidateHealthy casefold candidate health with
          | false =>
              rw [Option.any_some, hhealth] at hlast
              obtain ⟨r, rfl, rfl⟩ := hreject hlast
              exact .unhealthy hauth huser hhealth
          | true =>
              rw [Option.any_some, hhealth] at hlast
              obtain ⟨time, rest, rfl, hpossible, hset⟩ := ends_immediate rfl hl.2.2 hlast
              obtain ⟨_, rest, rfl, -, hret⟩ := ends_immediate rfl hpossible hset
              obtain ⟨rfl, rfl⟩ := ends_ret.mp hret
              exact .registered hauth huser hhealth
    · rcases (isCandidateHealthy_ends casefold).mp hcheck with ⟨-, -, ha⟩ | ⟨huser, x, rfl, ha⟩
      · cases ha
      · rcases x with (_ | error) | health
        · cases ha
          exact .interrupted hauth huser
        · cases ha
        · cases ha
  · exact .notAuthenticated hauth

theorem EstablishPath.ends {c : PyString} {credentials : TenantCredentials}
    {o : Except PyError Process} (h : EstablishPath casefold authenticate c credentials l o) :
    Ends (establish casefold authenticate c credentials) l o := by
  change Ends (authenticate c credentials >>= fun candidate =>
    isCandidateHealthy casefold candidate credentials >>= fun healthy =>
      if (!healthy) = true then
        TenantSessionRegistry.stop .ensure candidate.process >>= fun _ =>
          .raise (.exception .tenantSessionAuthentication)
      else await .now >>= fun now => await (.setSession c ⟨candidate, now⟩) >>= fun _ =>
        .ret candidate.process) l o
  -- a candidate that is rejected is stopped; what stopping raises is dropped unless it cancels
  have hreject : ∀ (candidate : AuthenticatedTenantSession) (r : Except PyError Unit),
      Ends (TenantSessionRegistry.stop .ensure candidate.process >>= fun _ =>
        (.raise (.exception .tenantSessionAuthentication) : ProvisionerProgram Process))
        [⟨.stop .ensure candidate.process, r⟩] (rejection r) := by
    intro candidate r
    rw [rejection]
    rcases hr : quiet r with e | _
    · exact ends_bind.mpr (.inr ⟨e, rfl, stop_ends.mpr ⟨r, rfl, hr.symm⟩⟩)
    · exact ends_bind.mpr (.inl ⟨_, [], (), rfl, stop_ends.mpr ⟨r, rfl, hr.symm⟩, Path.nil _⟩)
  have hcheck : ∀ {candidate : AuthenticatedTenantSession} {m rest : List ProvisionerEvent}
      {b : Bool}, Ends (isCandidateHealthy casefold candidate credentials) m (.ok b) →
      Ends (if (!b) = true then
        TenantSessionRegistry.stop .ensure candidate.process >>= fun _ =>
          .raise (.exception .tenantSessionAuthentication)
      else await .now >>= fun now => await (.setSession c ⟨candidate, now⟩) >>= fun _ =>
        .ret candidate.process) rest o →
      Ends (isCandidateHealthy casefold candidate credentials >>= fun healthy =>
        if (!healthy) = true then
          TenantSessionRegistry.stop .ensure candidate.process >>= fun _ =>
            .raise (.exception .tenantSessionAuthentication)
        else await .now >>= fun now => await (.setSession c ⟨candidate, now⟩) >>= fun _ =>
          .ret candidate.process) (m ++ rest) o :=
    fun hm hrest => ends_bind.mpr (.inl ⟨_, _, _, rfl, hm, hrest⟩)
  cases h with
  | notAuthenticated hauth => exact ends_bind.mpr (.inr ⟨_, rfl, hauth⟩)
  | otherUser hauth huser =>
      refine ends_bind.mpr (.inl ⟨_, _, _, rfl, hauth, ?_⟩)
      exact hcheck (m := []) ((isCandidateHealthy_ends casefold).mpr (.inl ⟨huser, rfl, rfl⟩))
        (hreject _ _)
  | interrupted hauth huser =>
      refine ends_bind.mpr (.inl ⟨_, _, _, rfl, hauth, ends_bind.mpr (.inr ⟨_, rfl, ?_⟩)⟩)
      exact (isCandidateHealthy_ends casefold).mpr (.inr ⟨huser, _, rfl, rfl⟩)
  | failed hauth huser =>
      refine ends_bind.mpr (.inl ⟨_, _, _, rfl, hauth, ?_⟩)
      exact hcheck (m := [_])
        ((isCandidateHealthy_ends casefold).mpr (.inr ⟨huser, _, rfl, rfl⟩)) (hreject _ _)
  | unhealthy hauth huser hhealth =>
      refine ends_bind.mpr (.inl ⟨_, _, _, rfl, hauth, ?_⟩)
      refine hcheck (m := [_]) (b := false)
        ((isCandidateHealthy_ends casefold).mpr (.inr ⟨huser, _, rfl, ?_⟩)) (hreject _ _)
      exact (congrArg Except.ok hhealth).symm
  | registered hauth huser hhealth =>
      refine ends_bind.mpr (.inl ⟨_, _, _, rfl, hauth, ?_⟩)
      refine hcheck (m := [_]) (b := true)
        ((isCandidateHealthy_ends casefold).mpr (.inr ⟨huser, _, rfl, ?_⟩))
        (Path.cons (Path.cons (Path.nil _)))
      exact (congrArg Except.ok hhealth).symm

/-- What `ensure` does inside the lock. -/
inductive LockedPath (c : PyString) (credentials : TenantCredentials) :
    List ProvisionerEvent → Except PyError Process → Prop where
  | interrupted {session : TenantSession} {l : List ProvisionerEvent} {e : PyError}
      (h : ReusePath casefold c credentials session l (.error e)) :
      LockedPath c credentials (did (.getSession c) (some session) :: l) (.error e)
  | reused {session : TenantSession} {l : List ProvisionerEvent} {process : Process}
      (h : ReusePath casefold c credentials session l (.ok (some process))) :
      LockedPath c credentials (did (.getSession c) (some session) :: l) (.ok process)
  | new {l : List ProvisionerEvent} {o : Except PyError Process}
      (h : EstablishPath casefold authenticate c credentials l o) :
      LockedPath c credentials (did (.getSession c) none :: l) o
  | notReplaced {session : TenantSession} {l m : List ProvisionerEvent} {e : PyError}
      (h : ReusePath casefold c credentials session l (.ok none))
      (hdispose : DisposePath c m (.error e)) :
      LockedPath c credentials (did (.getSession c) (some session) :: (l ++ m)) (.error e)
  | replaced {session : TenantSession} {l m n : List ProvisionerEvent} {o : Except PyError Process}
      (h : ReusePath casefold c credentials session l (.ok none))
      (hdispose : DisposePath c m (.ok ()))
      (hnew : EstablishPath casefold authenticate c credentials n o) :
      LockedPath c credentials (did (.getSession c) (some session) :: (l ++ (m ++ n))) o

theorem ensureLocked_path {c : PyString} {credentials : TenantCredentials}
    {o : Except PyError Process} (hl : AllPossible l)
    (h : Ends (ensureLocked casefold authenticate c credentials) l o) :
    LockedPath casefold authenticate c credentials l o := by
  unfold ensureLocked at h
  obtain ⟨session, rest, rfl, hrest, h'⟩ := ends_immediate rfl hl h
  cases session with
  | none => exact .new (establish_path casefold authenticate hrest h')
  | some session =>
      rcases ends_bind.mp h' with ⟨l₁, l₂, retained, rfl, hreuse, hlast⟩ | ⟨e, rfl, hreuse⟩
      · rw [allPossible_append] at hrest
        have hpath := reuse_path casefold hrest.1 hreuse
        cases retained with
        | some process =>
            obtain ⟨rfl, rfl⟩ := ends_ret.mp hlast
            rw [List.append_nil]
            exact .reused hpath
        | none =>
            change Ends (disposeLocked c >>= fun _ =>
              establish casefold authenticate c credentials) _ _ at hlast
            rcases ends_bind.mp hlast with ⟨m₁, m₂, _, rfl, hdispose, hnew⟩ | ⟨e, rfl, hdispose⟩
            · rw [allPossible_append] at hrest
              exact .replaced hpath (disposeLocked_path hrest.2.1 hdispose)
                (establish_path casefold authenticate hrest.2.2 hnew)
            · exact .notReplaced hpath (disposeLocked_path hrest.2 hdispose)
      · exact .interrupted (reuse_path casefold hrest hreuse)

theorem LockedPath.ends {c : PyString} {credentials : TenantCredentials}
    {o : Except PyError Process} (h : LockedPath casefold authenticate c credentials l o) :
    Ends (ensureLocked casefold authenticate c credentials) l o := by
  unfold ensureLocked
  cases h with
  | interrupted h =>
      refine ends_perform_bind.mpr (.inr ⟨some _, _, rfl, ?_⟩)
      exact ends_bind.mpr (.inr ⟨_, rfl, h.ends⟩)
  | reused h =>
      refine ends_perform_bind.mpr (.inr ⟨some _, _, rfl, ?_⟩)
      exact ends_bind.mpr (.inl ⟨_, [], _, (List.append_nil _).symm, h.ends, Path.nil _⟩)
  | new h => exact ends_perform_bind.mpr (.inr ⟨none, _, rfl, h.ends⟩)
  | notReplaced h hdispose =>
      refine ends_perform_bind.mpr (.inr ⟨some _, _, rfl, ?_⟩)
      refine ends_bind.mpr (.inl ⟨_, _, _, rfl, h.ends, ?_⟩)
      exact ends_bind.mpr (.inr ⟨_, rfl, hdispose.ends⟩)
  | replaced h hdispose hnew =>
      refine ends_perform_bind.mpr (.inr ⟨some _, _, rfl, ?_⟩)
      refine ends_bind.mpr (.inl ⟨_, _, _, rfl, h.ends, ?_⟩)
      exact ends_bind.mpr (.inl ⟨_, _, (), rfl, hdispose.ends, hnew.ends⟩)

/-- A call that waits for the lock of its connection is cancelled there, or enters. -/
theorem ensure_path {c : PyString} {credentials : TenantCredentials}
    {o : Except PyError Process} (hl : AllPossible l)
    (h : Ends (ensure casefold authenticate c credentials) l o) :
    (l = [raised (.lock c) .cancelled] ∧ o = .error .cancelled) ∨
      ∃ m, l = did (.lock c) () :: (m ++ [did (.unlock c) ()]) ∧
        LockedPath casefold authenticate c credentials m o := by
  rcases ends_of_asyncWith rfl hl h with ⟨e, rfl, rfl⟩ | ⟨_, m, _, rfl, hm, hbody⟩
  · left
    rcases hl _ List.mem_cons_self with he | he
    · cases he
    · cases he
      exact ⟨rfl, rfl⟩
  · exact .inr ⟨m, rfl, ensureLocked_path casefold authenticate hm hbody⟩

/-! ## The service -/

open RealTenantValidationService

/-- What signing a started process in does. -/
inductive SignInPath (process : Process) (credentials : TenantCredentials) :
    List ProvisionerEvent → Except PyError AuthenticatedTenantSession → Prop where
  | noBrowser {e : PyError} (h : e = .cancelled ∨ e = .exception .timeout) :
      SignInPath process credentials [raised .acquireBrowser e] (.error e)
  | noGraph {e : PyError} :
      SignInPath process credentials
        [did .acquireBrowser (), raised (.authenticateGraph process credentials) e,
          did .releaseBrowser ()] (.error e)
  | noExchange {e : PyError} :
      SignInPath process credentials
        [did .acquireBrowser (), did (.authenticateGraph process credentials) (),
          raised (.authenticateExchange process credentials) e, did .releaseBrowser ()] (.error e)
  | noReport {e : PyError} :
      SignInPath process credentials
        [did .acquireBrowser (), did (.authenticateGraph process credentials) (),
          did (.authenticateExchange process credentials) (), did .releaseBrowser (),
          raised (.healthCheck .authenticate process) e] (.error e)
  | unidentified {health : TenantPowerShellHealthCheck}
      (h : health.microsoftTenantId = none ∨ health.userPrincipalName = none) :
      SignInPath process credentials
        [did .acquireBrowser (), did (.authenticateGraph process credentials) (),
          did (.authenticateExchange process credentials) (), did .releaseBrowser (),
          did (.healthCheck .authenticate process) health]
        (.error (.exception .tenantSessionAuthentication))
  | signedIn {health : TenantPowerShellHealthCheck} {microsoftTenantId userPrincipalName : PyString}
      (htenant : health.microsoftTenantId = some microsoftTenantId)
      (hupn : health.userPrincipalName = some userPrincipalName) :
      SignInPath process credentials
        [did .acquireBrowser (), did (.authenticateGraph process credentials) (),
          did (.authenticateExchange process credentials) (), did .releaseBrowser (),
          did (.healthCheck .authenticate process) health]
        (.ok ⟨process, microsoftTenantId, userPrincipalName⟩)

theorem signIn_path {process : Process} {credentials : TenantCredentials}
    {o : Except PyError AuthenticatedTenantSession} (hl : AllPossible l)
    (h : Ends (signIn process credentials) l o) : SignInPath process credentials l o := by
  -- the two sign-ins, with the browser
  have hbrowser : ∀ {m : List ProvisionerEvent} {x : Except PyError Unit}, AllPossible m →
      Ends (asyncWith .acquireBrowser .releaseBrowser (await (.authenticateGraph process credentials) >>=
        fun _ => await (.authenticateExchange process credentials))) m x →
      (∃ e, x = .error e ∧ SignInPath process credentials m (.error e)) ∨
        x = .ok () ∧ m = [did .acquireBrowser (), did (.authenticateGraph process credentials) (),
          did (.authenticateExchange process credentials) (), did .releaseBrowser ()] := by
    intro m x hm hsign
    rcases ends_of_asyncWith rfl hm hsign with ⟨e, rfl, rfl⟩ | ⟨_, n, _, rfl, -, hbody⟩
    · refine .inl ⟨e, rfl, .noBrowser ?_⟩
      rcases hm _ List.mem_cons_self with he | he | he
      · cases he
      · exact .inl (Except.error.inj he)
      · exact .inr (Except.error.inj he)
    · rcases ends_perform_bind.mp hbody with ⟨e, rfl, rfl⟩ | ⟨_, rest, rfl, hexchange⟩
      · exact .inl ⟨e, rfl, .noGraph⟩
      · cases ends_perform.mp hexchange
        rcases x with e | _
        · exact .inl ⟨e, rfl, .noExchange⟩
        · exact .inr ⟨rfl, rfl⟩
  unfold signIn at h
  rcases ends_bind.mp h with ⟨l₁, l₂, _, rfl, hsign, hrest⟩ | ⟨e, rfl, hsign⟩
  · rw [allPossible_append] at hl
    rcases hbrowser hl.1 hsign with ⟨e, he, -⟩ | ⟨-, rfl⟩
    · cases he
    · rcases ends_perform_bind.mp hrest with ⟨e, rfl, rfl⟩ | ⟨health, rest, rfl, hlast⟩
      · exact .noReport
      · rcases htenant : health.microsoftTenantId with _ | microsoftTenantId
        · simp only [htenant] at hlast
          obtain ⟨rfl, rfl⟩ := ends_raise.mp hlast
          exact .unidentified (.inl htenant)
        · rcases hupn : health.userPrincipalName with _ | userPrincipalName
          · simp only [htenant, hupn] at hlast
            obtain ⟨rfl, rfl⟩ := ends_raise.mp hlast
            exact .unidentified (.inr hupn)
          · simp only [htenant, hupn] at hlast
            obtain ⟨rfl, rfl⟩ := ends_ret.mp hlast
            exact .signedIn htenant hupn
  · rcases hbrowser hl hsign with ⟨e', he, hpath⟩ | ⟨he, -⟩
    · cases he
      exact hpath
    · cases he

theorem SignInPath.ends {process : Process} {credentials : TenantCredentials}
    {o : Except PyError AuthenticatedTenantSession} (h : SignInPath process credentials l o) :
    Ends (signIn process credentials) l o := by
  -- the browser let both sign-ins through
  have hbrowser : ∀ {identify : ProvisionerProgram AuthenticatedTenantSession}
      {rest : List ProvisionerEvent}, Ends identify rest o →
      Ends (asyncWith .acquireBrowser .releaseBrowser (do
          await (.authenticateGraph process credentials)
          await (.authenticateExchange process credentials)) >>= fun _ => identify)
        (did .acquireBrowser () :: did (.authenticateGraph process credentials) () ::
          did (.authenticateExchange process credentials) () :: did .releaseBrowser () :: rest) o := by
    intro identify rest hrest
    refine ends_bind.mpr (.inl ⟨[_, _, _, _], rest, (), rfl, ?_, hrest⟩)
    exact Path.cons (Path.cons (Path.cons (Path.cons (Path.nil _))))
  cases h with
  | noBrowser => exact Path.cons (Path.nil _)
  | noGraph => exact Path.cons (Path.cons (Path.cons (Path.nil _)))
  | noExchange => exact Path.cons (Path.cons (Path.cons (Path.cons (Path.nil _))))
  | noReport =>
      apply hbrowser
      exact ends_perform_bind.mpr (.inl ⟨_, rfl, rfl⟩)
  | @unidentified health h =>
      apply hbrowser
      refine ends_perform_bind.mpr (.inr ⟨health, [], rfl, ?_⟩)
      rcases htenant : health.microsoftTenantId with _ | microsoftTenantId
      · exact Path.nil _
      · rw [htenant] at h
        rw [h.resolve_left (Option.some_ne_none _)]
        exact Path.nil _
  | @signedIn health _ _ htenant hupn =>
      apply hbrowser
      refine ends_perform_bind.mpr (.inr ⟨health, [], rfl, ?_⟩)
      rw [htenant, hupn]
      exact Path.nil _

/-- What `_authenticate` does: a process that is not signed in is stopped, and the error of the stop
takes the place of the error it was stopped for. -/
inductive AuthenticatePath (credentials : TenantCredentials) :
    List ProvisionerEvent → Except PyError AuthenticatedTenantSession → Prop where
  | notStarted {e : PyError} : AuthenticatePath credentials [raised .start e] (.error e)
  | authenticated {process : Process} {l : List ProvisionerEvent}
      {session : AuthenticatedTenantSession} (h : SignInPath process credentials l (.ok session)) :
      AuthenticatePath credentials (did .start process :: l) (.ok session)
  | stopped {process : Process} {l : List ProvisionerEvent} {e : PyError}
      (h : SignInPath process credentials l (.error e)) :
      AuthenticatePath credentials
        (did .start process :: (l ++ [did (.stop .authenticate process) ()])) (.error e)
  | notStopped {process : Process} {l : List ProvisionerEvent} {e error : PyError}
      (h : SignInPath process credentials l (.error e)) :
      AuthenticatePath credentials
        (did .start process :: (l ++ [raised (.stop .authenticate process) error])) (.error error)

theorem authenticate_path {c : PyString} {credentials : TenantCredentials}
    {o : Except PyError AuthenticatedTenantSession} (hl : AllPossible l)
    (h : Ends (RealTenantValidationService.authenticate c credentials) l o) :
    AuthenticatePath credentials l o := by
  rcases ends_perform_bind.mp h with ⟨e, rfl, rfl⟩ | ⟨process, rest, rfl, hrest⟩
  · exact .notStarted
  · rw [allPossible_cons] at hl
    rcases ends_handle.mp hrest with ⟨session, rfl, hsign⟩ | ⟨l₁, l₂, e, rfl, hsign, hstop⟩
    · exact .authenticated (signIn_path hl.2 hsign)
    · rw [allPossible_append] at hl
      have hpath := signIn_path hl.2.1 hsign
      rcases ends_perform_bind.mp hstop with ⟨error, rfl, rfl⟩ | ⟨_, rest, rfl, hraise⟩
      · exact .notStopped hpath
      · obtain ⟨rfl, rfl⟩ := ends_raise.mp hraise
        exact .stopped hpath

theorem AuthenticatePath.ends {c : PyString} {credentials : TenantCredentials}
    {o : Except PyError AuthenticatedTenantSession} (h : AuthenticatePath credentials l o) :
    Ends (RealTenantValidationService.authenticate c credentials) l o := by
  unfold RealTenantValidationService.authenticate
  cases h with
  | notStarted => exact ends_perform_bind.mpr (.inl ⟨_, rfl, rfl⟩)
  | authenticated h =>
      refine ends_perform_bind.mpr (.inr ⟨_, _, rfl, ?_⟩)
      exact ends_handle.mpr (.inl ⟨_, rfl, h.ends⟩)
  | stopped h =>
      refine ends_perform_bind.mpr (.inr ⟨_, _, rfl, ends_handle.mpr (.inr ?_)⟩)
      exact ⟨_, _, _, rfl, h.ends, ends_perform_bind.mpr (.inr ⟨(), [], rfl, Path.nil _⟩)⟩
  | notStopped h =>
      refine ends_perform_bind.mpr (.inr ⟨_, _, rfl, ends_handle.mpr (.inr ?_)⟩)
      exact ⟨_, _, _, rfl, h.ends, ends_perform_bind.mpr (.inl ⟨_, rfl, rfl⟩)⟩

/-- The answer of `validate` to an error. -/
def answered : PyError → Except PyError TenantValidationResult
  | .exception .invalidCredentials => .ok (.failure .invalidCredentials false)
  | .exception .authenticationChallenge => .ok (.failure .authenticationChallenge false)
  | .exception _ => .ok (.failure .microsoftUnavailable true)
  | .cancelled => .error .cancelled

/-- What `validate` makes of its report, before the `except` clauses. -/
def verdict (health : TenantPowerShellHealthCheck) : Except PyError TenantValidationResult :=
  match health.microsoftTenantId with
  | none => .error (.exception .tenantSessionAuthentication)
  | some microsoftTenantId =>
      if microsoftTenantId = [] then .error (.exception .validation)
      else .ok (.success microsoftTenantId)

/-- The answer of `validate` to its own health check. -/
def reported : Except PyError TenantPowerShellHealthCheck → Except PyError TenantValidationResult
  | .error e => answered e
  | .ok health =>
      match verdict health with
      | .ok result => .ok result
      | .error e => answered e

theorem failure_ends {e : PyError} {o : Except PyError TenantValidationResult} :
    Ends (failure e) l o ↔ l = [] ∧ o = answered e := by
  rcases e with _ | error
  · exact ends_raise
  · cases error <;> exact ends_ret

theorem verdict_ends {health : TenantPowerShellHealthCheck}
    {o : Except PyError TenantValidationResult} :
    Ends (match health.microsoftTenantId with
      | none => .raise (.exception .tenantSessionAuthentication)
      | some microsoftTenantId => tenantValidationSuccess microsoftTenantId) l o ↔
      l = [] ∧ o = verdict health := by
  unfold verdict tenantValidationSuccess
  cases health.microsoftTenantId with
  | none => exact ends_raise
  | some microsoftTenantId =>
      dsimp only
      split
      · exact ends_raise
      · exact ends_ret

theorem reported_ok (health : TenantPowerShellHealthCheck) :
    reported (.ok health) = match verdict health with
      | .ok result => .ok result
      | .error e => answered e := rfl

theorem validate_ends {request : TenantValidationRequest}
    {o : Except PyError TenantValidationResult} :
    Ends (validate casefold authenticate request) l o ↔
      (∃ e, Ends (ensure casefold authenticate request.tenantConnectionId request.credentials) l
          (.error e) ∧ o = answered e) ∨
        ∃ m process r, l = m ++ [⟨.healthCheck .validate process, r⟩] ∧
          Ends (ensure casefold authenticate request.tenantConnectionId request.credentials) m
            (.ok process) ∧ o = reported r := by
  unfold validate
  constructor
  · intro h
    -- an exception is answered as a failure, whether `ensure` raised it or the last check
    rcases ends_handle.mp h with ⟨result, rfl, hbody⟩ | ⟨l₁, l₂, e, rfl, hbody, hfailure⟩
    · rcases ends_bind.mp hbody with ⟨m, n, process, rfl, hensure, hrest⟩ | ⟨e, he, -⟩
      · rcases ends_perform_bind.mp hrest with ⟨e, -, he⟩ | ⟨health, rest, rfl, hlast⟩
        · cases he
        · obtain ⟨rfl, hv⟩ := verdict_ends.mp hlast
          exact .inr ⟨m, process, .ok health, rfl, hensure, by rw [reported_ok, ← hv]⟩
      · cases he
    · obtain ⟨rfl, rfl⟩ := failure_ends.mp hfailure
      rw [List.append_nil]
      rcases ends_bind.mp hbody with ⟨m, n, process, rfl, hensure, hrest⟩ | ⟨e', he, hensure⟩
      · right
        rcases ends_perform_bind.mp hrest with ⟨e', rfl, he⟩ | ⟨health, rest, rfl, hlast⟩
        · cases he
          exact ⟨m, process, .error e, rfl, hensure, rfl⟩
        · obtain ⟨rfl, hv⟩ := verdict_ends.mp hlast
          exact ⟨m, process, .ok health, rfl, hensure, by rw [reported_ok, ← hv]⟩
      · cases he
        exact .inl ⟨e, hensure, rfl⟩
  · rintro (⟨e, hensure, rfl⟩ | ⟨m, process, r, rfl, hensure, rfl⟩)
    · refine ends_handle.mpr (.inr ⟨l, [], e, (List.append_nil l).symm, ?_,
        failure_ends.mpr ⟨rfl, rfl⟩⟩)
      exact ends_bind.mpr (.inr ⟨e, rfl, hensure⟩)
    · rcases r with e | health
      · refine ends_handle.mpr (.inr ⟨_, [], e, (List.append_nil _).symm, ?_,
          failure_ends.mpr ⟨rfl, rfl⟩⟩)
        exact ends_bind.mpr (.inl ⟨m, _, process, rfl, hensure,
          ends_perform_bind.mpr (.inl ⟨e, rfl, rfl⟩)⟩)
      · have hbody : ∀ x, x = verdict health →
            Ends (ensure casefold authenticate request.tenantConnectionId request.credentials >>=
              fun process => await (.healthCheck .validate process) >>= fun health =>
                match health.microsoftTenantId with
                | none => .raise (.exception .tenantSessionAuthentication)
                | some microsoftTenantId => tenantValidationSuccess microsoftTenantId)
              (m ++ [did (.healthCheck .validate process) health]) x := fun x hx =>
          ends_bind.mpr (.inl ⟨m, _, process, rfl, hensure,
            ends_perform_bind.mpr (.inr ⟨health, [], rfl, verdict_ends.mpr ⟨rfl, hx⟩⟩)⟩)
        rw [reported_ok]
        rcases hv : verdict health with e | result
        · exact ends_handle.mpr (.inr ⟨_, [], e, (List.append_nil _).symm, hbody _ hv.symm,
            failure_ends.mpr ⟨rfl, rfl⟩⟩)
        · exact ends_handle.mpr (.inl ⟨result, rfl, hbody _ hv.symm⟩)

end

end InboxSaas.Provisioner
