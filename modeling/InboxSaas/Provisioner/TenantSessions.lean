import InboxSaas.Reasoning.Traces
import InboxSaas.Provisioner.TransportEncryption

/-!
# Tenant sessions

`TenantSessionRegistry` keeps one PowerShell process for each tenant connection, and
`RealTenantValidationService` signs processes in and validates with them.  A method is a program
over what it awaits, the registry's dictionary and the clock.  A process is its identity; what it
answers, and when it raises, is up to it.  `str.casefold` is a parameter.
-/

namespace InboxSaas.Provisioner

open Reasoning

abbrev Process := Nat

/-- The exceptions, as far as the `except` clauses tell them apart. -/
inductive ExceptionClass where
  | invalidCredentials
  | authenticationChallenge
  | microsoftUnavailable
  | powerShellAuthentication
  | tenantSessionAuthentication
  | timeout
  | validation
  | other
  deriving DecidableEq, Repr

/-- What an `await` raises; `CancelledError` is not an `Exception`. -/
inductive PyError where
  | cancelled
  | exception (error : ExceptionClass)
  deriving DecidableEq, Repr

instance : Inhabited PyError := ⟨.cancelled⟩

structure TenantPowerShellHealthCheck where
  graphConnected : Bool
  exchangeConnected : Bool
  microsoftTenantId : Option PyString
  userPrincipalName : Option PyString
  deriving DecidableEq, Repr

structure AuthenticatedTenantSession where
  process : Process
  microsoftTenantId : PyString
  userPrincipalName : PyString
  deriving DecidableEq, Repr

/-- `_TenantSession`; a `datetime` is its microseconds. -/
structure TenantSession extends AuthenticatedTenantSession where
  lastUsedAt : Int
  deriving DecidableEq, Repr

def sessionIdleTtl : Int := 60 * 60 * 1000000

inductive FailureCode where
  | invalidCredentials
  | authenticationChallenge
  | microsoftUnavailable
  | unexpectedFailure
  deriving DecidableEq, Repr

inductive TenantValidationResult where
  | success (microsoftTenantId : PyString)
  | failure (code : FailureCode) (retryable : Bool)
  deriving DecidableEq, Repr

/-- The function that an `await` of `health_check` or `stop` stands in. -/
inductive Site where
  | isHealthy
  | isCandidateHealthy
  | disposeLocked
  | ensure
  | authenticate
  | validate
  deriving DecidableEq, Repr

inductive ProvisionerOp where
  | lock (tenantConnectionId : PyString)
  | unlock (tenantConnectionId : PyString)
  | getSession (tenantConnectionId : PyString)
  | popSession (tenantConnectionId : PyString)
  | setSession (tenantConnectionId : PyString) (session : TenantSession)
  | touch (tenantConnectionId : PyString) (process : Process) (lastUsedAt : Int)
  | now
  | acquireBrowser
  | releaseBrowser
  | start
  | authenticateGraph (process : Process) (credentials : TenantCredentials)
  | authenticateExchange (process : Process) (credentials : TenantCredentials)
  | healthCheck (site : Site) (process : Process)
  | stop (site : Site) (process : Process)
  /-- The function a registry is constructed with, where it is left open. -/
  | authenticate (tenantConnectionId : PyString) (credentials : TenantCredentials)
  deriving DecidableEq

@[reducible] def ProvisionerOp.Reply : ProvisionerOp → Type
  | .getSession _ => Option TenantSession
  | .popSession _ => Option TenantSession
  | .now => Int
  | .start => Process
  | .healthCheck _ _ => TenantPowerShellHealthCheck
  | .authenticate _ _ => AuthenticatedTenantSession
  | _ => Unit

abbrev ProvisionerProgram (α : Type) : Type :=
  Program ProvisionerOp ProvisionerOp.Reply PyError α

abbrev ProvisionerEvent : Type := Event ProvisionerOp ProvisionerOp.Reply PyError

def await (op : ProvisionerOp) : ProvisionerProgram op.Reply := Program.perform op

/-- `async with`: whatever ends the body, it is left before that goes on. -/
def asyncWith {α : Type} (enter exit : ProvisionerOp) (body : ProvisionerProgram α) :
    ProvisionerProgram α := do
  let _ ← await enter
  let result ← body.handle (fun e => do
    let _ ← await exit
    throw e)
  let _ ← await exit
  return result

/-- `asyncio.timeout`.  When the time is up, the operation awaited in the body is cancelled, and
leaving the body turns its `CancelledError` into a `TimeoutError`; no body here looks at the error in
between, so what is seen is an operation that raises `TimeoutError`. -/
def asyncioTimeout {α : Type} (body : ProvisionerProgram α) : ProvisionerProgram α := body

/-- `health_check` under `except Exception`. -/
def checkHealth (site : Site) (process : Process) :
    ProvisionerProgram (Option TenantPowerShellHealthCheck) :=
  (do
    let health ← await (.healthCheck site process)
    return some health).handle (fun e => match e with
      | .exception _ => return none
      | .cancelled => throw PyError.cancelled)

section

variable (casefold : PyString → PyString)

def normalizedEmail (credentials : TenantCredentials) : PyString :=
  casefold credentials.email

/-- `upn.casefold() if upn else None` -/
def normalizedUpn (upn : Option PyString) : Option PyString :=
  (upn.filter (fun text => text ≠ [])).map casefold

namespace TenantSessionRegistry

def isExpired (session : TenantSession) : ProvisionerProgram Bool := do
  let now ← await .now
  return sessionIdleTtl ≤ now - session.lastUsedAt

/-- What `_is_healthy` asks of the report of a retained session. -/
def healthy (session : TenantSession) (credentials : TenantCredentials)
    (health : TenantPowerShellHealthCheck) : Bool :=
  let expectedEmail := normalizedEmail casefold credentials
  let expectedUpn := normalizedUpn casefold (some session.userPrincipalName)
  let actualUpn := normalizedUpn casefold health.userPrincipalName
  health.graphConnected && health.exchangeConnected &&
    health.microsoftTenantId = some session.microsoftTenantId && actualUpn = expectedUpn &&
    expectedUpn = some expectedEmail

def isHealthy (session : TenantSession) (credentials : TenantCredentials) :
    ProvisionerProgram Bool := do
  match ← checkHealth .isHealthy session.process with
  | none => return false
  | some health => return healthy casefold session credentials health

/-- What `_is_candidate_healthy` asks of the report of a new session. -/
def candidateHealthy (candidate : AuthenticatedTenantSession)
    (health : TenantPowerShellHealthCheck) : Bool :=
  let expectedUpn := normalizedUpn casefold (some candidate.userPrincipalName)
  health.graphConnected && health.exchangeConnected &&
    health.microsoftTenantId = some candidate.microsoftTenantId &&
    normalizedUpn casefold health.userPrincipalName = expectedUpn

def isCandidateHealthy (candidate : AuthenticatedTenantSession)
    (credentials : TenantCredentials) : ProvisionerProgram Bool :=
  let expectedEmail := normalizedEmail casefold credentials
  let expectedUpn := normalizedUpn casefold (some candidate.userPrincipalName)
  if expectedUpn ≠ some expectedEmail then return false
  else do
    match ← checkHealth .isCandidateHealthy candidate.process with
    | none => return false
    | some health => return candidateHealthy casefold candidate health

/-- `_stop` -/
def stop (site : Site) (process : Process) : ProvisionerProgram Unit :=
  (await (.stop site process)).handle (fun e => match e with
    | .exception _ => return ()
    | .cancelled => throw PyError.cancelled)

def disposeLocked (tenantConnectionId : PyString) : ProvisionerProgram Unit := do
  match ← await (.popSession tenantConnectionId) with
  | none => return ()
  | some session => stop .disposeLocked session.process

/-- The retained process, if it may be used again. -/
def reuse (tenantConnectionId : PyString) (credentials : TenantCredentials) :
    Option TenantSession → ProvisionerProgram (Option Process)
  | none => return none
  | some session => do
      if ← isExpired session then return none
      else if ← isHealthy casefold session credentials then
        let now ← await .now
        await (.touch tenantConnectionId session.process now)
        return some session.process
      else return none

variable (authenticate : PyString → TenantCredentials →
  ProvisionerProgram AuthenticatedTenantSession)

/-- A new process, verified and registered. -/
def establish (tenantConnectionId : PyString) (credentials : TenantCredentials) :
    ProvisionerProgram Process := do
  let candidate ← authenticate tenantConnectionId credentials
  if !(← isCandidateHealthy casefold candidate credentials) then
    stop .ensure candidate.process
    throw (PyError.exception .tenantSessionAuthentication)
  else
    let now ← await .now
    await (.setSession tenantConnectionId ⟨candidate, now⟩)
    return candidate.process

/-- `ensure` inside the lock. -/
def ensureLocked (tenantConnectionId : PyString) (credentials : TenantCredentials) :
    ProvisionerProgram Process := do
  let session ← await (.getSession tenantConnectionId)
  match ← reuse casefold tenantConnectionId credentials session with
  | some process => return process
  | none => do
      if session.isSome then disposeLocked tenantConnectionId
      establish casefold authenticate tenantConnectionId credentials

/-- `_lock_for` makes the lock of a connection where there is none; it is the same lock ever
after. -/
def ensure (tenantConnectionId : PyString) (credentials : TenantCredentials) :
    ProvisionerProgram Process :=
  asyncWith (.lock tenantConnectionId) (.unlock tenantConnectionId)
    (ensureLocked casefold authenticate tenantConnectionId credentials)

def dispose (tenantConnectionId : PyString) : ProvisionerProgram Unit :=
  asyncWith (.lock tenantConnectionId) (.unlock tenantConnectionId)
    (disposeLocked tenantConnectionId)

end TenantSessionRegistry

namespace RealTenantValidationService

/-- The two sign-ins and the report that identifies the session. -/
def signIn (process : Process) (credentials : TenantCredentials) :
    ProvisionerProgram AuthenticatedTenantSession := do
  asyncWith .acquireBrowser .releaseBrowser (do
    await (.authenticateGraph process credentials)
    await (.authenticateExchange process credentials))
  let health ← await (.healthCheck .authenticate process)
  match health.microsoftTenantId, health.userPrincipalName with
  | some microsoftTenantId, some userPrincipalName =>
      return ⟨process, microsoftTenantId, userPrincipalName⟩
  | _, _ => throw (PyError.exception .tenantSessionAuthentication)

/-- `_authenticate`; the session is not set exactly if an error leaves the `try`. -/
def authenticate (_connectionId : PyString) (credentials : TenantCredentials) :
    ProvisionerProgram AuthenticatedTenantSession := do
  let process ← await .start
  (asyncioTimeout (signIn process credentials)).handle (fun e => do
    await (.stop .authenticate process)
    throw e)

/-- `TenantValidationSuccess(..)`, whose tenant id has a character at least. -/
def tenantValidationSuccess (microsoftTenantId : PyString) :
    ProvisionerProgram TenantValidationResult :=
  if microsoftTenantId = [] then throw (PyError.exception .validation)
  else return .success microsoftTenantId

/-- The `except` clauses of `validate`. -/
def failure : PyError → ProvisionerProgram TenantValidationResult
  | .exception .invalidCredentials => return .failure .invalidCredentials false
  | .exception .authenticationChallenge => return .failure .authenticationChallenge false
  | .exception .microsoftUnavailable
  | .exception .powerShellAuthentication
  | .exception .tenantSessionAuthentication => return .failure .microsoftUnavailable true
  | .exception _ => return .failure .microsoftUnavailable true
  | .cancelled => throw PyError.cancelled

def validate (authenticate : PyString → TenantCredentials →
    ProvisionerProgram AuthenticatedTenantSession) (request : TenantValidationRequest) :
    ProvisionerProgram TenantValidationResult :=
  (do
    let process ← TenantSessionRegistry.ensure casefold authenticate request.tenantConnectionId
      request.credentials
    let health ← await (.healthCheck .validate process)
    match health.microsoftTenantId with
    | none => throw (PyError.exception .tenantSessionAuthentication)
    | some microsoftTenantId => tenantValidationSuccess microsoftTenantId).handle failure

end RealTenantValidationService

/-! ## The event loop -/

inductive SessionCall where
  | ensure (tenantConnectionId : PyString) (credentials : TenantCredentials)
  | dispose (tenantConnectionId : PyString)
  | validate (request : TenantValidationRequest)
  deriving DecidableEq

inductive SessionOutcome where
  | process (process : Process)
  | disposed
  | validated (result : TenantValidationResult)
  deriving DecidableEq, Repr

def SessionCall.program (authenticate : PyString → TenantCredentials →
    ProvisionerProgram AuthenticatedTenantSession) : SessionCall →
    ProvisionerProgram SessionOutcome
  | .ensure tenantConnectionId credentials => do
      let process ← TenantSessionRegistry.ensure casefold authenticate tenantConnectionId credentials
      return .process process
  | .dispose tenantConnectionId => do
      TenantSessionRegistry.dispose tenantConnectionId
      return .disposed
  | .validate request => do
      let result ← RealTenantValidationService.validate casefold authenticate request
      return .validated result

end

/-- The state that the calls share.  A lock remembers who holds it, which `asyncio.Lock` does not. -/
structure ServiceState (ι : Type) where
  sessions : PyString → Option TenantSession
  locks : PyString → Option ι
  browser : Option ι
  /-- The processes that exist or did. -/
  processes : List Process

def ServiceState.initial (ι : Type) : ServiceState ι := ⟨fun _ => none, fun _ => none, none, []⟩

section

variable {ι : Type}

/-- One operation of call `i`.  Every awaited operation can raise `CancelledError`. -/
inductive Performs (i : ι) (w : ServiceState ι) :
    (op : ProvisionerOp) → Except PyError op.Reply → ServiceState ι → Prop where
  | locked {c : PyString} (h : w.locks c = none) :
      Performs i w (.lock c) (.ok ()) { w with locks := Function.update w.locks c (some i) }
  | notLocked {c : PyString} : Performs i w (.lock c) (.error .cancelled) w
  | unlock {c : PyString} :
      Performs i w (.unlock c) (.ok ()) { w with locks := Function.update w.locks c none }
  | getSession {c : PyString} : Performs i w (.getSession c) (.ok (w.sessions c)) w
  | popSession {c : PyString} :
      Performs i w (.popSession c) (.ok (w.sessions c))
        { w with sessions := Function.update w.sessions c none }
  | setSession {c : PyString} {session : TenantSession} :
      Performs i w (.setSession c session) (.ok ())
        { w with sessions := Function.update w.sessions c (some session) }
  | touch {c : PyString} {process : Process} {lastUsedAt : Int} :
      Performs i w (.touch c process lastUsedAt) (.ok ())
        { w with sessions := Function.update w.sessions c ((w.sessions c).map fun session =>
            if session.process = process then { session with lastUsedAt := lastUsedAt }
            else session) }
  | now {time : Int} : Performs i w .now (.ok time) w
  | acquiredBrowser (h : w.browser = none) :
      Performs i w .acquireBrowser (.ok ()) { w with browser := some i }
  | notAcquiredBrowser {e : PyError} (h : e = .cancelled ∨ e = .exception .timeout) :
      Performs i w .acquireBrowser (.error e) w
  | releaseBrowser : Performs i w .releaseBrowser (.ok ()) { w with browser := none }
  | started {process : Process} (h : process ∉ w.processes) :
      Performs i w .start (.ok process) { w with processes := process :: w.processes }
  | notStarted {e : PyError} : Performs i w .start (.error e) w
  | authenticateGraph {process : Process} {credentials : TenantCredentials}
      {r : Except PyError Unit} : Performs i w (.authenticateGraph process credentials) r w
  | authenticateExchange {process : Process} {credentials : TenantCredentials}
      {r : Except PyError Unit} : Performs i w (.authenticateExchange process credentials) r w
  | healthCheck {site : Site} {process : Process}
      {r : Except PyError TenantPowerShellHealthCheck} :
      Performs i w (.healthCheck site process) r w
  | stop {site : Site} {process : Process} {r : Except PyError Unit} :
      Performs i w (.stop site process) r w
  | authenticated {c : PyString} {credentials : TenantCredentials}
      {session : AuthenticatedTenantSession} (h : session.process ∉ w.processes) :
      Performs i w (.authenticate c credentials) (.ok session)
        { w with processes := session.process :: w.processes }
  | notAuthenticated {c : PyString} {credentials : TenantCredentials} {e : PyError} :
      Performs i w (.authenticate c credentials) (.error e) w

def eventLoop (ι : Type) :
    Machine ι (ServiceState ι) ProvisionerOp ProvisionerOp.Reply PyError where
  performs i op w r w' := Performs i w op r w'
  halts _ _ _ _ := False
  drifts _ _ := False

abbrev Sessions (ι : Type) : Type :=
  Pool ι (ServiceState ι × Trace ι ProvisionerOp ProvisionerOp.Reply PyError) ProvisionerOp
    ProvisionerOp.Reply PyError SessionOutcome

/-- Any number of calls on a new registry. -/
def sessionSystem (casefold : PyString → PyString)
    (authenticate : PyString → TenantCredentials → ProvisionerProgram AuthenticatedTenantSession)
    (calls : ι → SessionCall) : Sessions ι :=
  ⟨(.initial ι, []), fun i => (calls i).program casefold authenticate⟩

end

end InboxSaas.Provisioner
