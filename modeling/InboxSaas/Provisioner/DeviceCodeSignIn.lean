import InboxSaas.Provisioner.DeviceCode
import InboxSaas.Provisioner.PowerShell

/-!
# Signing in by device code

`_authenticate_with_device_code` runs a Microsoft command in the same `pwsh` as the health checks.
The command prints a device code, which a completer enters in a browser, then a marker that says
how it went, and last the marker that ends the call.  All three markers carry ids of their own.

The calls of one process are health checks and sign-ins in any number; of a health check only its
part in the pipes is here.
-/

namespace InboxSaas.Provisioner

/-! ## Markers -/

inductive MarkerKind where
  | complete
  | success
  | failure
  deriving DecidableEq, Repr

def MarkerKind.word : MarkerKind → PyString
  | .complete => "COMPLETE".toList
  | .success => "SUCCESS".toList
  | .failure => "FAILURE".toList

/-- `f"__INBOX_POWERSHELL_COMPLETE_{uuid4().hex}__"` and the like -/
def markerText (kind : MarkerKind) (hex : PyString) : PyString :=
  "__INBOX_POWERSHELL_".toList ++ kind.word ++ "_".toList ++ hex ++ "__".toList

/-! ## Calls -/

inductive CommandKind where
  | healthCheck
  | signIn
  deriving DecidableEq, Repr

/-- What ends a call early. -/
inductive SignInError where
  | powerShellProcessError (message : String)
  /-- `PowerShellAuthenticationError("Microsoft authentication did not complete")` -/
  | powerShellAuthenticationError
  /-- what the completer, or another `await`, raises -/
  | raised (error : PyError)
  deriving DecidableEq, Repr

/-- How far a call is. -/
inductive SignInPhase where
  | idle
  | waiting
  | draining
  | reading (deviceCodeSeen succeeded : Bool)
  /-- the completer has the code -/
  | completing (deviceCode : PyString) (succeeded : Bool)
  | ended (outcome : Except SignInError Unit)
  deriving DecidableEq

/-- The call holds the lock. -/
def SignInPhase.inside : SignInPhase → Bool
  | .draining => true
  | .reading _ _ => true
  | .completing _ _ => true
  | _ => false

structure SignInCall (ι : Type) where
  phase : SignInPhase
  /-- The lines the call has read, in order. -/
  read : List (PrintedLine ι)
  /-- The codes that the completer was given. -/
  deviceCodes : List PyString

/-- The process with its pipes, the command lock, and the calls. -/
structure SignInState (ι : Type) where
  calls : ι → SignInCall ι
  commandLock : Option ι
  /-- The calls that have held the lock, in order. -/
  entered : List ι
  /-- The commands that were written and have not finished; the first of them is running. -/
  stdin : List ι
  stdout : List (PrintedLine ι)
  /-- Whether the Microsoft command of a call succeeded, once that is known. -/
  connected : ι → Option Bool
  exited : Bool

/-- What the calls of a process are, the ids they draw, and `str.isalnum`. -/
structure SignInSetup (ι : Type) where
  kind : ι → CommandKind
  hex : MarkerKind → ι → PyString
  isalnum : Char → Bool

namespace SignInSetup

variable {ι : Type} (S : SignInSetup ι)

def marker (kind : MarkerKind) (i : ι) : PyString := markerText kind (S.hex kind i)

/-- What a call does about the text of a line. -/
def next (i : ι) (deviceCodeSeen succeeded : Bool) (text : PyString) : SignInPhase :=
  if text = S.marker .complete i then
    match S.kind i with
    | .healthCheck => .ended (.ok ())
    | .signIn =>
        if !deviceCodeSeen || !succeeded then .ended (.error .powerShellAuthenticationError)
        else .ended (.ok ())
  else
    match S.kind i with
    | .healthCheck => .reading deviceCodeSeen succeeded
    | .signIn =>
        if text = S.marker .success i then .reading deviceCodeSeen true
        else if text = S.marker .failure i then .reading deviceCodeSeen succeeded
        else if deviceCodeSeen then .reading deviceCodeSeen succeeded
        else
          match deviceCodeFrom S.isalnum text with
          | none => .reading deviceCodeSeen succeeded
          | some deviceCode => .completing deviceCode succeeded

/-- Ordinary output is no marker. -/
def Ordinary (line : PyString) : Prop := ∀ kind i, rstrip line ≠ S.marker kind i

end SignInSetup

namespace SignInState

variable {ι : Type} [DecidableEq ι]

def initial : SignInState ι where
  calls _ := ⟨.idle, [], []⟩
  commandLock := none
  entered := []
  stdin := []
  stdout := []
  connected _ := none
  exited := false

/-- The call that holds the lock goes on, or leaves it. -/
def move (s : SignInState ι) (i : ι) (c : SignInCall ι) (stdout : List (PrintedLine ι)) :
    SignInState ι :=
  { s with
    calls := Function.update s.calls i c
    commandLock := if c.phase.inside then some i else none
    stdout := stdout }

/-- A call without the lock waits for it, or ends. -/
def approach (s : SignInState ι) (i : ι) (phase : SignInPhase) : SignInState ι :=
  { s with calls := Function.update s.calls i { s.calls i with phase := phase } }

end SignInState

section

variable {ι : Type}

/-- The call with a line read. -/
def SignInCall.take (S : SignInSetup ι) (i : ι) (deviceCodeSeen succeeded : Bool)
    (printed : PrintedLine ι) (c : SignInCall ι) : SignInCall ι :=
  let phase := S.next i deviceCodeSeen succeeded printed.text
  { phase := phase
    read := c.read ++ [printed]
    deviceCodes :=
      match phase with
      | .completing deviceCode _ => c.deviceCodes ++ [deviceCode]
      | _ => c.deviceCodes }

variable [DecidableEq ι]

open SignInState in
/-- What can happen next.  The commands run in the order they were written.  `pwsh` prints what it
likes, but a marker only where the framed command writes it, and may end at any time. -/
inductive SignInStep (S : SignInSetup ι) : SignInState ι → SignInState ι → Prop where
  /-- `returncode` is still `None`, perhaps although the process has ended. -/
  | call {s : SignInState ι} {i : ι} (idle : (s.calls i).phase = .idle) :
      SignInStep S s (s.approach i .waiting)
  | refuse {s : SignInState ι} {i : ι} (idle : (s.calls i).phase = .idle)
      (exited : s.exited = true) :
      SignInStep S s
        (s.approach i (.ended (.error (.powerShellProcessError "PowerShell process is not running"))))
  /-- A call is cancelled while it waits for the lock. -/
  | giveUp {s : SignInState ι} {i : ι} (error : PyError) (waiting : (s.calls i).phase = .waiting) :
      SignInStep S s (s.approach i (.ended (.error (.raised error))))
  /-- The lock is acquired and the framed command written. -/
  | acquire {s : SignInState ι} {i : ι} (waiting : (s.calls i).phase = .waiting)
      (free : s.commandLock = none) :
      SignInStep S s
        { s.move i { s.calls i with phase := .draining } s.stdout with
          entered := s.entered ++ [i]
          stdin := s.stdin ++ [i] }
  | drain {s : SignInState ι} {i : ι} (draining : (s.calls i).phase = .draining) :
      SignInStep S s (s.move i { s.calls i with phase := .reading false false } s.stdout)
  | readline {s : SignInState ι} {i : ι} {deviceCodeSeen succeeded : Bool}
      {printed : PrintedLine ι} {rest : List (PrintedLine ι)}
      (reading : (s.calls i).phase = .reading deviceCodeSeen succeeded)
      (stdout : s.stdout = printed :: rest) :
      SignInStep S s (s.move i ((s.calls i).take S i deviceCodeSeen succeeded printed) rest)
  | completed {s : SignInState ι} {i : ι} {deviceCode : PyString} {succeeded : Bool}
      (completing : (s.calls i).phase = .completing deviceCode succeeded) :
      SignInStep S s (s.move i { s.calls i with phase := .reading true succeeded } s.stdout)
  | endOfFile {s : SignInState ι} {i : ι} {deviceCodeSeen succeeded : Bool}
      (reading : (s.calls i).phase = .reading deviceCodeSeen succeeded) (stdout : s.stdout = [])
      (exited : s.exited = true) :
      SignInStep S s (s.move i
        { s.calls i with phase := .ended (.error
            (.powerShellProcessError "PowerShell process ended before command completion")) }
        s.stdout)
  /-- A call times out, is cancelled, or its completer or another `await` of it raises. -/
  | abandon {s : SignInState ι} {i : ι} (error : SignInError)
      (inside : (s.calls i).phase.inside = true) (other : error ≠ .powerShellAuthenticationError) :
      SignInStep S s (s.move i { s.calls i with phase := .ended (.error error) } s.stdout)
  /-- A line is longer than the limit of the stream: it is dropped, but perhaps for its end. -/
  | overrun {s : SignInState ι} {i : ι} {deviceCodeSeen succeeded : Bool} (error : PyError)
      {printed : PrintedLine ι} {kept rest : List (PrintedLine ι)}
      (reading : (s.calls i).phase = .reading deviceCodeSeen succeeded)
      (stdout : s.stdout = printed :: rest)
      (dropped : kept = [] ∨ ∃ tail, S.Ordinary tail ∧ kept = [⟨tail, printed.command⟩]) :
      SignInStep S s (s.move i { s.calls i with phase := .ended (.error (.raised error)) }
        (kept ++ rest))
  | print {s : SignInState ι} {i : ι} (line : PyString) {later : List ι}
      (stdin : s.stdin = i :: later) (running : s.exited = false) (nonempty : line ≠ [])
      (ordinary : S.Ordinary line) :
      SignInStep S s { s with stdout := s.stdout ++ [⟨line, i⟩] }
  /-- The Microsoft command has returned, or it was caught. -/
  | connect {s : SignInState ι} {i : ι} (connected : Bool) {later : List ι}
      (stdin : s.stdin = i :: later) (running : s.exited = false) (signIn : S.kind i = .signIn)
      (unknown : s.connected i = none) :
      SignInStep S s
        { s with
          stdout := s.stdout ++
            [⟨S.marker (if connected then .success else .failure) i ++ ['\n'], i⟩]
          connected := Function.update s.connected i (some connected) }
  | complete {s : SignInState ι} {i : ι} {later : List ι} (stdin : s.stdin = i :: later)
      (running : s.exited = false) :
      SignInStep S s
        { s with
          stdout := s.stdout ++ [⟨S.marker .complete i ++ ['\n'], i⟩]
          stdin := later }
  | exit {s : SignInState ι} : SignInStep S s { s with exited := true }

/-- The states that some run of calls leads to. -/
def SignInReaches (S : SignInSetup ι) (s : SignInState ι) : Prop :=
  Relation.ReflTransGen (SignInStep S) SignInState.initial s

end

end InboxSaas.Provisioner
