import Mathlib.Data.List.DropRight
import InboxSaas.Encoding.Json
import InboxSaas.Provisioner.TenantSessions

/-!
# The PowerShell process

`SubprocessTenantPowerShellProcess` runs its commands in one `pwsh`: a call of `health_check` takes
the command lock, writes a command followed by its own marker, and reads lines until the marker
comes.  A call that times out or is cancelled releases the lock and leaves the rest of its output in
the pipe, where the next call finds it.

Each step of a call goes from one `await` to the next.  A line is what `readline` returns, decoded;
`json.loads` and the ids that `uuid4` draws are parameters.
-/

namespace InboxSaas.Provisioner

open Encoding (Json)

/-! ## Text -/

/-- `str.rstrip("\r\n")` -/
def rstrip (line : PyString) : PyString :=
  line.rdropWhile (fun c => c == '\r' || c == '\n')

def completeMarker (hex : PyString) : PyString :=
  "__INBOX_POWERSHELL_COMPLETE_".toList ++ hex ++ "__".toList

/-- What `json.loads` raises: `JSONDecodeError`, or something that is not caught. -/
inductive JsonError where
  | jsonDecodeError
  | other
  deriving DecidableEq, Repr

abbrev JsonLoads : Type := PyString → Except JsonError Json

/-- What ends a call early. -/
inductive CallError where
  | powerShellProcessError (message : String)
  | cancelled
  | other
  deriving DecidableEq, Repr

/-- The lines from the last one back. -/
def lastObject (loads : JsonLoads) : List PyString → Except CallError Json
  | [] => .error (.powerShellProcessError "PowerShell health check returned no result")
  | line :: earlier =>
      match loads line with
      | .error .jsonDecodeError => lastObject loads earlier
      | .error .other => .error .other
      | .ok (.object fields) => .ok (.object fields)
      | .ok _ => lastObject loads earlier

/-- `_parse_health_check` -/
def parseHealthCheck (loads : JsonLoads) (output : List PyString) : Except CallError Json :=
  lastObject loads output.reverse

/-- `_optional_string`; an unpaired surrogate is shown as U+FFFD. -/
def optionalString : Option Json → Option PyString
  | some (.string value) => if value ≠ [] then some (Encoding.chars value) else none
  | _ => none

/-- `value is True` -/
def isTrue : Option Json → Bool
  | some (.bool value) => value
  | _ => false

/-- `result.get(name)` -/
def getItem (result : Json) (name : String) : Option Json := result.field (Encoding.units name)

def healthCheckResult (result : Json) : TenantPowerShellHealthCheck where
  graphConnected := isTrue (getItem result "graphConnected")
  exchangeConnected := isTrue (getItem result "exchangeConnected")
  microsoftTenantId := optionalString (getItem result "microsoftTenantId")
  userPrincipalName := optionalString (getItem result "userPrincipalName")

/-- What `health_check` makes of the end of `_execute_internal`. -/
def healthCheck (loads : JsonLoads) (executed : Except CallError (List PyString)) :
    Except CallError TenantPowerShellHealthCheck := do
  let output ← executed
  let result ← parseHealthCheck loads output
  return healthCheckResult result

/-! ## The process and its calls -/

/-- A line of the output and the command that printed it. -/
structure PrintedLine (ι : Type) where
  line : PyString
  command : ι
  deriving DecidableEq

def PrintedLine.text {ι : Type} (printed : PrintedLine ι) : PyString := rstrip printed.line

/-- How far a call is in `_execute_internal`; `executed` is how that ended. -/
inductive CallPhase where
  | idle
  | waiting
  | draining
  | reading
  | ended (executed : Except CallError (List PyString))

/-- The process with its pipes, the command lock, and the calls. -/
structure PowerShellState (ι : Type) where
  phase : ι → CallPhase
  /-- The lines each call has read, in order; their texts are its `output`. -/
  read : ι → List (PrintedLine ι)
  commandLock : Option ι
  /-- The commands that were written and have not finished; the first of them is running. -/
  stdin : List ι
  /-- The running command has printed a line that is a JSON object. -/
  printedObject : Bool
  stdout : List (PrintedLine ι)
  exited : Bool

namespace PowerShellState

variable {ι : Type} [DecidableEq ι]

def initial : PowerShellState ι where
  phase _ := .idle
  read _ := []
  commandLock := none
  stdin := []
  printedObject := false
  stdout := []
  exited := false

/-- A call leaves `_execute_internal`, and the lock with it. -/
def leave (s : PowerShellState ι) (i : ι) (executed : Except CallError (List PyString)) :
    PowerShellState ι :=
  { s with
    phase := Function.update s.phase i (.ended executed)
    commandLock := if s.commandLock = some i then none else s.commandLock }

/-- `readline` returns the first line of the pipe to a call. -/
def receive (s : PowerShellState ι) (i : ι) (printed : PrintedLine ι)
    (rest : List (PrintedLine ι)) : PowerShellState ι :=
  { s with
    read := Function.update s.read i (s.read i ++ [printed])
    stdout := rest }

end PowerShellState

def isObject (loads : JsonLoads) (text : PyString) : Bool :=
  match loads text with
  | .ok (.object _) => true
  | _ => false

section

variable {ι : Type}

/-- The marker of a call. -/
def markerOf (hex : ι → PyString) (i : ι) : PyString := completeMarker (hex i)

/-- Ordinary output is no marker. -/
def Ordinary (hex : ι → PyString) (line : PyString) : Prop := ∀ j, rstrip line ≠ markerOf hex j

variable [DecidableEq ι]

open PowerShellState in
/-- What can happen next.  The commands run in the order they were written, and each prints a JSON
object before its marker; apart from that `pwsh` prints what it likes, and may end at any time. -/
inductive PowerShellStep (loads : JsonLoads) (hex : ι → PyString) :
    PowerShellState ι → PowerShellState ι → Prop where
  /-- `returncode` is still `None`, perhaps although the process has ended. -/
  | call {s : PowerShellState ι} {i : ι} (idle : s.phase i = .idle) :
      PowerShellStep loads hex s { s with phase := Function.update s.phase i .waiting }
  /-- `returncode` is set. -/
  | refuse {s : PowerShellState ι} {i : ι} (idle : s.phase i = .idle) (exited : s.exited = true) :
      PowerShellStep loads hex s
        (s.leave i (.error (.powerShellProcessError "PowerShell process is not running")))
  /-- The lock is acquired and the framed command written. -/
  | acquire {s : PowerShellState ι} {i : ι} (waiting : s.phase i = .waiting)
      (free : s.commandLock = none) :
      PowerShellStep loads hex s
        { s with
          phase := Function.update s.phase i .draining
          commandLock := some i
          stdin := s.stdin ++ [i] }
  | drain {s : PowerShellState ι} {i : ι} (draining : s.phase i = .draining) :
      PowerShellStep loads hex s { s with phase := Function.update s.phase i .reading }
  | line {s : PowerShellState ι} {i : ι} {printed : PrintedLine ι} {rest : List (PrintedLine ι)}
      (reading : s.phase i = .reading) (stdout : s.stdout = printed :: rest)
      (text : printed.text ≠ markerOf hex i) :
      PowerShellStep loads hex s (s.receive i printed rest)
  | marker {s : PowerShellState ι} {i : ι} {printed : PrintedLine ι} {rest : List (PrintedLine ι)}
      (reading : s.phase i = .reading) (stdout : s.stdout = printed :: rest)
      (text : printed.text = markerOf hex i) :
      PowerShellStep loads hex s
        ((s.receive i printed rest).leave i (.ok ((s.read i).map PrintedLine.text)))
  | endOfFile {s : PowerShellState ι} {i : ι} (reading : s.phase i = .reading)
      (stdout : s.stdout = []) (exited : s.exited = true) :
      PowerShellStep loads hex s
        (s.leave i (.error
          (.powerShellProcessError "PowerShell process ended before command completion")))
  /-- A call times out, is cancelled, or an `await` of it raises. -/
  | abandon {s : PowerShellState ι} {i : ι} (error : CallError)
      (phase : s.phase i = .waiting ∨ s.phase i = .draining ∨ s.phase i = .reading) :
      PowerShellStep loads hex s (s.leave i (.error error))
  /-- A line is longer than the limit of the stream: it is dropped, but perhaps for its end. -/
  | overrun {s : PowerShellState ι} {i : ι} {printed : PrintedLine ι}
      {kept rest : List (PrintedLine ι)} (reading : s.phase i = .reading)
      (stdout : s.stdout = printed :: rest)
      (dropped : kept = [] ∨ ∃ tail, Ordinary hex tail ∧ kept = [⟨tail, printed.command⟩]) :
      PowerShellStep loads hex s ({ s with stdout := kept ++ rest }.leave i (.error .other))
  | print {s : PowerShellState ι} {i : ι} (line : PyString) {later : List ι}
      (stdin : s.stdin = i :: later) (running : s.exited = false) (nonempty : line ≠ [])
      (ordinary : Ordinary hex line) :
      PowerShellStep loads hex s
        { s with
          stdout := s.stdout ++ [⟨line, i⟩]
          printedObject := s.printedObject || isObject loads (rstrip line) }
  | complete {s : PowerShellState ι} {i : ι} {later : List ι} (stdin : s.stdin = i :: later)
      (running : s.exited = false) (printed : s.printedObject = true) :
      PowerShellStep loads hex s
        { s with
          stdout := s.stdout ++ [⟨markerOf hex i ++ ['\n'], i⟩]
          stdin := later
          printedObject := false }
  | exit {s : PowerShellState ι} : PowerShellStep loads hex s { s with exited := true }

end

end InboxSaas.Provisioner
