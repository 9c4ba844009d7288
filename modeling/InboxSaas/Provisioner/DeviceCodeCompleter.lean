import Mathlib.Data.List.Infix
import InboxSaas.Reasoning.Protocol
import InboxSaas.Provisioner.TenantSessions

/-!
# Entering a device code

`ZendriverDeviceCodeCompleter.complete` opens a browser, fills in Microsoft's three forms and reads
the screens that follow.  What the browser answers, and when it raises, is up to it.

How the call ends is a function of what it was answered (`verdict`), and on the way it does just what
the form asks for (`Position.asks`): the device code, the address and the password are typed in this
order, each into its own field, one click follows each of them and each routine screen, and whatever
happens the browser is stopped.
-/

namespace InboxSaas.Provisioner

open Reasoning Program

/-! ## The browser -/

abbrev Element := Nat

/-- There is one browser, and one page in it. -/
inductive BrowserOp where
  | start (headless : Bool)
  | get (url : String)
  | select (selector : String) (timeout : Nat)
  | sendKeys (element : Element) (keys : PyString)
  | click (element : Element)
  | wait (seconds : Nat)
  | getContent
  | stop
  deriving DecidableEq

@[reducible] def BrowserOp.Reply : BrowserOp → Type
  | .select _ _ => Element
  | .getContent => PyString
  | _ => Unit

/-- An operation of a browser that was started. -/
def BrowserOp.onPage : BrowserOp → Bool
  | .start _ => false
  | .stop => false
  | _ => true

abbrev BrowserProgram (α : Type) : Type := Program BrowserOp BrowserOp.Reply PyError α

abbrev BrowserEvent : Type := Event BrowserOp BrowserOp.Reply PyError

def browse (op : BrowserOp) : BrowserProgram op.Reply := perform op

/-! ## The completer -/

/-- `needle in content` -/
def contains (content : PyString) (needle : String) : Bool :=
  decide (needle.toList <:+: content)

namespace ZendriverDeviceCodeCompleter

def clickPrimary : BrowserProgram Unit := do
  let element ← browse (.select "#idSIButton9" 15)
  browse (.click element)

/-- The prompts that ask for a human. -/
def prompts : List String :=
  ["approve sign in request", "more information required", "enter code", "security defaults",
    "captcha", "unusual activity"]

section

variable (casefold : PyString → PyString)

/-- The loop of `_finish_expected_flow`, with `screens` rounds left. -/
def finishExpectedFlow (screens : Nat) : BrowserProgram Unit :=
  match screens with
  | 0 => throw (PyError.exception .authenticationChallenge)
  | screens + 1 => do
      browse (.wait 1)
      let content := casefold (← browse .getContent)
      if contains content "your account or password is incorrect" then
        throw (PyError.exception .invalidCredentials)
      else if prompts.any (contains content) then
        throw (PyError.exception .authenticationChallenge)
      else if contains content "you have signed in" ||
          contains content "you can close this window" then
        return ()
      else if contains content "stay signed in" || contains content "permissions requested" then do
        clickPrimary
        finishExpectedFlow screens
      else throw (PyError.exception .authenticationChallenge)

def sendKeysTo (selector : String) (keys : PyString) : BrowserProgram Unit := do
  let element ← browse (.select selector 15)
  browse (.sendKeys element keys)

/-- What is done with a browser that was started. -/
def fillIn (deviceCode : PyString) (credentials : TenantCredentials) : BrowserProgram Unit := do
  browse (.get "https://microsoft.com/devicelogin")
  sendKeysTo "input[name='otc']" deviceCode
  clickPrimary
  sendKeysTo "input[type='email']" credentials.email
  clickPrimary
  sendKeysTo "input[type='password']" credentials.password
  clickPrimary
  finishExpectedFlow casefold 3

/-- The `except` clauses of `complete`; `CancelledError` is not an `Exception`. -/
def translated : PyError → PyError
  | .exception .timeout => .exception .microsoftUnavailable
  | .exception .invalidCredentials => .exception .invalidCredentials
  | .exception .authenticationChallenge => .exception .authenticationChallenge
  | .exception .microsoftUnavailable => .exception .microsoftUnavailable
  | .exception _ => .exception .microsoftUnavailable
  | .cancelled => .cancelled

/-- The `finally` clause where there is a browser. -/
def stopBrowser : BrowserProgram Unit :=
  (browse .stop).handle (fun e => match e with
    | .exception _ => return ()
    | .cancelled => throw PyError.cancelled)

/-- Where the browser does not start, there is none to stop.  `asyncio.timeout` makes an operation
raise `TimeoutError`. -/
def complete (headless : Bool) (deviceCode : PyString) (credentials : TenantCredentials) :
    BrowserProgram Unit := do
  (browse (.start headless)).handle (fun e => throw (translated e))
  (fillIn casefold deviceCode credentials).handle (fun e => do
    stopBrowser
    throw (translated e))
  stopBrowser

end

/-! ## What was seen -/

inductive Screen where
  | incorrect
  | prompt
  | signedIn
  | routine
  | unexpected
  deriving DecidableEq, Repr

/-- What `_finish_expected_flow` takes a screen for. -/
def screenOf (content : PyString) : Screen :=
  if contains content "your account or password is incorrect" then .incorrect
  else if prompts.any (contains content) then .prompt
  else if contains content "you have signed in" || contains content "you can close this window" then
    .signedIn
  else if contains content "stay signed in" || contains content "permissions requested" then .routine
  else .unexpected

inductive Browser where
  | absent
  | running
  | stopped (reply : Except PyError Unit)
  deriving DecidableEq

/-- What a call has done and was answered. -/
structure Progress where
  browser : Browser
  /-- The element that was selected last. -/
  element : Option (String × Element)
  typed : List (String × PyString)
  screens : List Screen
  /-- What an operation raised, but `stop`. -/
  raised : Option PyError

namespace Progress

def initial : Progress := ⟨.absent, none, [], [], none⟩

variable (casefold : PyString → PyString)

/-- After one more event. -/
def next (progress : Progress) : BrowserEvent → Progress
  | ⟨.stop, r⟩ => { progress with browser := .stopped r }
  | ⟨_, .error e⟩ => { progress with raised := some e }
  | ⟨.start _, .ok _⟩ => { progress with browser := .running }
  | ⟨.select selector _, .ok element⟩ => { progress with element := some (selector, element) }
  | ⟨.sendKeys _ keys, .ok _⟩ =>
      { progress with typed := progress.typed ++ progress.element.toList.map fun e => (e.1, keys) }
  | ⟨.getContent, .ok content⟩ =>
      { progress with screens := progress.screens ++ [screenOf (casefold content)] }
  | ⟨_, .ok _⟩ => progress

end Progress

def progressOf (casefold : PyString → PyString) (l : List BrowserEvent) : Progress :=
  l.foldl (Progress.next casefold) .initial

/-- What is to be typed, and where. -/
def signInForm (deviceCode : PyString) (credentials : TenantCredentials) : List (String × PyString) :=
  [("input[name='otc']", deviceCode), ("input[type='email']", credentials.email),
    ("input[type='password']", credentials.password)]

/-! ### The form -/

/-- How far the form is. -/
inductive Position where
  | closed (form : List (String × PyString))
  | opening (form : List (String × PyString))
  /-- A field is to be selected. -/
  | field (selector : String) (keys : PyString) (rest : List (String × PyString))
  | typing (element : Element) (keys : PyString) (rest : List (String × PyString))
  /-- The primary button is to be selected; at most `screens` screens are read after it. -/
  | button (rest : List (String × PyString)) (screens : Nat)
  | clicking (element : Element) (rest : List (String × PyString)) (screens : Nat)
  | waiting (screens : Nat)
  | reading (screens : Nat)
  /-- There is only the browser to stop. -/
  | done
  | over
  deriving DecidableEq

namespace Position

/-- After a click: the next field, or the next screen. -/
def proceed : List (String × PyString) → Nat → Position
  | (selector, keys) :: rest, _ => .field selector keys rest
  | [], screens + 1 => .waiting screens
  | [], 0 => .done

/-- The one operation to come. -/
def asks (headless : Bool) : Position → Option BrowserOp
  | .closed _ => some (.start headless)
  | .opening _ => some (.get "https://microsoft.com/devicelogin")
  | .field selector _ _ => some (.select selector 15)
  | .typing element keys _ => some (.sendKeys element keys)
  | .button _ _ => some (.select "#idSIButton9" 15)
  | .clicking element _ _ => some (.click element)
  | .waiting _ => some (.wait 1)
  | .reading _ => some .getContent
  | .done => some .stop
  | .over => none

variable (casefold : PyString → PyString)

/-- After one more event.  What raises ends the form. -/
def after (position : Position) : BrowserEvent → Position
  | ⟨.stop, _⟩ => .over
  | ⟨.start _, .error _⟩ => .over
  | ⟨_, .error _⟩ => .done
  | ⟨.getContent, .ok content⟩ =>
      match position with
      | .reading screens =>
          -- only a routine screen is left, with the button again
          if screenOf (casefold content) = .routine then .button [] screens else .done
      | _ => position
  | ⟨.select _ _, .ok element⟩ =>
      match position with
      | .field _ keys rest => .typing element keys rest
      | .button rest screens => .clicking element rest screens
      | _ => position
  | ⟨_, .ok _⟩ =>
      match position with
      | .closed form => .opening form
      | .opening form => proceed form 3
      | .typing _ _ rest => .button rest 3
      | .clicking _ rest screens => proceed rest screens
      | .waiting screens => .reading screens
      | _ => position

end Position

def positionOf (casefold : PyString → PyString) (form : List (String × PyString))
    (l : List BrowserEvent) : Position :=
  l.foldl (Position.after casefold) (.closed form)

/-- What the screens say, the last of them. -/
def judged (screens : List Screen) : Except PyError Unit :=
  match screens.getLast? with
  | some .signedIn => .ok ()
  | some .incorrect => .error (.exception .invalidCredentials)
  | _ => .error (.exception .authenticationChallenge)

/-- What an operation that raised makes of a call. -/
def interruption : PyError → PyError
  | .exception _ => .exception .microsoftUnavailable
  | .cancelled => .cancelled

/-- How a call ends, by what it was answered. -/
def verdict (progress : Progress) : Except PyError Unit :=
  if progress.browser = .stopped (.error .cancelled) then .error .cancelled
  else
    match progress.raised with
    | some e => .error (interruption e)
    | none => judged progress.screens

/-- The screens that were read: three at most, and only a routine one is left for another. -/
def Read (form : List (String × PyString)) (progress : Progress) : Prop :=
  progress.screens.length ≤ 3 ∧ (∀ screen ∈ progress.screens.dropLast, screen = .routine) ∧
    (progress.raised = none ∨ progress.screens ≠ [] → progress.typed = form)

/-- The errors that `complete` raises itself are known to nobody else. -/
def Foreign : PyError → Prop
  | .exception e => e ≠ .invalidCredentials ∧ e ≠ .authenticationChallenge ∧
      e ≠ .microsoftUnavailable
  | .cancelled => True

def Possible (event : BrowserEvent) : Prop :=
  ∀ e, event.reply = .error e → Foreign e

/-! ## A run -/

section

variable {casefold : PyString → PyString} {headless : Bool} {form : List (String × PyString)}
  {l : List BrowserEvent}

@[simp] theorem progressOf_snoc (l : List BrowserEvent) (e : BrowserEvent) :
    progressOf casefold (l ++ [e]) = (progressOf casefold l).next casefold e := by
  simp [progressOf]

@[simp] theorem positionOf_snoc (l : List BrowserEvent) (e : BrowserEvent) :
    positionOf casefold form (l ++ [e]) = (positionOf casefold form l).after casefold e := by
  simp [positionOf]

def browserProtocol (casefold : PyString → PyString) (headless : Bool)
    (form : List (String × PyString)) : Protocol BrowserOp BrowserOp.Reply PyError where
  possible := Possible
  permits l op := (positionOf casefold form l).asks headless = some op

/-- The browser is running and nothing was raised. -/
structure Running (casefold : PyString → PyString) (form : List (String × PyString))
    (position : Position) (typed : List (String × PyString)) (screens : List Screen)
    (l : List BrowserEvent) : Prop where
  position : positionOf casefold form l = position
  browser : (progressOf casefold l).browser = .running
  typed : (progressOf casefold l).typed = typed
  screens : (progressOf casefold l).screens = screens
  raised : (progressOf casefold l).raised = none

/-- An operation raised. -/
structure Interrupted (casefold : PyString → PyString) (form typed : List (String × PyString))
    (screens : List Screen) (e : PyError) (l : List BrowserEvent) : Prop where
  position : positionOf casefold form l = .done
  browser : (progressOf casefold l).browser = .running
  typed : (progressOf casefold l).typed = typed
  screens : (progressOf casefold l).screens = screens
  raised : (progressOf casefold l).raised = some e
  foreign : Foreign e

variable {position : Position} {typed rest : List (String × PyString)} {screens : List Screen}

theorem Running.permits {op : BrowserOp} (h : Running casefold form position typed screens l)
    (hasks : position.asks headless = some op) :
    (browserProtocol casefold headless form).permits l op := by
  change (positionOf casefold form l).asks headless = some op
  rwa [h.position]

theorem Running.interrupt (h : Running casefold form position typed screens l) {op : BrowserOp}
    (hpage : op.onPage = true) {e : PyError} (he : Possible ⟨op, .error e⟩) :
    Interrupted casefold form typed screens e (l ++ [⟨op, .error e⟩]) := by
  have hnext : ∀ progress : Progress,
      progress.next casefold ⟨op, .error e⟩ = { progress with raised := some e } := by
    intro progress
    cases op with
    | stop => cases hpage
    | _ => rfl
  have hafter : ∀ position : Position, position.after casefold ⟨op, .error e⟩ = .done := by
    intro position
    cases op with
    | stop => cases hpage
    | start => cases hpage
    | _ => rfl
  have hprogress : progressOf casefold (l ++ [⟨op, .error e⟩]) =
      { progressOf casefold l with raised := some e } := by rw [progressOf_snoc, hnext]
  refine ⟨?_, ?_, ?_, ?_, ?_, he e rfl⟩
  · rw [positionOf_snoc, hafter]
  · rw [hprogress]
    exact h.browser
  · rw [hprogress]
    exact h.typed
  · rw [hprogress]
    exact h.screens
  · rw [hprogress]

/-- An operation that the form asks for and that is of no further interest. -/
theorem Running.advance (h : Running casefold form position typed screens l) {e : BrowserEvent}
    (hbrowser : ((progressOf casefold l).next casefold e).browser = (progressOf casefold l).browser)
    (htyped : ((progressOf casefold l).next casefold e).typed = (progressOf casefold l).typed)
    (hscreens : ((progressOf casefold l).next casefold e).screens =
      (progressOf casefold l).screens)
    (hraised : ((progressOf casefold l).next casefold e).raised =
      (progressOf casefold l).raised) :
    Running casefold form (position.after casefold e) typed screens (l ++ [e]) where
  position := by rw [positionOf_snoc, h.position]
  browser := by rw [progressOf_snoc, hbrowser, h.browser]
  typed := by rw [progressOf_snoc, htyped, h.typed]
  screens := by rw [progressOf_snoc, hscreens, h.screens]
  raised := by rw [progressOf_snoc, hraised, h.raised]

/-- The post of a step of the form that comes to `position` with `typed'` typed. -/
def Steps (casefold : PyString → PyString) (form : List (String × PyString)) (position : Position)
    (typed typed' : List (String × PyString)) (screens : List Screen) :
    Except PyError Unit → List BrowserEvent → Prop
  | .ok (), m => Running casefold form position typed' screens m
  | .error e, m => Interrupted casefold form typed screens e m

theorem obeys_clickPrimary {left : Nat}
    (h : Running casefold form (.button rest left) typed screens l) :
    Obeys (browserProtocol casefold headless form)
      (Steps casefold form (.proceed rest left) typed typed screens) clickPrimary l := by
  refine obeys_perform_bind (h.permits rfl) (fun element _ => ?_) fun e he => ?_
  · have hselected := h.advance (e := ⟨.select "#idSIButton9" 15, .ok element⟩) rfl rfl rfl rfl
    refine obeys_perform (hselected.permits rfl) fun r hr => ?_
    cases r with
    | ok _ => exact hselected.advance (e := ⟨.click element, .ok ()⟩) rfl rfl rfl rfl
    | error e => exact hselected.interrupt rfl hr
  · exact h.interrupt rfl he

theorem obeys_sendKeysTo {selector : String} {keys : PyString}
    (h : Running casefold form (.field selector keys rest) typed screens l) :
    Obeys (browserProtocol casefold headless form)
      (Steps casefold form (.button rest 3) typed (typed ++ [(selector, keys)]) screens)
      (sendKeysTo selector keys) l := by
  refine obeys_perform_bind (h.permits rfl) (fun element _ => ?_) fun e he => ?_
  · have hselected := h.advance (e := ⟨.select selector 15, .ok element⟩) rfl rfl rfl rfl
    refine obeys_perform (hselected.permits rfl) fun r hr => ?_
    cases r with
    | ok _ =>
        refine ⟨?_, ?_, ?_, ?_, ?_⟩
        · rw [positionOf_snoc, hselected.position]
          rfl
        · rw [progressOf_snoc]
          exact hselected.browser
        · rw [progressOf_snoc, progressOf_snoc]
          exact congrArg (· ++ [(selector, keys)]) h.typed
        · rw [progressOf_snoc]
          exact hselected.screens
        · rw [progressOf_snoc]
          exact hselected.raised
    | error e => exact hselected.interrupt rfl hr
  · exact h.interrupt rfl he

/-! ## The screens -/

/-- The browser is running, and the body of the `try` ended. -/
structure Filled (casefold : PyString → PyString) (form : List (String × PyString))
    (o : Except PyError Unit) (l : List BrowserEvent) : Prop where
  position : positionOf casefold form l = .done
  browser : (progressOf casefold l).browser = .running
  read : Read form (progressOf casefold l)
  foreign : ∀ e, (progressOf casefold l).raised = some e → Foreign e
  outcome : o = (progressOf casefold l).raised.elim (judged (progressOf casefold l).screens) .error

theorem judged_snoc (screens : List Screen) (screen : Screen) :
    judged (screens ++ [screen]) = judged [screen] := by
  unfold judged
  rw [List.getLast?_concat]
  rfl

theorem Interrupted.filled {n : Nat} {e : PyError}
    (h : Interrupted casefold form typed (List.replicate n .routine) e l) (hn : n ≤ 3)
    (htyped : n ≠ 0 → typed = form) : Filled casefold form (.error e) l where
  position := h.position
  browser := h.browser
  read := by
    refine ⟨?_, fun screen hscreen => ?_, fun hread => ?_⟩
    · rw [h.screens, List.length_replicate]
      exact hn
    · rw [h.screens] at hscreen
      exact (List.mem_replicate.mp (List.dropLast_subset _ hscreen)).2
    · rw [h.screens, h.raised] at hread
      rw [h.typed]
      refine htyped fun hzero => ?_
      rcases hread with hnone | hne
      · cases hnone
      · exact hne (by rw [hzero]; rfl)
  foreign e' he' := by
    cases h.raised.symm.trans he'
    exact h.foreign
  outcome := by
    rw [h.raised]
    rfl

/-- The screen that decides. -/
theorem Running.filled {n : Nat} {screen : Screen} {o : Except PyError Unit}
    (h : Running casefold form .done form (List.replicate n .routine ++ [screen]) l) (hn : n < 3)
    (ho : judged [screen] = o) : Filled casefold form o l where
  position := h.position
  browser := h.browser
  read := by
    refine ⟨?_, fun screen hscreen => ?_, fun _ => h.typed⟩
    · rw [h.screens, List.length_append, List.length_replicate]
      exact hn
    · rw [h.screens, List.dropLast_concat] at hscreen
      exact (List.mem_replicate.mp hscreen).2
  foreign e he := nomatch h.raised.symm.trans he
  outcome := by
    rw [h.raised, h.screens, ← ho]
    exact (judged_snoc _ _).symm

/-- A screen is read. -/
theorem Running.read {left : Nat} {content : PyString} {screen : Screen}
    (h : Running casefold form (.reading left) typed screens l)
    (hscreen : screenOf (casefold content) = screen) :
    Running casefold form (if screen = .routine then .button [] left else .done) typed
      (screens ++ [screen]) (l ++ [⟨.getContent, .ok content⟩]) where
  position := by
    rw [positionOf_snoc, h.position, ← hscreen]
    rfl
  browser := by
    rw [progressOf_snoc]
    exact h.browser
  typed := by
    rw [progressOf_snoc]
    exact h.typed
  screens := by
    rw [progressOf_snoc, ← hscreen]
    exact congrArg (· ++ [_]) h.screens
  raised := by
    rw [progressOf_snoc]
    exact h.raised

theorem obeys_finishExpectedFlow {rounds n : Nat} (hn : n + rounds = 3)
    (h : Running casefold form (.proceed [] rounds) form (List.replicate n .routine) l) :
    Obeys (browserProtocol casefold headless form) (Filled casefold form)
      (finishExpectedFlow casefold rounds) l := by
  induction rounds generalizing n l with
  | zero =>
      have h3 : n = 3 := hn
      subst h3
      have hscreens : List.replicate 3 Screen.routine = List.replicate 2 .routine ++ [.routine] := rfl
      exact (hscreens ▸ h).filled (by decide) rfl
  | succ rounds ih =>
      refine obeys_perform_bind (h.permits rfl) (fun _ _ => ?_) fun e he => ?_
      · have hwaited := h.advance (e := ⟨.wait 1, .ok ()⟩) rfl rfl rfl rfl
        refine obeys_perform_bind (hwaited.permits rfl) (fun content _ => ?_) fun e he => ?_
        -- the tests of the loop are those of `screenOf`, in its order
        · have hread := fun (screen : Screen) (hscreen : screenOf (casefold content) = screen) =>
            hwaited.read hscreen
          unfold screenOf at hread
          dsimp only
          split
          · rename_i hif
            exact (hread .incorrect (if_pos hif)).filled (by omega) rfl
          · rename_i hif
            rw [if_neg hif] at hread
            split
            · rename_i hif
              exact (hread .prompt (if_pos hif)).filled (by omega) rfl
            · rename_i hif
              rw [if_neg hif] at hread
              split
              · rename_i hif
                exact (hread .signedIn (if_pos hif)).filled (by omega) rfl
              · rename_i hif
                rw [if_neg hif] at hread
                split
                · rename_i hif
                  have hroutine := hread .routine (if_pos hif)
                  rw [← List.replicate_succ'] at hroutine
                  refine Obeys.bind (obeys_clickPrimary hroutine) (fun _ m hm => ?_)
                    (fun e m hm => ?_)
                  · exact ih (n := n + 1) (by omega) hm
                  · exact hm.filled (by omega) fun _ => rfl
                · rename_i hif
                  exact (hread .unexpected (if_neg hif)).filled (by omega) rfl
        · exact (hwaited.interrupt rfl he).filled (by omega) fun _ => rfl
      · exact (h.interrupt rfl he).filled (by omega) fun _ => rfl

/-! ## The forms -/

theorem obeys_fillIn {deviceCode : PyString} {credentials : TenantCredentials}
    (h : Running casefold (signInForm deviceCode credentials)
      (.opening (signInForm deviceCode credentials)) [] [] l) :
    Obeys (browserProtocol casefold headless (signInForm deviceCode credentials))
      (Filled casefold (signInForm deviceCode credentials))
      (fillIn casefold deviceCode credentials) l := by
  -- until everything is typed, an error says nothing of the screens
  have hinterrupted : ∀ {typed : List (String × PyString)} {e : PyError} {m : List BrowserEvent},
      Interrupted casefold (signInForm deviceCode credentials) typed [] e m →
        Filled casefold (signInForm deviceCode credentials) (.error e) m :=
    fun he => he.filled (n := 0) (by decide) (absurd rfl)
  refine obeys_perform_bind (h.permits rfl) (fun _ _ => ?_) fun e he => ?_
  · have hgot := h.advance (e := ⟨.get "https://microsoft.com/devicelogin", .ok ()⟩) rfl rfl rfl rfl
    refine Obeys.bind (obeys_sendKeysTo hgot) (fun _ _ hm => ?_) fun _ _ => hinterrupted
    refine Obeys.bind (obeys_clickPrimary hm) (fun _ _ hm => ?_) fun _ _ => hinterrupted
    refine Obeys.bind (obeys_sendKeysTo hm) (fun _ _ hm => ?_) fun _ _ => hinterrupted
    refine Obeys.bind (obeys_clickPrimary hm) (fun _ _ hm => ?_) fun _ _ => hinterrupted
    refine Obeys.bind (obeys_sendKeysTo hm) (fun _ _ hm => ?_) fun _ _ => hinterrupted
    refine Obeys.bind (obeys_clickPrimary hm) (fun _ _ hm => ?_) fun _ _ => hinterrupted
    exact obeys_finishExpectedFlow (n := 0) rfl hm
  · exact hinterrupted (h.interrupt rfl he)

/-! ## The whole call -/

/-- What is said of a call that is over. -/
structure Completed (form : List (String × PyString)) (o : Except PyError Unit)
    (progress : Progress) : Prop where
  outcome : o = verdict progress
  browser : progress.browser ≠ .running
  read : Read form progress

theorem translated_foreign {e : PyError} (h : Foreign e) : translated e = interruption e := by
  cases e with
  | cancelled => rfl
  | exception e =>
      cases e with
      | invalidCredentials => exact absurd rfl h.1
      | authenticationChallenge => exact absurd rfl h.2.1
      | _ => rfl

theorem Filled.completed {o r : Except PyError Unit} (h : Filled casefold form o l)
    (hr : r ≠ .error .cancelled) :
    Completed form (o.mapError translated) (progressOf casefold (l ++ [⟨.stop, r⟩])) := by
  rw [progressOf_snoc]
  have hstopped : Browser.stopped r ≠ .stopped (.error .cancelled) :=
    fun heq => hr (Browser.stopped.inj heq)
  refine ⟨?_, nofun, h.read⟩
  change o.mapError translated = verdict { progressOf casefold l with browser := .stopped r }
  unfold verdict
  rw [if_neg hstopped, h.outcome]
  cases hraised : (progressOf casefold l).raised with
  | none =>
      change (judged (progressOf casefold l).screens).mapError translated =
        judged (progressOf casefold l).screens
      unfold judged
      split <;> rfl
  | some e => exact congrArg Except.error (translated_foreign (h.foreign e hraised))

theorem obeys_stopBrowser {o : Except PyError Unit} (h : Filled casefold form o l) :
    Obeys (browserProtocol casefold headless form)
      (fun stopped m =>
        Completed form (stopped >>= fun _ => o.mapError translated) (progressOf casefold m))
      stopBrowser l := by
  have hpermits : (positionOf casefold form l).asks headless = some .stop := by
    rw [h.position]
    rfl
  unfold stopBrowser
  change Obeys _ _ (.call _ _) l
  refine ⟨hpermits, fun r _ => ?_⟩
  rcases r with (_ | e) | _
  · change Completed form (.error .cancelled) (progressOf casefold _)
    rw [progressOf_snoc]
    exact ⟨rfl, nofun, h.read⟩
  · exact h.completed (r := .error (.exception e)) nofun
  · exact h.completed (r := .ok ()) nofun

/-- Where the browser does not start, nothing was done. -/
theorem completed_notStarted {e : PyError} (he : Foreign e) :
    Completed form (.error (translated e)) { Progress.initial with raised := some e } where
  outcome := congrArg Except.error (translated_foreign he)
  browser := nofun
  read := ⟨Nat.zero_le 3, fun _ h => absurd h List.not_mem_nil,
    fun h => h.elim nofun fun h => absurd rfl h⟩

theorem obeys_complete (headless : Bool) (deviceCode : PyString) (credentials : TenantCredentials) :
    Obeys (browserProtocol casefold headless (signInForm deviceCode credentials))
      (fun o m => Completed (signInForm deviceCode credentials) o (progressOf casefold m))
      (complete casefold headless deviceCode credentials) [] := by
  unfold complete
  refine Obeys.bind (Q := fun o m => match o with
      | .ok () => Running casefold (signInForm deviceCode credentials)
          (.opening (signInForm deviceCode credentials)) [] [] m
      | .error e => Completed (signInForm deviceCode credentials) (.error e) (progressOf casefold m))
    ?_ (fun _ m hm => ?_) fun _ _ hm => hm
  · refine Obeys.handle (Q := fun o m => match o with
        | .ok () => Running casefold (signInForm deviceCode credentials)
            (.opening (signInForm deviceCode credentials)) [] [] m
        | .error e =>
            Foreign e ∧ progressOf casefold m = { Progress.initial with raised := some e })
      (obeys_perform rfl fun r hr => ?_) (fun _ _ hm => hm) fun e m hm => ?_
    · cases r with
      | ok _ => exact ⟨rfl, rfl, rfl, rfl, rfl⟩
      | error e => exact ⟨hr e rfl, rfl⟩
    · change Completed _ (.error (translated e)) (progressOf casefold m)
      rw [hm.2]
      exact completed_notStarted hm.1
  · refine Obeys.bind (Q := fun o m => match o with
        | .ok () => Filled casefold (signInForm deviceCode credentials) (.ok ()) m
        | .error e =>
            Completed (signInForm deviceCode credentials) (.error e) (progressOf casefold m))
      (Obeys.handle (obeys_fillIn hm) (fun _ _ hm => hm) fun e m hm => ?_)
      (fun _ m hm => ?_) fun _ _ hm => hm
    · exact Obeys.bind (obeys_stopBrowser hm) (fun _ _ hm => hm) fun _ _ hm => hm
    · exact (obeys_stopBrowser hm).mono fun r _ hm => by cases r <;> exact hm

end

/-- How a call ends is the verdict on what it was answered.  The browser is not left running, no
screen is read before everything is typed, and every operation is the one that the form asks for. -/
theorem device_code_completion {casefold : PyString → PyString} {headless : Bool}
    {deviceCode : PyString} {credentials : TenantCredentials} {l : List BrowserEvent}
    {o : Except PyError Unit} (hl : ∀ event ∈ l, Possible event)
    (h : Ends (complete casefold headless deviceCode credentials) l o) :
    o = verdict (progressOf casefold l) ∧ (progressOf casefold l).browser ≠ .running ∧
      Read (signInForm deviceCode credentials) (progressOf casefold l) ∧
      ∀ front event back, l = front ++ event :: back →
        (positionOf casefold (signInForm deviceCode credentials) front).asks headless =
          some event.op := by
  have hobeys : Obeys (browserProtocol casefold headless (signInForm deviceCode credentials)) _
      (complete casefold headless deviceCode credentials) [] :=
    obeys_complete headless deviceCode credentials
  have hcompleted := (hobeys.path h hl).post
  refine ⟨hcompleted.outcome, hcompleted.browser, hcompleted.read, ?_⟩
  rintro front event back rfl
  exact hobeys.permitted h fun e he => hl e (List.mem_append_left _ he)

/-! ## A password that is rejected behind a routine screen -/

def sampleCredentials : TenantCredentials := ⟨"admin@contoso.com".toList, "secret".toList⟩

def filledIn (selector : String) (element : Element) (keys : PyString) : List BrowserEvent :=
  [⟨.select selector 15, .ok element⟩, ⟨.sendKeys element keys, .ok ()⟩,
    ⟨.select "#idSIButton9" 15, .ok (element + 1)⟩, ⟨.click (element + 1), .ok ()⟩]

def rejectedRun : List BrowserEvent :=
  [⟨.start true, .ok ()⟩, ⟨.get "https://microsoft.com/devicelogin", .ok ()⟩] ++
    filledIn "input[name='otc']" 0 "C7K2M9QXD".toList ++
    filledIn "input[type='email']" 2 "admin@contoso.com".toList ++
    filledIn "input[type='password']" 4 "secret".toList ++
  [⟨.wait 1, .ok ()⟩, ⟨.getContent, .ok "Stay signed in?".toList⟩,
    ⟨.select "#idSIButton9" 15, .ok 6⟩, ⟨.click 6, .ok ()⟩,
    ⟨.wait 1, .ok ()⟩, ⟨.getContent, .ok "Your account or password is incorrect.".toList⟩,
    ⟨.stop, .ok ()⟩]

theorem rejectedRun_possible : ∀ event ∈ rejectedRun, Possible event := by
  have hok : ∀ event ∈ rejectedRun, event.reply.isOk = true := by decide
  intro event hevent e he
  have hok := hok event hevent
  rw [he] at hok
  cases hok

theorem rejectedRun_ends :
    Ends (complete (List.map Char.toLower) true "C7K2M9QXD".toList sampleCredentials) rejectedRun
      (.error (.exception .invalidCredentials)) := by
  iterate 16 apply Path.cons
  dsimp only [resume, Program.bind]
  rw [if_neg (by decide +kernel), if_neg (by decide +kernel), if_neg (by decide +kernel),
    if_pos (by decide +kernel)]
  iterate 4 apply Path.cons
  dsimp only [resume, Program.bind]
  rw [if_pos (by decide +kernel)]
  apply Path.cons
  exact Path.nil _

theorem device_code_completion_rejected :
    (Except.error (.exception .invalidCredentials) : Except PyError Unit) =
        verdict (progressOf (List.map Char.toLower) rejectedRun) ∧
      (progressOf (List.map Char.toLower) rejectedRun).browser ≠ .running ∧
      Read (signInForm "C7K2M9QXD".toList sampleCredentials)
        (progressOf (List.map Char.toLower) rejectedRun) ∧
      ∀ front event back, rejectedRun = front ++ event :: back →
        (positionOf (List.map Char.toLower) (signInForm "C7K2M9QXD".toList sampleCredentials)
          front).asks true = some event.op :=
  device_code_completion rejectedRun_possible rejectedRun_ends

end ZendriverDeviceCodeCompleter

end InboxSaas.Provisioner
