import InboxSaas.Provisioner.SessionPaths

/-!
# Failure classification

`validate` answers by the class of the error that reaches its `except` clauses.
`failure_classification` says exactly when that is the class of the sign-in's error: the error of a
stop can take its place on the way, and other steps can raise an error of the sign-in's classes.
-/

namespace InboxSaas.Provisioner

open Reasoning Program TenantSessionRegistry

def unavailable : TenantValidationResult := .failure .microsoftUnavailable true

/-- The result for an exception. -/
def classified : ExceptionClass → TenantValidationResult
  | .invalidCredentials => .failure .invalidCredentials false
  | .authenticationChallenge => .failure .authenticationChallenge false
  | _ => unavailable

theorem answered_exception (e : ExceptionClass) : answered (.exception e) = .ok (classified e) := by
  cases e <;> rfl

/-- The exception of a Graph or Exchange sign-in. -/
def raisedBySignIn : ProvisionerEvent → Option ExceptionClass
  | ⟨.authenticateGraph _ _, .error (.exception e)⟩ => some e
  | ⟨.authenticateExchange _ _, .error (.exception e)⟩ => some e
  | _ => none

def signInError (l : List ProvisionerEvent) : Option ExceptionClass :=
  l.findSome? raisedBySignIn

/-- The result that a failed call owes to its sign-in. -/
def signInResult (l : List ProvisionerEvent) : TenantValidationResult :=
  match signInError l with
  | some e => classified e
  | none => unavailable

/-- The result is the sign-in's, unless the call succeeded. -/
def Classified (l : List ProvisionerEvent) (o : Except PyError TenantValidationResult) : Prop :=
  o = .ok (signInResult l) ∨
    signInError l = none ∧ ∃ microsoftTenantId, o = .ok (.success microsoftTenantId)

/-- The same event, but a stop returned. -/
def calm : ProvisionerEvent → ProvisionerEvent
  | ⟨.stop site process, _⟩ => did (.stop site process) ()
  | e => e

/-- Nothing was cancelled. -/
def Uncancelled (l : List ProvisionerEvent) : Prop :=
  ∀ op, raised op .cancelled ∉ l

/-- No error gets to `validate` that the sign-in did not raise but could have, and a stop that
replaces an error replaces it by one of its class. -/
structure Preserves (l : List ProvisionerEvent) : Prop where
  start : ∀ e, raised .start (.exception e) ∈ l → classified e = unavailable
  report : ∀ process e, raised (.healthCheck .authenticate process) (.exception e) ∈ l →
    classified e = unavailable
  check : ∀ process e, raised (.healthCheck .validate process) (.exception e) ∈ l →
    classified e = unavailable
  stop : ∀ process e, raised (.stop .authenticate process) (.exception e) ∈ l →
    classified e = signInResult l

/-! ## The part that decides -/

/-- The operations of `_authenticate`, and the last check. -/
def ProvisionerOp.decides : ProvisionerOp → Bool
  | .acquireBrowser | .releaseBrowser | .start => true
  | .authenticateGraph _ _ | .authenticateExchange _ _ => true
  | .healthCheck .authenticate _ | .healthCheck .validate _ | .stop .authenticate _ => true
  | _ => false

def decisive (l : List ProvisionerEvent) : List ProvisionerEvent :=
  l.filter (fun e => e.op.decides)

@[simp] theorem decisive_append (l m : List ProvisionerEvent) :
    decisive (l ++ m) = decisive l ++ decisive m := List.filter_append ..

@[simp] theorem decisive_nil : decisive [] = [] := rfl

@[simp] theorem decisive_cons (e : ProvisionerEvent) (l : List ProvisionerEvent) :
    decisive (e :: l) = if e.op.decides then e :: decisive l else decisive l :=
  List.filter_cons

theorem mem_decisive {e : ProvisionerEvent} {l : List ProvisionerEvent}
    (he : e.op.decides = true) : e ∈ decisive l ↔ e ∈ l := by
  rw [decisive, List.mem_filter]
  exact and_iff_left he

theorem raisedBySignIn_eq_none {e : ProvisionerEvent} (h : e.op.decides = false) :
    raisedBySignIn e = none := by
  obtain ⟨op, r⟩ := e
  cases op with
  | authenticateGraph => cases h
  | authenticateExchange => cases h
  | _ => rfl

theorem signInError_decisive (l : List ProvisionerEvent) :
    signInError (decisive l) = signInError l := by
  unfold signInError
  induction l with
  | nil => rfl
  | cons e rest ih =>
      rw [decisive_cons, List.findSome?_cons]
      cases h : e.op.decides with
      | false =>
          rw [if_neg Bool.false_ne_true, raisedBySignIn_eq_none h]
          exact ih
      | true =>
          rw [if_pos rfl, List.findSome?_cons, ih]

section

variable {l m : List ProvisionerEvent}

theorem signInError_congr (h : decisive l = decisive m) : signInError l = signInError m := by
  rw [← signInError_decisive l, h, signInError_decisive]

theorem signInResult_congr (h : decisive l = decisive m) : signInResult l = signInResult m := by
  unfold signInResult
  rw [signInError_congr h]

theorem preserves_congr (h : decisive l = decisive m) : Preserves l ↔ Preserves m := by
  have hmem : ∀ e : ProvisionerEvent, e.op.decides = true → (e ∈ l ↔ e ∈ m) := by
    intro e he
    rw [← mem_decisive he, h, mem_decisive he]
  have hresult := signInResult_congr h
  constructor
  · rintro ⟨hstart, hreport, hcheck, hstop⟩
    refine ⟨fun e he => hstart e ((hmem _ rfl).mpr he),
      fun p e he => hreport p e ((hmem _ rfl).mpr he),
      fun p e he => hcheck p e ((hmem _ rfl).mpr he), fun p e he => ?_⟩
    rw [← hresult]
    exact hstop p e ((hmem _ rfl).mpr he)
  · rintro ⟨hstart, hreport, hcheck, hstop⟩
    refine ⟨fun e he => hstart e ((hmem _ rfl).mp he),
      fun p e he => hreport p e ((hmem _ rfl).mp he),
      fun p e he => hcheck p e ((hmem _ rfl).mp he), fun p e he => ?_⟩
    rw [hresult]
    exact hstop p e ((hmem _ rfl).mp he)

theorem Uncancelled.left (h : Uncancelled (l ++ m)) : Uncancelled l :=
  fun op hop => h op (List.mem_append_left m hop)

theorem Uncancelled.right (h : Uncancelled (l ++ m)) : Uncancelled m :=
  fun op hop => h op (List.mem_append_right l hop)

theorem Uncancelled.tail {e : ProvisionerEvent} (h : Uncancelled (e :: l)) : Uncancelled l :=
  fun op hop => h op (List.mem_cons_of_mem e hop)

/-- What is raised is an exception. -/
theorem Uncancelled.exception {op : ProvisionerOp} {e : PyError} (h : Uncancelled l)
    (he : raised op e ∈ l) : ∃ error, e = .exception error := by
  cases e with
  | cancelled => exact absurd he (h op)
  | exception error => exact ⟨error, rfl⟩

end

/-! ## The registry leaves the error of the sign-in alone -/

section

variable {casefold : PyString → PyString} {c : PyString} {credentials : TenantCredentials}
variable {l : List ProvisionerEvent}

theorem Uncancelled.quiet {site : Site} {process : Process} {r : Except PyError Unit}
    (h : Uncancelled l) (hr : ⟨.stop site process, r⟩ ∈ l) : quiet r = .ok () := by
  rcases r with (_ | _) | _
  · exact absurd hr (h _)
  · rfl
  · rfl

theorem Uncancelled.rejection {site : Site} {process : Process} {r : Except PyError Unit}
    (h : Uncancelled l) (hr : ⟨.stop site process, r⟩ ∈ l) :
    rejection r = .error (.exception .tenantSessionAuthentication) := by
  rw [Provisioner.rejection, h.quiet hr]

theorem ReusePath.calm {session : TenantSession} {o : Except PyError (Option Process)}
    (h : ReusePath casefold c credentials session l o) :
    decisive l = [] ∧ l.map Provisioner.calm = l := by
  cases h <;> exact ⟨rfl, rfl⟩

theorem DisposePath.calm {o : Except PyError Unit} (hu : Uncancelled l) (h : DisposePath c l o) :
    o = .ok () ∧ decisive l = [] ∧ DisposePath c (l.map Provisioner.calm) (.ok ()) := by
  cases h with
  | empty => exact ⟨rfl, rfl, .empty⟩
  | stopped =>
      rw [hu.quiet (List.mem_cons_of_mem _ List.mem_cons_self)]
      exact ⟨rfl, rfl, .stopped (r := .ok ())⟩

theorem SignInPath.calm {process : Process} {o : Except PyError AuthenticatedTenantSession}
    (h : SignInPath process credentials l o) :
    decisive l = l ∧ l.map Provisioner.calm = l := by
  cases h <;> exact ⟨rfl, rfl⟩

theorem AuthenticatePath.calm {candidate : AuthenticatedTenantSession}
    (h : AuthenticatePath credentials l (.ok candidate)) : l.map Provisioner.calm = l := by
  cases h with
  | authenticated h => rw [List.map_cons, h.calm.2]; rfl

/-- What `ensure` does when nothing is cancelled, as far as the sign-in goes. -/
inductive Ensured (casefold : PyString → PyString) (c : PyString)
    (credentials : TenantCredentials) :
    List ProvisionerEvent → Except PyError Process → Prop where
  | reused {l : List ProvisionerEvent} {process : Process} (hdecisive : decisive l = [])
      (hcalm : Ends (ensure casefold RealTenantValidationService.authenticate c credentials)
        (l.map calm) (.ok process)) :
      Ensured casefold c credentials l (.ok process)
  | signedIn {before l after : List ProvisionerEvent} {candidate : AuthenticatedTenantSession}
      {o : Except PyError Process} (h : AuthenticatePath credentials l (.ok candidate))
      (hbefore : decisive before = []) (hafter : decisive after = [])
      (ho : ∀ e, o = .error e → e = .exception .tenantSessionAuthentication)
      (hcalm : Ends (ensure casefold RealTenantValidationService.authenticate c credentials)
        ((before ++ l ++ after).map calm) o) :
      Ensured casefold c credentials (before ++ l ++ after) o
  | notSignedIn {before l after : List ProvisionerEvent} {e : PyError}
      (h : AuthenticatePath credentials l (.error e))
      (hbefore : decisive before = []) (hafter : decisive after = [])
      (hcalm : ∀ m error, AuthenticatePath credentials m (.error error) →
        Ends (ensure casefold RealTenantValidationService.authenticate c credentials)
          (before.map calm ++ m ++ after.map calm) (.error error)) :
      Ensured casefold c credentials (before ++ l ++ after) (.error e)

theorem EstablishPath.ensured (before : List ProvisionerEvent) {n : List ProvisionerEvent}
    {o : Except PyError Process}
    (h : EstablishPath casefold RealTenantValidationService.authenticate c credentials n o)
    (hn : AllPossible n) (hu : Uncancelled n) (hbefore : decisive before = [])
    (hcalm : ∀ m o', EstablishPath casefold RealTenantValidationService.authenticate c credentials
      m o' → Ends (ensure casefold RealTenantValidationService.authenticate c credentials)
        (before.map Provisioner.calm ++ m ++ [did (.unlock c) ()]) o') :
    Ensured casefold c credentials (before ++ n ++ [did (.unlock c) ()]) o := by
  -- a candidate, and what `ensure` does with it
  have hcandidate : ∀ {l rest : List ProvisionerEvent} {candidate : AuthenticatedTenantSession}
      {x : Except PyError Process}, AuthenticatePath credentials l (.ok candidate) →
      decisive rest = [] → (∀ e, x = .error e → e = .exception .tenantSessionAuthentication) →
      EstablishPath casefold RealTenantValidationService.authenticate c credentials
        (l ++ rest.map Provisioner.calm) x →
      Ensured casefold c credentials (before ++ (l ++ rest) ++ [did (.unlock c) ()]) x := by
    intro l rest candidate x hauth hrest hx hpath
    have hlist : before ++ (l ++ rest) ++ [did (.unlock c) ()] =
        before ++ l ++ (rest ++ [did (.unlock c) ()]) := by simp only [List.append_assoc]
    rw [hlist]
    refine .signedIn hauth hbefore ?_ hx ?_
    · rw [decisive_append, hrest]
      rfl
    · have hends := hcalm _ _ hpath
      simp only [List.map_append, hauth.calm, List.append_assoc] at hends ⊢
      exact hends
  cases h with
  | notAuthenticated hauth =>
      refine .notSignedIn (authenticate_path hn hauth) hbefore rfl fun m error hm => ?_
      exact hcalm m _ (.notAuthenticated hm.ends)
  | otherUser hauth huser =>
      rw [hu.rejection (List.mem_append_right _ List.mem_cons_self)]
      exact hcandidate (authenticate_path (allPossible_append.mp hn).1 hauth) rfl (by simp)
        (.otherUser (r := .ok ()) hauth huser)
  | interrupted hauth huser =>
      exact absurd (List.mem_append_right _ List.mem_cons_self) (hu _)
  | failed hauth huser =>
      rw [hu.rejection (List.mem_append_right _ (List.mem_cons_of_mem _ List.mem_cons_self))]
      exact hcandidate (authenticate_path (allPossible_append.mp hn).1 hauth) rfl (by simp)
        (.failed (r := .ok ()) hauth huser)
  | unhealthy hauth huser hhealth =>
      rw [hu.rejection (List.mem_append_right _ (List.mem_cons_of_mem _ List.mem_cons_self))]
      exact hcandidate (authenticate_path (allPossible_append.mp hn).1 hauth) rfl (by simp)
        (.unhealthy (r := .ok ()) hauth huser hhealth)
  | registered hauth huser hhealth =>
      exact hcandidate (authenticate_path (allPossible_append.mp hn).1 hauth) rfl (by simp)
        (.registered hauth huser hhealth)

theorem ensured {o : Except PyError Process} (hl : AllPossible l) (hu : Uncancelled l)
    (h : Ends (ensure casefold RealTenantValidationService.authenticate c credentials) l o) :
    Ensured casefold c credentials l o := by
  rcases ensure_path casefold _ hl h with ⟨rfl, -⟩ | ⟨m, rfl, hlocked⟩
  · exact absurd List.mem_cons_self (hu _)
  · rw [allPossible_cons, allPossible_append] at hl
    have hm : Uncancelled m := hu.tail.left
    -- inside the lock anything can go on
    have hinside : ∀ {n : List ProvisionerEvent} {x : Except PyError Process}, LockedPath casefold
        RealTenantValidationService.authenticate c credentials n x →
        Ends (ensure casefold RealTenantValidationService.authenticate c credentials)
          (did (.lock c) () :: (n ++ [did (.unlock c) ()])) x :=
      fun hn => asyncWith_ends hn.ends
    cases hlocked with
    | interrupted hreuse =>
        cases hreuse with
        | interrupted =>
            exact (hm _ (List.mem_cons_of_mem _ (List.mem_cons_of_mem _ List.mem_cons_self))).elim
    | @reused session l _ hreuse =>
        have hcalm := hreuse.calm
        refine .reused (by simp [hcalm.1, ProvisionerOp.decides]) ?_
        have hends := hinside (.reused hreuse)
        simp only [List.map_cons, List.map_append, hcalm.2] at hends ⊢
        exact hends
    | @new n _ hnew =>
        refine EstablishPath.ensured [did (.lock c) (), did (.getSession c) none]
          hnew (allPossible_cons.mp hl.2.1).2 hm.tail rfl fun m o' hm => ?_
        exact hinside (.new hm)
    | @notReplaced session l m e hreuse hdispose =>
        cases (hdispose.calm hm.tail.right).1
    | @replaced session l m n _ hreuse hdispose hnew =>
        have hu' : Uncancelled (l ++ (m ++ n)) := hm.tail
        have hp : AllPossible (l ++ (m ++ n)) := (allPossible_cons.mp hl.2.1).2
        rw [allPossible_append, allPossible_append] at hp
        have hreused := hreuse.calm
        have hdisposed := hdispose.calm hu'.right.left
        have hlist : did (.lock c) () :: (did (.getSession c) (some session) :: (l ++ (m ++ n)) ++
            [did (.unlock c) ()]) = (did (.lock c) () :: did (.getSession c) (some session) ::
              (l ++ m)) ++ n ++ [did (.unlock c) ()] := by simp
        rw [hlist]
        refine EstablishPath.ensured _ hnew hp.2.2 hu'.right.right ?_ fun n' o' hn' => ?_
        · simp [hreused.1, hdisposed.2.1, ProvisionerOp.decides]
        · have hends := hinside (.replaced hreuse hdisposed.2.2 hn')
          simp only [List.map_cons, List.map_append, hreused.2, List.append_assoc,
            List.cons_append] at hends ⊢
          exact hends

/-! ## The error of the sign-in -/

/-- The error of a sign-in is classified as it must be, unless its report raised it. -/
theorem SignInPath.report {process : Process} {e : ExceptionClass}
    (h : SignInPath process credentials l (.error (.exception e))) :
    (∀ process e, raised (.healthCheck .authenticate process) (.exception e) ∈ l →
      classified e = unavailable) ↔ classified e = signInResult l := by
  generalize ho : (Except.error (PyError.exception e) : Except PyError AuthenticatedTenantSession)
    = o at h
  cases h with
  | noBrowser h =>
      cases ho
      cases h with
      | inl h => cases h
      | inr h =>
          cases h
          refine iff_of_true (fun _ _ he => ?_) rfl
          simp at he
  | noGraph =>
      cases ho
      refine iff_of_true (fun _ _ he => ?_) rfl
      simp at he
  | noExchange =>
      cases ho
      refine iff_of_true (fun _ _ he => ?_) rfl
      simp at he
  | noReport =>
      cases ho
      change _ ↔ classified e = unavailable
      simp
  | unidentified h =>
      cases ho
      refine iff_of_true (fun _ _ he => ?_) rfl
      simp at he
  | signedIn => cases ho

/-- Signing in does not start a process, stop it or check it for `validate`. -/
theorem SignInPath.signsInOnly {process : Process}
    {o : Except PyError AuthenticatedTenantSession} (h : SignInPath process credentials l o)
    (e : PyError) : raised .start e ∉ l ∧ (∀ p, raised (.healthCheck .validate p) e ∉ l) ∧
      ∀ p, raised (.stop .authenticate p) e ∉ l := by
  cases h <;> simp

theorem SignInPath.error {process : Process} {e : PyError}
    (h : SignInPath process credentials l (.error e)) :
    e = .exception .tenantSessionAuthentication ∨ ∃ op, raised op e ∈ l := by
  generalize ho : (Except.error e : Except PyError AuthenticatedTenantSession) = o at h
  cases h with
  | unidentified =>
      cases ho
      exact .inl rfl
  | signedIn => cases ho
  | noBrowser =>
      cases ho
      exact .inr ⟨.acquireBrowser, by simp⟩
  | noGraph =>
      cases ho
      exact .inr ⟨.authenticateGraph process credentials, by simp⟩
  | noExchange =>
      cases ho
      exact .inr ⟨.authenticateExchange process credentials, by simp⟩
  | noReport =>
      cases ho
      exact .inr ⟨.healthCheck .authenticate process, by simp⟩

section

variable {process : Process} {r : Except PyError Unit}

/-- The events of a process that is signed in and stopped. -/
abbrev stoppedAfter (process : Process) (l : List ProvisionerEvent) (r : Except PyError Unit) :
    List ProvisionerEvent :=
  did .start process :: (l ++ [⟨.stop .authenticate process, r⟩])

theorem signInResult_stoppedAfter (process : Process) :
    signInResult (stoppedAfter process l r) = signInResult l := by
  unfold signInResult signInError
  rw [List.findSome?_cons, List.findSome?_append]
  change (match (List.findSome? raisedBySignIn l).or none with
    | some e => classified e
    | none => unavailable) = _
  rw [Option.or_none]

theorem mem_stoppedAfter {op : ProvisionerOp} {e : PyError} :
    raised op e ∈ stoppedAfter process l r ↔
      raised op e ∈ l ∨ raised op e = ⟨.stop .authenticate process, r⟩ := by
  rw [List.mem_cons, List.mem_append, List.mem_singleton]
  exact or_iff_right fun he => by cases he

/-- A stop after a sign-in that failed with `e`. -/
theorem SignInPath.preserves {e : ExceptionClass}
    (h : SignInPath process credentials l (.error (.exception e))) :
    Preserves (stoppedAfter process l r) ↔ classified e = signInResult l ∧
      ∀ error, r = .error (.exception error) → classified error = signInResult l := by
  rw [← h.report]
  constructor
  · rintro ⟨-, hreport, -, hstop⟩
    refine ⟨fun p e he => hreport p e (mem_stoppedAfter.mpr (.inl he)), ?_⟩
    rintro error rfl
    rw [← signInResult_stoppedAfter process]
    exact hstop process error (mem_stoppedAfter.mpr (.inr rfl))
  · rintro ⟨hreport, hstop⟩
    refine ⟨fun e he => ?_, fun p e he => ?_, fun p e he => ?_, fun p e he => ?_⟩
    · rcases mem_stoppedAfter.mp he with he | he
      · exact absurd he (h.signsInOnly _).1
      · cases he
    · rcases mem_stoppedAfter.mp he with he | he
      · exact hreport p e he
      · cases he
    · rcases mem_stoppedAfter.mp he with he | he
      · exact absurd he ((h.signsInOnly _).2.1 p)
      · cases he
    · rw [signInResult_stoppedAfter]
      rcases mem_stoppedAfter.mp he with he | he
      · exact absurd he ((h.signsInOnly _).2.2 p)
      · cases he
        exact hstop e rfl

end

theorem AuthenticatePath.error {e : PyError} (h : AuthenticatePath credentials l (.error e)) :
    e = .exception .tenantSessionAuthentication ∨ ∃ op, raised op e ∈ l := by
  generalize ho : (Except.error e : Except PyError AuthenticatedTenantSession) = o at h
  cases h with
  | notStarted =>
      cases ho
      exact .inr ⟨_, List.mem_cons_self⟩
  | authenticated => cases ho
  | stopped h =>
      cases ho
      rcases h.error with he | ⟨op, hop⟩
      · exact .inl he
      · exact .inr ⟨op, mem_stoppedAfter.mpr (.inl hop)⟩
  | notStopped h =>
      cases ho
      exact .inr ⟨_, mem_stoppedAfter.mpr (.inr rfl)⟩

/-- With a stop that returns, `_authenticate` raises the error of the sign-in.  The events preserve
that error exactly if what was raised is of its class, and so is what would have been. -/
theorem AuthenticatePath.preserves {e : ExceptionClass} (hu : Uncancelled l)
    (h : AuthenticatePath credentials l (.error (.exception e))) :
    ∃ e', AuthenticatePath credentials (l.map Provisioner.calm) (.error (.exception e')) ∧
      (Preserves l ↔ classified e = signInResult l ∧ classified e' = classified e) := by
  generalize ho : (Except.error (PyError.exception e) : Except PyError AuthenticatedTenantSession)
    = o at h
  cases h with
  | authenticated => cases ho
  | notStarted =>
      cases ho
      refine ⟨e, .notStarted, ?_⟩
      change _ ↔ classified e = unavailable ∧ _
      constructor
      · exact fun hp => ⟨hp.start e List.mem_cons_self, rfl⟩
      · rintro ⟨he, -⟩
        refine ⟨fun x hx => ?_, fun p x hx => ?_, fun p x hx => ?_, fun p x hx => ?_⟩
        · cases List.mem_singleton.mp hx
          exact he
        · cases List.mem_singleton.mp hx
        · cases List.mem_singleton.mp hx
        · cases List.mem_singleton.mp hx
  | @stopped process m _ hm =>
      cases ho
      refine ⟨e, ?_, ?_⟩
      · rw [List.map_cons, List.map_append, hm.calm.2]
        exact .stopped hm
      · rw [hm.preserves, signInResult_stoppedAfter]
        simp
  -- the stop raised, and its error replaces that of the sign-in
  | @notStopped process m x _ hm =>
      cases ho
      have hx : ∃ e', x = .exception e' := by
        rcases hm.error with hx | ⟨op, hop⟩
        · exact ⟨_, hx⟩
        · exact hu.exception (mem_stoppedAfter.mpr (.inl hop))
      obtain ⟨e', rfl⟩ := hx
      refine ⟨e', ?_, ?_⟩
      · rw [List.map_cons, List.map_append, hm.calm.2]
        exact .stopped hm
      · rw [hm.preserves, signInResult_stoppedAfter]
        constructor
        · rintro ⟨he', hstop⟩
          have he := hstop e rfl
          exact ⟨he, he'.trans he.symm⟩
        · rintro ⟨he, he'⟩
          refine ⟨he'.trans he, fun error herror => ?_⟩
          cases herror
          exact he

/-! ## The result -/

theorem classified_ne_success {e : ExceptionClass} {microsoftTenantId : PyString} :
    classified e ≠ .success microsoftTenantId := by
  cases e <;> exact fun h => by cases h

/-- A failed call is classified if its result is the sign-in's. -/
theorem classified_answered {e : ExceptionClass} :
    Classified l (answered (.exception e)) ↔ classified e = signInResult l := by
  rw [answered_exception]
  constructor
  · rintro (h | ⟨-, tenant, h⟩)
    · exact Except.ok.inj h
    · exact absurd (Except.ok.inj h) classified_ne_success
  · exact fun h => .inl (congrArg Except.ok h)

theorem ends_unique {α : Type} {p : ProvisionerProgram α} {o o' : Except PyError α}
    (h : Ends p l o) (h' : Ends p l o') : o = o' := by
  have heq := Path.unique h h'
  rcases o with e | a
  · rcases o' with e' | a'
    · cases heq
      rfl
    · cases heq
  · rcases o' with e' | a'
    · cases heq
    · cases heq
      rfl

theorem signInError_signedIn {candidate : AuthenticatedTenantSession}
    (h : AuthenticatePath credentials l (.ok candidate)) : signInError l = none := by
  cases h with
  | authenticated h =>
      cases h with
      | signedIn => rfl

theorem preserves_signedIn {candidate : AuthenticatedTenantSession}
    (h : AuthenticatePath credentials l (.ok candidate)) : Preserves l := by
  cases h with
  | authenticated h =>
      cases h with
      | signedIn => refine ⟨?_, ?_, ?_, ?_⟩ <;> simp

theorem decisive_between {before after : List ProvisionerEvent} (hbefore : decisive before = [])
    (hafter : decisive after = []) : decisive (before ++ l ++ after) = decisive l := by
  rw [decisive_append, decisive_append, hbefore, hafter, List.nil_append, List.append_nil]

/-- A process that `ensure` returned has raised nothing on the way. -/
theorem Ensured.ok {process : Process} (h : Ensured casefold c credentials l (.ok process)) :
    signInError l = none ∧ Preserves l ∧
      Ends (ensure casefold RealTenantValidationService.authenticate c credentials)
        (l.map Provisioner.calm) (.ok process) := by
  cases h with
  | reused hdecisive hcalm =>
      refine ⟨?_, ?_, hcalm⟩
      · exact signInError_congr (m := []) hdecisive
      · refine (preserves_congr (m := []) hdecisive).mpr ⟨?_, ?_, ?_, ?_⟩ <;> simp
  | signedIn hauth hbefore hafter _ hcalm =>
      refine ⟨?_, ?_, hcalm⟩
      · rw [signInError_congr (decisive_between hbefore hafter), signInError_signedIn hauth]
      · exact (preserves_congr (decisive_between hbefore hafter)).mpr (preserves_signedIn hauth)

/-- The error that `ensure` raises, and the one it would raise if every stop returned. -/
theorem Ensured.error {e : PyError} (hu : Uncancelled l)
    (h : Ensured casefold c credentials l (.error e)) :
    ∃ error error', e = .exception error ∧
      Ends (ensure casefold RealTenantValidationService.authenticate c credentials)
        (l.map Provisioner.calm) (.error (.exception error')) ∧
      (Preserves l ↔ classified error = signInResult l ∧ classified error' = classified error) := by
  generalize ho : (Except.error e : Except PyError Process) = o at h
  cases h with
  | reused => cases ho
  | @signedIn before m after _ _ hauth hbefore hafter he hcalm =>
      subst ho
      cases he e rfl
      have hdecisive : decisive (before ++ m ++ after) = decisive m :=
        decisive_between hbefore hafter
      refine ⟨_, _, rfl, hcalm, ?_⟩
      rw [preserves_congr hdecisive, signInResult_congr hdecisive, signInResult,
        signInError_signedIn hauth]
      exact iff_of_true (preserves_signedIn hauth) ⟨rfl, rfl⟩
  | @notSignedIn before m after _ hauth hbefore hafter hcalm =>
      cases ho
      have hdecisive : decisive (before ++ m ++ after) = decisive m :=
        decisive_between hbefore hafter
      have he : ∃ error, e = .exception error := by
        rcases hauth.error with he | ⟨op, hop⟩
        · exact ⟨_, he⟩
        · exact hu.exception (List.mem_append_left _ (List.mem_append_right _ hop))
      obtain ⟨error, rfl⟩ := he
      obtain ⟨error', hpath, hpreserves⟩ := hauth.preserves hu.left.right
      refine ⟨error, error', rfl, ?_, ?_⟩
      · rw [List.map_append, List.map_append]
        exact hcalm _ _ hpath
      · rw [preserves_congr hdecisive, signInResult_congr hdecisive]
        exact hpreserves

/-- The last check of `validate`. -/
abbrev lastCheck (process : Process) (r : Except PyError TenantPowerShellHealthCheck) :
    ProvisionerEvent := ⟨.healthCheck .validate process, r⟩

theorem Preserves.lastCheck {process : Process} {r : Except PyError TenantPowerShellHealthCheck}
    (h : Preserves l) :
    Preserves (l ++ [Provisioner.lastCheck process r]) ↔
      ∀ e, r = .error (.exception e) → classified e = unavailable := by
  have hresult : signInResult (l ++ [Provisioner.lastCheck process r]) = signInResult l := by
    unfold signInResult signInError
    rw [List.findSome?_append]
    change (match (List.findSome? raisedBySignIn l).or none with
      | some e => classified e
      | none => unavailable) = _
    rw [Option.or_none]
  have hmem : ∀ {op : ProvisionerOp} {e : PyError},
      raised op e ∈ l ++ [Provisioner.lastCheck process r] ↔
        raised op e ∈ l ∨ raised op e = Provisioner.lastCheck process r := by
    intro op e
    rw [List.mem_append, List.mem_singleton]
  constructor
  · rintro hlast e rfl
    exact hlast.check process e (hmem.mpr (.inr rfl))
  · intro hr
    refine ⟨fun e he => ?_, fun p e he => ?_, fun p e he => ?_, fun p e he => ?_⟩
    · rcases hmem.mp he with he | he
      · exact h.start e he
      · cases he
    · rcases hmem.mp he with he | he
      · exact h.report p e he
      · cases he
    · rcases hmem.mp he with he | he
      · exact h.check p e he
      · cases he
        exact hr e rfl
    · rw [hresult]
      rcases hmem.mp he with he | he
      · exact h.stop p e he
      · cases he

/-- What `validate` makes of its last check, without cancellation. -/
theorem reported_cases (health : TenantPowerShellHealthCheck) :
    reported (.ok health) = .ok unavailable ∨
      ∃ microsoftTenantId, reported (.ok health) = .ok (.success microsoftTenantId) := by
  simp only [reported_ok, verdict]
  rcases health.microsoftTenantId with _ | microsoftTenantId
  · exact .inl rfl
  · by_cases hempty : microsoftTenantId = []
    · simp only [if_pos hempty]
      exact .inl rfl
    · simp only [if_neg hempty]
      exact .inr ⟨microsoftTenantId, rfl⟩

variable (casefold)

/-- For every reply of the process, without cancellation: `validate` does not raise, and its result
is the sign-in's, whatever a stop does, exactly if the replies preserve the sign-in's error. -/
theorem failure_classification {request : TenantValidationRequest}
    {o : Except PyError TenantValidationResult} (hl : AllPossible l) (hu : Uncancelled l)
    (h : Ends (RealTenantValidationService.validate casefold
      RealTenantValidationService.authenticate request) l o) :
    (∃ result, o = .ok result) ∧
      (Classified l o ∧ Ends (RealTenantValidationService.validate casefold
        RealTenantValidationService.authenticate request) (l.map Provisioner.calm) o ↔
        Preserves l) := by
  rcases (validate_ends casefold _).mp h with ⟨e, hensure, rfl⟩ | ⟨m, process, r, rfl, hensure, rfl⟩
  -- the call ended in `ensure`
  · obtain ⟨error, error', rfl, hcalm, hpreserves⟩ := (ensured hl hu hensure).error hu
    have hends := (validate_ends casefold _).mpr (.inl ⟨_, hcalm, rfl⟩)
    rw [answered_exception] at hends
    refine ⟨⟨_, answered_exception error⟩, ?_⟩
    rw [hpreserves, classified_answered, answered_exception]
    refine and_congr_right fun _ => ⟨fun hsame => ?_, fun hsame => ?_⟩
    · exact Except.ok.inj (ends_unique hends hsame)
    · rwa [← hsame]
  -- the session was ensured, and the last check decides
  · rw [allPossible_append] at hl
    obtain ⟨hnone, hpreserves, hcalm⟩ := (ensured hl.1 hu.left hensure).ok
    have hends : Ends (RealTenantValidationService.validate casefold
        RealTenantValidationService.authenticate request)
        ((m ++ [lastCheck process r]).map Provisioner.calm) (reported r) := by
      rw [List.map_append]
      exact (validate_ends casefold _).mpr (.inr ⟨_, process, r, rfl, hcalm, rfl⟩)
    have hlast : signInError (m ++ [lastCheck process r]) = none := by
      unfold signInError at hnone ⊢
      rw [List.findSome?_append, hnone]
      rfl
    rw [hpreserves.lastCheck]
    rcases r with e | health
    · obtain ⟨error, rfl⟩ := hu.exception (List.mem_append_right m List.mem_cons_self)
      refine ⟨⟨_, answered_exception error⟩, ?_⟩
      change Classified _ (answered _) ∧ _ ↔ _
      rw [classified_answered, signInResult, hlast, and_iff_left hends]
      constructor
      · intro he x hx
        cases hx
        exact he
      · exact fun he => he error rfl
    · refine ⟨?_, iff_of_true ⟨?_, hends⟩ (fun _ he => by cases he)⟩
      · rcases reported_cases health with ho | ⟨_, ho⟩
        · exact ⟨_, ho⟩
        · exact ⟨_, ho⟩
      · unfold Classified
        rw [signInResult, hlast]
        exact (reported_cases health).imp id fun ho => ⟨rfl, ho⟩

end

/-! ## A rejected password behind a stop that fails -/

def rejectedRequest : TenantValidationRequest :=
  ⟨"job".toList, "connection".toList, ⟨"admin@contoso.com".toList, "secret".toList⟩⟩

def failingStop : List ProvisionerEvent :=
  [did (.lock rejectedRequest.tenantConnectionId) (),
    did (.getSession rejectedRequest.tenantConnectionId) none, did .start 0, did .acquireBrowser (),
    raised (.authenticateGraph 0 rejectedRequest.credentials) (.exception .invalidCredentials),
    did .releaseBrowser (), raised (.stop .authenticate 0) (.exception .other),
    did (.unlock rejectedRequest.tenantConnectionId) ()]

theorem failingStop_possible : AllPossible failingStop := by
  simp [failingStop, Possible]

theorem failingStop_uncancelled : Uncancelled failingStop := by
  intro op hop
  simp only [failingStop, List.mem_cons, List.not_mem_nil, or_false] at hop
  rcases hop with h | h | h | h | h | h | h | h <;> cases h

theorem failingStop_ends : Ends (RealTenantValidationService.validate id
    RealTenantValidationService.authenticate rejectedRequest) failingStop (.ok unavailable) := by
  repeat apply Path.cons
  exact Path.nil _

/-- The same run with a stop that returns. -/
theorem failingStop_calm_ends : Ends (RealTenantValidationService.validate id
    RealTenantValidationService.authenticate rejectedRequest) (failingStop.map calm)
    (.ok (.failure .invalidCredentials false)) := by
  repeat apply Path.cons
  exact Path.nil _

theorem failure_classification_failing_stop :
    (∃ result, (Except.ok unavailable : Except PyError TenantValidationResult) = .ok result) ∧
      (Classified failingStop (.ok unavailable) ∧ Ends (RealTenantValidationService.validate id
        RealTenantValidationService.authenticate rejectedRequest) (failingStop.map calm)
        (.ok unavailable) ↔ Preserves failingStop) :=
  failure_classification id failingStop_possible failingStop_uncancelled failingStop_ends

/-- A stop that fails hides that the credentials were rejected. -/
theorem stop_hides_rejected_credentials :
    AllPossible failingStop ∧ Uncancelled failingStop ∧
      Ends (RealTenantValidationService.validate id RealTenantValidationService.authenticate
        rejectedRequest) failingStop (.ok unavailable) ∧
      signInError failingStop = some .invalidCredentials ∧
      unavailable ≠ classified .invalidCredentials ∧
      ¬ Classified failingStop (.ok unavailable) ∧
      ¬ Ends (RealTenantValidationService.validate id RealTenantValidationService.authenticate
        rejectedRequest) (failingStop.map calm) (.ok unavailable) := by
  refine ⟨failingStop_possible, failingStop_uncancelled, failingStop_ends, rfl, by decide, ?_, ?_⟩
  · rintro (h | ⟨h, -⟩)
    · cases h
    · cases h
  · intro h
    cases ends_unique h failingStop_calm_ends

end InboxSaas.Provisioner
