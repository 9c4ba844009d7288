import InboxSaas.Product.SealedCredentials
import InboxSaas.Worker.RunProtocol

/-!
# What a run asks the provisioner

The course of a run is the connection of its claim, the row it read and what became of its permit.
The provisioner is called under a permit for the organization of the claimed connection only, for
this connection, and with the credentials the cipher reads from the row; at the end no permit is
held.
-/

namespace InboxSaas.Worker

open Reasoning Product Program

/-! ## The course of a run -/

/-- The permit of a run. -/
inductive Holding where
  | notAsked
  | held (organizationId : Uuid)
  | givenBack

structure Course where
  /-- The connection that the claim was answered with. -/
  connection : Option TenantConnectionDto
  /-- The row that was read. -/
  row : Option TenantConnection
  permit : Holding

namespace Course

def initial : Course := ⟨none, none, .notAsked⟩

def next (c : Course) : WorkerEvent → Course
  | ⟨.claimTenantValidationJob _ _ _, .ok (.claimed connection _)⟩ =>
      { c with connection := some connection }
  | ⟨.query (.selectTenantConnection _), .ok row⟩ => { c with row := row }
  | ⟨.acquire organizationId, .ok _⟩ => { c with permit := .held organizationId }
  | ⟨.release _, _⟩ => { c with permit := .givenBack }
  | _ => c

/-- No permit is held. -/
def Released (c : Course) : Prop :=
  ∀ organizationId, c.permit ≠ .held organizationId

end Course

def course (l : List WorkerEvent) : Course :=
  l.foldl Course.next .initial

@[simp] theorem course_nil : course [] = .initial := rfl

@[simp] theorem course_snoc (l : List WorkerEvent) (e : WorkerEvent) :
    course (l ++ [e]) = (course l).next e :=
  List.foldl_append

/-- The operations that say nothing of the course. -/
def WorkerOp.quiet : WorkerOp → Bool
  | .query (.selectTenantConnection _) => false
  | .startTenantValidation _ _ _ => false
  | .claimTenantValidationJob _ _ _ => false
  | .acquire _ => false
  | .release _ => false
  | .validateTenant _ => false
  | _ => true

theorem Course.next_quiet (c : Course) {e : WorkerEvent} (h : e.op.quiet = true) :
    c.next e = c := by
  unfold Course.next
  split
  · cases h
  · cases h
  · cases h
  · cases h
  · rfl

/-- What a run for the job may do next. -/
def Course.Permits (cipher : TenantCredentialCipher) (jobId : Uuid) (c : Course) : WorkerOp → Prop
  | .claimTenantValidationJob id _ _ => id = jobId ∧ c.connection = none
  | .query (.selectTenantConnection id) =>
      ∃ connection, c.connection = some connection ∧ id = connection.id
  | .acquire organizationId => c.permit = .notAsked ∧
      ∃ connection, c.connection = some connection ∧ organizationId = connection.organizationId
  | .release organizationId => c.permit = .held organizationId
  | .validateTenant request => ∃ connection row, c.connection = some connection ∧
      c.row = some row ∧ c.permit = .held connection.organizationId ∧ request.jobId = jobId ∧
      request.tenantConnectionId = connection.id ∧ Opens cipher row request.credentials
  | op => op.quiet = true

def requestProtocol (cipher : TenantCredentialCipher) (jobId : Uuid) :
    Protocol WorkerOp WorkerOp.Reply JsError where
  possible _ := True
  permits l op := (course l).Permits cipher jobId op

section

variable {cipher : TenantCredentialCipher} {jobId : Uuid} {l : List WorkerEvent}

theorem Course.permits_quiet (c : Course) {op : WorkerOp} (h : op.quiet = true) :
    c.Permits cipher jobId op := by
  unfold Course.Permits
  split
  · cases h
  · cases h
  · cases h
  · cases h
  · cases h
  · exact h

theorem permits_quiet {op : WorkerOp} (h : op.quiet = true) :
    (requestProtocol cipher jobId).permits l op :=
  (course l).permits_quiet h

/-- The operation is permitted and leaves the course as it is. -/
def Course.Steady (cipher : TenantCredentialCipher) (jobId : Uuid) (c : Course) (op : WorkerOp) :
    Prop :=
  c.Permits cipher jobId op ∧ ∀ r, c.next ⟨op, r⟩ = c

theorem Course.steady_quiet (c : Course) {op : WorkerOp} (h : op.quiet = true) :
    c.Steady cipher jobId op :=
  ⟨c.permits_quiet h, fun r => c.next_quiet (e := ⟨op, r⟩) h⟩

/-- A program of such operations keeps to the protocol. -/
theorem obeys_steady {α : Type} {p : WorkerProgram α} {c : Course}
    (hp : p.Issues (c.Steady cipher jobId)) (hl : course l = c) :
    Obeys (requestProtocol cipher jobId) (fun _ m => course m = c) p l := by
  induction p generalizing l with
  | ret a => exact hl
  | raise e => exact hl
  | call op next ih =>
      have ⟨⟨hpermits, hnext⟩, hrest⟩ := hp
      subst hl
      refine ⟨hpermits, fun r _ => ih r (hrest r) ?_⟩
      rw [course_snoc, hnext]

theorem issues_dateOr (c : Course) (now : Option Time) :
    (dateOr now).Issues (c.Steady cipher jobId) := by
  cases now with
  | some now => exact trivial
  | none => exact ⟨c.steady_quiet rfl, fun r => by cases r <;> exact trivial⟩

theorem issues_renewLease (c : Course) (jobId' leaseToken : Uuid) (renewedAt : Time) :
    (renewLease jobId' leaseToken renewedAt).Issues (c.Steady cipher jobId) := by
  have hlose : (do await .loseLease; return false : WorkerProgram Bool).Issues
      (c.Steady cipher jobId) := issues_perform_bind (c.steady_quiet rfl) fun _ => trivial
  apply Issues.handle
  · apply issues_perform_bind (c.steady_quiet rfl)
    intro renewed
    cases renewed with
    | true => exact trivial
    | false => exact hlose
  · exact fun _ => hlose

/-- What a run does under its permit; the call of the provisioner is in it. -/
theorem issues_validateUnderPermit {connection : TenantConnectionDto} {row : TenantConnection}
    {credentials : TenantCredentials} (hopens : Opens cipher row credentials) (leaseToken : Uuid)
    (now : Option Time) :
    (validateUnderPermit jobId connection.id leaseToken credentials now).Issues
      (Course.Steady cipher jobId ⟨some connection, some row, .held connection.organizationId⟩) := by
  generalize hc : (⟨some connection, some row, .held connection.organizationId⟩ : Course) = c
  apply issues_perform_bind (c.steady_quiet rfl)
  intro lost
  split
  · exact trivial
  · apply (issues_dateOr c now).bind
    intro renewedAt
    apply (issues_renewLease c jobId leaseToken renewedAt).bind
    intro renewed
    split
    · exact trivial
    · have hvalidate : c.Steady cipher jobId
          (.validateTenant ⟨jobId, connection.id, credentials⟩) := by
        subst hc
        exact ⟨⟨connection, row, rfl, rfl, rfl, rfl, rfl, hopens⟩, fun _ => rfl⟩
      apply Issues.bind
      · apply Issues.handle
        · exact ⟨hvalidate, fun r => by cases r <;> exact trivial⟩
        · exact fun _ => trivial
      · intro result
        apply (issues_dateOr c now).bind
        intro appliedAt
        exact issues_perform_bind (c.steady_quiet rfl) fun _ => trivial

/-- A run that holds its permit gives it back, whether it returns or throws. -/
theorem releasing_releases {p : WorkerProgram ProcessTenantValidationJobResult} {c : Course}
    {organizationId : Uuid} (hp : p.Issues (c.Steady cipher jobId)) (hl : course l = c)
    (hheld : c.permit = .held organizationId) :
    Obeys (requestProtocol cipher jobId) (fun _ m => (course m).Released)
      (do
        let outcome ← tryCatch p (fun error => do
          await (.release organizationId)
          throw error)
        await (.release organizationId)
        return outcome) l := by
  have hpermits : ∀ {m : List WorkerEvent}, course m = c →
      (course m).Permits cipher jobId (.release organizationId) := by
    intro m hm
    rw [hm]
    exact hheld
  have hreleased : ∀ (m : List WorkerEvent) (r : Except JsError Unit),
      (course (m ++ [⟨.release organizationId, r⟩])).Released := by
    intro m r
    rw [course_snoc]
    intro _ he
    cases he
  apply Obeys.bind (Q := fun o m => (∃ a, o = .ok a ∧ course m = c) ∨
    (∃ e, o = .error e) ∧ (course m).Released)
  · apply (obeys_steady hp hl).handle
    · exact fun a m hm => .inl ⟨a, rfl, hm⟩
    · intro e m hm
      apply obeys_perform_bind (hpermits hm)
      · exact fun r _ => .inr ⟨⟨e, rfl⟩, hreleased m _⟩
      · exact fun e' _ => .inr ⟨⟨e', rfl⟩, hreleased m _⟩
  · intro a m h
    rcases h with ⟨_, _, hm⟩ | ⟨⟨e, he⟩, _⟩
    · apply obeys_perform_bind (hpermits hm)
      · exact fun r _ => hreleased m _
      · exact fun e _ => hreleased m _
    · cases he
  · intro e m h
    rcases h with ⟨_, he, _⟩ | ⟨_, hm⟩
    · cases he
    · exact hm

theorem processClaimedJob_requests {connection : TenantConnectionDto} {row : Option TenantConnection}
    (hl : course l = ⟨some connection, row, .notAsked⟩) (credentialKeyVersion : JsString)
    (leaseToken : Uuid) (now : Option Time) :
    Obeys (requestProtocol cipher jobId) (fun _ m => (course m).Released)
      (processClaimedJob cipher credentialKeyVersion jobId leaseToken connection now) l := by
  have hread : ∀ r, (course (l ++ [⟨.query (.selectTenantConnection connection.id), r⟩])).Released := by
    intro r organizationId
    rw [course_snoc, hl]
    cases r <;> exact nofun
  unfold processClaimedJob
  apply obeys_perform_bind
  · show (course l).Permits cipher jobId (.query (.selectTenantConnection connection.id))
    rw [hl]
    exact ⟨connection, rfl, rfl⟩
  · intro found _
    have hm : course (l ++ [⟨.query (.selectTenantConnection connection.id), .ok found⟩]) =
        ⟨some connection, found, .notAsked⟩ := by
      rw [course_snoc, hl]
      rfl
    have hreleased := hread (.ok found)
    generalize l ++ [⟨.query (.selectTenantConnection connection.id), .ok found⟩] = m at hm hreleased
    cases found with
    | none => exact hreleased
    | some encryptedCredentials =>
        dsimp only
        split
        · exact hreleased
        · cases hopens : cipher.decrypt encryptedCredentials.encryptedCredentials
              ⟨uuidOut encryptedCredentials.workspaceId, .tenantValidation⟩ with
          | error e =>
              show Obeys _ _ (Program.ofExcept (cipher.decrypt encryptedCredentials.encryptedCredentials
                ⟨uuidOut encryptedCredentials.workspaceId, .tenantValidation⟩) >>= _) m
              rw [hopens]
              exact hreleased
          -- from here on a permit is asked for, and given back however the rest ends
          | ok credentials =>
              show Obeys _ _ (Program.ofExcept (cipher.decrypt encryptedCredentials.encryptedCredentials
                ⟨uuidOut encryptedCredentials.workspaceId, .tenantValidation⟩) >>= _) m
              rw [hopens, ofExcept_ok, ret_bind]
              apply obeys_perform_bind
              · show (course m).Permits cipher jobId (.acquire connection.organizationId)
                rw [hm]
                exact ⟨rfl, connection, rfl, rfl⟩
              · intro _ _
                apply releasing_releases (issues_validateUnderPermit hopens leaseToken now) _ rfl
                rw [course_snoc, hm]
                rfl
              · intro e _
                rw [course_snoc, hm]
                exact nofun
  · exact fun e _ => hread (.error e)

/-- The timer of a run does not change its course. -/
theorem renewing_releases {p : WorkerProgram ProcessTenantValidationJobResult} {c : Course}
    {leaseToken : Uuid} (hl : course l = c) (hc : c.Released)
    (h : ∀ m, course m = c →
      Obeys (requestProtocol cipher jobId) (fun _ m => (course m).Released) p m) :
    Obeys (requestProtocol cipher jobId) (fun _ m => (course m).Released)
      (do
        await (.startRenewals jobId leaseToken)
        let outcome ← tryCatch p (fun _ => do
          await .stopRenewals
          throw processingFailed)
        await .stopRenewals
        return outcome) l := by
  have hsame : ∀ (m : List WorkerEvent) (op : WorkerOp) (r : Except JsError op.Reply),
      op.quiet = true → course (m ++ [⟨op, r⟩]) = course m := fun m op r h => by
    rw [course_snoc, Course.next_quiet _ h]
  have hstop : ∀ {o : Except JsError ProcessTenantValidationJobResult} (m : List WorkerEvent),
      (course m).Released → Obeys (requestProtocol cipher jobId) (fun _ m => (course m).Released)
        (do
          await .stopRenewals
          Program.ofExcept o) m := by
    intro o m hm
    apply obeys_perform_bind
    · exact permits_quiet rfl
    · intro r _
      have hr : (course (m ++ [⟨.stopRenewals, .ok r⟩])).Released := by
        rw [hsame m .stopRenewals _ rfl]
        exact hm
      cases o <;> exact hr
    · intro e _
      rw [hsame m .stopRenewals _ rfl]
      exact hm
  apply obeys_perform_bind
  · exact permits_quiet rfl
  · intro _ _
    have hm : course (l ++ [⟨.startRenewals jobId leaseToken, .ok ()⟩]) = c :=
      (hsame l (.startRenewals jobId leaseToken) (.ok ()) rfl).trans hl
    apply Obeys.bind (Q := fun _ m => (course m).Released)
    · apply (h _ hm).handle
      · exact fun _ _ hm => hm
      · exact fun e m hm => hstop (o := .error processingFailed) m hm
    · exact fun outcome m hm => hstop (o := .ok outcome) m hm
    · exact fun _ _ hm => hm
  · intro e _
    rw [hsame l (.startRenewals jobId leaseToken) _ rfl, hl]
    exact hc

theorem processTenantValidationJob_requests (cipher : TenantCredentialCipher)
    (credentialKeyVersion : JsString) (jobId : Uuid) (now : Option Time) :
    Obeys (requestProtocol cipher jobId) (fun _ m => (course m).Released)
      (processTenantValidationJob cipher credentialKeyVersion jobId now) [] := by
  have hinitial : Course.Released .initial := nofun
  unfold processTenantValidationJob
  apply (obeys_steady (issues_dateOr .initial now) course_nil).bind
  · intro claimedAt m hm
    have hclaimed : ∀ r, course (m ++ [⟨.claimTenantValidationJob jobId claimedAt leaseDurationMs, r⟩])
        = Course.initial.next ⟨.claimTenantValidationJob jobId claimedAt leaseDurationMs, r⟩ := by
      intro r
      rw [course_snoc, hm]
    have hclaim : Obeys (requestProtocol cipher jobId)
        (fun o m => ∃ r, course m =
            Course.initial.next ⟨.claimTenantValidationJob jobId claimedAt leaseDurationMs, r⟩ ∧
          ∀ claimed, o = .ok claimed → r = .ok claimed)
        (tryCatch (await (.claimTenantValidationJob jobId claimedAt leaseDurationMs))
          (fun _ => throw claimFailed)) m := by
      apply Obeys.handle (Q := fun o m => course m =
        Course.initial.next ⟨.claimTenantValidationJob jobId claimedAt leaseDurationMs, o⟩)
      · apply obeys_perform
        · show (course m).Permits cipher jobId
            (.claimTenantValidationJob jobId claimedAt leaseDurationMs)
          rw [hm]
          exact ⟨rfl, rfl⟩
        · intro r _
          exact hclaimed r
      · exact fun a m hm => ⟨.ok a, hm, fun _ he => he⟩
      · exact fun e m hm => ⟨.error e, hm, fun _ he => by cases he⟩
    -- what the claim answered, or raised, is all that the course knows here
    apply hclaim.bind
    · intro claimed m' h
      have ⟨r, hm', hr⟩ := h
      cases hr claimed rfl
      cases claimed with
      | notFound =>
          show (course m').Released
          rw [hm']
          exact hinitial
      | claimed connection job =>
          dsimp only
          cases job.leaseToken with
          | none =>
              show (course m').Released
              rw [hm']
              exact nofun
          | some leaseToken =>
              exact renewing_releases hm' nofun fun m hm => processClaimedJob_requests hm _ _ _
    · intro e m' h
      have ⟨r, hm', _⟩ := h
      rw [hm']
      cases r with
      | error => exact hinitial
      | ok claimed => cases claimed <;> exact nofun
  · intro e m hm
    rw [hm]
    exact hinitial

end

/-! ## Every task keeps to it -/

namespace Task

/-- The cipher of the task, if it has one. -/
def Uses (cipher : TenantCredentialCipher) : Task → Prop
  | .process used _ _ _ => used = cipher
  | .start _ _ used => used = cipher
  | .tick _ => True

/-- Only a start starts, and only a run does what its course permits. -/
def requests (cipher : TenantCredentialCipher) : Task → Protocol WorkerOp WorkerOp.Reply JsError
  | .process _ _ jobId _ => requestProtocol cipher jobId
  | .start grants input _ =>
      ⟨fun _ => True, fun _ op => op = .startTenantValidation grants input cipher⟩
  | .tick _ => ⟨fun _ => True, fun _ op => op.quiet = true⟩

theorem obeys_quiet {α : Type} {now : Option Time} {p : WorkerProgram α}
    (hp : p.Issues (fun op => op.quiet = true)) (cipher : TenantCredentialCipher)
    {l : List WorkerEvent} (hl : course l = .initial) :
    Obeys ((Task.tick now).requests cipher) (fun _ m => course m = .initial) p l := by
  induction p generalizing l with
  | ret a => exact hl
  | raise e => exact hl
  | call op next ih =>
      refine ⟨hp.1, fun r _ => ih r (hp.2 r) ?_⟩
      rw [course_snoc, Course.next_quiet _ hp.1, hl]

theorem issues_dispatchEach (events : List OutboxEvent) :
    (dispatchEach events).Issues (fun op => op.quiet = true) := by
  induction events with
  | nil => exact trivial
  | cons event rest ih =>
      apply Issues.bind
      · apply Issues.handle
        · refine issues_perform_bind (by exact rfl) fun _ => ?_
          refine issues_perform_bind (by exact rfl) fun dispatchedAt => ?_
          exact ⟨rfl, fun r => by cases r <;> exact trivial⟩
        · exact fun _ => trivial
      · exact fun _ => ih

/-- A task does what its protocol permits, and ends without a permit. -/
theorem obeys_requests {cipher : TenantCredentialCipher} {task : Task} (h : task.Uses cipher) :
    Obeys (task.requests cipher) (fun _ l => (course l).Released) task.program [] := by
  have hinitial : Course.Released .initial := nofun
  cases task with
  | process used credentialKeyVersion jobId now =>
      cases h
      apply (processTenantValidationJob_requests cipher credentialKeyVersion jobId now).bind
      · exact fun _ _ hm => hm
      · exact fun _ _ hm => hm
  | tick now =>
      have hquiet : (Task.tick now).program.Issues (fun op => op.quiet = true) := by
        apply Issues.bind
        · apply Issues.bind
          · cases now with
            | some now => exact trivial
            | none => exact ⟨rfl, fun r => by cases r <;> exact trivial⟩
          · intro now
            refine issues_perform_bind (by exact rfl) fun _ => ?_
            exact issues_perform_bind (by exact rfl) fun events => issues_dispatchEach events
        · exact fun _ => trivial
      apply (obeys_quiet hquiet cipher course_nil).mono
      intro r m hm
      rw [hm]
      exact hinitial
  | start grants input used =>
      cases h
      exact obeys_perform_bind rfl (fun _ _ => nofun) (fun _ _ => nofun)

end Task

/-- Wherever the tasks get, what is left of them keeps to their protocols. -/
theorem RenewedRuns.Reached.requests {tasks : Nat → Task} {db : Store} {clock : Time}
    {w : RenewedRuns} (h : w.Reached tasks db clock) {ciphers : Nat → TenantCredentialCipher}
    (huses : ∀ i, (tasks i).Uses (ciphers i)) (i : Nat) :
    Obeys ((tasks i).requests (ciphers i)) (fun _ l => (course l).Released) (w.prog i)
      (own i w.shared.2) := by
  have hreaches := Pool.Reaches.protocol (M := renewedWorkers) (R := fun _ _ => True)
    (P := fun i => (tasks i).requests (ciphers i)) h (fun _ _ _ _ h => h) (fun _ _ _ _ _ => trivial)
    (fun i _ _ _ _ _ => by cases tasks i <;> exact trivial) (fun i => Task.obeys_requests (huses i))
    trivial (fun _ _ _ _ _ _ _ _ _ => trivial)
  exact hreaches.2 i

end InboxSaas.Worker
