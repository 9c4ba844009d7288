import InboxSaas.Worker.SupersededRuns
import InboxSaas.Worker.ValidationRequests

/-!
# Credentials from the request to the provisioner

Whatever starts, runs, recoveries and timers interleave: what a run sends to the provisioner for a
job is what the start that created the job was given, by someone who may write in the workspace of
the connection, and what every start was given that was accepted with this job.
-/

namespace InboxSaas.Worker

open Reasoning Product Program

/-! ## What a step keeps -/

/-- The operation, if it is a start, uses this cipher. -/
def WorkerOp.Uses (cipher : TenantCredentialCipher) : WorkerOp → Prop
  | .startTenantValidation _ _ used => used = cipher
  | _ => True

/-- Rows stay, and a job is created by a start that submits its credentials. -/
structure Advances (cipher : TenantCredentialCipher) (op : WorkerOp) (db db' : Store) : Prop where
  consistent : Consistent db'
  keeps : Product.Keeps db db'
  keepsOrigin : KeepsOrigin db db'
  sealed : Sealed cipher db → Sealed cipher db'
  created : ∀ jobId job, db.jobs.find jobId = none → db'.jobs.find jobId = some job →
    ∃ grants input, op = .startTenantValidation grants input cipher ∧
      OpensFor cipher db' jobId job.tenantConnectionId input.credentials ∧
      GrantedFor grants db' job.tenantConnectionId

namespace Advances

variable {cipher : TenantCredentialCipher} {op : WorkerOp} {db db' : Store}

theorem refl (hc : Consistent db) : Advances cipher op db db where
  consistent := hc
  keeps := .refl db
  keepsOrigin := .of_eq rfl
  sealed h := h
  created jobId job hnone hjob := by cases hnone.symm.trans hjob

/-- A call of the product package. -/
theorem call {call : Call} {o : Except JsError call.Result} (hcipher : Faithful cipher)
    (hc : Consistent db) (h : call.Runs db o db') (huses : (workerOp call).Uses cipher) :
    Advances cipher (workerOp call) db db' := by
  have husesCall : call.Uses cipher := by
    cases call <;> exact huses
  have ⟨ms, hmoves, _⟩ := call_moves hc h
  refine ⟨hc.call h, hmoves.keeps, hmoves.keepsOrigin,
    fun hs => hs.call hcipher hc husesCall h, ?_⟩
  intro jobId job hnone hjob
  have hstart := h.created_start hc hnone hjob
  cases call with
  | start grants input used draws =>
      cases huses
      exact ⟨grants, input, rfl, created_opens hcipher hc h hnone hjob⟩
  | claim => cases hstart
  | renew => cases hstart
  | recover => cases hstart
  | apply => cases hstart

/-- An event is marked as dispatched. -/
theorem setDispatchedAt (hc : Consistent db) (id : Uuid) (dispatchedAt : Time) :
    Advances cipher op db (postgres.writes (postgres.exec
      (WorkerQuery.setDispatchedAt id dispatchedAt).statement db).2.1 db) := by
  show Advances cipher op db (postgres.writes (exec Store.activeElsewhere
    (.updateOutboxEvent id _) db).2.1 db)
  cases hf : db.outboxEvents.find id with
  | none =>
      simp only [exec, hf, Engine.writes_nil]
      exact .refl hc
  | some row =>
      simp only [exec, hf]
      exact ⟨hc.congr rfl rfl, .putOutboxEvent db _, .of_eq rfl, fun hs => ⟨hs.rows, hs.records⟩,
        fun jobId job hnone hjob => by cases hnone.symm.trans hjob⟩

end Advances

theorem Performs.advances {i : Nat} {w w' : World} {op : WorkerOp} {o : Except JsError op.Reply}
    (h : Performs i w op o w') {cipher : TenantCredentialCipher} (hcipher : Faithful cipher)
    (hc : Consistent w.db) (huses : op.Uses cipher) : Advances cipher op w.db w'.db := by
  cases h with
  | query h =>
      rename_i q _ _ _
      have ⟨_, hrun⟩ := Engine.runs_statement h
      cases q with
      | setDispatchedAt id dispatchedAt =>
          rcases hrun with ⟨_, rfl⟩ | ⟨_, _, _, rfl | rfl⟩
          · exact .setDispatchedAt hc id dispatchedAt
          · exact .refl hc
          · exact .setDispatchedAt hc id dispatchedAt
      | selectTenantConnection =>
          rcases hrun with ⟨_, rfl⟩ | ⟨_, _, _, rfl | rfl⟩ <;> exact .refl hc
      | selectPendingOutboxEvents =>
          rcases hrun with ⟨_, rfl⟩ | ⟨_, _, _, rfl | rfl⟩ <;> exact .refl hc
  | start h => exact .call hcipher hc h huses
  | claim h => exact .call hcipher hc h huses
  | renew h => exact .call hcipher hc h huses
  | recover h => exact .call hcipher hc h huses
  | apply h => exact .call hcipher hc h huses
  | _ => exact .refl hc

theorem RenewedPerforms.advances {i : Nat} {s s' : RenewedWorld} {op : WorkerOp}
    {o : Except JsError op.Reply} (h : RenewedPerforms i s op o s')
    {cipher : TenantCredentialCipher} (hcipher : Faithful cipher) (hc : Consistent s.world.db)
    (huses : op.Uses cipher) : Advances cipher op s.world.db s'.world.db := by
  cases h with
  | claim _ h => exact .call hcipher hc h huses
  | other _ h => exact h.advances hcipher hc huses

/-! ## What the store says of a run -/

section

variable {cipher : TenantCredentialCipher} {op : WorkerOp} {db db' : Store} {jobId : Uuid}

/-- The connection of the claim is the job's, and the row is the connection's. -/
structure Fits (db : Store) (jobId : Uuid) (c : Course) : Prop where
  unread : c.connection = none → c.row = none
  claim : ∀ connection, c.connection = some connection →
    ∃ job row, db.jobs.find jobId = some job ∧ job.tenantConnectionId = connection.id ∧
      db.tenantConnections.find connection.id = some row ∧
      row.organizationId = connection.organizationId
  row : ∀ connection row, c.connection = some connection → c.row = some row →
    ∃ stored, db.tenantConnections.find connection.id = some stored ∧ stored.origin = row.origin

theorem Fits.initial (db : Store) (jobId : Uuid) : Fits db jobId .initial :=
  ⟨fun _ => rfl, nofun, nofun⟩

theorem Fits.keeps {c : Course} (h : Fits db jobId c) (hk : Product.Keeps db db')
    (ho : KeepsOrigin db db') : Fits db' jobId c where
  unread := h.unread
  claim := by
    intro connection hconnection
    have ⟨job, row, hjob, htc, hrow, horganization⟩ := h.claim connection hconnection
    have ⟨job', hjob', htc'⟩ := hk.job hjob
    have ⟨row', hrow', hsame⟩ := ho _ row hrow
    have ⟨horganization', _⟩ := Prod.mk.inj hsame
    exact ⟨job', row', hjob', htc'.trans htc, hrow', horganization'.trans horganization⟩
  row := by
    intro connection row hconnection hrow
    have ⟨stored, hstored, hsame⟩ := h.row connection row hconnection hrow
    have ⟨stored', hstored', hsame'⟩ := ho _ stored hstored
    exact ⟨stored', hstored', hsame'.trans hsame⟩

/-- A claim answers with the connection of its job. -/
theorem claimed_fits {now : Time} {leaseDurationMs : Int} {leaseToken : Uuid}
    {connection : TenantConnectionDto} {job : Job}
    (h : (Call.claim jobId now leaseDurationMs leaseToken).Runs db (.ok (.claimed connection job))
      db') :
    ∃ job row, db'.jobs.find jobId = some job ∧ job.tenantConnectionId = connection.id ∧
      db'.tenantConnections.find connection.id = some row ∧
      row.organizationId = connection.organizationId := by
  have ⟨s', hrun⟩ := h
  generalize ho : (Except.ok (ClaimTenantValidationJobResult.claimed connection job) :
    Except JsError ClaimTenantValidationJobResult) = o at hrun
  cases (runs_claim hrun).2 with
  | invalid => cases ho
  | failed => cases ho
  | notFound => cases ho
  | violated => cases ho
  | claimed hfound _ hanswer =>
      rcases hanswer with ⟨row, hrow, he⟩ | ⟨_, he⟩ | ⟨e, _, he⟩
      · rw [he] at ho
        cases ho
        have ⟨hjob, _⟩ := Option.filter_eq_some_iff.mp hfound
        have hid : row.id = _ := Store.tenantConnection_id hrow
        rw [← hid] at hrow
        exact ⟨_, row, find_put_job hjob rfl, hid.symm, hrow, rfl⟩
      · rw [he] at ho
        cases ho
      · rw [he] at ho
        cases ho

/-- A read answers with what is stored. -/
theorem Performs.selected {i : Nat} {w w' : World} {id : Uuid} {found : Option TenantConnection}
    (h : Performs i w (.query (.selectTenantConnection id)) (.ok found) w') :
    w'.db.tenantConnections.find id = found := by
  cases h with
  | query hrun =>
      have ⟨_, hsame, hanswer⟩ := runs_read rfl hrun
      rcases hanswer with ho | ⟨e, _, ho⟩
      · rw [hsame]
        exact (Except.ok.inj ho).symm
      · cases ho

/-- The course after one operation of a run fits the store after it. -/
theorem Fits.next {i : Nat} {s s' : RenewedWorld} {r : Except JsError op.Reply} {c : Course}
    (h : Fits s.world.db jobId c)
    (hadvances : Advances cipher op s.world.db s'.world.db)
    (hpermits : c.Permits cipher jobId op) (hs : RenewedPerforms i s op r s') :
    Fits s'.world.db jobId (c.next ⟨op, r⟩) := by
  have hkept := h.keeps hadvances.keeps hadvances.keepsOrigin
  unfold Course.next
  split
  · rename_i heq
    cases heq
    have ⟨hid, hnone⟩ := hpermits
    subst hid
    cases hs with
    | claim _ hruns =>
        refine ⟨nofun, fun connection he => ?_, fun connection row _ hrow => ?_⟩
        · cases he
          exact claimed_fits hruns
        · exact absurd ((h.unread hnone).symm.trans hrow) nofun
    | other hop _ => exact absurd rfl (hop _ _ _)
  · rename_i heq
    cases heq
    have ⟨connection, hconnection, hid⟩ := hpermits
    subst hid
    cases hs with
    | other _ hp =>
        refine ⟨fun hnone => ?_, hkept.claim, fun connection' row he hrow => ?_⟩
        · cases hconnection.symm.trans hnone
        · cases hconnection.symm.trans he
          exact ⟨row, hp.selected.trans hrow, rfl⟩
  · exact ⟨hkept.unread, hkept.claim, hkept.row⟩
  · exact ⟨hkept.unread, hkept.claim, hkept.row⟩
  · exact hkept

/-! ## What the store says of an event -/

/-- The event is about the credentials in the row of its job. -/
def Delivers (cipher : TenantCredentialCipher) (db : Store) : WorkerEvent → Prop
  | ⟨.startTenantValidation _ input _, .ok (.accepted connection job reused)⟩ =>
      ∃ credentials, OpensFor cipher db job.id connection.id credentials ∧
        Alike credentials input.credentials ∧ (reused = false → credentials = input.credentials)
  | ⟨.validateTenant request, _⟩ =>
      OpensFor cipher db request.jobId request.tenantConnectionId request.credentials
  | ⟨.query (.selectTenantConnection _), .ok found⟩ =>
      ∃ row : TenantConnection, found = some row ∧ SealedRow cipher row
  | _ => True

theorem Delivers.keeps {e : WorkerEvent} (h : Delivers cipher db e) (hk : Product.Keeps db db')
    (ho : KeepsOrigin db db') : Delivers cipher db' e := by
  unfold Delivers at h ⊢
  split at h
  · have ⟨credentials, hopens, hrest⟩ := h
    exact ⟨credentials, hopens.keeps hk ho, hrest⟩
  · exact OpensFor.keeps h hk ho
  · exact h
  · trivial

/-- The job was submitted by a start, with the credentials in its row. -/
def Submitted (cipher : TenantCredentialCipher) (db : Store) (tr : WorkerTrace) (jobId : Uuid) :
    Prop :=
  ∃ j grants input r connectionId,
    (j, ⟨.startTenantValidation grants input cipher, r⟩) ∈ tr ∧
    OpensFor cipher db jobId connectionId input.credentials ∧ GrantedFor grants db connectionId

theorem Submitted.keeps {tr tr' : WorkerTrace} (h : Submitted cipher db tr jobId)
    (hk : Product.Keeps db db') (ho : KeepsOrigin db db') (htr : tr ⊆ tr') :
    Submitted cipher db' tr' jobId := by
  have ⟨j, grants, input, r, connectionId, hmem, hopens, hgranted⟩ := h
  exact ⟨j, grants, input, r, connectionId, htr hmem, hopens.keeps hk ho, hgranted.keeps ho⟩

end

/-- A run that may call the provisioner sends what is in the row of its job. -/
theorem Fits.opens {c : Course} {request : TenantValidationRequest} (h : Fits db jobId c)
    (hpermits : c.Permits cipher jobId (.validateTenant request)) :
    OpensFor cipher db request.jobId request.tenantConnectionId request.credentials := by
  have ⟨connection, row, hconnection, hread, _, hid, hid', hopens⟩ := hpermits
  have ⟨job, _, hjob, htc, _⟩ := h.claim connection hconnection
  have ⟨stored, hstored, hsame⟩ := h.row connection row hconnection hread
  rw [hid, hid']
  exact ⟨job, stored, hjob, htc, hstored, hopens.origin hsame⟩

/-- Only a start starts, and with the cipher of its task. -/
theorem Task.uses_of_permits {task : Task} {l : List WorkerEvent}
    (h : (task.requests cipher).permits l op) : op.Uses cipher := by
  cases op with
  | startTenantValidation grants input used =>
      cases task with
      | process => exact absurd h nofun
      | tick => exact absurd h nofun
      | start =>
          cases h
          exact rfl
  | _ => trivial

/-! ## Every run -/

/-- The invariant: every job was submitted, every event is about the credentials of its job, and
what a run knows is what is stored. -/
structure Delivering (cipher : TenantCredentialCipher) (tasks : Nat → Task) (s : RenewedWorld)
    (tr : WorkerTrace) : Prop where
  consistent : Consistent s.world.db
  sealed : Sealed cipher s.world.db
  submitted : ∀ jobId job, s.world.db.jobs.find jobId = some job →
    Submitted cipher s.world.db tr jobId
  delivers : ∀ e ∈ tr, Delivers cipher s.world.db e.2
  fits : ∀ i used credentialKeyVersion jobId now,
    tasks i = .process used credentialKeyVersion jobId now →
    Fits s.world.db jobId (course (own i tr))
  promises : ∀ i p, (i, p) ∈ s.promises → ∃ jobId leaseToken l,
    Obeys (renewalProtocol jobId leaseToken) (fun _ _ => True) p l

namespace Delivering

variable {cipher : TenantCredentialCipher} {tasks : Nat → Task} {s s' : RenewedWorld}
  {tr : WorkerTrace}

theorem initial (cipher : TenantCredentialCipher) (tasks : Nat → Task)
    (workspaces : Table Workspace) (clock : Time) :
    Delivering cipher tasks (.initial (.empty workspaces) clock) [] where
  consistent := .empty workspaces
  sealed := ⟨nofun, fun _ h => absurd h List.not_mem_nil⟩
  submitted _ _ h := by cases h
  delivers _ h := by cases h
  fits _ _ _ _ _ _ := .initial _ _
  promises _ _ h := by cases h

/-- What is stored may go on as long as rows stay and jobs are created by starts. -/
theorem advance {op : WorkerOp} (h : Delivering cipher tasks s tr) (s' : RenewedWorld)
    (more : WorkerTrace) (hs : Advances cipher op s.world.db s'.world.db)
    (hcreated : ∀ grants input, op = .startTenantValidation grants input cipher →
      ∃ j r, (j, ⟨op, r⟩) ∈ more)
    (hdelivers : ∀ e ∈ more, Delivers cipher s'.world.db e.2)
    (hfits : ∀ i used credentialKeyVersion jobId now,
      tasks i = .process used credentialKeyVersion jobId now →
      Fits s'.world.db jobId (course (own i (tr ++ more))))
    (hpromises : ∀ i p, (i, p) ∈ s'.promises → ∃ jobId leaseToken l,
      Obeys (renewalProtocol jobId leaseToken) (fun _ _ => True) p l) :
    Delivering cipher tasks s' (tr ++ more) where
  consistent := hs.consistent
  sealed := hs.sealed h.sealed
  submitted jobId job hjob := by
    cases hold : s.world.db.jobs.find jobId with
    | some old =>
        exact (h.submitted jobId old hold).keeps hs.keeps hs.keepsOrigin
          (List.subset_append_left tr more)
    | none =>
        have ⟨grants, input, hop, hopens, hgranted⟩ := hs.created jobId job hold hjob
        have ⟨j, r, hmem⟩ := hcreated grants input hop
        subst hop
        exact ⟨j, grants, input, r, _, List.mem_append_right tr hmem, hopens, hgranted⟩
  delivers e he := by
    rcases List.mem_append.mp he with he | he
    · exact (h.delivers e he).keeps hs.keeps hs.keepsOrigin
    · exact hdelivers e he
  fits := hfits
  promises := hpromises

theorem drift (hcipher : Faithful cipher) (h : Delivering cipher tasks s tr)
    (hs : RenewedDrifts s s') : Delivering cipher tasks s' tr := by
  cases hs with
  | time => exact ⟨h.consistent, h.sealed, h.submitted, h.delivers, h.fits, h.promises⟩
  | timer hs =>
      cases hs with
      | fires hi =>
          refine ⟨h.consistent, h.sealed, h.submitted, h.delivers, h.fits, ?_⟩
          intro j p hp
          rcases List.mem_cons.mp hp with he | hp
          · cases he
            exact ⟨_, _, [], renewLease_renews _ _ _ _⟩
          · exact h.promises j p hp
      | goesOn hpromise hperf =>
          rename_i i before after op next r s'
          have hmem : (i, .call op next) ∈ s.promises := by
            rw [hpromise]
            exact List.mem_append_right _ List.mem_cons_self
          have ⟨jobId, leaseToken, l, hobeys⟩ := h.promises i _ hmem
          -- a timer renews or notes that the lease is lost: it starts nothing
          have hnone : ∀ grants input used, op ≠ .startTenantValidation grants input used := by
            intro grants input used he
            rcases hobeys.1 with ⟨now, hop⟩ | hop
            · cases hop.symm.trans he
            · cases hop.symm.trans he
          have huses : op.Uses cipher := by
            rcases hobeys.1 with ⟨now, hop⟩ | hop
            · rw [hop]
              trivial
            · rw [hop]
              trivial
          have hadvances := hperf.advances hcipher h.consistent huses
          have hkept := h.advance { s' with promises := before ++ (i, next r) :: after } []
            hadvances (fun grants input he => absurd he (hnone _ _ _))
            (fun e he => absurd he List.not_mem_nil)
          rw [List.append_nil] at hkept
          apply hkept
          · intro j used version id now htask
            exact (h.fits j used version id now htask).keeps hadvances.keeps hadvances.keepsOrigin
          · intro j p hp
            rcases List.mem_append.mp hp with hp | hp
            · exact h.promises j p (hpromise ▸ List.mem_append_left _ hp)
            · rcases List.mem_cons.mp hp with he | hp
              · cases he
                exact ⟨jobId, leaseToken, _, hobeys.2 r trivial⟩
              · exact h.promises j p
                  (hpromise ▸ List.mem_append_right _ (List.mem_cons_of_mem _ hp))

theorem step (hcipher : Faithful cipher) (h : Delivering cipher tasks s tr) {i : Nat}
    {op : WorkerOp} {r : Except JsError op.Reply}
    (hpermits : ((tasks i).requests cipher).permits (own i tr) op)
    (hs : RenewedPerforms i s op r s') :
    Delivering cipher tasks s' (tr ++ [(i, ⟨op, r⟩)]) := by
  have hop := Task.uses_of_permits hpermits
  have hadvances := hs.advances hcipher h.consistent hop
  apply h.advance s' [(i, ⟨op, r⟩)] hadvances
  · exact fun _ _ _ => ⟨i, r, List.mem_cons_self⟩
  · intro e he
    cases List.mem_singleton.mp he
    show Delivers cipher s'.world.db ⟨op, r⟩
    unfold Delivers
    split
    · rename_i heq
      cases heq
      cases hop
      cases hs with
      | other _ hp =>
          cases hp with
          | start hruns => exact accepted_opens hcipher h.consistent h.sealed hruns
    · rename_i heq
      cases heq
      cases htask : tasks i with
      | process used version jobId now =>
          rw [htask] at hpermits
          exact ((h.fits i used version jobId now htask).opens hpermits).keeps hadvances.keeps
            hadvances.keepsOrigin
      | tick now =>
          rw [htask] at hpermits
          cases hpermits
      | start grants input used =>
          rw [htask] at hpermits
          cases hpermits
    · rename_i heq
      cases heq
      cases htask : tasks i with
      | process used version jobId now =>
          rw [htask] at hpermits
          have ⟨connection, hconnection, hid⟩ := hpermits
          have ⟨_, row, _, _, hrow, _⟩ := (h.fits i used version jobId now htask).claim connection
            hconnection
          cases hs with
          | other _ hp =>
              -- the row of the claimed connection is never deleted
              have ⟨row', hrow', _⟩ := hadvances.keepsOrigin _ row hrow
              have hfound := hp.selected
              rw [hid, hrow'] at hfound
              exact ⟨row', hfound.symm, (hadvances.sealed h.sealed).rows _ row' hrow'⟩
      | tick now =>
          rw [htask] at hpermits
          cases hpermits
      | start grants input used =>
          rw [htask] at hpermits
          cases hpermits
    · trivial
  · intro j used version jobId now htask
    rw [own_snoc]
    split
    · rename_i he
      subst he
      rw [htask] at hpermits
      rw [course_snoc]
      exact (h.fits i used version jobId now htask).next hadvances hpermits hs
    · exact (h.fits j used version jobId now htask).keeps hadvances.keeps hadvances.keepsOrigin
  · intro j p hp
    rw [hs.promises] at hp
    exact h.promises j p hp

end Delivering

/-- The invariant holds wherever the tasks get from an empty store. -/
theorem RenewedRuns.Reached.delivering {cipher : TenantCredentialCipher} (hcipher : Faithful cipher)
    {tasks : Nat → Task} (huses : ∀ i, (tasks i).Uses cipher) {workspaces : Table Workspace}
    {clock : Time} {w : RenewedRuns} (h : w.Reached tasks (.empty workspaces) clock) :
    Delivering cipher tasks w.shared.1 w.shared.2 ∧
      ∀ i, Obeys ((tasks i).requests cipher) (fun _ l => (course l).Released) (w.prog i)
        (own i w.shared.2) := by
  refine Pool.Reaches.protocol (M := renewedWorkers) (R := Delivering cipher tasks) h
    (fun _ _ _ _ h => h) (fun _ _ _ hs hd => hs.drift hcipher hd) ?_
    (fun i => Task.obeys_requests (huses i)) (.initial cipher tasks workspaces clock)
    (fun i op s r s' tr hs hp hperf => hs.step hcipher hp hperf)
  intro i op s r s' _
  cases tasks i <;> exact trivial

/-- What the provisioner is called with was submitted by a start for the job, under grants on the
workspace of the connection; a start that was accepted with this job was given the same, exactly if
it created the job. -/
theorem delivered_credentials {platform : Platform} {key : Bytes} {keyVersion : JsString}
    {cipher : TenantCredentialCipher}
    (hcipher : createTenantCredentialCipher platform key keyVersion = .ok cipher)
    (htext : platform.DecodesUtf8) (hopens : platform.aes256Gcm.Opens key)
    (hmac : Function.Injective (platform.hmacSha256 key)) {tasks : Nat → Task}
    (huses : ∀ i, (tasks i).Uses cipher) {workspaces : Table Workspace} {clock : Time}
    {w : RenewedRuns} (h : w.Reached tasks (.empty workspaces) clock) {i : Nat}
    {request : TenantValidationRequest} {reply : Except JsError TenantValidationResult}
    (hrequest : (i, ⟨.validateTenant request, reply⟩) ∈ w.shared.2) :
    (∃ j grants input r, (j, ⟨.startTenantValidation grants input cipher, r⟩) ∈ w.shared.2 ∧
      input.credentials = request.credentials ∧
      GrantedFor grants w.shared.1.world.db request.tenantConnectionId) ∧
    ∀ j grants input connection job reused,
      (j, ⟨.startTenantValidation grants input cipher, .ok (.accepted connection job reused)⟩) ∈
        w.shared.2 → job.id = request.jobId →
      connection.id = request.tenantConnectionId ∧ Alike request.credentials input.credentials ∧
        (reused = false → request.credentials = input.credentials) := by
  have hfaithful := faithful_createTenantCredentialCipher hcipher htext hopens hmac
  have ⟨hdelivering, _⟩ := h.delivering hfaithful huses
  have hopens : OpensFor cipher w.shared.1.world.db request.jobId request.tenantConnectionId
      request.credentials := hdelivering.delivers _ hrequest
  constructor
  · have ⟨job, _, hjob, _⟩ := hopens
    have ⟨j, grants, input, r, connectionId, hmem, hsubmitted, hgranted⟩ :=
      hdelivering.submitted _ job hjob
    -- a row opens to one pair of credentials
    have ⟨hconnection, hcredentials⟩ := hsubmitted.unique hopens
    exact ⟨j, grants, input, r, hmem, hcredentials, hconnection ▸ hgranted⟩
  · intro j grants input connection job reused hmem hid
    have haccepted : Delivers cipher w.shared.1.world.db ⟨.startTenantValidation grants input cipher,
        .ok (.accepted connection job reused)⟩ := hdelivering.delivers _ hmem
    have ⟨credentials, hopens', halike, hexact⟩ := haccepted
    rw [hid] at hopens'
    have ⟨hconnection, hcredentials⟩ := hopens'.unique hopens
    subst hcredentials
    exact ⟨hconnection, halike, hexact⟩

/-! ## A sample run -/

/-- The provisioner cannot be reached. -/
def unreachedPlayer : Pool.Player renewedWorkers How Time where
  perform i op how s :=
    match op with
    | .validateTenant _ => some (.error connectionLost, s)
    | op => s.perform i op how
  drift := renewedPlayer.drift
  performs h := by
    split at h
    · cases h
      exact .other nofun .validateTenant
    · exact RenewedWorld.performs h
  drifts := renewedPlayer.drifts

namespace Sample

open Product.Sample

def context : TenantCredentialContext := ⟨input.workspaceId, .tenantValidation⟩

/-- AES-256-GCM of the sample credentials under the sample key, vector and additional data. -/
def value : Bytes × Bytes :=
  (Encoding.bigEndian 32 0x0dc3ecdaf1d6802cebf6bd611219131384d964956be44c7c2a55615844c414c6,
    Encoding.bigEndian 16 0xb10400186c9785428aed0244ef9c7e3d)

/-- What the fingerprint of the sample start is the digest of. -/
def message : Bytes :=
  Encoding.utf8 (js "inbox-saas:tenant-validation-payload:v1\x00") ++
    Encoding.fields (payloadFields ⟨input.credentials, context.workspaceId, context.operation⟩)

/-- HMAC-SHA-256 of the message under the sample key. -/
def digest : Bytes :=
  Encoding.bigEndian 32 0x01f97dba188b5da52080d0dbaf49e72692e965ad8dff3f6efbad033360e9b7dd

/-- The message that the sample value seals. -/
def IsSealed (iv data : Bytes) : Prop :=
  iv = List.replicate 12 1 ∧ data = additionalData context

instance (iv data : Bytes) : Decidable (IsSealed iv data) :=
  inferInstanceAs (Decidable (_ ∧ _))

/-- The platform on the sample start.  It opens what it sealed, and is injective, everywhere. -/
def platform : Platform where
  hmacSha256 _ bytes := if bytes = message then digest else bytes ++ List.replicate 33 0
  aes256GcmEncrypt _ iv data plain :=
    if IsSealed iv data ∧ plain = plaintext input.credentials then value else (plain, [])
  aes256GcmDecrypt _ iv data ciphertext authTag :=
    if IsSealed iv data ∧ (ciphertext, authTag) = value then some (plaintext input.credentials)
    else if authTag = [] then some ciphertext
    else none
  utf8Text bytes := (Encoding.utf8Decode? bytes).getD []

theorem platform_decodesUtf8 : platform.DecodesUtf8 := by
  intro text
  change (Encoding.utf8Decode? _).getD [] = text
  rw [Encoding.utf8Decode?_encode, Option.getD_some]

theorem platform_opens : platform.aes256Gcm.Opens SealedSample.key := by
  intro iv data plain
  have hvalue : (plain, ([] : Bytes)) ≠ value := by
    intro h
    have htag : [] = value.2 := congrArg Prod.snd h
    exact absurd htag (by decide)
  by_cases hsealed : IsSealed iv data ∧ plain = plaintext input.credentials
  · have hsealing : platform.aes256Gcm.sealed SealedSample.key iv data plain = value :=
      if_pos hsealed
    rw [hsealing, hsealed.2]
    exact if_pos ⟨hsealed.1, rfl⟩
  · have hsealing : platform.aes256Gcm.sealed SealedSample.key iv data plain = (plain, []) :=
      if_neg hsealed
    rw [hsealing]
    exact (if_neg fun h => hvalue h.2).trans (if_pos rfl)

theorem platform_injective : Function.Injective (platform.hmacSha256 SealedSample.key) := by
  have hdigest : ∀ bytes : Bytes, digest ≠ bytes ++ List.replicate 33 0 := by
    intro bytes heq
    have hlength := congrArg List.length heq
    simp [digest, Encoding.bigEndian] at hlength
  intro a b hab
  change (if a = message then digest else a ++ List.replicate 33 0) =
    (if b = message then digest else b ++ List.replicate 33 0) at hab
  by_cases ha : a = message
  · by_cases hb : b = message
    · exact ha.trans hb.symm
    · rw [if_pos ha, if_neg hb] at hab
      exact absurd hab (hdigest b)
  · by_cases hb : b = message
    · rw [if_neg ha, if_pos hb] at hab
      exact absurd hab.symm (hdigest a)
    · rw [if_neg ha, if_neg hb] at hab
      exact List.append_cancel_right hab

/-- The cipher of the sample key. -/
def sealing : TenantCredentialCipher :=
  (createTenantCredentialCipher platform SealedSample.key (js "v1")).toOption.getD cipher

theorem sealing_eq :
    createTenantCredentialCipher platform SealedSample.key (js "v1") = .ok sealing :=
  rfl

/-- One start, and a run for its job. -/
def sealedTasks : Nat → Task
  | 0 => .start [⟨2, .write, .organization⟩] input sealing
  | 1 => .process sealing (js "v1") 11 none
  | _ => .tick none

theorem sealedTasks_uses (i : Nat) : (sealedTasks i).Uses sealing := by
  rcases i with _ | _ | i
  · exact rfl
  · exact rfl
  · trivial

def delivered : RenewedRuns :=
  unreachedPlayer.traced.play (renewedSystem sealedTasks (.empty workspaces) 5)
    (turn 0 (.succeeds 10) :: List.replicate 9 (turn 1 (.succeeds 20)))

/-- The event calls the provisioner for the sample job. -/
def isSampleRequest : WorkerEvent → Bool
  | ⟨.validateTenant request, _⟩ => request.jobId = 11 && request.credentials = input.credentials
  | _ => false

theorem isSampleRequest_eq_true {e : WorkerEvent} (h : isSampleRequest e = true) :
    ∃ request reply, e = ⟨.validateTenant request, reply⟩ ∧ request.jobId = 11 ∧
      request.credentials = input.credentials := by
  unfold isSampleRequest at h
  split at h
  · rw [Bool.and_eq_true, decide_eq_true_iff, decide_eq_true_iff] at h
    exact ⟨_, _, rfl, h⟩
  · cases h

end Sample

open Sample Product.Sample in
/-- The sample run sends the provisioner what the start was given. -/
theorem delivered_credentials_sample :
    ∃ request reply, (1, ⟨.validateTenant request, reply⟩) ∈ delivered.shared.2 ∧
      request.jobId = 11 ∧ request.credentials = Product.Sample.input.credentials ∧
      ∃ j grants input r,
        (j, ⟨.startTenantValidation grants input sealing, r⟩) ∈ delivered.shared.2 ∧
        input.credentials = request.credentials ∧
        GrantedFor grants delivered.shared.1.world.db request.tenantConnectionId := by
  have hsent : (own 1 delivered.shared.2).any isSampleRequest = true := by decide +kernel
  have ⟨e, hmem, he⟩ := List.any_eq_true.mp hsent
  have ⟨request, reply, hevent, hid, hcredentials⟩ := isSampleRequest_eq_true he
  subst hevent
  have hreached : delivered.Reached sealedTasks (.empty workspaces) 5 :=
    unreachedPlayer.traced.reaches _ _
  have hdelivered := delivered_credentials sealing_eq platform_decodesUtf8 platform_opens
    platform_injective sealedTasks_uses hreached (mem_own.mp hmem)
  exact ⟨request, reply, mem_own.mp hmem, hid, hcredentials, hdelivered.1⟩

end InboxSaas.Worker
