import Mathlib.Data.Fintype.Basic
import InboxSaas.Api.PayloadIdentity
import InboxSaas.Product.Interleavings

/-!
# Who may start a validation

The check of the grants comes before the transaction, and an answer that reuses a job is not checked
again.  It need not be: a fingerprint is of a payload with a workspace id, and the record that
stores it has a job of this very workspace (`Linked`), in every store that calls with one cipher
lead to.  So whoever is given a job by its fingerprint has access to the job's workspace.
-/

namespace InboxSaas.Api

open InboxSaas.Product Reasoning

/-! ## Grants -/

/-- Some grant gives write access to the workspace: to its organization or to itself. -/
def GrantsWrite (grants : List AccessGrant) (workspace : Workspace) : Prop :=
  ∃ grant ∈ grants, grant.organizationId = workspace.organizationId ∧ grant.permission = .write ∧
    (grant.scope = .organization ∨ grant.scope = .workspace workspace.id)

theorem isAuthorized_write_iff {grants : List AccessGrant} {workspace : Workspace} :
    isAuthorized grants ⟨workspace.organizationId, .write, .workspace workspace.id⟩ = true ↔
      GrantsWrite grants workspace := by
  rw [isAuthorized, List.any_eq_true]
  apply exists_congr
  intro grant
  apply and_congr_right
  intro _
  dsimp only
  by_cases horganization : grant.organizationId = workspace.organizationId
  · rw [if_neg (not_not.mpr horganization)]
    cases hpermission : grant.permission with
    | read => simp
    | write =>
        rw [if_neg (by simp)]
        cases grant.scope with
        | organization => simp [horganization]
        | workspace workspaceId => simp [horganization, eq_comm]
  · rw [if_pos horganization]
    simp [horganization]

/-- The stored workspace that the text names. -/
def named (db : Store) (workspaceId : JsString) : Option Workspace :=
  (uuidIn workspaceId).bind db.workspaces.find

/-! ## Ids and fingerprints -/

/-- The digits and hyphens of an id are no surrogates. -/
theorem uuidBytes_lt {bytes value n : Nat} {text rest : JsString}
    (h : uuidBytes bytes value text = some (n, rest)) (hrest : ∀ unit ∈ rest, unit.toNat < 0xD800) :
    ∀ unit ∈ text, unit.toNat < 0xD800 := by
  induction bytes generalizing value text with
  | zero =>
      cases h
      exact hrest
  | succ bytes ih =>
      cases text with
      | nil => cases h
      | cons high tail =>
          cases tail with
          | nil => cases h
          | cons low tail =>
              cases hhigh : hexDigit? high with
              | none =>
                  simp only [uuidBytes, hhigh] at h
                  cases h
              | some d =>
                  cases hlow : hexDigit? low with
                  | none =>
                      simp only [uuidBytes, hhigh, hlow] at h
                      cases h
                  | some d' =>
                      simp only [uuidBytes, hhigh, hlow] at h
                      have hlater := ih h
                      have htail : ∀ unit ∈ tail, unit.toNat < 0xD800 := by
                        intro unit hunit
                        split at hlater
                        · rename_i hskip
                          -- the hyphen after the byte
                          cases tail with
                          | nil => cases hunit
                          | cons hyphen more =>
                              rcases List.mem_cons.mp hunit with rfl | hunit
                              · have h45 : unit = 45 := by simp_all
                                rw [h45]
                                decide
                              · exact hlater unit hunit
                        · exact hlater unit hunit
                      intro unit hunit
                      rcases List.mem_cons.mp hunit with rfl | hunit
                      · exact hexDigit?_lt (by rw [hhigh]; rfl)
                      rcases List.mem_cons.mp hunit with rfl | hunit
                      · exact hexDigit?_lt (by rw [hlow]; rfl)
                      · exact htail unit hunit

/-- An id that can be read is hashed as it is. -/
theorem toWellFormed_of_uuidIn {text : JsString} {id : Uuid} (h : uuidIn text = some id) :
    Encoding.toWellFormed text = text := by
  apply Encoding.toWellFormed_of_isWellFormed
  apply Encoding.isWellFormed_of_lt
  unfold uuidIn at h
  by_cases hbrace : text.head? = some 123
  · simp only [hbrace, if_true] at h
    split at h
    · rename_i value rest hbytes
      by_cases hrest : rest = [125]
      · have hlater := uuidBytes_lt hbytes fun unit hunit => by
          rw [hrest, List.mem_singleton] at hunit
          rw [hunit]
          decide
        intro unit hunit
        cases text with
        | nil => cases hunit
        | cons first tail =>
            rcases List.mem_cons.mp hunit with rfl | hunit
            · rw [Option.some.inj hbrace]
              decide
            · exact hlater unit hunit
      · rw [if_neg hrest] at h
        cases h
    · cases h
  · simp only [hbrace, if_false] at h
    split at h
    · rename_i value rest hbytes
      by_cases hrest : rest = []
      · exact uuidBytes_lt hbytes fun unit hunit => by
          rw [hrest] at hunit
          exact absurd hunit List.not_mem_nil
      · rw [if_neg hrest] at h
        cases h
    · cases h

/-- Payloads with one fingerprint name the workspace by the same text. -/
theorem workspaceId_of_fingerprint {platform : Platform} {key : Bytes}
    (hmac : Function.Injective (platform.hmacSha256 key))
    {payload payload' : TenantCredentialFingerprintInput} {fingerprint : JsString}
    (hf : fingerprintTenantValidationPayload platform key payload = .ok fingerprint)
    (hf' : fingerprintTenantValidationPayload platform key payload' = .ok fingerprint)
    {id id' : Uuid} (hid : uuidIn payload.workspaceId = some id)
    (hid' : uuidIn payload'.workspaceId = some id') :
    payload.workspaceId = payload'.workspaceId := by
  obtain ⟨hlt, hhash⟩ := fingerprint_ok hf
  obtain ⟨hlt', hhash'⟩ := fingerprint_ok hf'
  rw [hhash, hexText_injective.eq_iff, hmac.eq_iff, List.append_cancel_left_eq] at hhash'
  have hfields := Encoding.fields_injective hlt hlt' hhash'
  rw [payloadFields, payloadFields, List.cons.injEq, Encoding.utf8_eq_iff,
    toWellFormed_of_uuidIn hid, toWellFormed_of_uuidIn hid'] at hfields
  exact hfields.1

/-! ## Records and the workspaces of their jobs -/

/-- The ciphers of all starts have this key. -/
def UsesKey (platform : Platform) (key : Bytes) : Call → Prop
  | .start _ _ cipher _ =>
      ∃ keyVersion, createTenantCredentialCipher platform key keyVersion = .ok cipher
  | _ => True

/-- The stores that calls with one cipher key lead to from an empty one. -/
def ReachableUnder (platform : Platform) (key : Bytes) (db : Store) : Prop :=
  ∃ workspaces history, Run (.empty workspaces) history db ∧
    ∀ e ∈ history, UsesKey platform key e.call

theorem ReachableUnder.reachable {platform : Platform} {key : Bytes} {db : Store}
    (h : ReachableUnder platform key db) : Reachable db := by
  obtain ⟨workspaces, history, hrun, -⟩ := h
  exact ⟨workspaces, history, hrun⟩

section

variable (platform : Platform) (key : Bytes)

/-- The fingerprint is of some credentials for the workspace. -/
def Fingerprints (db : Store) (workspace : Workspace) (fingerprint : JsString) : Prop :=
  ∃ credentials workspaceId,
    fingerprintTenantValidationPayload platform key ⟨credentials, workspaceId, .tenantValidation⟩ =
      .ok fingerprint ∧
    named db workspaceId = some workspace

/-- The record is of a payload for the workspace, and its job is of a connection there. -/
structure LinkedTo (db : Store) (record : IdempotencyRecord) (workspace : Workspace) : Prop where
  fingerprint : Fingerprints platform key db workspace record.payloadFingerprint
  connection : ∃ job connection, db.jobs.find record.jobId = some job ∧
    db.tenantConnections.find job.tenantConnectionId = some connection ∧
    connection.workspaceId = workspace.id ∧ connection.organizationId = workspace.organizationId

def Linked (db : Store) : Prop :=
  ∀ record ∈ db.idempotencyRecords, ∃ workspace, LinkedTo platform key db record workspace

variable {platform} {key} {db db' : Store} {record : IdempotencyRecord} {workspace : Workspace}

theorem named_keeps (hk : Keeps db db') (workspaceId : JsString) :
    named db' workspaceId = named db workspaceId := by
  rw [named, hk.workspaces]
  rfl

theorem LinkedTo.keeps (h : LinkedTo platform key db record workspace) (hk : Keeps db db') :
    LinkedTo platform key db' record workspace where
  fingerprint := by
    obtain ⟨credentials, workspaceId, hf, hnamed⟩ := h.fingerprint
    exact ⟨credentials, workspaceId, hf, (named_keeps hk workspaceId).trans hnamed⟩
  connection := by
    obtain ⟨job, connection, hjob, hconnection, hworkspace, horganization⟩ := h.connection
    obtain ⟨job', hjob', htc⟩ := hk.job hjob
    obtain ⟨connection', hconnection', hw, ho⟩ := hk.connection hconnection
    rw [← htc] at hconnection'
    exact ⟨job', connection', hjob', hconnection', hw.trans hworkspace, ho.trans horganization⟩

/-- A creation that lasts is linked to the workspace of the start. -/
theorem LinkedTo.creation {c : Creation}
    (hf : Fingerprints platform key db c.targetWorkspace c.payloadFingerprint) (h : c.Lasts db) :
    LinkedTo platform key db c.record c.targetWorkspace where
  fingerprint := hf
  connection := by
    obtain ⟨job, hjob, htc⟩ := h.job
    obtain ⟨connection, hconnection, hworkspace, horganization⟩ := h.connection
    rw [← htc] at hconnection
    exact ⟨job, connection, hjob, hconnection, hworkspace, horganization⟩

/-- An admitted start has the fingerprint of a payload for its workspace. -/
theorem fingerprints_of_admits {grants : List AccessGrant} {input : StartTenantValidationInput}
    {cipher : TenantCredentialCipher} {draws : StartDraws}
    {encryptedCredentials : EncryptedTenantCredentials} {fingerprint : JsString}
    (h : Admits db grants input cipher draws workspace encryptedCredentials fingerprint)
    (hkey : UsesKey platform key (.start grants input cipher draws)) :
    Fingerprints platform key db workspace fingerprint := by
  obtain ⟨keyVersion, hcipher⟩ := hkey
  have hf := h.fingerprint
  rw [createTenantCredentialCipher_fingerprint hcipher] at hf
  exact ⟨input.credentials, input.workspaceId, hf, h.found⟩

/-- A move keeps the records linked; the record of a new job is of a payload for its workspace. -/
theorem Linked.move {m : Move} (h : Linked platform key db) (hstep : m.Step db db')
    (hstarted : ∀ c : Creation, m = .started c.targetWorkspace c.idempotencyKey
      c.encryptedCredentials c.payloadFingerprint c.draws →
      Fingerprints platform key db c.targetWorkspace c.payloadFingerprint) :
    Linked platform key db' := by
  intro record hmem
  rcases hstep.creates with ⟨hk, hsame⟩ | ⟨c, hm, hfresh, rfl⟩
  · rw [hsame] at hmem
    obtain ⟨workspace, hlinked⟩ := h record hmem
    exact ⟨workspace, hlinked.keeps hk⟩
  · have hrows : (c.commit db).idempotencyRecords.rows = db.idempotencyRecords.rows ++ [c.record] :=
      Table.rows_put_of_find_none (r := c.record) hfresh.record
    rw [Table.mem_def, hrows, List.mem_append, List.mem_singleton] at hmem
    rcases hmem with hold | rfl
    · obtain ⟨workspace, hlinked⟩ := h record hold
      exact ⟨workspace, hlinked.keeps hfresh.keeps⟩
    · obtain ⟨credentials, workspaceId, hf, hnamed⟩ := hstarted c hm
      exact ⟨c.targetWorkspace, .creation ⟨credentials, workspaceId, hf,
        (named_keeps hfresh.keeps workspaceId).trans hnamed⟩ hfresh.lasts⟩

theorem Linked.call {call : Call} {o : Except JsError call.Result} (h : Linked platform key db)
    (hc : Consistent db) (hkey : UsesKey platform key call) (hruns : call.Runs db o db') :
    Linked platform key db' := by
  have hother : call.isStart = false → Linked platform key db' := by
    intro hcall
    refine hruns.preserve hc hcall (fun m db db' hnot hp hstep => ?_) h
    apply hp.move hstep
    intro c hm
    subst hm
    exact absurd trivial hnot
  cases call with
  | start grants input cipher draws =>
      obtain ⟨s', hrun⟩ := hruns
      rcases runs_start_cases hrun with ⟨-, rfl, -⟩ |
        ⟨targetWorkspace, encryptedCredentials, payloadFingerprint, hadmits, htx⟩
      · exact h
      · obtain ⟨-, hcommit⟩ := runs_startTransaction (fun _ he => he) hc htx
        cases hcommit with
        | unchanged => exact h
        | created hmove =>
            apply h.move hmove
            intro c hm
            injection hm with hworkspace _ _ hfingerprint _
            rw [← hworkspace, ← hfingerprint]
            exact fingerprints_of_admits hadmits hkey
  | claim => exact hother rfl
  | renew => exact hother rfl
  | recover => exact hother rfl
  | apply => exact hother rfl

theorem ReachableUnder.linked (h : ReachableUnder platform key db) : Linked platform key db := by
  obtain ⟨workspaces, history, hrun, hkey⟩ := h
  have hempty : Linked platform key (.empty workspaces) :=
    fun record hmem => absurd hmem List.not_mem_nil
  have hc := Consistent.empty workspaces
  generalize Store.empty workspaces = db₀ at hrun hempty hc
  induction hrun with
  | nil => exact hempty
  | cons runs _ ih =>
      apply ih
      · exact fun e he => hkey e (List.mem_cons_of_mem _ he)
      · exact hempty.call hc (hkey _ List.mem_cons_self) runs
      · exact hc.call runs

end

/-! ## Interleaved calls -/

section

variable {ι : Type} {platform : Platform} {key : Bytes} {calls : ι → Call} {db₀ : Store}

/-- The records of interleaved starts are linked as well. -/
theorem linked_of_started {σ : Database ι} {g : List (ι × Creation)}
    (h : Started calls db₀ σ g) (hdb : Linked platform key db₀)
    (hkey : ∀ j, UsesKey platform key (calls j)) : Linked platform key σ.db := by
  intro record hmem
  rw [Table.mem_def, h.records, List.mem_append] at hmem
  rcases hmem with hold | hnew
  · obtain ⟨workspace, hlinked⟩ := hdb record hold
    exact ⟨workspace, hlinked.keeps h.keeps⟩
  · obtain ⟨⟨j, c⟩, he, rfl⟩ := List.mem_map.mp hnew
    have hadmitted := h.admitted _ he
    have hjkey := hkey j
    refine ⟨c.targetWorkspace, .creation ?_ (h.lasts _ he)⟩
    dsimp only at hadmitted
    cases hcall : calls j with
    | start grants input cipher draws =>
        rw [hcall] at hadmitted hjkey
        obtain ⟨credentials, workspaceId, hf, hnamed⟩ := fingerprints_of_admits hadmitted.2.2 hjkey
        exact ⟨credentials, workspaceId, hf, (named_keeps h.keeps workspaceId).trans hnamed⟩
    | claim => rw [hcall] at hadmitted; exact absurd hadmitted not_false
    | renew => rw [hcall] at hadmitted; exact absurd hadmitted not_false
    | recover => rw [hcall] at hadmitted; exact absurd hadmitted not_false
    | apply => rw [hcall] at hadmitted; exact absurd hadmitted not_false

variable [DecidableEq ι]

/-- The client ends with this answer, after one more command at most, and writes nothing. -/
structure Answers (w : Clients ι) (i : ι) (o : Except JsError (Σ call : Call, call.Result)) :
    Prop where
  outcome : ∀ o', (w.prog i).outcome = some o' → o' = o
  ends : (w.prog i).outcome = none → ∃ v, Pool.Step postgres.readCommitted w (.run i) v
  step : ∀ v, Pool.Step postgres.readCommitted w (.run i) v →
    v.shared.db = w.shared.db ∧ (v.prog i).outcome = some o

/-- What a start can do, given the grants of its caller. -/
structure Authority (w : Clients ι) (i : ι) (grants : List AccessGrant)
    (input : StartTenantValidationInput) (cipher : TenantCredentialCipher) (draws : StartDraws) :
    Prop where
  /-- Without a grant for the workspace the answer is the one for a workspace that is not there. -/
  refused (hid : (uuidIn input.workspaceId).isSome = true)
    (hnot : ∀ workspace, named w.shared.db input.workspaceId = some workspace →
      ¬ GrantsWrite grants workspace) :
    Answers w i (.ok ⟨.start grants input cipher draws, .notFound⟩)
  /-- A text that is no id names no workspace; the database refuses to compare it with ids. -/
  malformed (hid : uuidIn input.workspaceId = none) :
    Answers w i (.error invalidTextRepresentation)
  accepted {connection : TenantConnectionDto} {job : Job} {reused : Bool}
    (ha : Returned w i (.accepted connection job reused)) :
    ∃ workspace, named w.shared.db input.workspaceId = some workspace ∧
      GrantsWrite grants workspace ∧ connection.workspaceId = workspace.id ∧
      connection.organizationId = workspace.organizationId

/-! ### Who is refused -/

/-- The program of a start is its first query and what it does with the reply. -/
theorem session_start (grants : List AccessGrant) {input : StartTenantValidationInput}
    (cipher : TenantCredentialCipher) (draws : StartDraws)
    (hchecked : assertStartInput input = .ok ()) :
    ∃ next, (Call.start grants input cipher draws).session =
        .call (.statement (.selectWorkspace input.workspaceId)) next ∧
      (∀ e, next (.error e) = .raise e) ∧
      (∀ found : Option Workspace,
        (∀ workspace, found = some workspace → ¬ GrantsWrite grants workspace) →
        next (.ok found) = .ret ⟨.start grants input cipher draws, .notFound⟩) := by
  rw [Call.session, Call.program, startTenantValidation, hchecked, Program.ofExcept_ok,
    Program.ret_bind, execute, autocommit, Program.perform_bind, Program.call_bind]
  refine ⟨_, rfl, fun e => rfl, fun found hnot => ?_⟩
  cases found with
  | none => rfl
  | some workspace =>
      have hrefused := hnot workspace rfl
      rw [← isAuthorized_write_iff, Bool.not_eq_true] at hrefused
      rw [Program.resume_ok]
      dsimp only
      rw [hrefused]
      rfl

/-- The first command of a refused start reads the workspace, and nothing else happens. -/
theorem answers_of_first {w : Clients ι} {i : ι} {op : Statement}
    {next : Except JsError op.Reply → DatabaseProgram (Σ call : Call, call.Result)}
    {reply : Except JsError op.Reply} {o : Except JsError (Σ call : Call, call.Result)}
    (hprog : w.prog i = .call (.statement op) next) (hidle : w.shared.session i = .idle)
    (hop : exec Store.activeElsewhere op w.shared.db = (reply, [], []))
    (hnext : (next reply).outcome = some o) : Answers w i o := by
  have hperform : postgres.perform (.statement op) w.shared.db (w.shared.session i) =
      (reply, w.shared.db, .idle) := by
    rw [hidle]
    change ((exec Store.activeElsewhere op w.shared.db).1, postgres.writes
      (exec Store.activeElsewhere op w.shared.db).2.1 w.shared.db, Session.idle) = _
    rw [hop]
    rfl
  constructor
  · intro o' ho
    rw [hprog] at ho
    cases ho
  · intro _
    -- a read asks for no lock, so it does not wait
    have hfree : postgres.Free w.shared i (.statement op) := by
      intro j _ k hk
      rw [hidle] at hk
      change k ∈ (exec Store.activeElsewhere op w.shared.db).2.2 at hk
      rw [hop] at hk
      exact absurd hk List.not_mem_nil
    exact ⟨_, .run hprog ⟨hfree, rfl, rfl⟩⟩
  · intro v hs
    cases hs with
    | run hcall hperforms =>
        rw [hprog] at hcall
        cases hcall
        obtain ⟨-, rfl, rfl⟩ := hperforms
        refine ⟨by rw [Engine.advance_db, hperform], ?_⟩
        have hreply : (postgres.perform (.statement op) w.shared.db (w.shared.session i)).1 =
            reply := by rw [hperform]
        change (Function.update w.prog i (next _) i).outcome = some o
        rw [Function.update_self, hreply]
        exact hnext

theorem answers_of_outcome {w : Clients ι} {i : ι} {o : Except JsError (Σ call : Call, call.Result)}
    (ho : (w.prog i).outcome = some o) : Answers w i o where
  outcome o' ho' := Option.some.inj (ho'.symm.trans ho)
  ends hnone := by
    rw [hnone] at ho
    cases ho
  step v hs := by
    cases hs with
    | run hcall _ =>
        rw [hcall] at ho
        cases ho

/-- A client whose first command reads the same in every world, and ends it, answers this. -/
theorem answers_of_read {w : Clients ι} (h : Interleaves calls db₀ w) {i : ι} {op : Statement}
    {next : Except JsError op.Reply → DatabaseProgram (Σ call : Call, call.Result)}
    {reply : Except JsError op.Reply} {o : Except JsError (Σ call : Call, call.Result)}
    (hsession : (calls i).session = .call (.statement op) next)
    (hop : ∀ v, Interleaves calls db₀ v →
      exec Store.activeElsewhere op v.shared.db = (reply, [], []))
    (hnext : (next reply).outcome = some o) : Answers w i o := by
  have hwhere : Interleaves calls db₀ w ∧
      ((w.prog i = (calls i).session ∧ w.shared.session i = .idle) ∨
        (w.prog i).outcome = some o) := by
    refine h.invariant (P := fun w => Interleaves calls db₀ w ∧
      ((w.prog i = (calls i).session ∧ w.shared.session i = .idle) ∨
        (w.prog i).outcome = some o)) ⟨.refl _ _, .inl ⟨rfl, rfl⟩⟩ ?_
    rintro v l v' ⟨hv, hi⟩ hs
    refine ⟨Pool.Reaches.step hv hs, ?_⟩
    cases hs with
    | @run j _ _ _ _ hprog hperforms =>
        by_cases hj : j = i
        · subst hj
          have hanswers : Answers v j o := by
            rcases hi with ⟨hsame, hidle⟩ | ho
            · exact answers_of_first (hsame.trans hsession) hidle (hop v hv) hnext
            · exact answers_of_outcome ho
          exact .inr (hanswers.step _ (.run hprog hperforms)).2
        · obtain ⟨-, -, rfl⟩ := hperforms
          dsimp only
          rw [Function.update_of_ne (Ne.symm hj), Engine.advance_session_ne _ _ _ _ (Ne.symm hj)]
          exact hi
    | halt _ hhalts => exact absurd hhalts not_false
    | drift hdrifts => exact absurd hdrifts not_false
  rcases hwhere.2 with ⟨hsame, hidle⟩ | ho
  · exact answers_of_first (hsame.trans hsession) hidle (hop w h) hnext
  · exact answers_of_outcome ho

theorem checked_of_nonempty {input : StartTenantValidationInput}
    (hidempotencyKey : input.idempotencyKey ≠ []) (hemail : input.credentials.email ≠ [])
    (hpassword : input.credentials.password ≠ []) : assertStartInput input = .ok () := by
  rw [assertStartInput, if_neg hidempotencyKey, if_neg (not_or.mpr ⟨hemail, hpassword⟩)]

/-- Whoever is given a job has write access to its workspace, and whoever has no access gets no
job and leaves the store alone. -/
theorem write_authority {w : Clients ι} (hmac : Function.Injective (platform.hmacSha256 key))
    (hdb : ReachableUnder platform key db₀) (hkey : ∀ j, UsesKey platform key (calls j))
    (h : Interleaves calls db₀ w) {i : ι} {grants : List AccessGrant}
    {input : StartTenantValidationInput} {cipher : TenantCredentialCipher} {draws : StartDraws}
    (hcall : calls i = .start grants input cipher draws)
    (hidempotencyKey : input.idempotencyKey ≠ []) (hemail : input.credentials.email ≠ [])
    (hpassword : input.credentials.password ≠ []) : Authority w i grants input cipher draws := by
  have hhomed := Homed.of_consistent hdb.reachable.consistent
  have hchecked := checked_of_nonempty hidempotencyKey hemail hpassword
  obtain ⟨next, hsession, herror, hrefused⟩ := session_start grants cipher draws hchecked
  rw [← hcall] at hsession
  have hnamed := named_keeps (h.keeps hhomed) input.workspaceId
  constructor
  · intro hid hnot
    obtain ⟨id, hid⟩ := Option.isSome_iff_exists.mp hid
    have hop : ∀ v, Interleaves calls db₀ v →
        exec Store.activeElsewhere (.selectWorkspace input.workspaceId) v.shared.db =
          (.ok (named db₀ input.workspaceId), [], []) := by
      intro v hv
      rw [exec_selectWorkspace, named, hid, (hv.keeps hhomed).workspaces]
      rfl
    apply answers_of_read h hsession hop
    rw [hrefused _ (hnamed ▸ hnot)]
    rfl
  · intro hid
    have hop : ∀ v, Interleaves calls db₀ v →
        exec Store.activeElsewhere (.selectWorkspace input.workspaceId) v.shared.db =
          (.error invalidTextRepresentation, [], []) := by
      intro v _
      rw [exec_selectWorkspace, hid]
    apply answers_of_read h hsession hop
    rw [herror]
    rfl
  · intro connection job reused ha
    obtain ⟨g, hg⟩ := h.starts hhomed
    have hlinked := linked_of_started hg.started hdb.linked hkey
    obtain ⟨c, hadmitted, -, record, hrecord, hfingerprint, -, ⟨row, hrow, htc⟩, stored, hstored,
      hworkspaceId, horganizationId⟩ := hg.accepted (by rw [hcall]; rfl) ha
    rw [hcall] at hadmitted
    have hadmits := hadmitted.2.2
    obtain ⟨workspace, ⟨credentials, workspaceId, hf, hfound⟩, job', connection', hjob, hconnection,
      hworkspace, horganization⟩ := hlinked record (mem_of_stored hrecord).1
    -- the record's payload and the call's have one fingerprint, so they name one workspace
    have hmine : (named w.shared.db input.workspaceId) = some c.targetWorkspace :=
      hnamed.trans hadmits.found
    have hsame : workspaceId = input.workspaceId := by
      obtain ⟨_, hcipher⟩ := hcall ▸ hkey i
      have hfingerprint' := hadmits.fingerprint
      rw [createTenantCredentialCipher_fingerprint hcipher, ← hfingerprint] at hfingerprint'
      obtain ⟨id, hid, -⟩ := Option.bind_eq_some_iff.mp hfound
      obtain ⟨id', hid', -⟩ := Option.bind_eq_some_iff.mp hadmits.found
      exact workspaceId_of_fingerprint hmac hf hfingerprint' hid hid'
    rw [hsame, hmine] at hfound
    have hworkspaces : c.targetWorkspace = workspace := Option.some.inj hfound
    -- the answer names the job of the record, and this job's connection
    rw [hjob] at hrow
    cases hrow
    rw [htc, hstored] at hconnection
    cases hconnection
    refine ⟨c.targetWorkspace, hmine, isAuthorized_write_iff.mp hadmits.authorized, ?_, ?_⟩
    · rw [hworkspaceId, hworkspace, hworkspaces]
    · rw [horganizationId, horganization, hworkspaces]

end

namespace Sample

/-- Two callers send the same request, and one who may only read sends it as well. -/
inductive Caller where
  | first
  | second
  | reader
  deriving DecidableEq

instance : Fintype Caller where
  elems := {.first, .second, .reader}
  complete i := by cases i <;> decide

def callers : Caller → Call
  | .first => .start [grant] (input lowerId "correct horse") cipher (draws 1 10)
  | .second => .start [grant] (input lowerId "correct horse") cipher (draws 2 20)
  | .reader =>
      .start [⟨2, .read, .organization⟩] (input lowerId "correct horse") cipher (draws 3 30)

/-- The second caller loses the race for the key and reads the job of the first one. -/
def answered : Clients Caller :=
  interleave callers db (List.replicate 7 .first ++ List.replicate 6 .second ++ [.first] ++
    List.replicate 5 .second ++ [.reader])

/-- The workspace of an answer, and whether the job was reused. -/
def answeredWorkspace (w : Clients Caller) (i : Caller) : Option (Option (Uuid × Bool)) :=
  match w.prog i with
  | .ret ⟨.start _ _ _ _, .accepted connection _ reused⟩ =>
      some (some (connection.workspaceId, reused))
  | .ret ⟨.start _ _ _ _, .notFound⟩ => some none
  | _ => none

theorem callers_key (i : Caller) : UsesKey platform key (callers i) := by
  cases i <;> exact ⟨_, cipher_eq⟩

end Sample

/-- The caller that lost the race was given the workspace it may write to, the one that may only
read was refused. -/
theorem write_authority_reused :
    Authority Sample.answered .second [Sample.grant] (Sample.input Sample.lowerId "correct horse")
      Sample.cipher (Sample.draws 2 20) ∧
    Sample.answeredWorkspace Sample.answered .second = some (some (Sample.workspace.id, true)) ∧
    Sample.answeredWorkspace Sample.answered .reader = some none :=
  ⟨write_authority Sample.hmacSha256_injective
      ⟨_, [], .nil _, fun _ he => absurd he List.not_mem_nil⟩ Sample.callers_key
      (interleaves_interleave _ _ _) rfl (by decide) (by decide) (by decide),
    by decide +kernel, by decide +kernel⟩

end InboxSaas.Api
