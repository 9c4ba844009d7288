import InboxSaas.Product.Calls

/-!
# Repeating an idempotency key

A start that finds the record of its key never creates anything: it is answered from the record,
and with a conflict exactly when its fingerprint is not the one that was stored.  The record is
there from the start that created it on, whatever is called in between.
-/

namespace InboxSaas.Product

open Reasoning

/-! ## Records stay -/

/-- A new record comes after the ones that are stored. -/
theorem idempotencyRecord_put {db : Store} {new : IdempotencyRecord}
    (hnew : db.idempotencyRecords.find new.id = none) (organizationId : Uuid) (key : JsString) :
    (db.putIdempotencyRecord new).idempotencyRecord organizationId key =
      (db.idempotencyRecord organizationId key).or
        (if new.organizationId = organizationId ∧ new.key = key then some new else none) := by
  change (db.idempotencyRecords.put new).rows.find? _ = _
  rw [Table.rows_put_of_find_none hnew, List.find?_append]
  change (db.idempotencyRecord organizationId key).or _ = _
  congr 1
  by_cases h : new.organizationId = organizationId ∧ new.key = key
  · rw [if_pos h, List.find?_cons_of_pos (by simp [h])]
  · rw [if_neg h, List.find?_cons_of_neg (by simpa using h), List.find?_nil]

/-- The move that starts a job stores the first record of its key. -/
theorem Move.Step.started_record {db db' : Store} {targetWorkspace : Workspace}
    {idempotencyKey : JsString} {encryptedCredentials : EncryptedTenantCredentials}
    {payloadFingerprint : JsString} {draws : StartDraws}
    (h : Move.Step db (.started targetWorkspace idempotencyKey encryptedCredentials
      payloadFingerprint draws) db') :
    db.idempotencyRecord targetWorkspace.organizationId idempotencyKey = none ∧
      db'.idempotencyRecord targetWorkspace.organizationId idempotencyKey =
        some (newIdempotencyRecord targetWorkspace idempotencyKey payloadFingerprint draws
          draws.jobId) := by
  cases h with
  | started hconnection hjob hrecord hkey hevent =>
      refine ⟨hkey, (idempotencyRecord_put hrecord _ _).trans ?_⟩
      change (db.idempotencyRecord _ _).or _ = _
      rw [hkey, Option.none_or, if_pos ⟨rfl, rfl⟩]

/-- A move leaves the workspaces and every stored record as they are. -/
theorem Move.Step.record {db db' : Store} {m : Move} (h : m.Step db db') {organizationId : Uuid}
    {key : JsString} {record : IdempotencyRecord}
    (hr : db.idempotencyRecord organizationId key = some record) :
    db'.idempotencyRecord organizationId key = some record := by
  cases h with
  | started hconnection hjob hrecord hkey hevent =>
      refine (idempotencyRecord_put hrecord _ _).trans ?_
      change (db.idempotencyRecord _ _).or _ = _
      rw [hr, Option.some_or]
  | claimed => exact hr
  | renewed => exact hr
  | recovered => exact hr
  | retried => exact hr
  | completed => exact hr
  | failed => exact hr

theorem Call.Runs.record {call : Call} {db db' : Store} {o : Except JsError call.Result}
    (h : call.Runs db o db') (hc : Consistent db) {organizationId : Uuid} {key : JsString}
    {record : IdempotencyRecord} (hr : db.idempotencyRecord organizationId key = some record) :
    db'.idempotencyRecord organizationId key = some record := by
  obtain ⟨ms, hmoves, _⟩ := call_moves hc h
  exact hmoves.preserve (fun _ _ _ hp hs => hs.record hp) hr

theorem Run.record {db db' : Store} {history : List Entry} (h : Run db history db')
    (hc : Consistent db) {organizationId : Uuid} {key : JsString} {record : IdempotencyRecord}
    (hr : db.idempotencyRecord organizationId key = some record) :
    db'.idempotencyRecord organizationId key = some record := by
  have hboth := h.preserve (P := fun db =>
    Consistent db ∧ db.idempotencyRecord organizationId key = some record)
    (fun hp hcall => ⟨hp.1.call hcall, hcall.record hp.1 hp.2⟩) ⟨hc, hr⟩
  exact hboth.2

theorem Move.Step.workspaces {db db' : Store} {m : Move} (h : m.Step db db') :
    db'.workspaces = db.workspaces := by
  cases h <;> rfl

theorem Run.workspaces {db db' : Store} {history : List Entry} (h : Run db history db')
    (hc : Consistent db) : db'.workspaces = db.workspaces := by
  have hboth := h.preserve (P := fun db' => Consistent db' ∧ db'.workspaces = db.workspaces)
    (fun hp hcall => by
      obtain ⟨ms, hmoves, _⟩ := call_moves hp.1 hcall
      exact ⟨hp.1.call hcall, hmoves.preserve (P := fun db' => db'.workspaces = db.workspaces)
        (fun _ _ _ hw hs => hs.workspaces.trans hw) hp.2⟩) ⟨hc, rfl⟩
  exact hboth.2

/-! ## Calls that reach their transaction -/

section

variable {db db' : Store} {grants : List AccessGrant} {input : StartTenantValidationInput}
  {cipher : TenantCredentialCipher} {draws : StartDraws} {targetWorkspace : Workspace}
  {encryptedCredentials : EncryptedTenantCredentials} {payloadFingerprint : JsString}

theorem exec_selectWorkspace_found {id : JsString}
    (h : (uuidIn id).bind db.workspaces.find = some targetWorkspace) :
    postgres.exec (.selectWorkspace id) db = (.ok (some targetWorkspace), [], []) := by
  cases hid : uuidIn id with
  | none =>
      rw [hid] at h
      cases h
  | some uuid =>
      rw [hid, Option.bind_some] at h
      rw [engine_exec, exec, hid]
      dsimp only
      rw [h]

/-- Such a call is its transaction, with the second try after a unique violation. -/
theorem Admits.run (h : Admits db grants input cipher draws targetWorkspace encryptedCredentials
    payloadFingerprint) :
    postgres.run (startTenantValidation grants input cipher draws) db .idle =
      postgres.run (tryCatch
        (transaction (startTransaction targetWorkspace input.idempotencyKey encryptedCredentials
          payloadFingerprint draws))
        (fun error =>
          if !isUniqueViolation error then throw error
          else startAfterViolation targetWorkspace input.idempotencyKey payloadFingerprint))
        db .idle := by
  unfold startTenantValidation
  rw [h.checked, Program.ofExcept_ok, Program.ret_bind]
  unfold execute
  rw [Engine.run_read postgres (exec_selectWorkspace_found h.found)]
  dsimp only
  rw [h.authorized, if_neg (by decide), getOrganizationEntitlement_uuidOut, Program.ofExcept_ok,
    Program.ret_bind]
  dsimp only
  rw [if_neg (by decide), h.encrypted, Program.ofExcept_ok, Program.ret_bind, h.fingerprint,
    Program.ofExcept_ok, Program.ret_bind]

/-- Without failures such a call ends as its transaction does, or after a unique violation. -/
theorem Admits.ends (h : Admits db grants input cipher draws targetWorkspace encryptedCredentials
    payloadFingerprint) (hc : Consistent db) {o : Except JsError StartTenantValidationResult}
    (hrun : (Call.start grants input cipher draws).run db = (o, db')) :
    (∃ ws, StartBody targetWorkspace input.idempotencyKey encryptedCredentials payloadFingerprint
      draws db o ws ∧ ∀ a, o = .ok a → db' = postgres.writes ws db) ∨
    (db.idempotencyRecord targetWorkspace.organizationId input.idempotencyKey = none ∧
      NotCreated o) := by
  have hruns := Engine.runs_run postgres (fun _ => False) (tryCatch
        (transaction (startTransaction targetWorkspace input.idempotencyKey encryptedCredentials
          payloadFingerprint draws))
        (fun error =>
          if !isUniqueViolation error then throw error
          else startAfterViolation targetWorkspace input.idempotencyKey payloadFingerprint))
        db .idle
  rw [← h.run] at hruns
  have ho : (postgres.run (startTenantValidation grants input cipher draws) db .idle).1 = o :=
    congrArg Prod.fst hrun
  have hdb : (postgres.run (startTenantValidation grants input cipher draws) db .idle).2.1 = db' :=
    congrArg Prod.snd hrun
  rw [ho, hdb] at hruns
  rcases Engine.runs_handle hruns with ⟨a, rfl, htx⟩ | ⟨e, db₁, s₁, htx, hcatch⟩
  · obtain ⟨-, hends⟩ := Engine.runs_transaction _ strict_startTransaction htx
    cases hends with
    | committed heval => exact .inl ⟨_, startBody hc heval, fun _ _ => rfl⟩
  · obtain ⟨rfl, hends⟩ := Engine.runs_transaction _ strict_startTransaction htx
    cases hends with
    | unanswered heval he => exact absurd he not_false
    | failed he => exact absurd he not_false
    | rolledBack heval =>
        have hbody := startBody hc heval
        split at hcatch
        · obtain ⟨rfl, rfl, -⟩ := hcatch
          exact .inl ⟨_, hbody, fun a ha => by cases ha⟩
        · rename_i hviolation
          obtain ⟨-, rfl, hnot⟩ := runs_startAfterViolation hcatch
          cases hbody with
          | refused hkey => exact .inr ⟨hkey, hnot⟩
          | jobMissing => exact absurd rfl hviolation

/-- The call that created the record of a key stored its own fingerprint. -/
theorem Admits.created (h : Admits db grants input cipher draws targetWorkspace
    encryptedCredentials payloadFingerprint) (hc : Consistent db)
    {connection : TenantConnectionDto} {job : Job}
    (hrun : (Call.start grants input cipher draws).run db =
      (.ok (.accepted connection job false), db')) :
    db'.idempotencyRecord targetWorkspace.organizationId input.idempotencyKey =
      some (newIdempotencyRecord targetWorkspace input.idempotencyKey payloadFingerprint draws
        draws.jobId) := by
  rcases h.ends hc hrun with ⟨ws, hbody, hdb⟩ | ⟨-, hnot⟩
  · cases hbody with
    | created hmove =>
        rw [hdb _ rfl]
        exact hmove.started_record.2
  · exact absurd rfl (hnot connection job)

/-- A call that finds the record of its key conflicts exactly when the fingerprints differ. -/
theorem Admits.conflict_iff (h : Admits db grants input cipher draws targetWorkspace
    encryptedCredentials payloadFingerprint) (hc : Consistent db) {record : IdempotencyRecord}
    (hrecord : db.idempotencyRecord targetWorkspace.organizationId input.idempotencyKey =
      some record) :
    ((Call.start grants input cipher draws).run db).1 = .ok .idempotencyConflict ↔
      record.payloadFingerprint ≠ payloadFingerprint := by
  rcases h.ends hc (Prod.eta _).symm with ⟨ws, hbody, -⟩ | ⟨hnone, -⟩
  · have hsame : ∀ {r : IdempotencyRecord}, db.idempotencyRecord targetWorkspace.organizationId
        input.idempotencyKey = some r → record = r :=
      fun hr => Option.some.inj (hrecord.symm.trans hr)
    generalize ((Call.start grants input cipher draws).run db).1 = o at hbody ⊢
    cases hbody with
    | conflict hr hf =>
        rw [hsame hr]
        exact iff_of_true rfl hf
    | reused hr hf =>
        rw [hsame hr]
        exact iff_of_false (fun he => by cases he) (not_not.mpr hf)
    | jobMissing hr hf =>
        rw [hsame hr]
        exact iff_of_false (fun he => by cases he) (not_not.mpr hf)
    | refused hkey =>
        rw [hrecord] at hkey
        cases hkey
    | created hmove =>
        have hnone := hmove.started_record.1
        rw [hrecord] at hnone
        cases hnone
  · rw [hrecord] at hnone
    cases hnone

end

end InboxSaas.Product
