import InboxSaas.Product.Creations
import InboxSaas.Product.CredentialBinding
import InboxSaas.Product.AcceptedStarts
import InboxSaas.Product.Lookups

/-!
# The credentials of a job

A start seals the credentials it was given in the row of its connection, and no call writes these
columns again.  So the cipher reads one and the same credentials from a job's row at any time
(`OpensFor`), and a start that is accepted with a job was given these credentials, up to unpaired
surrogates where it found the job of an earlier one (`accepted_opens`).
-/

namespace InboxSaas.Product

open Reasoning

/-! ## What a cipher is relied on for -/

/-- Credentials that are equal after unpaired surrogates are replaced. -/
def Alike (credentials credentials' : TenantCredentials) : Prop :=
  Encoding.toWellFormed credentials.email = Encoding.toWellFormed credentials'.email ∧
    Encoding.toWellFormed credentials.password = Encoding.toWellFormed credentials'.password

/-- What is sealed is opened again, and a fingerprint is of one payload. -/
structure Faithful (cipher : TenantCredentialCipher) : Prop where
  opens {credentials : TenantCredentials} {context : TenantCredentialContext} {iv : Bytes}
    {encrypted : EncryptedTenantCredentials}
    (h : cipher.encrypt credentials context iv = .ok encrypted) :
    cipher.decrypt encrypted context = .ok credentials
  alike {credentials credentials' : TenantCredentials} {workspaceId workspaceId' fingerprint : JsString}
    (h : cipher.fingerprint ⟨credentials, workspaceId, .tenantValidation⟩ = .ok fingerprint)
    (h' : cipher.fingerprint ⟨credentials', workspaceId', .tenantValidation⟩ = .ok fingerprint) :
    Alike credentials credentials'

section

variable {platform : Platform} {key : Bytes} {keyVersion : JsString}
  {cipher : TenantCredentialCipher}

theorem encrypt_of_error
    (hcipher : createTenantCredentialCipher platform key keyVersion = .ok cipher)
    {context : TenantCredentialContext} {error : JsError}
    (hdata : credentialAdditionalAuthenticatedData context = .error error)
    (credentials : TenantCredentials) (iv : Bytes) :
    cipher.encrypt credentials context iv = .error error := by
  unfold createTenantCredentialCipher at hcipher
  have ⟨cipherKey, hkey, hcipher⟩ := bind_eq_ok.mp hcipher
  split at hcipher
  · cases hcipher
  · cases hcipher
    simp only [hdata, bind, Except.bind]

/-- The cipher of the code, over an AES-256-GCM that opens what it sealed and an HMAC without
collisions. -/
theorem faithful_createTenantCredentialCipher
    (hcipher : createTenantCredentialCipher platform key keyVersion = .ok cipher)
    (htext : platform.DecodesUtf8) (hopens : platform.aes256Gcm.Opens key)
    (hmac : Function.Injective (platform.hmacSha256 key)) : Faithful cipher where
  opens := by
    intro credentials context iv encrypted h
    cases hdata : credentialAdditionalAuthenticatedData context with
    | error e =>
        rw [encrypt_of_error hcipher hdata] at h
        cases h
    | ok data =>
        rw [encrypt_of_additionalData hcipher hdata] at h
        cases h
        exact decrypt_of_plaintext hcipher htext hdata (hopens iv data _)
  alike := by
    intro credentials credentials' workspaceId workspaceId' fingerprint h h'
    rw [createTenantCredentialCipher_fingerprint hcipher] at h h'
    have ⟨hlt, hprint⟩ := fingerprint_ok h
    have ⟨hlt', hprint'⟩ := fingerprint_ok h'
    have hmessage := hmac (hexText_injective (hprint.symm.trans hprint'))
    have hfields := Encoding.fields_injective hlt hlt' (List.append_cancel_left hmessage)
    simp only [payloadFields, List.cons.injEq, Encoding.utf8_eq_iff] at hfields
    exact ⟨hfields.2.2.1, hfields.2.2.2.1⟩

end

/-! ## The columns that no call changes -/

def TenantConnection.encryptedCredentials (row : TenantConnection) : EncryptedTenantCredentials :=
  ⟨row.credentialCiphertext, row.credentialIv, row.credentialAuthTag, row.credentialKeyVersion⟩

/-- What a start wrote for good. -/
def TenantConnection.origin (row : TenantConnection) :
    Uuid × Uuid × EncryptedTenantCredentials :=
  (row.organizationId, row.workspaceId, row.encryptedCredentials)

/-- No connection is lost, and their origins stay. -/
def KeepsOrigin (db db' : Store) : Prop :=
  ∀ id row, db.tenantConnections.find id = some row →
    ∃ row', db'.tenantConnections.find id = some row' ∧ row'.origin = row.origin

namespace KeepsOrigin

variable {db db₁ db' : Store}

theorem of_eq (h : db'.tenantConnections = db.tenantConnections) : KeepsOrigin db db' :=
  fun _ row hrow => ⟨row, h ▸ hrow, rfl⟩

theorem trans (h : KeepsOrigin db db₁) (h' : KeepsOrigin db₁ db') : KeepsOrigin db db' := by
  intro id row hrow
  have ⟨row₁, hrow₁, hsame₁⟩ := h id row hrow
  have ⟨row', hrow', hsame'⟩ := h' id row₁ hrow₁
  exact ⟨row', hrow', hsame'.trans hsame₁⟩

/-- One connection is written over itself, or is new. -/
theorem put {row : TenantConnection}
    (h : ∀ old, db.tenantConnections.find row.id = some old → row.origin = old.origin) :
    KeepsOrigin db (db.putTenantConnection row) := by
  intro id old hold
  by_cases hid : row.id = id
  · exact ⟨row, (Table.find_put _ _ _).trans (if_pos hid), h old (hid ▸ hold)⟩
  · exact ⟨old, (Table.find_put _ _ _).trans ((if_neg hid).trans hold), rfl⟩

/-- A new version of a stored connection. -/
theorem rewrite {id : Uuid} {row : TenantConnection} (row' : TenantConnection)
    (hrow : db.tenantConnections.find id = some row) (hid : row'.id = row.id)
    (hsame : row'.origin = row.origin) : KeepsOrigin db (db.putTenantConnection row') := by
  apply put
  intro old hold
  rw [hid, Store.tenantConnection_id hrow, hrow] at hold
  cases hold
  exact hsame

end KeepsOrigin

theorem Move.Step.keepsOrigin {db db' : Store} {m : Move} (h : m.Step db db') :
    KeepsOrigin db db' := by
  cases h with
  | started hconnection =>
      have hnew : ∀ row, db.tenantConnections.find row = none → ∀ old,
          db.tenantConnections.find row ≠ some old := fun row hnone old hold => by
        cases hnone.symm.trans hold
      exact (KeepsOrigin.put fun old hold => absurd hold (hnew _ hconnection old)).trans (.of_eq rfl)
  | claimed => exact .of_eq rfl
  | renewed => exact .of_eq rfl
  | recovered => exact .of_eq rfl
  | @retried _ _ _ _ _ _ _ row hjob hguard hconnection =>
      exact (KeepsOrigin.rewrite (row.revalidate) hconnection rfl rfl).trans (.of_eq rfl)
  | completed hjob hguard hconnection => exact .rewrite (.activate _ _) hconnection rfl rfl
  | failed hjob hguard hconnection => exact .rewrite (.reject _) hconnection rfl rfl

theorem Moves.keepsOrigin {db db' : Store} {ms : List Move} (h : Moves db ms db') :
    KeepsOrigin db db' := by
  induction h with
  | nil => exact .of_eq rfl
  | cons head _ ih => exact head.keepsOrigin.trans ih

/-! ## The credentials of a job -/

/-- The cipher reads these credentials from the row. -/
def Opens (cipher : TenantCredentialCipher) (row : TenantConnection)
    (credentials : TenantCredentials) : Prop :=
  cipher.decrypt row.encryptedCredentials ⟨uuidOut row.workspaceId, .tenantValidation⟩ =
    .ok credentials

/-- The job is of this connection, and the cipher reads these credentials from its row. -/
def OpensFor (cipher : TenantCredentialCipher) (db : Store) (jobId connectionId : Uuid)
    (credentials : TenantCredentials) : Prop :=
  ∃ job row, db.jobs.find jobId = some job ∧ job.tenantConnectionId = connectionId ∧
    db.tenantConnections.find connectionId = some row ∧ Opens cipher row credentials

/-- The row holds what the cipher made of some credentials for its workspace. -/
def SealedRow (cipher : TenantCredentialCipher) (row : TenantConnection) : Prop :=
  ∃ credentials iv, cipher.encrypt credentials ⟨uuidOut row.workspaceId, .tenantValidation⟩ iv =
    .ok row.encryptedCredentials

/-- Every row is sealed, and every record is of a payload with the credentials of its job. -/
structure Sealed (cipher : TenantCredentialCipher) (db : Store) : Prop where
  rows : ∀ id row, db.tenantConnections.find id = some row → SealedRow cipher row
  records : ∀ record ∈ db.idempotencyRecords, ∃ connectionId credentials workspaceId,
    OpensFor cipher db record.jobId connectionId credentials ∧
    cipher.fingerprint ⟨credentials, workspaceId, .tenantValidation⟩ = .ok record.payloadFingerprint

section

variable {cipher : TenantCredentialCipher} {db db' : Store} {jobId connectionId connectionId' : Uuid}
  {credentials credentials' : TenantCredentials}

theorem Opens.origin {row row' : TenantConnection} (h : Opens cipher row credentials)
    (hsame : row'.origin = row.origin) : Opens cipher row' credentials := by
  have ⟨_, hrest⟩ := Prod.mk.inj hsame
  have ⟨hworkspace, hencrypted⟩ := Prod.mk.inj hrest
  unfold Opens
  rw [hworkspace, hencrypted]
  exact h

theorem SealedRow.origin {row row' : TenantConnection} (h : SealedRow cipher row)
    (hsame : row'.origin = row.origin) : SealedRow cipher row' := by
  have ⟨_, hrest⟩ := Prod.mk.inj hsame
  have ⟨hworkspace, hencrypted⟩ := Prod.mk.inj hrest
  unfold SealedRow
  rw [hworkspace, hencrypted]
  exact h

/-- A job has one connection, and its row one plaintext. -/
theorem OpensFor.unique (h : OpensFor cipher db jobId connectionId credentials)
    (h' : OpensFor cipher db jobId connectionId' credentials') :
    connectionId = connectionId' ∧ credentials = credentials' := by
  have ⟨job, row, hjob, hconnection, hrow, hopens⟩ := h
  have ⟨job', row', hjob', hconnection', hrow', hopens'⟩ := h'
  cases hjob.symm.trans hjob'
  have hsame := hconnection.symm.trans hconnection'
  subst hsame
  cases hrow.symm.trans hrow'
  exact ⟨rfl, Except.ok.inj (hopens.symm.trans hopens')⟩

theorem OpensFor.keeps (h : OpensFor cipher db jobId connectionId credentials) (hk : Keeps db db')
    (ho : KeepsOrigin db db') : OpensFor cipher db' jobId connectionId credentials := by
  have ⟨job, row, hjob, hconnection, hrow, hopens⟩ := h
  have ⟨job', hjob', htc⟩ := hk.job hjob
  have ⟨row', hrow', hsame⟩ := ho _ row hrow
  exact ⟨job', row', hjob', htc.trans hconnection, hrow', hopens.origin hsame⟩

/-- A connection after a move is that of a start, or was there before it. -/
theorem Move.Step.connection {m : Move} (h : m.Step db db') {id : Uuid} {row : TenantConnection}
    (hrow : db'.tenantConnections.find id = some row) :
    (∃ old, db.tenantConnections.find id = some old ∧ row.origin = old.origin) ∨
      ∃ c : Creation, m = .started c.targetWorkspace c.idempotencyKey c.encryptedCredentials
        c.payloadFingerprint c.draws ∧ row = c.connection := by
  -- an update keeps what the connection was created with
  have hput : ∀ {old : TenantConnection} {id' : Uuid} (row' : TenantConnection),
      db.tenantConnections.find id' = some old → row'.id = old.id → row'.origin = old.origin →
      (db.tenantConnections.put row').find id = some row →
      ∃ old, db.tenantConnections.find id = some old ∧ row.origin = old.origin := by
    intro old id' row' hold hid hsame hrow
    rw [Table.find_put] at hrow
    split at hrow
    · rename_i he
      cases hrow
      have hid' : id' = id := (Store.tenantConnection_id hold).symm.trans (hid.symm.trans he)
      exact ⟨old, hid' ▸ hold, hsame⟩
    · exact ⟨row, hrow, rfl⟩
  cases h with
  | @started targetWorkspace idempotencyKey encryptedCredentials payloadFingerprint draws =>
      have hput : (db.tenantConnections.put (newTenantConnection targetWorkspace
          encryptedCredentials draws)).find id = some row := hrow
      rw [Table.find_put] at hput
      split at hput
      · cases hput
        exact .inr ⟨⟨targetWorkspace, idempotencyKey, encryptedCredentials, payloadFingerprint,
          draws⟩, rfl, rfl⟩
      · exact .inl ⟨row, hput, rfl⟩
  | claimed => exact .inl ⟨row, hrow, rfl⟩
  | renewed => exact .inl ⟨row, hrow, rfl⟩
  | recovered => exact .inl ⟨row, hrow, rfl⟩
  | retried _ _ hold =>
      exact .inl (hput (.revalidate _) hold rfl rfl hrow)
  | completed _ _ hold =>
      exact .inl (hput (.activate _ _) hold rfl rfl hrow)
  | failed _ _ hold =>
      exact .inl (hput (.reject _) hold rfl rfl hrow)

/-- What an admitted start seals is opened from the row it creates. -/
theorem opens_newTenantConnection (hcipher : Faithful cipher) {grants : List AccessGrant}
    {input : StartTenantValidationInput} {draws : StartDraws} {targetWorkspace : Workspace}
    {encryptedCredentials : EncryptedTenantCredentials} {payloadFingerprint : JsString}
    (h : Admits db grants input cipher draws targetWorkspace encryptedCredentials
      payloadFingerprint) :
    Opens cipher (newTenantConnection targetWorkspace encryptedCredentials draws)
      input.credentials :=
  hcipher.opens h.encrypted

/-- A move keeps what is stored sealed; the record of a new job is of the credentials in its row. -/
theorem Sealed.move {m : Move} (h : Sealed cipher db) (hcipher : Faithful cipher)
    (hstep : m.Step db db')
    (hstarted : ∀ c : Creation, m = .started c.targetWorkspace c.idempotencyKey
      c.encryptedCredentials c.payloadFingerprint c.draws → ∃ credentials workspaceId,
      cipher.encrypt credentials ⟨uuidOut c.targetWorkspace.id, .tenantValidation⟩ c.draws.iv =
        .ok c.encryptedCredentials ∧
      cipher.fingerprint ⟨credentials, workspaceId, .tenantValidation⟩ =
        .ok c.payloadFingerprint) : Sealed cipher db' where
  rows id row hrow := by
    rcases hstep.connection hrow with ⟨old, hold, hsame⟩ | ⟨c, hm, he⟩
    · exact (h.rows id old hold).origin hsame
    · have ⟨credentials, _, hencrypted, _⟩ := hstarted c hm
      subst he
      exact ⟨credentials, c.draws.iv, hencrypted⟩
  records record hmem := by
    have ho := hstep.keepsOrigin
    rcases hstep.creates with ⟨hk, hsame⟩ | ⟨c, hm, hfresh, rfl⟩
    · rw [hsame] at hmem
      have ⟨connectionId, credentials, workspaceId, hopens, hprint⟩ := h.records record hmem
      exact ⟨connectionId, credentials, workspaceId, hopens.keeps hk ho, hprint⟩
    · have hrows : (c.commit db).idempotencyRecords.rows =
          db.idempotencyRecords.rows ++ [c.record] :=
        Table.rows_put_of_find_none (r := c.record) hfresh.record
      rw [Table.mem_def, hrows, List.mem_append, List.mem_singleton] at hmem
      rcases hmem with hold | rfl
      · have ⟨connectionId, credentials, workspaceId, hopens, hprint⟩ := h.records record hold
        exact ⟨connectionId, credentials, workspaceId, hopens.keeps hfresh.keeps ho, hprint⟩
      · have ⟨credentials, workspaceId, hencrypted, hprint⟩ := hstarted c hm
        exact ⟨c.connection.id, credentials, workspaceId, ⟨c.job, c.connection,
          Table.find_put_self _ _, rfl, Table.find_put_self _ _, hcipher.opens hencrypted⟩, hprint⟩

/-- The call, if it is a start, uses this cipher. -/
def Call.Uses (cipher : TenantCredentialCipher) : Call → Prop
  | .start _ _ used _ => used = cipher
  | _ => True

/-- Calls of one cipher keep the records sealed. -/
theorem Sealed.call {call : Call} {o : Except JsError call.Result} (h : Sealed cipher db)
    (hcipher : Faithful cipher) (hc : Consistent db) (huses : call.Uses cipher)
    (hruns : call.Runs db o db') : Sealed cipher db' := by
  have hother : call.isStart = false → Sealed cipher db' := by
    intro hcall
    refine hruns.preserve hc hcall (fun m db db' hnot hp hstep => ?_) h
    apply hp.move hcipher hstep
    intro c hm
    subst hm
    exact absurd trivial hnot
  cases call with
  | start grants input used draws =>
      cases huses
      have ⟨s', hrun⟩ := hruns
      rcases runs_start_cases hrun with ⟨_, rfl, _⟩ |
        ⟨targetWorkspace, encryptedCredentials, payloadFingerprint, hadmits, htx⟩
      · exact h
      · have ⟨_, hcommit⟩ := runs_startTransaction (fun _ he => he) hc htx
        cases hcommit with
        | unchanged => exact h
        | created hmove =>
            apply h.move hcipher hmove
            intro c hm
            injection hm with hworkspace _ hencrypted hfingerprint hdraws
            subst hworkspace hencrypted hfingerprint hdraws
            exact ⟨input.credentials, input.workspaceId, hadmits.encrypted, hadmits.fingerprint⟩
  | claim => exact hother rfl
  | renew => exact hother rfl
  | recover => exact hother rfl
  | apply => exact hother rfl

/-! ## What was submitted -/

/-- The grants let their holder write in the workspace of the connection. -/
def GrantedFor (grants : List AccessGrant) (db : Store) (connectionId : Uuid) : Prop :=
  ∃ row, db.tenantConnections.find connectionId = some row ∧
    isAuthorized grants ⟨row.organizationId, .write, .workspace row.workspaceId⟩ = true

theorem GrantedFor.keeps {grants : List AccessGrant} (h : GrantedFor grants db connectionId)
    (ho : KeepsOrigin db db') : GrantedFor grants db' connectionId := by
  have ⟨row, hrow, hwrite⟩ := h
  have ⟨row', hrow', hsame⟩ := ho _ row hrow
  have ⟨horganization, hrest⟩ := Prod.mk.inj hsame
  have ⟨hworkspace, _⟩ := Prod.mk.inj hrest
  exact ⟨row', hrow', horganization ▸ hworkspace ▸ hwrite⟩

section

variable {grants : List AccessGrant} {input : StartTenantValidationInput} {draws : StartDraws}

/-- A call that is no start creates no job. -/
theorem Call.Runs.created_start {call : Call} {o : Except JsError call.Result}
    (h : call.Runs db o db') (hc : Consistent db) (hnone : db.jobs.find jobId = none) {job : Job}
    (hjob : db'.jobs.find jobId = some job) : call.isStart = true := by
  rcases h.at hc jobId with hsame | ⟨m, hmakes, rfl, hrow, _⟩
  · rw [← hsame.job, hjob] at hnone
    cases hnone
  · rw [hnone, hjob] at hrow
    cases hrow with
    | started => exact hmakes.starts trivial

/-- A job that a start created was submitted by it, under grants that let it. -/
theorem created_opens (hcipher : Faithful cipher) (hc : Consistent db)
    {o : Except JsError StartTenantValidationResult}
    (h : (Call.start grants input cipher draws).Runs db o db')
    (hnone : db.jobs.find jobId = none) {job : Job} (hjob : db'.jobs.find jobId = some job) :
    OpensFor cipher db' jobId job.tenantConnectionId input.credentials ∧
      GrantedFor grants db' job.tenantConnectionId := by
  have hold : db' ≠ db := by
    intro he
    rw [he, hnone] at hjob
    cases hjob
  have ⟨s', hrun⟩ := h
  rcases runs_start_cases hrun with ⟨_, hsame, _⟩ |
    ⟨targetWorkspace, encryptedCredentials, payloadFingerprint, hadmits, htx⟩
  · exact absurd hsame hold
  have ⟨_, hcommit⟩ := runs_startTransaction (fun _ he => he) hc htx
  cases hcommit with
  | unchanged => exact absurd rfl hold
  | created hmove =>
      cases hmove with
      | started =>
          have hput : (db.jobs.put (newJob draws draws.tenantConnectionId)).find jobId = some job :=
            hjob
          rw [Table.find_put] at hput
          split at hput
          · cases hput
            have hrow : ∀ {t : Table TenantConnection}, (t.put (newTenantConnection targetWorkspace
                encryptedCredentials draws)).find draws.tenantConnectionId = some _ :=
              Table.find_put_self _ _
            exact ⟨⟨_, _, hjob, rfl, hrow, opens_newTenantConnection hcipher hadmits⟩, _, hrow,
              hadmits.authorized⟩
          · rw [hnone] at hput
            cases hput

/-- A start that is accepted with a job was given the credentials of this job; one that created it,
exactly these. -/
theorem accepted_opens (hcipher : Faithful cipher) (hc : Consistent db) (hs : Sealed cipher db)
    {connection : TenantConnectionDto} {job : Job} {reused : Bool}
    (h : (Call.start grants input cipher draws).Runs db (.ok (.accepted connection job reused))
      db') :
    ∃ credentials, OpensFor cipher db' job.id connection.id credentials ∧
      Alike credentials input.credentials ∧
      (reused = false → credentials = input.credentials) := by
  have hsealed := hs.call hcipher hc (by exact rfl) h
  have ⟨s', hrun⟩ := h
  have ⟨targetWorkspace, encryptedCredentials, payloadFingerprint, hadmits, record, row, hrecord,
    hsame, hjob, hrow, hdto⟩ := accepted_start hc hrun
  have hid : job.id = record.jobId := Store.job_id hjob
  have hconnection : connection.id = job.tenantConnectionId := by
    rw [hdto]
    exact Store.tenantConnection_id hrow
  have ⟨connectionId, credentials, workspaceId, hopens, hprint⟩ :=
    hsealed.records record (List.mem_of_find?_eq_some hrecord)
  have ⟨job', row', hjob', htc, hrow', hcredentials⟩ := hopens
  cases hjob.symm.trans hjob'
  rw [← htc, ← hconnection, ← hid] at hopens
  refine ⟨credentials, hopens, hcipher.alike (hsame ▸ hprint) hadmits.fingerprint, ?_⟩
  intro hreused
  subst hreused
  -- only the commit that creates the job answers so
  have ⟨targetWorkspace', encryptedCredentials', payloadFingerprint', hadmits', htx⟩ :=
    admits_of_accepted hrun
  have ⟨_, hcommit⟩ := runs_startTransaction (fun _ he => he) hc htx
  cases hcommit with
  | unchanged hnot => exact absurd rfl (hnot connection job)
  | created hmove ho =>
      rcases ho with ho | ⟨e, ho⟩
      · cases ho
        have hnone : db.jobs.find draws.jobId = none := by
          cases hmove with
          | started _ hnone => exact hnone
        rw [← hid] at hjob
        exact (hopens.unique (created_opens hcipher hc h hnone hjob).1).2
      · cases ho

end

end

end InboxSaas.Product
