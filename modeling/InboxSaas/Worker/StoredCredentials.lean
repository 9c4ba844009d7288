import InboxSaas.Worker.DeliveredCredentials

/-!
# Stored credentials open

Where all starts and runs have the cipher of one key and key version, no run ever fails over the
credentials of its connection: the row is there, of this key version, and opens, so the run goes on
to ask for a permit.
-/

namespace InboxSaas.Worker

open Reasoning Product Program

/-! ## What a run does with the row it read -/

/-- The last event was the read of a row that opens. -/
def JustOpened (cipher : TenantCredentialCipher) (keyVersion : JsString) (l : List WorkerEvent) :
    Prop :=
  ∃ m id row credentials, l = m ++ [⟨.query (.selectTenantConnection id), .ok (some row)⟩] ∧
    row.credentialKeyVersion = keyVersion ∧ Opens cipher row credentials

/-- After such a read the run asks for its permit, and does nothing else. -/
def openingProtocol (cipher : TenantCredentialCipher) (keyVersion : JsString) :
    Protocol WorkerOp WorkerOp.Reply JsError where
  possible _ := True
  permits l op := JustOpened cipher keyVersion l → ∃ organizationId, op = .acquire organizationId

/-- The operation reads the row. -/
def WorkerOp.selects : WorkerOp → Bool
  | .query (.selectTenantConnection _) => true
  | _ => false

section

variable {cipher : TenantCredentialCipher} {keyVersion : JsString} {l : List WorkerEvent}

theorem not_justOpened_nil : ¬ JustOpened cipher keyVersion [] := by
  intro h
  have ⟨m, _, _, _, he, _⟩ := h
  exact List.append_ne_nil_of_right_ne_nil m (List.cons_ne_nil _ _) he.symm

theorem not_justOpened_snoc {e : WorkerEvent} (h : e.op.selects = false) :
    ¬ JustOpened cipher keyVersion (l ++ [e]) := by
  intro hopened
  have ⟨m, id, row, _, he, _⟩ := hopened
  have ⟨_, hlast⟩ := List.append_inj' he rfl
  rw [List.singleton_inj.mp hlast] at h
  cases h

/-- What is no read may follow whatever is no such read. -/
theorem obeys_unselected {α : Type} {p : WorkerProgram α}
    (hp : p.Issues (fun op => op.selects = false)) (hl : ¬ JustOpened cipher keyVersion l) :
    Obeys (openingProtocol cipher keyVersion) (fun _ m => ¬ JustOpened cipher keyVersion m) p
      l := by
  induction p generalizing l with
  | ret a => exact hl
  | raise e => exact hl
  | call op next ih =>
      refine ⟨fun hopened => absurd hopened hl, fun r _ => ih r (hp.2 r) ?_⟩
      exact not_justOpened_snoc hp.1

theorem Course.Steady.selects {c : Course} {jobId : Uuid} {op : WorkerOp} {row : TenantConnection}
    (h : c.Steady cipher jobId op) (hrow : c.row = some row) : op.selects = false := by
  cases hselects : op.selects with
  | false => rfl
  | true =>
      unfold WorkerOp.selects at hselects
      split at hselects
      · -- a read would change the row of the course
        have hnext := congrArg Course.row (h.2 (.ok none))
        have hnone : none = c.row := hnext
        rw [hrow] at hnone
        cases hnone
      · cases hselects

theorem issues_unselected_dateOr (now : Option Time) :
    (dateOr now).Issues (fun op => op.selects = false) := by
  cases now with
  | some now => exact trivial
  | none => exact ⟨rfl, fun r => by cases r <;> exact trivial⟩

/-- Whatever follows the grant of the permit reads no row. -/
theorem issues_unselected_validate {connection : TenantConnectionDto} {row : TenantConnection}
    {credentials : TenantCredentials} (hopens : Opens cipher row credentials)
    (jobId leaseToken : Uuid) (now : Option Time) :
    (do
      let outcome ← tryCatch (validateUnderPermit jobId connection.id leaseToken credentials now)
        (fun error => do
          await (.release connection.organizationId)
          throw error)
      await (.release connection.organizationId)
      return outcome : WorkerProgram ProcessTenantValidationJobResult).Issues
      (fun op => op.selects = false) := by
  have hvalidate : (validateUnderPermit jobId connection.id leaseToken credentials now).Issues
      (Course.Steady cipher jobId ⟨some connection, some row, .held connection.organizationId⟩) :=
    issues_validateUnderPermit hopens leaseToken now
  apply Issues.bind
  · apply Issues.handle
    · exact hvalidate.mono fun op h => h.selects rfl
    · exact fun e => issues_perform_bind (by exact rfl) fun _ => trivial
  · exact fun outcome => issues_perform_bind (by exact rfl) fun _ => trivial

theorem processClaimedJob_opens {connection : TenantConnectionDto} (jobId leaseToken : Uuid)
    (now : Option Time) (hl : ¬ JustOpened cipher keyVersion l) :
    Obeys (openingProtocol cipher keyVersion) (fun _ m => ¬ JustOpened cipher keyVersion m)
      (processClaimedJob cipher keyVersion jobId leaseToken connection now) l := by
  have hread : ∀ {found : Except JsError (Option TenantConnection)},
      (∀ row credentials, found = .ok (some row) → row.credentialKeyVersion = keyVersion →
        ¬ Opens cipher row credentials) →
      ¬ JustOpened cipher keyVersion
        (l ++ [⟨.query (.selectTenantConnection connection.id), found⟩]) := by
    intro found hnot hopened
    have ⟨m, id, row, credentials, he, hversion, hopens⟩ := hopened
    have ⟨_, hlast⟩ := List.append_inj' he rfl
    cases List.singleton_inj.mp hlast
    exact hnot row credentials rfl hversion hopens
  unfold processClaimedJob
  apply obeys_perform_bind
  · exact fun hopened => absurd hopened hl
  · intro found _
    cases found with
    | none => exact hread (fun _ _ he => by cases he)
    | some row =>
        dsimp only
        split
        · rename_i hother
          refine hread fun row' _ he hversion => ?_
          cases he
          exact absurd hversion hother
        · cases hdecrypt : cipher.decrypt row.encryptedCredentials
              ⟨uuidOut row.workspaceId, .tenantValidation⟩ with
          | error e =>
              show Obeys _ _ (Program.ofExcept (cipher.decrypt row.encryptedCredentials
                ⟨uuidOut row.workspaceId, .tenantValidation⟩) >>= _) _
              rw [hdecrypt]
              refine hread fun row' _ he _ hopens => ?_
              cases he
              cases hdecrypt.symm.trans hopens
          | ok credentials =>
              show Obeys _ _ (Program.ofExcept (cipher.decrypt row.encryptedCredentials
                ⟨uuidOut row.workspaceId, .tenantValidation⟩) >>= _) _
              rw [hdecrypt, ofExcept_ok, ret_bind]
              apply obeys_perform_bind
              · exact fun _ => ⟨connection.organizationId, rfl⟩
              · intro _ _
                exact obeys_unselected (issues_unselected_validate hdecrypt jobId leaseToken now)
                  (not_justOpened_snoc rfl)
              · exact fun e _ => not_justOpened_snoc rfl
  · exact fun e _ => hread (fun _ _ he => by cases he)

theorem processTenantValidationJob_opens (cipher : TenantCredentialCipher) (keyVersion : JsString)
    (jobId : Uuid) (now : Option Time) :
    Obeys (openingProtocol cipher keyVersion) (fun _ m => ¬ JustOpened cipher keyVersion m)
      (processTenantValidationJob cipher keyVersion jobId now) [] := by
  unfold processTenantValidationJob
  apply (obeys_unselected (issues_unselected_dateOr now) not_justOpened_nil).bind
  · intro claimedAt m hm
    have hclaim : (tryCatch (await (.claimTenantValidationJob jobId claimedAt leaseDurationMs))
        (fun _ => throw claimFailed)).Issues (fun op => op.selects = false) := by
      apply Issues.handle
      · exact ⟨rfl, fun r => by cases r <;> exact trivial⟩
      · exact fun _ => trivial
    apply (obeys_unselected hclaim hm).bind
    · intro claimed m hm
      cases claimed with
      | notFound => exact hm
      | claimed connection job =>
          dsimp only
          cases job.leaseToken with
          | none => exact hm
          | some leaseToken =>
              apply obeys_perform_bind
              · exact fun hopened => absurd hopened hm
              · intro _ _
                apply Obeys.bind (Q := fun _ m => ¬ JustOpened cipher keyVersion m)
                · apply
                    (processClaimedJob_opens jobId leaseToken now (not_justOpened_snoc rfl)).handle
                  · exact fun _ _ hm => hm
                  · exact fun e m hm => obeys_unselected
                      (issues_perform_bind (by exact rfl) fun _ => trivial) hm
                · exact fun outcome m hm => obeys_unselected
                    (issues_perform_bind (by exact rfl) fun _ => trivial) hm
                · exact fun _ _ hm => hm
              · exact fun _ _ => not_justOpened_snoc rfl
    · exact fun _ _ hm => hm
  · exact fun _ _ hm => hm

end

/-- What the cipher sealed carries its key version. -/
theorem encrypt_keyVersion {platform : Platform} {key : Bytes} {keyVersion : JsString}
    {cipher : TenantCredentialCipher}
    (hcipher : createTenantCredentialCipher platform key keyVersion = .ok cipher)
    {credentials : TenantCredentials} {context : TenantCredentialContext} {iv : Bytes}
    {encrypted : EncryptedTenantCredentials}
    (h : cipher.encrypt credentials context iv = .ok encrypted) :
    encrypted.keyVersion = keyVersion := by
  cases hdata : credentialAdditionalAuthenticatedData context with
  | error e =>
      rw [encrypt_of_error hcipher hdata] at h
      cases h
  | ok data =>
      rw [encrypt_of_additionalData hcipher hdata] at h
      cases h
      rfl

/-- Starts and runs have the cipher of one key and key version.  Whenever a run has read the row of
its connection, the row is there, of this key version, and opens, and what the run does next is to
ask for a permit. -/
theorem stored_credentials_open {platform : Platform} {key : Bytes} {keyVersion : JsString}
    {cipher : TenantCredentialCipher}
    (hcipher : createTenantCredentialCipher platform key keyVersion = .ok cipher)
    (htext : platform.DecodesUtf8) (hopens : platform.aes256Gcm.Opens key)
    (hmac : Function.Injective (platform.hmacSha256 key)) {tasks : Nat → Task}
    (huses : ∀ i, (tasks i).Uses cipher) {workspaces : Table Workspace} {clock : Time}
    {w : RenewedRuns} (h : w.Reached tasks (.empty workspaces) clock) {i : Nat} {jobId id : Uuid}
    {now : Option Time} (htask : tasks i = .process cipher keyVersion jobId now)
    {l : List WorkerEvent} {found : Option TenantConnection}
    (hread : own i w.shared.2 = l ++ [⟨.query (.selectTenantConnection id), .ok found⟩]) :
    (∃ row credentials, found = some row ∧ row.credentialKeyVersion = keyVersion ∧
      Opens cipher row credentials) ∧
    ∃ organizationId next, w.prog i = .call (.acquire organizationId) next := by
  have hfaithful := faithful_createTenantCredentialCipher hcipher htext hopens hmac
  have ⟨hdelivering, _⟩ := h.delivering hfaithful huses
  have hmem : ⟨.query (.selectTenantConnection id), .ok found⟩ ∈ own i w.shared.2 := by
    rw [hread]
    exact List.mem_append_right _ List.mem_cons_self
  have hevent : Delivers cipher w.shared.1.world.db
      ⟨.query (.selectTenantConnection id), .ok found⟩ := hdelivering.delivers _ (mem_own.mp hmem)
  have ⟨row, hfound, credentials, iv, hencrypted⟩ := hevent
  have hversion : row.credentialKeyVersion = keyVersion := encrypt_keyVersion hcipher hencrypted
  have hopens : Opens cipher row credentials := hfaithful.opens hencrypted
  subst hfound
  refine ⟨⟨row, credentials, rfl, hversion, hopens⟩, ?_⟩
  -- what the run goes on with is the rest of its program after the events it has made
  have hpath := Pool.Reaches.path (M := renewedWorkers) (fun _ _ _ _ h => h) h i
  have hstart : Obeys (openingProtocol cipher keyVersion)
      (fun _ m => ¬ JustOpened cipher keyVersion m) (tasks i).program [] := by
    rw [htask]
    apply (processTenantValidationJob_opens cipher keyVersion jobId now).bind
    · exact fun _ _ hm => hm
    · exact fun _ _ hm => hm
  have hleft := hstart.path hpath fun _ _ => trivial
  rw [List.nil_append, hread] at hleft
  have hopened : JustOpened cipher keyVersion
      (l ++ [⟨.query (.selectTenantConnection id), .ok (some row)⟩]) :=
    ⟨l, id, row, credentials, rfl, hversion, hopens⟩
  cases hprog : w.prog i with
  | ret result =>
      rw [hprog] at hleft
      exact absurd hopened hleft
  | raise e =>
      rw [hprog] at hleft
      exact absurd hopened hleft
  | call op next =>
      rw [hprog] at hleft
      have ⟨organizationId, hop⟩ := hleft.1 hopened
      subst hop
      exact ⟨organizationId, next, rfl⟩

namespace Sample

open Product.Sample

/-- The sample start, and the run for its job as far as the read of the row. -/
def rowRead : RenewedRuns :=
  unreachedPlayer.traced.play (renewedSystem sealedTasks (.empty workspaces) 5)
    (turn 0 (.succeeds 10) :: List.replicate 4 (turn 1 (.succeeds 20)))

/-- The event is the read of a row. -/
def isRead : WorkerEvent → Bool
  | ⟨.query (.selectTenantConnection _), .ok _⟩ => true
  | _ => false

theorem isRead_eq_true {e : WorkerEvent} (h : isRead e = true) :
    ∃ id found, e = ⟨.query (.selectTenantConnection id), .ok found⟩ := by
  unfold isRead at h
  split at h
  · exact ⟨_, _, rfl⟩
  · cases h

end Sample

open Sample Product.Sample in
/-- The sample run has read its row and asks for a permit. -/
theorem stored_credentials_open_sample :
    ∃ organizationId next, rowRead.prog 1 = .call (.acquire organizationId) next := by
  have hlast : (own 1 rowRead.shared.2).getLast?.any isRead = true := by decide +kernel
  cases hown : (own 1 rowRead.shared.2).getLast? with
  | none =>
      rw [hown] at hlast
      cases hlast
  | some e =>
      rw [hown] at hlast
      have ⟨id, found, he⟩ := isRead_eq_true hlast
      have ⟨l, hread⟩ := List.getLast?_eq_some_iff.mp hown
      subst he
      have hreached : rowRead.Reached sealedTasks (.empty workspaces) 5 :=
        unreachedPlayer.traced.reaches _ _
      exact (stored_credentials_open sealing_eq platform_decodesUtf8 platform_opens
        platform_injective sealedTasks_uses hreached (i := 1) rfl hread).2

end InboxSaas.Worker
