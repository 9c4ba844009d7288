import Mathlib.Data.List.Induction
import InboxSaas.Worker.RenewedRuns

/-!
# What a run may do

How far a run has got is what its events say of its lease, of its renewal and of its permit.  The
protocol permits each operation at one stage only: the claim comes first, the provisioner is called
after a renewal under the token of the claim, and a permit that was acquired is released once.
-/

namespace InboxSaas.Worker

open Reasoning Product Program

abbrev WorkerEvent : Type := Event WorkerOp WorkerOp.Reply JsError

/-! ## What a run has done -/

/-- The job and the token of a claim that was answered. -/
def claimedLease : WorkerEvent → Option (Uuid × Uuid)
  | ⟨.claimTenantValidationJob jobId _ _, .ok (.claimed _ job)⟩ => job.leaseToken.map (jobId, ·)
  | _ => none

/-- The job and the token of the run's claim. -/
def lease (l : List WorkerEvent) : Option (Uuid × Uuid) :=
  l.findSome? claimedLease

/-- A renewal under the token was accepted. -/
def Renewed (l : List WorkerEvent) (jobId leaseToken : Uuid) : Prop :=
  ∃ now, ⟨.renewTenantValidationJobLease jobId leaseToken now leaseDurationMs, .ok true⟩ ∈ l

def isRenewal : WorkerEvent → Bool
  | ⟨.renewTenantValidationJobLease _ _ _ _, _⟩ => true
  | _ => false

def isAcquired : WorkerEvent → Bool
  | ⟨.acquire _, .ok _⟩ => true
  | _ => false

def isReleased : WorkerEvent → Bool
  | ⟨.release _, _⟩ => true
  | _ => false

structure Progress where
  lease : Option (Uuid × Uuid)
  /-- The lease was renewed by the run itself. -/
  renewed : Bool
  acquired : Nat
  released : Nat

def Progress.next (p : Progress) : WorkerEvent → Progress
  | ⟨.claimTenantValidationJob jobId _ _, .ok (.claimed _ job)⟩ =>
      { p with lease := p.lease.or (job.leaseToken.map (jobId, ·)) }
  | ⟨.renewTenantValidationJobLease jobId leaseToken _ duration, .ok true⟩ =>
      { p with renewed :=
          p.renewed || (p.lease = some (jobId, leaseToken) && duration = leaseDurationMs) }
  | ⟨.acquire _, .ok _⟩ => { p with acquired := p.acquired + 1 }
  | ⟨.release _, _⟩ => { p with released := p.released + 1 }
  | _ => p

def progress (l : List WorkerEvent) : Progress :=
  l.foldl Progress.next ⟨none, false, 0, 0⟩

@[simp] theorem progress_nil : progress [] = ⟨none, false, 0, 0⟩ := rfl

theorem progress_snoc (l : List WorkerEvent) (e : WorkerEvent) :
    progress (l ++ [e]) = (progress l).next e :=
  List.foldl_append

/-- What the run's progress says of its events. -/
structure Tells (l : List WorkerEvent) : Prop where
  lease : (progress l).lease = lease l
  renewed : (progress l).renewed = true →
    ∃ jobId leaseToken, Worker.lease l = some (jobId, leaseToken) ∧ Renewed l jobId leaseToken
  acquired : (progress l).acquired = l.countP isAcquired
  released : (progress l).released = l.countP isReleased

theorem lease_append {l : List WorkerEvent} {jobId leaseToken : Uuid}
    (h : lease l = some (jobId, leaseToken)) (m : List WorkerEvent) :
    lease (l ++ m) = some (jobId, leaseToken) := by
  unfold lease at h ⊢
  rw [List.findSome?_append, h, Option.some_or]

theorem Renewed.append {l : List WorkerEvent} {jobId leaseToken : Uuid}
    (h : Renewed l jobId leaseToken) (m : List WorkerEvent) : Renewed (l ++ m) jobId leaseToken := by
  obtain ⟨now, h⟩ := h
  exact ⟨now, List.mem_append_left m h⟩

theorem Progress.next_lease (p : Progress) (e : WorkerEvent) :
    (p.next e).lease = p.lease.or (claimedLease e) := by
  unfold Progress.next claimedLease
  split <;> simp_all

theorem Progress.next_acquired (p : Progress) (e : WorkerEvent) :
    (p.next e).acquired = p.acquired + [e].countP isAcquired := by
  unfold Progress.next
  split <;> simp_all [isAcquired]

theorem Progress.next_released (p : Progress) (e : WorkerEvent) :
    (p.next e).released = p.released + [e].countP isReleased := by
  unfold Progress.next
  split <;> simp_all [isReleased]

theorem Progress.next_renewed {p : Progress} {e : WorkerEvent} (h : (p.next e).renewed = true) :
    p.renewed = true ∨ ∃ jobId leaseToken, p.lease = some (jobId, leaseToken) ∧
      Renewed [e] jobId leaseToken := by
  unfold Progress.next at h
  split at h
  · exact .inl h
  · rename_i jobId leaseToken now duration
    rw [Bool.or_eq_true, Bool.and_eq_true, decide_eq_true_iff, decide_eq_true_iff] at h
    refine h.imp_right fun ⟨hlease, hduration⟩ => ?_
    subst hduration
    exact ⟨jobId, leaseToken, hlease, now, List.mem_cons_self⟩
  · exact .inl h
  · exact .inl h
  · exact .inl h

theorem tells (l : List WorkerEvent) : Tells l := by
  induction l using List.reverseRecOn with
  | nil => exact ⟨rfl, nofun, rfl, rfl⟩
  | append_singleton l e ih =>
      constructor
      · rw [progress_snoc, Progress.next_lease, ih.lease, lease, lease, List.findSome?_append]
        congr 1
        simp
      · intro h
        rw [progress_snoc] at h
        rcases Progress.next_renewed h with h | ⟨jobId, leaseToken, hlease, hrenewed⟩
        · obtain ⟨jobId, leaseToken, hlease, hrenewed⟩ := ih.renewed h
          exact ⟨jobId, leaseToken, lease_append hlease _, hrenewed.append _⟩
        · rw [ih.lease] at hlease
          refine ⟨jobId, leaseToken, lease_append hlease _, ?_⟩
          obtain ⟨now, hmem⟩ := hrenewed
          exact ⟨now, List.mem_append_right l hmem⟩
      · rw [progress_snoc, Progress.next_acquired, ih.acquired, List.countP_append]
      · rw [progress_snoc, Progress.next_released, ih.released, List.countP_append]

/-! ## What a run may do -/

/-- What a run for the job may do next. -/
def Progress.Permits (p : Progress) (jobId : Uuid) : WorkerOp → Prop
  | .now => True
  | .query (.selectTenantConnection _) => True
  | .claimTenantValidationJob id _ _ => id = jobId ∧ p.lease = none
  | .renewTenantValidationJobLease id leaseToken _ _ => p.lease = some (id, leaseToken)
  | .applyTenantValidationResult id leaseToken _ _ => p.lease = some (id, leaseToken)
  | .startRenewals id leaseToken => p.lease = some (id, leaseToken)
  | .stopRenewals => True
  | .leaseLost => True
  | .loseLease => True
  | .acquire _ => p.acquired = 0
  | .release _ => p.released < p.acquired
  | .validateTenant _ => p.renewed = true ∧ ∃ leaseToken, p.lease = some (jobId, leaseToken)
  | _ => False

def runProtocol (jobId : Uuid) : Protocol WorkerOp WorkerOp.Reply JsError where
  possible _ := True
  permits l op := (progress l).Permits jobId op

/-- How a run ends: its permit is given back, and only a renewed lease gives a result. -/
structure RunEnds (o : Except JsError ProcessTenantValidationJobResult) (p : Progress) :
    Prop where
  released : p.released = p.acquired
  notClaimed : o = .ok .notClaimed → p.lease = none
  renewed : ∀ applied, o = .ok (.result applied) → p.renewed = true

section

variable {jobId leaseToken : Uuid} {l : List WorkerEvent}

/-- An operation of a run, and what follows its answer. -/
theorem await_obeys {α : Type} {op : WorkerOp} {f : op.Reply → WorkerProgram α}
    {post : Except JsError α → List WorkerEvent → Prop}
    (hpermits : (progress l).Permits jobId op)
    (hok : ∀ r, Obeys (runProtocol jobId) post (f r) (l ++ [⟨op, .ok r⟩]))
    (herror : ∀ e, post (.error e) (l ++ [⟨op, .error e⟩])) :
    Obeys (runProtocol jobId) post (await op >>= f) l :=
  obeys_perform_bind hpermits (fun r _ => hok r) (fun e _ => herror e)

theorem dateOr_obeys (now : Option Time) :
    Obeys (runProtocol jobId) (fun _ m => progress m = progress l) (dateOr now) l := by
  cases now with
  | some now => rfl
  | none =>
      apply obeys_perform
      · exact trivial
      · exact fun r _ => progress_snoc l _

/-- What a renewal leaves of a run that holds its permit. -/
theorem renewLease_obeys (h : progress l = ⟨some (jobId, leaseToken), false, 1, 0⟩)
    (renewedAt : Time) :
    Obeys (runProtocol jobId)
      (fun o m => ∃ renewed, progress m = ⟨some (jobId, leaseToken), renewed, 1, 0⟩ ∧
        (o = .ok true → renewed = true)) (renewLease jobId leaseToken renewedAt) l := by
  have hpermits : (progress l).Permits jobId
      (.renewTenantValidationJobLease jobId leaseToken renewedAt leaseDurationMs) := by
    change (progress l).lease = _
    rw [h]
  -- a renewal that fails sets the flag, and is not remembered as renewed
  have hlose : ∀ {m : List WorkerEvent}, progress m = ⟨some (jobId, leaseToken), false, 1, 0⟩ →
      Obeys (runProtocol jobId)
        (fun o m => ∃ renewed, progress m = ⟨some (jobId, leaseToken), renewed, 1, 0⟩ ∧
          (o = .ok true → renewed = true)) (do await .loseLease; return false) m := by
    intro m hm
    apply await_obeys
    · exact trivial
    · intro r
      exact ⟨false, (progress_snoc m _).trans hm, nofun⟩
    · intro e
      exact ⟨false, (progress_snoc m _).trans hm, nofun⟩
  unfold renewLease
  refine Obeys.handle (Q := fun o m => (∃ e, o = .error e ∧
      progress m = ⟨some (jobId, leaseToken), false, 1, 0⟩) ∨ ∃ b, o = .ok b ∧
        ∃ renewed, progress m = ⟨some (jobId, leaseToken), renewed, 1, 0⟩ ∧
          (b = true → renewed = true)) ?_ ?_ ?_
  · apply await_obeys hpermits
    · intro renewed
      cases renewed with
      | true =>
          refine .inr ⟨true, rfl, true, ?_, fun _ => rfl⟩
          rw [progress_snoc, h]
          simp [Progress.next]
      | false =>
          rw [if_pos (by decide)]
          apply await_obeys
          · exact trivial
          · intro r
            refine .inr ⟨false, rfl, false, ?_, nofun⟩
            rw [progress_snoc, progress_snoc, h]
            rfl
          · intro e
            refine .inl ⟨e, rfl, ?_⟩
            rw [progress_snoc, progress_snoc, h]
            rfl
    · intro e
      refine .inl ⟨e, rfl, ?_⟩
      rw [progress_snoc, h]
      rfl
  · rintro a m (⟨e, he, -⟩ | ⟨b, hb, renewed, hm, hrenewed⟩)
    · cases he
    · exact ⟨renewed, hm, fun ha => hrenewed (Except.ok.inj (hb.symm.trans ha))⟩
  · rintro e m (⟨e', -, hm⟩ | ⟨b, hb, -⟩)
    · exact hlose hm
    · cases hb

/-- What a run that holds its permit has done when it is about to give it back. -/
structure HoldsPermit (jobId leaseToken : Uuid) (o : Except JsError ProcessTenantValidationJobResult)
    (l : List WorkerEvent) : Prop where
  progress : ∃ renewed, progress l = ⟨some (jobId, leaseToken), renewed, 1, 0⟩ ∧
    ∀ applied, o = .ok (.result applied) → renewed = true
  claimed : o ≠ .ok .notClaimed

theorem validateUnderPermit_obeys (h : progress l = ⟨some (jobId, leaseToken), false, 1, 0⟩)
    (tenantConnectionId : Uuid) (credentials : TenantCredentials) (now : Option Time) :
    Obeys (runProtocol jobId) (HoldsPermit jobId leaseToken)
      (validateUnderPermit jobId tenantConnectionId leaseToken credentials now) l := by
  have hends : ∀ {o : Except JsError ProcessTenantValidationJobResult} {m : List WorkerEvent}
      {renewed : Bool}, progress m = ⟨some (jobId, leaseToken), renewed, 1, 0⟩ →
      (o = .ok .leaseLost ∨ ∃ e, o = .error e) → HoldsPermit jobId leaseToken o m := by
    intro o m renewed hm ho
    constructor
    · refine ⟨renewed, hm, fun applied he => ?_⟩
      rcases ho with rfl | ⟨e, rfl⟩ <;> cases he
    · intro he
      rcases ho with rfl | ⟨e, rfl⟩ <;> cases he
  unfold validateUnderPermit
  apply await_obeys
  · exact trivial
  · intro lost
    have hm : progress (l ++ [⟨.leaseLost, .ok lost⟩]) = ⟨some (jobId, leaseToken), false, 1, 0⟩ :=
      (progress_snoc l _).trans (h ▸ rfl)
    cases lost with
    | true => exact hends hm (.inl rfl)
    | false =>
        rw [if_neg (by decide)]
        apply (dateOr_obeys now).bind
        · intro renewedAt m₁ hm₁
          apply (renewLease_obeys (hm₁.trans hm) renewedAt).bind
          · rintro renewed m₂ ⟨done, hm₂, hdone⟩
            cases renewed with
            | false => exact hends hm₂ (.inl rfl)
            | true =>
                cases hdone rfl
                rw [if_neg (by decide)]
                -- the only place where the provisioner is called
                have hvalidate : Obeys (runProtocol jobId) (fun _ m => progress m = progress m₂)
                    (tryCatch (await (.validateTenant ⟨jobId, tenantConnectionId, credentials⟩))
                      (fun _ => return unexpectedFailure)) m₂ := by
                  apply Obeys.handle (Q := fun _ m => progress m = progress m₂)
                  · apply obeys_perform
                    · change (progress m₂).renewed = true ∧ _
                      rw [hm₂]
                      exact ⟨rfl, leaseToken, rfl⟩
                    · exact fun r _ => progress_snoc m₂ _
                  · exact fun a m hm => hm
                  · exact fun e m hm => hm
                apply hvalidate.bind
                · intro result m₃ hm₃
                  apply (dateOr_obeys now).bind
                  · intro appliedAt m₄ hm₄
                    have hm : progress m₄ = ⟨some (jobId, leaseToken), true, 1, 0⟩ :=
                      hm₄.trans (hm₃.trans hm₂)
                    apply await_obeys
                    · change (progress m₄).lease = _
                      rw [hm]
                    · intro applied
                      refine ⟨⟨true, (progress_snoc m₄ _).trans hm, fun _ _ => rfl⟩, fun he => ?_⟩
                      cases he
                    · intro e
                      exact hends ((progress_snoc m₄ _).trans hm) (.inr ⟨e, rfl⟩)
                  · intro e m₄ hm₄
                    exact hends (hm₄.trans (hm₃.trans hm₂)) (.inr ⟨e, rfl⟩)
                · intro e m₃ hm₃
                  exact hends (hm₃.trans hm₂) (.inr ⟨e, rfl⟩)
          · rintro e m₂ ⟨done, hm₂, -⟩
            exact hends hm₂ (.inr ⟨e, rfl⟩)
        · intro e m₁ hm₁
          exact hends (hm₁.trans hm) (.inr ⟨e, rfl⟩)
  · intro e
    have hm : progress (l ++ [⟨.leaseLost, .error e⟩]) = ⟨some (jobId, leaseToken), false, 1, 0⟩ :=
      (progress_snoc l _).trans (h ▸ rfl)
    exact hends hm (.inr ⟨e, rfl⟩)

theorem RunEnds.error {e : JsError} {p : Progress} (h : p.released = p.acquired) :
    RunEnds (.error e) p where
  released := h
  notClaimed he := by cases he
  renewed applied he := by cases he

/-- The permit is given back, whether the run returned or threw. -/
theorem releasing_obeys {p : WorkerProgram ProcessTenantValidationJobResult}
    (h : Obeys (runProtocol jobId) (HoldsPermit jobId leaseToken) p l) (organizationId : Uuid) :
    Obeys (runProtocol jobId) (fun o m => RunEnds o (progress m))
      (do
        let outcome ← tryCatch p (fun error => do
          await (.release organizationId)
          throw error)
        await (.release organizationId)
        return outcome) l := by
  have hpermits : ∀ {m : List WorkerEvent} {renewed : Bool},
      progress m = ⟨some (jobId, leaseToken), renewed, 1, 0⟩ →
      (progress m).Permits jobId (.release organizationId) := by
    intro m renewed hm
    change (progress m).released < (progress m).acquired
    rw [hm]
    exact Nat.zero_lt_one
  have hreleased : ∀ {m : List WorkerEvent} {renewed : Bool} (r : Except JsError Unit),
      progress m = ⟨some (jobId, leaseToken), renewed, 1, 0⟩ →
      progress (m ++ [⟨.release organizationId, r⟩]) =
        ⟨some (jobId, leaseToken), renewed, 1, 1⟩ := by
    intro m renewed r hm
    rw [progress_snoc, hm]
    rfl
  -- the permit is released once, however the body ended
  apply Obeys.bind (Q := fun o m => (∃ a, o = .ok a ∧ HoldsPermit jobId leaseToken (.ok a) m) ∨
    ∃ e, o = .error e ∧ (progress m).released = (progress m).acquired)
  · apply h.handle
    · exact fun a m hm => .inl ⟨a, rfl, hm⟩
    · intro e m hm
      obtain ⟨renewed, hm, -⟩ := hm.progress
      apply await_obeys (hpermits hm)
      · intro _
        exact .inr ⟨e, rfl, by rw [hreleased _ hm]⟩
      · intro e'
        exact .inr ⟨e', rfl, by rw [hreleased _ hm]⟩
  · rintro a m (⟨_, ha, hm⟩ | ⟨_, ha, -⟩)
    · cases ha
      obtain ⟨renewed, hp, hresult⟩ := hm.progress
      apply await_obeys (hpermits hp)
      · intro _
        constructor
        · rw [hreleased _ hp]
        · exact fun he => absurd he hm.claimed
        · intro applied he
          rw [hreleased _ hp]
          exact hresult applied he
      · intro e
        exact .error (by rw [hreleased _ hp])
    · cases ha
  · rintro e m (⟨_, he, -⟩ | ⟨_, he, hm⟩)
    · cases he
    · exact .error hm

theorem processClaimedJob_obeys (h : progress l = ⟨some (jobId, leaseToken), false, 0, 0⟩)
    (cipher : TenantCredentialCipher) (credentialKeyVersion : JsString)
    (connection : TenantConnectionDto) (now : Option Time) :
    Obeys (runProtocol jobId) (fun o m => RunEnds o (progress m))
      (processClaimedJob cipher credentialKeyVersion jobId leaseToken connection now) l := by
  unfold processClaimedJob
  apply await_obeys
  · exact trivial
  · intro found
    have hm : progress (l ++ [⟨.query (.selectTenantConnection connection.id), .ok found⟩]) =
        ⟨some (jobId, leaseToken), false, 0, 0⟩ := (progress_snoc l _).trans h
    generalize l ++ [⟨.query (.selectTenantConnection connection.id), .ok found⟩] = m at hm
    cases found with
    | none => exact .error (by rw [hm])
    | some encryptedCredentials =>
        dsimp only
        split
        · exact .error (by rw [hm])
        · cases cipher.decrypt _ _ with
          | error e => exact .error (by rw [hm])
          | ok credentials =>
              rw [ofExcept_ok, ret_bind]
              apply await_obeys
              · change (progress m).acquired = 0
                rw [hm]
              · intro _
                have hm₁ : progress (m ++ [⟨.acquire connection.organizationId, .ok ()⟩]) =
                    ⟨some (jobId, leaseToken), false, 1, 0⟩ :=
                  (progress_snoc m _).trans (congrArg (Progress.next · _) hm)
                generalize m ++ [⟨.acquire connection.organizationId, .ok ()⟩] = m₁ at hm₁
                exact releasing_obeys (validateUnderPermit_obeys hm₁ _ _ _) _
              · intro e
                refine .error ?_
                rw [progress_snoc, hm]
                rfl
  · intro e
    refine .error ?_
    rw [progress_snoc, h]
    rfl

/-- The timer is stopped, whether the run returned or threw; its error is hidden. -/
theorem renewing_obeys {p : WorkerProgram ProcessTenantValidationJobResult}
    (hl : progress l = ⟨some (jobId, leaseToken), false, 0, 0⟩)
    (h : ∀ m, progress m = ⟨some (jobId, leaseToken), false, 0, 0⟩ →
      Obeys (runProtocol jobId) (fun o m => RunEnds o (progress m)) p m) :
    Obeys (runProtocol jobId) (fun o m => RunEnds o (progress m))
      (do
        await (.startRenewals jobId leaseToken)
        let outcome ← tryCatch p (fun _ => do
          await .stopRenewals
          throw processingFailed)
        await .stopRenewals
        return outcome) l := by
  have hstopped : ∀ (m : List WorkerEvent) (r : Except JsError Unit),
      progress (m ++ [⟨.stopRenewals, r⟩]) = progress m := fun m r => progress_snoc m _
  apply await_obeys
  · change (progress l).lease = _
    rw [hl]
  · intro _
    have hstarted : progress (l ++ [⟨.startRenewals jobId leaseToken, .ok ()⟩]) =
        ⟨some (jobId, leaseToken), false, 0, 0⟩ := (progress_snoc l _).trans hl
    apply Obeys.bind (Q := fun o m => RunEnds o (progress m))
    · apply (h _ hstarted).handle
      · exact fun _ _ hm => hm
      · intro e m hm
        apply await_obeys
        · exact trivial
        · intro _
          exact .error (by rw [hstopped, hm.released])
        · intro _
          exact .error (by rw [hstopped, hm.released])
    · intro outcome m hm
      apply await_obeys
      · exact trivial
      · intro _
        change RunEnds _ (progress _)
        rw [hstopped]
        exact hm
      · intro _
        exact .error (by rw [hstopped, hm.released])
    · exact fun _ _ hm => hm
  · intro e
    refine .error ?_
    rw [progress_snoc, hl]
    rfl

theorem processTenantValidationJob_obeys (cipher : TenantCredentialCipher)
    (credentialKeyVersion : JsString) (jobId : Uuid) (now : Option Time) :
    Obeys (runProtocol jobId) (fun o m => RunEnds o (progress m))
      (processTenantValidationJob cipher credentialKeyVersion jobId now) [] := by
  unfold processTenantValidationJob
  apply (dateOr_obeys now).bind
  · intro claimedAt m hm
    -- before the claim is answered the run has nothing
    have hclaim : Obeys (runProtocol jobId)
        (fun o m => (∃ a, o = .ok a ∧ progress m = (⟨none, false, 0, 0⟩ : Progress).next
            ⟨.claimTenantValidationJob jobId claimedAt leaseDurationMs, .ok a⟩) ∨
          ∃ e, o = .error e ∧ progress m = ⟨none, false, 0, 0⟩)
        (tryCatch (await (.claimTenantValidationJob jobId claimedAt leaseDurationMs))
          (fun _ => throw claimFailed)) m := by
      apply Obeys.handle (Q := fun o m => (∃ a, o = .ok a ∧
          progress m = (⟨none, false, 0, 0⟩ : Progress).next
            ⟨.claimTenantValidationJob jobId claimedAt leaseDurationMs, .ok a⟩) ∨
          ∃ e, o = .error e ∧ progress m = ⟨none, false, 0, 0⟩)
      · apply obeys_perform
        · refine ⟨rfl, ?_⟩
          rw [hm]
          rfl
        · intro r _
          rw [progress_snoc, hm]
          cases r with
          | ok a => exact .inl ⟨a, rfl, rfl⟩
          | error e => exact .inr ⟨e, rfl, rfl⟩
      · rintro a m' (h | ⟨e, he, -⟩)
        · exact .inl h
        · cases he
      · rintro e m' (⟨a, ha, -⟩ | ⟨e', -, hm'⟩)
        · cases ha
        · exact .inr ⟨claimFailed, rfl, hm'⟩
    apply hclaim.bind
    · rintro claimed m' (⟨a, ha, hm'⟩ | ⟨e, he, -⟩)
      · cases ha
        cases claimed with
        | notFound => exact ⟨by rw [hm']; rfl, fun _ => by rw [hm']; rfl, fun _ he => by cases he⟩
        | claimed connection job =>
            dsimp only
            cases htoken : job.leaseToken with
            | none => exact .error (by rw [hm']; rfl)
            | some leaseToken =>
                have hlease : progress m' = ⟨some (jobId, leaseToken), false, 0, 0⟩ := by
                  rw [hm']
                  simp [Progress.next, htoken]
                exact renewing_obeys hlease fun m hm => processClaimedJob_obeys hm _ _ _ _
      · cases he
    · rintro e m' (⟨a, ha, -⟩ | ⟨e', he, hm'⟩)
      · cases ha
      · exact .error (by rw [hm'])
  · intro e m hm
    exact .error (by rw [hm]; rfl)

end

/-! ## Every task keeps to its protocol -/

namespace Task

/-- A run does what its progress permits; only runs start timers. -/
def protocol : Task → Protocol WorkerOp WorkerOp.Reply JsError
  | .process _ _ jobId _ => runProtocol jobId
  | _ => ⟨fun _ => True, fun _ op => ∀ jobId leaseToken, op ≠ .startRenewals jobId leaseToken⟩

def Ends : Task → Except JsError (Option ProcessTenantValidationJobResult) → List WorkerEvent → Prop
  | .process _ _ _ _, o, l => ∃ result, o = result.map some ∧ RunEnds result (progress l)
  | _, _, _ => True

theorem dispatchEach_obeys (now : Option Time) (events : List OutboxEvent)
    (l : List WorkerEvent) :
    Obeys (Task.tick now).protocol (fun _ _ => True) (dispatchEach events) l := by
  induction events generalizing l with
  | nil => exact trivial
  | cons event rest ih =>
      unfold dispatchEach
      apply Obeys.bind (Q := fun _ _ => True)
      · apply Obeys.handle (Q := fun _ _ => True)
        · refine obeys_perform_bind nofun (fun _ _ => ?_) (fun _ _ => trivial)
          refine obeys_perform_bind nofun (fun _ _ => ?_) (fun _ _ => trivial)
          exact obeys_perform nofun (fun _ _ => trivial)
        · exact fun _ _ _ => trivial
        · exact fun _ _ _ => trivial
      · exact fun _ m _ => ih m
      · exact fun _ _ _ => trivial

theorem obeys (task : Task) : Obeys task.protocol task.Ends task.program [] := by
  cases task with
  | process cipher credentialKeyVersion jobId now =>
      apply (processTenantValidationJob_obeys cipher credentialKeyVersion jobId now).bind
      · exact fun result m hm => ⟨.ok result, rfl, hm⟩
      · exact fun e m hm => ⟨.error e, rfl, hm⟩
  | tick now =>
      apply Obeys.bind (Q := fun _ _ => True)
      · unfold runTenantValidationWorkerTick
        apply Obeys.bind (Q := fun _ _ => True)
        · cases now with
          | some now => exact trivial
          | none => exact obeys_perform nofun (fun _ _ => trivial)
        · intro now m _
          refine obeys_perform_bind nofun (fun _ _ => ?_) (fun _ _ => trivial)
          unfold dispatchPendingTenantValidationOutboxEvents
          refine obeys_perform_bind nofun (fun events _ => ?_) (fun _ _ => trivial)
          exact dispatchEach_obeys _ events _
        · exact fun _ _ _ => trivial
      · exact fun _ _ _ => trivial
      · exact fun _ _ _ => trivial
  | start grants input cipher =>
      exact obeys_perform_bind nofun (fun _ _ => trivial) (fun _ _ => trivial)

end Task

end InboxSaas.Worker
