import InboxSaas.Worker.RunProtocol

/-!
# Superseded runs

A run calls the provisioner only after a renewal of its own under the token of its claim, and gives
its permit back once.  When the token was replaced or cleared, neither the run nor its timer changes
the store any more, and a run that had not renewed its lease yet never calls the provisioner.
-/

namespace InboxSaas.Worker

open Reasoning Product Program

/-! ## What holds of every run -/

/-- What a renewal of a timer may do. -/
def renewalProtocol (jobId leaseToken : Uuid) : Protocol WorkerOp WorkerOp.Reply JsError where
  possible _ := True
  permits _ op := (∃ now, op = .renewTenantValidationJobLease jobId leaseToken now leaseDurationMs) ∨
    op = .loseLease

theorem renewLease_renews (jobId leaseToken : Uuid) (renewedAt : Time) (l : List WorkerEvent) :
    Obeys (renewalProtocol jobId leaseToken) (fun _ _ => True)
      (renewLease jobId leaseToken renewedAt) l := by
  unfold renewLease
  apply Obeys.handle (Q := fun _ _ => True)
  · refine obeys_perform_bind (.inl ⟨_, rfl⟩) (fun renewed _ => ?_) (fun _ _ => trivial)
    split
    · exact obeys_perform_bind (.inr rfl) (fun _ _ => trivial) (fun _ _ => trivial)
    · exact trivial
  · exact fun _ _ _ => trivial
  · exact fun _ _ _ =>
      obeys_perform_bind (.inr rfl) (fun _ _ => trivial) (fun _ _ => trivial)

abbrev WorkerTrace : Type := Trace Nat WorkerOp WorkerOp.Reply JsError

/-- The invariant: leases are drawn, timers renew the lease of their run, the provisioner is called
under a renewed lease, and no permit is given back twice. -/
structure Secured (tasks : Nat → Task) (s : RenewedWorld) (tr : WorkerTrace) : Prop where
  consistent : Consistent s.world.db
  drawn : Drawn s.tokens s.world.db
  leases : ∀ i jobId leaseToken, lease (own i tr) = some (jobId, leaseToken) → leaseToken ∈ s.tokens
  timers : ∀ i jobId leaseToken, s.world.renewals i = some (jobId, leaseToken) →
    lease (own i tr) = some (jobId, leaseToken)
  promises : ∀ i p, (i, p) ∈ s.promises → ∃ jobId leaseToken l,
    lease (own i tr) = some (jobId, leaseToken) ∧
      Obeys (renewalProtocol jobId leaseToken) (fun _ _ => True) p l
  validated : ∀ before i request r after, tr = before ++ (i, ⟨.validateTenant request, r⟩) :: after →
    ∀ cipher credentialKeyVersion jobId now,
      tasks i = .process cipher credentialKeyVersion jobId now → ∃ leaseToken,
        lease (own i before) = some (jobId, leaseToken) ∧ Renewed (own i before) jobId leaseToken
  held : ∀ i cipher credentialKeyVersion jobId now,
    tasks i = .process cipher credentialKeyVersion jobId now →
      (progress (own i tr)).released ≤ (progress (own i tr)).acquired ∧
        (progress (own i tr)).acquired ≤ 1

/-- A timer is set by its own run, for the run's lease. -/
theorem RenewedPerforms.renewals {i j : Nat} {s s' : RenewedWorld} {op : WorkerOp}
    {o : Except JsError op.Reply} (h : RenewedPerforms i s op o s') {lease : Uuid × Uuid}
    (hj : s'.world.renewals j = some lease) :
    s.world.renewals j = some lease ∨ j = i ∧ op = .startRenewals lease.1 lease.2 := by
  cases h with
  | claim => exact .inl hj
  | other hop h =>
      cases h with
      | startRenewals =>
          by_cases he : j = i
          · subst he
            change Function.update _ _ _ _ = _ at hj
            rw [Function.update_self] at hj
            cases hj
            exact .inr ⟨rfl, rfl⟩
          · change Function.update _ _ _ _ = _ at hj
            rw [Function.update_of_ne he] at hj
            exact .inl hj
      | stopRenewals =>
          by_cases he : j = i
          · subst he
            change Function.update _ _ _ _ = _ at hj
            rw [Function.update_self] at hj
            cases hj
          · change Function.update _ _ _ _ = _ at hj
            rw [Function.update_of_ne he] at hj
            exact .inl hj
      | _ => exact .inl hj

theorem RenewedPerforms.promises {i : Nat} {s s' : RenewedWorld} {op : WorkerOp}
    {o : Except JsError op.Reply} (h : RenewedPerforms i s op o s') :
    s'.promises = s.promises := by
  cases h <;> rfl

/-- The lease that a claim answers with was drawn. -/
theorem RenewedPerforms.lease_drawn {i : Nat} {s s' : RenewedWorld} {op : WorkerOp}
    {o : Except JsError op.Reply} (h : RenewedPerforms i s op o s') {jobId leaseToken : Uuid}
    (hlease : claimedLease ⟨op, o⟩ = some (jobId, leaseToken)) : leaseToken ∈ s'.tokens := by
  unfold claimedLease at hlease
  split at hlease
  · rename_i heq
    cases heq
    obtain ⟨token, htoken, he⟩ := Option.map_eq_some_iff.mp hlease
    cases he
    cases h with
    | claim hfresh h =>
        have hsame := claimed_token h
        rw [htoken] at hsame
        cases hsame
        exact List.mem_cons_self
    | other hop => exact absurd rfl (hop _ _ _)
  · cases hlease

theorem lease_snoc {l : List WorkerEvent} {e : WorkerEvent} {jobId leaseToken : Uuid}
    (h : lease (l ++ [e]) = some (jobId, leaseToken)) :
    lease l = some (jobId, leaseToken) ∨ claimedLease e = some (jobId, leaseToken) := by
  unfold lease at h ⊢
  rw [List.findSome?_append] at h
  cases hl : l.findSome? claimedLease with
  | none =>
      rw [hl, Option.none_or] at h
      exact .inr (by simpa using h)
  | some found =>
      rw [hl, Option.some_or] at h
      exact .inl h

namespace Secured

variable {tasks : Nat → Task} {s s' : RenewedWorld} {tr : WorkerTrace}

theorem initial (tasks : Nat → Task) {db : Store} (hc : Consistent db) (clock : Time) :
    Secured tasks (.initial db clock) [] where
  consistent := hc
  drawn := drawn_initial db clock
  leases _ _ _ h := by cases h
  timers _ _ _ h := by cases h
  promises _ _ h := by cases h
  validated before i request r after h := by cases before <;> cases h
  held _ _ _ _ _ _ := ⟨Nat.le_refl 0, Nat.zero_le 1⟩

/-- A timer changes the store by renewals under the lease of its run only. -/
theorem timer (h : Secured tasks s tr) {i : Nat} (hs : TimerStep i s s') : Secured tasks s' tr := by
  cases hs with
  | fires hi =>
      refine ⟨h.consistent, h.drawn, h.leases, h.timers, ?_, h.validated, h.held⟩
      intro j p hp
      rcases List.mem_cons.mp hp with he | hp
      · cases he
        exact ⟨_, _, [], h.timers _ _ _ hi, renewLease_renews _ _ _ _⟩
      · exact h.promises j p hp
  | goesOn hpromise hperf =>
      rename_i before after op next r s'
      have hmem : (i, .call op next) ∈ s.promises := by
        rw [hpromise]
        exact List.mem_append_right _ List.mem_cons_self
      obtain ⟨jobId, leaseToken, l, hlease, hobeys⟩ := h.promises i _ hmem
      have hkept := hperf.tokensKept h.consistent h.drawn
      refine ⟨hkept.consistent, hkept.drawn, ?_, ?_, ?_, h.validated, h.held⟩
      · exact fun j id token hj => hperf.tokens (h.leases j id token hj)
      · intro j id token hj
        rcases hperf.renewals hj with hj | ⟨-, hop⟩
        · exact h.timers j id token hj
        · rcases hobeys.1 with ⟨now, he⟩ | he
          · rw [he] at hop
            cases hop
          · rw [he] at hop
            cases hop
      · intro j p hp
        rcases List.mem_append.mp hp with hp | hp
        · refine h.promises j p ?_
          rw [hpromise]
          exact List.mem_append_left _ hp
        · rcases List.mem_cons.mp hp with he | hp
          · cases he
            exact ⟨jobId, leaseToken, _, hlease, hobeys.2 r trivial⟩
          · refine h.promises j p ?_
            rw [hpromise]
            exact List.mem_append_right _ (List.mem_cons_of_mem _ hp)

theorem drift (h : Secured tasks s tr) (hs : RenewedDrifts s s') : Secured tasks s' tr := by
  cases hs with
  | time =>
      exact ⟨h.consistent, h.drawn, h.leases, h.timers, h.promises, h.validated, h.held⟩
  | timer hs => exact h.timer hs

/-- A run that is permitted to call the provisioner has renewed its lease. -/
theorem validated_of_permits {l : List WorkerEvent} {jobId : Uuid} (request : TenantValidationRequest)
    (h : (progress l).Permits jobId (.validateTenant request)) :
    ∃ leaseToken, lease l = some (jobId, leaseToken) ∧ Renewed l jobId leaseToken := by
  obtain ⟨hrenewed, leaseToken, hlease⟩ := h
  obtain ⟨id, token, hl, hr⟩ := (tells l).renewed hrenewed
  rw [(tells l).lease, hl] at hlease
  cases hlease
  exact ⟨leaseToken, hl, hr⟩

/-- One operation keeps the permit count in order. -/
theorem held_next {p : Progress} {jobId : Uuid} {e : WorkerEvent} (hpermits : p.Permits jobId e.op)
    (h : p.released ≤ p.acquired ∧ p.acquired ≤ 1) :
    (p.next e).released ≤ (p.next e).acquired ∧ (p.next e).acquired ≤ 1 := by
  unfold Progress.next
  split
  · exact h
  · exact h
  · have hnone : p.acquired = 0 := hpermits
    dsimp only
    omega
  · have hlt : p.released < p.acquired := hpermits
    dsimp only
    omega
  · exact h

theorem step (h : Secured tasks s tr) {i : Nat} {op : WorkerOp} {r : Except JsError op.Reply}
    (hpermits : (tasks i).protocol.permits (own i tr) op) (hs : RenewedPerforms i s op r s') :
    Secured tasks s' (tr ++ [(i, ⟨op, r⟩)]) := by
  have hkept := hs.tokensKept h.consistent h.drawn
  have hgrows : ∀ {j : Nat} {jobId leaseToken : Uuid},
      lease (own j tr) = some (jobId, leaseToken) →
      lease (own j (tr ++ [(i, ⟨op, r⟩)])) = some (jobId, leaseToken) := by
    intro j jobId leaseToken hj
    rw [own_append]
    exact lease_append hj _
  refine ⟨hkept.consistent, hkept.drawn, ?_, ?_, ?_, ?_, ?_⟩
  · intro j jobId leaseToken hj
    rw [own_snoc] at hj
    split at hj
    · rcases lease_snoc hj with hj | hj
      · exact hs.tokens (h.leases j jobId leaseToken hj)
      · exact hs.lease_drawn hj
    · exact hs.tokens (h.leases j jobId leaseToken hj)
  · intro j jobId leaseToken hj
    rcases hs.renewals hj with hj | ⟨rfl, rfl⟩
    · exact hgrows (h.timers j jobId leaseToken hj)
    · refine hgrows ?_
      -- a timer is started by the run whose claim drew the token
      cases htask : tasks j with
      | process cipher credentialKeyVersion id now =>
          rw [htask] at hpermits
          have hlease : (progress (own j tr)).lease = some (jobId, leaseToken) := hpermits
          rwa [(tells _).lease] at hlease
      | tick now =>
          rw [htask] at hpermits
          exact absurd rfl (hpermits jobId leaseToken)
      | start grants input cipher =>
          rw [htask] at hpermits
          exact absurd rfl (hpermits jobId leaseToken)
  · intro j p hp
    rw [hs.promises] at hp
    obtain ⟨jobId, leaseToken, l, hlease, hobeys⟩ := h.promises j p hp
    exact ⟨jobId, leaseToken, l, hgrows hlease, hobeys⟩
  · intro before j request r' after heq cipher credentialKeyVersion jobId now htask
    rcases List.eq_nil_or_concat' after with rfl | ⟨rest, last, rfl⟩
    -- the request is the event of this step
    · obtain ⟨rfl, he⟩ := List.append_inj' heq rfl
      cases he
      rw [htask] at hpermits
      exact validated_of_permits request hpermits
    · rw [← List.cons_append, ← List.append_assoc] at heq
      exact h.validated before j request r' rest (List.append_inj' heq rfl).1 _ _ _ _ htask
  · intro j cipher credentialKeyVersion jobId now htask
    have hj := h.held j _ _ _ _ htask
    rw [own_snoc]
    split
    · rename_i he
      subst he
      rw [htask] at hpermits
      rw [progress_snoc]
      exact held_next hpermits hj
    · exact hj

end Secured

section

variable {tasks : Nat → Task} {db : Store} {clock : Time} {w : RenewedRuns}

/-- The invariant holds wherever the tasks get, with whatever a step there preserves. -/
theorem RenewedRuns.Reached.invariant (h : w.Reached tasks db clock) (hc : Consistent db) :
    Secured tasks w.shared.1 w.shared.2 ∧
      ∀ i, Obeys (tasks i).protocol (tasks i).Ends (w.prog i) (own i w.shared.2) := by
  refine Pool.Reaches.protocol (M := renewedWorkers) (R := Secured tasks) h
    (fun _ _ _ _ h => h) (fun _ _ _ hs hd => hs.drift hd) ?_ (fun i => (tasks i).obeys)
    (.initial tasks hc clock) (fun i op s r s' tr hs hp hperf => hs.step hp hperf)
  intro i op s r s' _
  cases tasks i <;> exact trivial

/-! ## After the token was replaced or cleared -/

section

variable {s s' : RenewedWorld} {i : Nat} {jobId leaseToken : Uuid}

/-- An operation that a superseded run is permitted changes nothing. -/
theorem RenewedPerforms.unmoved {op : WorkerOp} {o : Except JsError op.Reply}
    (hs : RenewedPerforms i s op o s') (hc : Consistent s.world.db)
    (hsuperseded : Superseded s.world.db jobId leaseToken) {p : Progress}
    (hlease : p.lease = some (jobId, leaseToken)) (hpermits : p.Permits jobId op) :
    s'.world.db = s.world.db := by
  cases hs with
  | claim =>
      have hnone : p.lease = none := hpermits.2
      rw [hlease] at hnone
      cases hnone
  | other hop h =>
      cases h with
      | @query q _ _ _ h =>
          cases q with
          | selectTenantConnection id => exact (runs_read rfl h).2.1
          | selectPendingOutboxEvents => exact absurd hpermits not_false
          | setDispatchedAt => exact absurd hpermits not_false
      | start => exact absurd hpermits not_false
      | claim => exact absurd rfl (hop _ _ _)
      | renew h =>
          have hsame : p.lease = some (_, _) := hpermits
          rw [hlease] at hsame
          cases hsame
          exact hsuperseded.unmoved hc .renew h
      | recover => exact absurd hpermits not_false
      | apply h =>
          have hsame : p.lease = some (_, _) := hpermits
          rw [hlease] at hsame
          cases hsame
          exact hsuperseded.unmoved hc .apply h
      | _ => rfl

/-- An accepted renewal says that the token was not superseded. -/
theorem RenewedPerforms.not_renewed {now : Time} {duration : Int}
    (hs : RenewedPerforms i s (.renewTenantValidationJobLease jobId leaseToken now duration)
      (.ok true) s') : ¬ Superseded s.world.db jobId leaseToken := by
  intro hsuperseded
  cases hs with
  | other hop h =>
      cases h with
      | renew h => exact hsuperseded.not_renewed h

/-- Nor does the timer of a superseded run. -/
theorem Secured.timer_unmoved {tasks : Nat → Task} {tr : WorkerTrace} (h : Secured tasks s tr)
    (hlease : lease (own i tr) = some (jobId, leaseToken))
    (hsuperseded : Superseded s.world.db jobId leaseToken) (hs : TimerStep i s s') :
    s'.world.db = s.world.db := by
  cases hs with
  | fires => rfl
  | goesOn hpromise hperf =>
      rename_i before after op next r s'
      have hmem : (i, .call op next) ∈ s.promises := by
        rw [hpromise]
        exact List.mem_append_right _ List.mem_cons_self
      obtain ⟨id, token, l, hl, hobeys⟩ := h.promises i _ hmem
      rw [hlease] at hl
      cases hl
      have hpermits : (⟨some (jobId, leaseToken), false, 0, 0⟩ : Progress).Permits jobId op := by
        rcases hobeys.1 with ⟨now, rfl⟩ | rfl
        · rfl
        · exact trivial
      exact hperf.unmoved h.consistent hsuperseded rfl hpermits

/-- A superseded token stays superseded while the clock and the timers go on. -/
theorem Secured.drift_superseded {tasks : Nat → Task} {tr : WorkerTrace} (h : Secured tasks s tr)
    (hdrawn : leaseToken ∈ s.tokens) (hsuperseded : Superseded s.world.db jobId leaseToken)
    (hs : RenewedDrifts s s') : Superseded s'.world.db jobId leaseToken := by
  cases hs with
  | time => exact hsuperseded
  | timer hs =>
      cases hs with
      | fires => exact hsuperseded
      | goesOn hpromise hperf =>
          exact (hperf.tokensKept h.consistent h.drawn).superseded jobId leaseToken hdrawn hsuperseded

end

/-- A superseded run goes on: the token stays superseded, and without a renewal so far there is none
under it any more. -/
theorem RenewedRuns.Reached.superseded {v : RenewedRuns} (h : w.Reached tasks db clock)
    (hc : Consistent db) {i : Nat} {jobId leaseToken : Uuid}
    (hlease : lease (own i w.shared.2) = some (jobId, leaseToken))
    (hsuperseded : Superseded w.shared.1.world.db jobId leaseToken)
    (hv : Pool.Reaches renewedWorkers.traced w v) :
    lease (own i v.shared.2) = some (jobId, leaseToken) ∧
      Superseded v.shared.1.world.db jobId leaseToken ∧
      (¬ Renewed (own i w.shared.2) jobId leaseToken →
        ¬ Renewed (own i v.shared.2) jobId leaseToken) := by
  obtain ⟨hsecured, hobeys⟩ := h.invariant hc
  have hrun := Pool.Reaches.protocol (M := renewedWorkers)
    (R := fun s tr => Secured tasks s tr ∧ lease (own i tr) = some (jobId, leaseToken) ∧
      Superseded s.world.db jobId leaseToken ∧
      (¬ Renewed (own i w.shared.2) jobId leaseToken → ¬ Renewed (own i tr) jobId leaseToken))
    (P := fun i => (tasks i).protocol) hv (fun _ _ _ _ h => h) ?_ ?_ hobeys
    ⟨hsecured, hlease, hsuperseded, id⟩ ?_
  · exact hrun.1.2
  · rintro s s' tr ⟨hs, hl, hsup, hr⟩ hd
    exact ⟨hs.drift hd, hl, hs.drift_superseded (hs.leases i jobId leaseToken hl) hsup hd, hr⟩
  · intro j op s r s' _
    cases tasks j <;> exact trivial
  · rintro j op s r s' tr ⟨hs, hl, hsup, hr⟩ hpermits hperf
    have hdrawn := hs.leases i jobId leaseToken hl
    refine ⟨hs.step hpermits hperf, ?_, ?_, fun hnone hrenewed => ?_⟩
    · rw [own_append]
      exact lease_append hl _
    · exact (hperf.tokensKept hs.consistent hs.drawn).superseded jobId leaseToken hdrawn hsup
    · rw [own_snoc] at hrenewed
      split at hrenewed
      · obtain ⟨renewedAt, hmem⟩ := hrenewed
        rcases List.mem_append.mp hmem with hmem | hmem
        · exact hr hnone ⟨renewedAt, hmem⟩
        · cases List.mem_singleton.mp hmem
          exact hperf.not_renewed hsup
      · exact hr hnone hrenewed

/-- Without a renewal under its token a run has not called the provisioner. -/
theorem not_validated {s : RenewedWorld} {tr : WorkerTrace} (h : Secured tasks s tr) {i : Nat}
    {cipher : TenantCredentialCipher} {credentialKeyVersion : JsString} {jobId leaseToken : Uuid}
    {now : Option Time} (htask : tasks i = .process cipher credentialKeyVersion jobId now)
    (hlease : lease (own i tr) = some (jobId, leaseToken))
    (hnot : ¬ Renewed (own i tr) jobId leaseToken) :
    ∀ request r, (⟨.validateTenant request, r⟩ : WorkerEvent) ∉ own i tr := by
  intro request r hmem
  obtain ⟨before, after, rfl⟩ := List.append_of_mem (mem_own.mp hmem)
  obtain ⟨token, hl, hr⟩ := h.validated before i request r after rfl _ _ _ _ htask
  rw [own_append] at hlease hnot
  rw [lease_append hl] at hlease
  cases hlease
  exact hnot (hr.append _)

/-- Nor does it end with a result. -/
theorem ends_superseded {i : Nat} {w : RenewedRuns} {cipher : TenantCredentialCipher}
    {credentialKeyVersion : JsString} {jobId leaseToken : Uuid} {now : Option Time}
    (h : Obeys (Task.process cipher credentialKeyVersion jobId now).protocol
      (Task.process cipher credentialKeyVersion jobId now).Ends (w.prog i) (own i w.shared.2))
    (hlease : lease (own i w.shared.2) = some (jobId, leaseToken))
    (hnot : ¬ Renewed (own i w.shared.2) jobId leaseToken) :
    ∀ o, w.prog i = .ofExcept o → o = .ok (some .leaseLost) ∨ ∃ e, o = .error e := by
  intro o ho
  rw [ho] at h
  obtain ⟨result, rfl, hends⟩ := h.post
  cases result with
  | error e => exact .inr ⟨e, rfl⟩
  | ok result =>
      cases result with
      | notClaimed =>
          have hnone := hends.notClaimed rfl
          rw [(tells _).lease, hlease] at hnone
          cases hnone
      | leaseLost => exact .inl rfl
      | result applied =>
          obtain ⟨id, token, hl, hr⟩ := (tells _).renewed (hends.renewed applied rfl)
          rw [hlease] at hl
          cases hl
          exact absurd hr hnot

/-- A superseded worker is harmless, in every interleaving of any number of runs, ticks and starts
with the renewals of all timers, from every reachable store.  A run calls the provisioner only after
a renewal of its own was accepted under the token of its claim.  Once that token was replaced or
cleared it never comes back, and no later step of the run or of its timer changes the store.  If the
run had not tried to renew its lease by then, it never calls the provisioner, and it ends with a lost
lease or an error.  A run that ended has released its permit exactly once, if it acquired one. -/
theorem superseded_harmless {tasks : Nat → Task} {db : Store} (hdb : Reachable db) {clock : Time}
    {w : RenewedRuns} (h : w.Reached tasks db clock) {i : Nat} {cipher : TenantCredentialCipher}
    {credentialKeyVersion : JsString} {jobId : Uuid} {now : Option Time}
    (htask : tasks i = .process cipher credentialKeyVersion jobId now) :
    (∀ before request r after,
      w.shared.2 = before ++ (i, ⟨.validateTenant request, r⟩) :: after → ∃ leaseToken,
        lease (own i before) = some (jobId, leaseToken) ∧
          Renewed (own i before) jobId leaseToken) ∧
    (∀ leaseToken v, lease (own i w.shared.2) = some (jobId, leaseToken) →
      Superseded w.shared.1.world.db jobId leaseToken → Pool.Reaches renewedWorkers.traced w v →
      Superseded v.shared.1.world.db jobId leaseToken ∧
      (∀ v', Pool.Step renewedWorkers.traced v (.run i) v' →
        v'.shared.1.world.db = v.shared.1.world.db) ∧
      (∀ s', TimerStep i v.shared.1 s' → s'.world.db = v.shared.1.world.db) ∧
      ((∀ e ∈ own i w.shared.2, isRenewal e = false) →
        (∀ request r, (⟨.validateTenant request, r⟩ : WorkerEvent) ∉ own i v.shared.2) ∧
        ∀ o, v.prog i = .ofExcept o → o = .ok (some .leaseLost) ∨ ∃ e, o = .error e)) ∧
    ((own i w.shared.2).countP isReleased ≤ (own i w.shared.2).countP isAcquired ∧
      (own i w.shared.2).countP isAcquired ≤ 1 ∧
      ∀ o, w.prog i = .ofExcept o →
        (own i w.shared.2).countP isReleased = (own i w.shared.2).countP isAcquired) := by
  have hc := hdb.consistent
  obtain ⟨hsecured, hobeys⟩ := h.invariant hc
  refine ⟨fun before request r after heq => ?_, fun leaseToken v hlease hsup hv => ?_, ?_⟩
  · exact hsecured.validated before i request r after heq _ _ _ _ htask
  · have hreached : RenewedRuns.Reached tasks db clock v := Relation.ReflTransGen.trans h hv
    obtain ⟨hsecured', hobeys'⟩ := hreached.invariant hc
    -- the run keeps the lease it claimed, and its token stays lost
    obtain ⟨hlease', hsup', hrenewed⟩ := h.superseded hc hlease hsup hv
    have hrun := hobeys' i
    rw [htask] at hrun
    refine ⟨hsup', fun v' hs => ?_, fun s' hs => hsecured'.timer_unmoved hlease' hsup' hs,
      fun hnone => ?_⟩
    · cases hs with
      | run hprog hperf =>
          rw [hprog] at hrun
          exact hperf.1.unmoved hsecured'.consistent hsup' ((tells _).lease.trans hlease') hrun.1
    · have hnot : ¬ Renewed (own i v.shared.2) jobId leaseToken := by
        apply hrenewed
        rintro ⟨renewedAt, hmem⟩
        cases hnone _ hmem
      exact ⟨not_validated hsecured' htask hlease' hnot, ends_superseded hrun hlease' hnot⟩
  · have hheld := hsecured.held i _ _ _ _ htask
    rw [(tells _).released, (tells _).acquired] at hheld
    refine ⟨hheld.1, hheld.2, fun o ho => ?_⟩
    have hrun := hobeys i
    rw [htask, ho] at hrun
    obtain ⟨result, -, hends⟩ := hrun.post
    have hreleased := hends.released
    rwa [(tells _).released, (tells _).acquired] at hreleased

end

/-! ## Playing the runs -/

/-- One operation in a schedule; `how` gives the values a call generates. -/
def RenewedWorld.perform (i : Nat) (op : WorkerOp) (how : How) (s : RenewedWorld) :
    Option (Except JsError op.Reply × RenewedWorld) :=
  match op, how with
  | .claimTenantValidationJob jobId now leaseDurationMs, .succeeds fresh =>
      if fresh ∈ s.tokens then none
      else
        let r := (Call.claim jobId now leaseDurationMs fresh).run s.world.db
        some (r.1, ⟨s.world.claimed i r.2, s.promises, fresh :: s.tokens⟩)
  | .claimTenantValidationJob _ _ _, .fails => none
  | .renewTenantValidationJobLease jobId leaseToken now leaseDurationMs, _ =>
      let r := (Call.renew jobId leaseToken now leaseDurationMs).run s.world.db
      some (r.1, { s with world := { s.world with db := r.2 } })
  | .startRenewals jobId leaseToken, _ =>
      some (.ok (), { s with world := { s.world with
        renewals := Function.update s.world.renewals i (some (jobId, leaseToken))
        leaseLost := Function.update s.world.leaseLost i false } })
  | .stopRenewals, _ =>
      some (.ok (), { s with world := { s.world with
        renewals := Function.update s.world.renewals i none } })
  | .leaseLost, _ => some (.ok (s.world.leaseLost i), s)
  | .loseLease, _ =>
      some (.ok (), { s with world := { s.world with
        leaseLost := Function.update s.world.leaseLost i true } })
  | .acquire _, _ => some (.ok (), s)
  | .release _, _ => some (.ok (), s)
  | op, how => (World.perform i op how s.world).map fun r => (r.1, { s with world := r.2 })

theorem RenewedWorld.performs {i : Nat} {op : WorkerOp} {how : How} {s s' : RenewedWorld}
    {r : Except JsError op.Reply} (h : s.perform i op how = some (r, s')) :
    RenewedPerforms i s op r s' := by
  unfold RenewedWorld.perform at h
  split at h
  · split at h
    · cases h
    · rename_i hfresh
      cases h
      exact .claim hfresh (Call.runs_run _ _)
  · cases h
  · cases h
    exact .other nofun (.renew (Call.runs_run _ _))
  · cases h
    exact .other nofun .startRenewals
  · cases h
    exact .other nofun .stopRenewals
  · cases h
    exact .other nofun .leaseLost
  · cases h
    exact .other nofun .loseLease
  · cases h
    exact .other nofun .acquire
  · cases h
    exact .other nofun .release
  · rename_i hsucceeds hfails
    obtain ⟨⟨r', w'⟩, hw, he⟩ := Option.map_eq_some_iff.mp h
    cases he
    refine .other (fun jobId now duration he => ?_) (World.performs hw)
    cases how with
    | succeeds fresh => exact hsucceeds jobId now duration fresh he rfl
    | fails => exact hfails jobId now duration he rfl

/-- The drift of a schedule is the time to come. -/
def renewedPlayer : Pool.Player renewedWorkers How Time where
  perform i op how s := s.perform i op how
  drift clock s := if s.world.clock ≤ clock then
    some { s with world := { s.world with clock := clock } } else none
  performs := RenewedWorld.performs
  drifts h := by
    split at h
    · rename_i hclock
      cases h
      exact .time hclock
    · cases h

namespace Sample

open Product.Sample

/-- One run for the job of the sample, and ticks. -/
def renewedTasks : Nat → Task
  | 0 => .process { cipher with decrypt := fun _ _ => .ok input.credentials } input.credentials.email
      11 none
  | _ => .tick none

/-- The run claims the job and waits for a permit until its lease has expired and was recovered. -/
def overtaken : List (Pool.Turn Nat How Time) :=
  List.replicate 4 (turn 0 (.succeeds 20)) ++ [.drift 70000] ++
    List.replicate 2 (turn 1 (.succeeds 14))

def renewedPlayed (turns : List (Pool.Turn Nat How Time)) : RenewedRuns :=
  renewedPlayer.traced.play (renewedSystem renewedTasks started 5) turns

/-- The same run after it was granted its permit. -/
def granted : RenewedRuns :=
  renewedPlayer.traced.play (renewedPlayed overtaken) (List.replicate 7 (turn 0 (.succeeds 20)))

end Sample

open Sample in
/-- The run was overtaken while it waited: it is over, and never called the provisioner. -/
theorem superseded_harmless_overtaken :
    (∀ request r, (⟨.validateTenant request, r⟩ : WorkerEvent) ∉ own 0 granted.shared.2) ∧
      granted.prog 0 = .ofExcept (.ok (some .leaseLost)) ∧
      (own 0 granted.shared.2).countP isReleased = (own 0 granted.shared.2).countP isAcquired := by
  have hdb : Reachable Product.Sample.started := (Reachable.empty _).runAll _
  have hw : (renewedPlayed overtaken).Reached renewedTasks Product.Sample.started 5 :=
    renewedPlayer.traced.reaches _ _
  have hv : Pool.Reaches renewedWorkers.traced (renewedPlayed overtaken) granted :=
    renewedPlayer.traced.reaches _ _
  have hsup : Superseded (renewedPlayed overtaken).shared.1.world.db 11 20 :=
    ⟨_, rfl, by decide +kernel⟩
  have hlease : lease (own 0 (renewedPlayed overtaken).shared.2) = some (11, 20) := by
    decide +kernel
  have hall : (own 0 (renewedPlayed overtaken).shared.2).all (fun e => !isRenewal e) = true := by
    decide +kernel
  have hnone : ∀ e ∈ own 0 (renewedPlayed overtaken).shared.2, isRenewal e = false :=
    fun e he => by simpa using List.all_eq_true.mp hall e he
  have hover : granted.prog 0 = .ofExcept (.ok (some .leaseLost)) := rfl
  have hafter := (superseded_harmless hdb hw (i := 0) rfl).2.1 20 granted hlease hsup hv
  have hpermit := (superseded_harmless hdb (hw.trans hv) (i := 0) rfl).2.2
  exact ⟨(hafter.2.2.2 hnone).1, hover, hpermit.2.2 _ hover⟩

end InboxSaas.Worker
