import InboxSaas.Product.Fencing
import InboxSaas.Product.StatementAtomicity

/-!
# Fencing between the statements

Claims, renewals, recoveries and results are interleaved statement by statement.  In the order in
which they act on a job, a renewal or a result is accepted only under the lease that the job has at
that point, and any other one changes nothing.  A token that a job has lost is lost for good, so no
statement that is left of a call under it changes anything.
-/

namespace InboxSaas.Product

open Reasoning

/-! ## Leases and effects -/

/-- A renewal or a result of the job under the lease token. -/
def Call.Under (jobId leaseToken : Uuid) : Call → Prop
  | .renew id token _ _ => id = jobId ∧ token = leaseToken
  | .apply id token _ _ _ => id = jobId ∧ token = leaseToken
  | _ => False

def Call.isRenewal : Call → Bool
  | .renew _ _ _ _ => true
  | _ => false

def Report.accepted : Report → Bool
  | .renewed answer => answer
  | .applied _ => true
  | _ => false

/-- The call was answered that its renewal or its result was accepted. -/
def Accepted (o : Except JsError Report) : Prop :=
  ∃ report, o = .ok report ∧ report.accepted = true

def JobRows.leaseToken (rows : JobRows) : Option Uuid :=
  rows.job.bind Job.leaseToken

theorem Call.Under.eq {call : Call} {jobId jobId' leaseToken : Uuid}
    (h : call.Under jobId leaseToken) (hon : call.On jobId') : jobId' = jobId := by
  cases call with
  | renew => exact hon.symm.trans h.1
  | apply => exact hon.symm.trans h.1
  | start => exact absurd h not_false
  | claim => exact absurd h not_false
  | recover => exact absurd h not_false

section

variable {jobId leaseToken : Uuid} {now : Time} {rejected : Bool} {rows : JobRows}

theorem leaseToken_of_valid {job : Job} (hjob : rows.job = some job)
    (h : leaseValid leaseToken now job = true) : rows.leaseToken = some leaseToken := by
  unfold JobRows.leaseToken
  rw [hjob]
  exact leaseValid_token h

/-- A result changes nothing, or it is applied under the lease and ends it. -/
theorem applyEffect_cases (jobId leaseToken : Uuid) (now : Time) (rejected : Bool)
    (result : TenantValidationResult) (defaults : OutboxDefaults) (rows : JobRows) :
    (applyEffect jobId leaseToken now rejected result defaults rows).2 = rows ∧
        ¬ Accepted (applyEffect jobId leaseToken now rejected result defaults rows).1 ∨
      rows.leaseToken = some leaseToken ∧
        (applyEffect jobId leaseToken now rejected result defaults rows).2.leaseToken = none := by
  have hrefused : ∀ {report : Report}, report.accepted = false → ¬ Accepted (.ok report) := by
    rintro report hfalse ⟨report', heq, htrue⟩
    cases heq
    rw [hfalse] at htrue
    cases htrue
  have hthrew : ∀ {e : JsError}, ¬ Accepted (.error e) := fun ⟨_, heq, _⟩ => by cases heq
  unfold applyEffect
  split
  · exact .inl ⟨rfl, hrefused rfl⟩
  · rename_i job hjob
    split
    · exact .inl ⟨rfl, hrefused rfl⟩
    · rename_i hvalid
      have htoken := leaseToken_of_valid hjob (Bool.not_eq_false _ ▸ hvalid)
      cases result with
      | success microsoftTenantId =>
          dsimp only
          split
          · exact .inl ⟨rfl, hthrew⟩
          · split
            · exact .inr ⟨htoken, rfl⟩
            · exact .inr ⟨htoken, rfl⟩
      | failure code retryable =>
          dsimp only
          split
          · split
            · exact .inl ⟨rfl, hthrew⟩
            · exact .inr ⟨htoken, rfl⟩
          · exact .inr ⟨htoken, rfl⟩

/-- A renewal changes nothing, or it is accepted under the lease and keeps its token. -/
theorem renewEffect_cases (leaseToken : Uuid) (now : Time) (leaseDurationMs : Int) (rows : JobRows) :
    (renewEffect leaseToken now leaseDurationMs rows).2 = rows ∧
        ¬ Accepted (renewEffect leaseToken now leaseDurationMs rows).1 ∨
      rows.leaseToken = some leaseToken ∧
        (renewEffect leaseToken now leaseDurationMs rows).2.leaseToken = some leaseToken := by
  unfold renewEffect
  split
  · exact .inl ⟨rfl, fun ⟨_, heq, _⟩ => by cases heq⟩
  · split
    · refine .inl ⟨rfl, ?_⟩
      rintro ⟨report, heq, htrue⟩
      cases heq
      cases htrue
    · rename_i job hfilter
      obtain ⟨hjob, hvalid⟩ := Option.filter_eq_some_iff.mp hfilter
      have htoken : job.leaseToken = some leaseToken := leaseValid_token hvalid
      exact .inr ⟨leaseToken_of_valid hjob hvalid, htoken⟩

theorem renewEffect_ne_applied (leaseToken : Uuid) (now : Time) (leaseDurationMs : Int)
    (rows : JobRows) (job : Job) :
    (renewEffect leaseToken now leaseDurationMs rows).1 ≠ .ok (.applied job) := by
  unfold renewEffect
  split
  · exact nofun
  · split
    · exact nofun
    · exact nofun

/-- Only a result is applied, and it ends the lease. -/
theorem Call.Under.applied {call : Call} (h : call.Under jobId leaseToken) {job : Job}
    (happlied : (call.effect jobId rejected rows).1 = .ok (.applied job)) :
    call.claimToken = none ∧ call.isRenewal = false ∧ rows.leaseToken = some leaseToken ∧
      (call.effect jobId rejected rows).2.leaseToken = none := by
  cases call with
  | renew id token now leaseDurationMs =>
      exact absurd happlied (renewEffect_ne_applied token now leaseDurationMs rows job)
  | apply id token result now defaults =>
      obtain ⟨rfl, rfl⟩ := h
      refine ⟨rfl, rfl, ?_⟩
      rcases applyEffect_cases id token now rejected result defaults rows with
        ⟨-, hnot⟩ | hunder
      · exact absurd ⟨_, happlied, rfl⟩ hnot
      · exact hunder
  | start => exact absurd h not_false
  | claim => exact absurd h not_false
  | recover => exact absurd h not_false

/-- A renewal or a result either changes nothing and is not accepted, or comes under the lease. -/
theorem Call.Under.effect {call : Call} (h : call.Under jobId leaseToken) (rejected : Bool)
    (rows : JobRows) :
    (call.effect jobId rejected rows).2 = rows ∧ ¬ Accepted (call.effect jobId rejected rows).1 ∨
      rows.leaseToken = some leaseToken := by
  cases call with
  | renew id token now leaseDurationMs =>
      obtain ⟨rfl, rfl⟩ := h
      exact (renewEffect_cases token now leaseDurationMs rows).imp_right And.left
  | apply id token result now defaults =>
      obtain ⟨rfl, rfl⟩ := h
      exact (applyEffect_cases id token now rejected result defaults rows).imp_right And.left
  | start => exact absurd h not_false
  | claim => exact absurd h not_false
  | recover => exact absurd h not_false

/-- Where a token comes from: it was there, a claim draws it, or it is renewed. -/
theorem Call.effect_leaseToken {call : Call} (rejected : Bool) {rows : JobRows}
    (h : (call.effect jobId rejected rows).2.leaseToken = some leaseToken) :
    (call.effect jobId rejected rows).2 = rows ∨ call.claimToken = some leaseToken ∨
      call.isRenewal = true ∧ rows.leaseToken = some leaseToken := by
  cases call with
  | start => exact .inl rfl
  | claim id now leaseDurationMs token =>
      change (claimEffect token now leaseDurationMs rows).2.leaseToken = some leaseToken at h
      change (claimEffect token now leaseDurationMs rows).2 = rows ∨ _
      unfold claimEffect at h ⊢
      split
      · exact .inl rfl
      · rename_i hpositive
        rw [if_neg hpositive] at h
        split
        · exact .inl rfl
        · rename_i job hfilter
          rw [hfilter] at h
          exact .inr (.inl h)
  | renew id token now leaseDurationMs =>
      rcases renewEffect_cases token now leaseDurationMs rows with ⟨hsame, -⟩ | ⟨hold, hnew⟩
      · exact .inl hsame
      · exact .inr (.inr ⟨rfl, hold.trans (hnew.symm.trans h)⟩)
  | recover now defaults =>
      change (recoverEffect jobId now defaults rows).2.leaseToken = some leaseToken at h
      change (recoverEffect jobId now defaults rows).2 = rows ∨ _
      unfold recoverEffect at h ⊢
      split
      · exact .inl rfl
      · rename_i job hfilter
        rw [hfilter] at h
        cases h
  | apply id token result now defaults =>
      rcases applyEffect_cases jobId token now rejected result defaults rows with
        ⟨hsame, -⟩ | ⟨-, hnone⟩
      · exact .inl hsame
      · cases hnone.symm.trans h

end

/-! ## Places in an order -/

section

variable {ι : Type} (calls : ι → Call) (db₀ : Store) (jobId leaseToken : Uuid)

/-- The store after the calls ran alone one after another. -/
def storeAfter (history : List (ι × Bool)) : Store :=
  replay (callRun calls) history db₀

/-- The call rewrites the row of the job where it runs alone after `history`. -/
def Rewriting (history : List (ι × Bool)) (e : ι × Bool) : Prop :=
  (storeAfter calls db₀ (history ++ [e])).jobs.find jobId ≠
    (storeAfter calls db₀ history).jobs.find jobId

/-- After `history` the job is leased under the token: the last call that rewrote its row, renewals
aside, is the claim that drew the token, or nothing did and the row was stored with it. -/
inductive LeasedTo : List (ι × Bool) → Prop where
  | stored {job : Job} (hjob : db₀.jobs.find jobId = some job)
      (htoken : job.leaseToken = some leaseToken) : LeasedTo []
  | claimed {history : List (ι × Bool)} {e : ι × Bool}
      (htoken : (calls e.1).claimToken = some leaseToken)
      (hrow : Rewriting calls db₀ jobId history e) : LeasedTo (history ++ [e])
  | kept {history : List (ι × Bool)} {e : ι × Bool} (h : LeasedTo history)
      (hrow : Rewriting calls db₀ jobId history e → (calls e.1).isRenewal = true) :
      LeasedTo (history ++ [e])

variable {calls} {db₀} {jobId} {leaseToken}

theorem LeasedTo.of_concat {history : List (ι × Bool)} {e : ι × Bool}
    (h : LeasedTo calls db₀ jobId leaseToken (history ++ [e])) :
    (calls e.1).claimToken = some leaseToken ∧ Rewriting calls db₀ jobId history e ∨
      LeasedTo calls db₀ jobId leaseToken history ∧
        (Rewriting calls db₀ jobId history e → (calls e.1).isRenewal = true) := by
  generalize heq : history ++ [e] = whole at h
  cases h with
  | stored => simp at heq
  | claimed htoken hrow =>
      obtain ⟨rfl, he⟩ := List.append_inj' heq rfl
      cases he
      exact .inl ⟨htoken, hrow⟩
  | kept h hrow =>
      obtain ⟨rfl, he⟩ := List.append_inj' heq rfl
      cases he
      exact .inr ⟨h, hrow⟩

/-- After a call that ended the lease the job is leased by a later claim only. -/
theorem LeasedTo.claim_since {older between : List (ι × Bool)} {e : ι × Bool}
    (h : LeasedTo calls db₀ jobId leaseToken (older ++ e :: between))
    (hclaim : (calls e.1).claimToken = none) (hrenewal : (calls e.1).isRenewal = false)
    (hrow : Rewriting calls db₀ jobId older e) :
    ∃ mid claim rest, between = mid ++ claim :: rest ∧
      (calls claim.1).claimToken = some leaseToken ∧
      Rewriting calls db₀ jobId (older ++ e :: mid) claim := by
  induction between using List.reverseRecOn with
  | nil =>
      rcases h.of_concat with ⟨htoken, -⟩ | ⟨-, hkept⟩
      · cases hclaim.symm.trans htoken
      · cases hrenewal.symm.trans (hkept hrow)
  | append_singleton between last ih =>
      rw [← List.cons_append, ← List.append_assoc] at h
      -- the last call drew the token, or left it to be found before
      rcases h.of_concat with ⟨htoken, hlast⟩ | ⟨hleased, -⟩
      · exact ⟨between, last, [], rfl, htoken, hlast⟩
      · obtain ⟨mid, claim, rest, rfl, hfound⟩ := ih hleased
        exact ⟨mid, claim, rest ++ [last], by simp, hfound⟩

variable {before after : List (ι × Bool)} {e : ι × Bool}

/-- The calls run alone do to the job what they mean for its rows. -/
theorem Remaining.rowsAfter (h : Remaining calls db₀ jobId (before ++ after) (db₀.rowsOf jobId) db₀)
    (hevents : EventsApart calls db₀) :
    Remaining calls db₀ jobId after
      (replay (callEffect calls jobId) before (db₀.rowsOf jobId)) (storeAfter calls db₀ before) :=
  (callRun_simulates calls hevents jobId).replay before after h

theorem Remaining.stepAfter
    (h : Remaining calls db₀ jobId (before ++ e :: after) (db₀.rowsOf jobId) db₀)
    (hevents : EventsApart calls db₀) :
    (storeAfter calls db₀ (before ++ [e])).rowsOf jobId =
      (callEffect calls jobId e ((storeAfter calls db₀ before).rowsOf jobId)).2 := by
  have hnext : Remaining calls db₀ jobId (before ++ [e] ++ after) (db₀.rowsOf jobId) db₀ := by
    rwa [List.append_assoc]
  rw [(hnext.rowsAfter hevents).rows, (h.rowsAfter hevents).rows, replay_concat]

/-- A stored token is that of the lease. -/
theorem leasedTo_of_token
    (h : Remaining calls db₀ jobId (before ++ after) (db₀.rowsOf jobId) db₀)
    (hevents : EventsApart calls db₀)
    (htoken : ((storeAfter calls db₀ before).rowsOf jobId).leaseToken = some leaseToken) :
    LeasedTo calls db₀ jobId leaseToken before := by
  induction before using List.reverseRecOn generalizing after with
  | nil =>
      obtain ⟨job, hjob, hstored⟩ := Option.bind_eq_some_iff.mp htoken
      exact .stored hjob hstored
  | append_singleton before e ih =>
      rw [List.append_assoc] at h
      have hstep := h.stepAfter hevents
      have hkept : (storeAfter calls db₀ (before ++ [e])).jobs.find jobId =
          (storeAfter calls db₀ before).jobs.find jobId →
          LeasedTo calls db₀ jobId leaseToken (before ++ [e]) := by
        intro hsame
        refine .kept (ih h ?_) fun hrow => absurd hsame hrow
        rw [← htoken]
        exact congrArg (Option.bind · Job.leaseToken) hsame.symm
      rw [hstep] at htoken
      rcases Call.effect_leaseToken e.2 htoken with hsame | hdrawn | ⟨hrenewal, hold⟩
      · exact hkept (congrArg JobRows.job (hstep.trans hsame))
      -- the same row may be drawn again; only a claim that changes it counts
      · by_cases hsame : (storeAfter calls db₀ (before ++ [e])).jobs.find jobId =
            (storeAfter calls db₀ before).jobs.find jobId
        · rw [← hstep] at htoken
          exact hkept hsame
        · exact .claimed hdrawn hsame
      · exact .kept (ih h hold) fun _ => hrenewal

end

/-! ## The order of a world is fenced -/

section

variable {ι : Type}

/-- The client returned with the report. -/
def Reports (w : Clients ι) (i : ι) (report : Report) : Prop :=
  ∃ result, w.prog i = .ret result ∧ result.1.report result.2 = report

variable (calls : ι → Call) (db₀ : Store)

/-- The order of the calls on a job is fenced by the leases. -/
structure FencedBy (w : Clients ι) (jobId : Uuid) (order : List (ι × Bool)) : Prop where
  /-- A renewal or a result that was accepted came under the lease. -/
  accepted {before after : List (ι × Bool)} {e : ι × Bool} {leaseToken : Uuid} {report : Report}
    (heq : order = before ++ e :: after) (hunder : (calls e.1).Under jobId leaseToken)
    (hreport : Reports w e.1 report) (htrue : report.accepted = true) :
    LeasedTo calls db₀ jobId leaseToken before
  /-- Any other one changes nothing. -/
  refused {before after : List (ι × Bool)} {e : ι × Bool} {leaseToken : Uuid}
    (heq : order = before ++ e :: after) (hunder : (calls e.1).Under jobId leaseToken)
    (hnot : ¬ LeasedTo calls db₀ jobId leaseToken before) :
    SameJob jobId (storeAfter calls db₀ before) (storeAfter calls db₀ (before ++ [e]))
  /-- Between two results that were applied the job is claimed. -/
  between {older between later : List (ι × Bool)} {a b : ι × Bool} {leaseToken leaseToken' : Uuid}
    {job job' : Job} (heq : order = older ++ a :: (between ++ b :: later))
    (ha : (calls a.1).Under jobId leaseToken) (happlied : Reports w a.1 (.applied job))
    (hb : (calls b.1).Under jobId leaseToken') (happlied' : Reports w b.1 (.applied job')) :
    ∃ mid claim rest, between = mid ++ claim :: rest ∧
      (calls claim.1).claimToken = some leaseToken' ∧
      Rewriting calls db₀ jobId (older ++ a :: mid) claim

variable {calls} {db₀} {w : Clients ι} {jobId leaseToken : Uuid} {order before after : List (ι × Bool)}
  {e : ι × Bool}

theorem SerializedBy.remaining (h : SerializedBy calls db₀ w jobId order) (hdb : Consistent db₀)
    (hdrawn : DrawnApart calls db₀) :
    Remaining calls db₀ jobId order (db₀.rowsOf jobId) db₀ :=
  .initial hdb hdrawn h.once h.on

/-- What a client reports is what its call means at its place in the order. -/
theorem SerializedBy.reported (h : SerializedBy calls db₀ w jobId (before ++ e :: after))
    (hdb : Consistent db₀) (hdrawn : DrawnApart calls db₀) {report : Report}
    (hreport : Reports w e.1 report) :
    (callEffect calls jobId e ((storeAfter calls db₀ before).rowsOf jobId)).1 = .ok report := by
  obtain ⟨result, hprog, rfl⟩ := hreport
  have hanswers := h.answered (h.on e (List.mem_append_right _ List.mem_cons_self))
    (congrArg Program.outcome hprog)
  have hanswer := hanswers.at_place h.once rfl
  have hrows := (h.remaining hdb hdrawn).rowsAfter hdrawn.events
  rw [hrows.rows]
  exact ((callRun_simulates calls hdrawn.events jobId).step e after _ _ hrows).1.symm.trans hanswer

theorem SerializedBy.leased (h : SerializedBy calls db₀ w jobId (before ++ e :: after))
    (hdb : Consistent db₀) (hdrawn : DrawnApart calls db₀)
    (hunder : (calls e.1).Under jobId leaseToken) {report : Report}
    (hreport : Reports w e.1 report) (htrue : report.accepted = true) :
    LeasedTo calls db₀ jobId leaseToken before := by
  have hanswer := h.reported hdb hdrawn hreport
  apply leasedTo_of_token (h.remaining hdb hdrawn) hdrawn.events
  rcases hunder.effect e.2 ((storeAfter calls db₀ before).rowsOf jobId) with ⟨-, hnot⟩ | htoken
  · exact absurd ⟨report, hanswer, htrue⟩ hnot
  · exact htoken

/-- A result that was applied ended the lease. -/
theorem SerializedBy.ended (h : SerializedBy calls db₀ w jobId (before ++ e :: after))
    (hdb : Consistent db₀) (hdrawn : DrawnApart calls db₀)
    (hunder : (calls e.1).Under jobId leaseToken) {job : Job}
    (hreport : Reports w e.1 (.applied job)) :
    (calls e.1).claimToken = none ∧ (calls e.1).isRenewal = false ∧
      Rewriting calls db₀ jobId before e := by
  obtain ⟨hclaim, hrenewal, hbefore, hafter⟩ := hunder.applied (h.reported hdb hdrawn hreport)
  refine ⟨hclaim, hrenewal, fun hsame => ?_⟩
  -- without a change the token would still be there
  have hrows := (h.remaining hdb hdrawn).stepAfter hdrawn.events
  have htoken : ((storeAfter calls db₀ (before ++ [e])).rowsOf jobId).leaseToken =
      ((storeAfter calls db₀ before).rowsOf jobId).leaseToken :=
    congrArg (Option.bind · Job.leaseToken) hsame
  have hnone : (callEffect calls jobId e ((storeAfter calls db₀ before).rowsOf jobId)).2.leaseToken =
      none := hafter
  rw [hrows, hnone, hbefore] at htoken
  cases htoken

theorem SerializedBy.fenced (h : SerializedBy calls db₀ w jobId order) (hdb : Consistent db₀)
    (hdrawn : DrawnApart calls db₀) : FencedBy calls db₀ w jobId order := by
  have hremaining := h.remaining hdb hdrawn
  constructor
  · rintro before after e leaseToken report rfl hunder hreport htrue
    exact h.leased hdb hdrawn hunder hreport htrue
  · rintro before after e leaseToken rfl hunder hnot
    rw [sameJob_iff, hremaining.stepAfter hdrawn.events]
    rcases hunder.effect e.2 ((storeAfter calls db₀ before).rowsOf jobId) with ⟨hsame, -⟩ | htoken
    · exact hsame
    · exact absurd (leasedTo_of_token hremaining hdrawn.events htoken) hnot
  · rintro older between later a b leaseToken leaseToken' job job' rfl ha happlied hb happlied'
    obtain ⟨hclaim, hrenewal, hrow⟩ := h.ended hdb hdrawn ha happlied
    rw [← List.cons_append, ← List.append_assoc] at h
    exact (h.leased hdb hdrawn hb happlied' rfl).claim_since hclaim hrenewal hrow

end

/-! ## Tokens that a job has lost -/

section

variable {ι : Type} [DecidableEq ι] (calls : ι → Call)

/-- The job does not have the token, and every claim that draws it is over. -/
def Overtaken (w : Clients ι) (jobId leaseToken : Uuid) : Prop :=
  (w.shared.db.rowsOf jobId).leaseToken ≠ some leaseToken ∧
    ∀ i, (calls i).claimToken = some leaseToken → (w.prog i).outcome ≠ none

/-- No command that a renewal or a result under the token sends now changes a job. -/
def FencedOff (w : Clients ι) (jobId leaseToken : Uuid) : Prop :=
  ∀ i v, (calls i).Under jobId leaseToken → Pool.Step postgres.readCommitted w (.run i) v →
    ∀ id, SameJob id w.shared.db v.shared.db

variable {calls} {db₀ : Store} {v w : Clients ι} {g g' : Orders ι} {jobId leaseToken : Uuid}

/-- A call that is over and not refused has taken effect on its jobs. -/
theorem OrdersIn.over {i : ι} (h : OrdersIn calls db₀ w g) (hon : (calls i).On jobId)
    (hover : (w.prog i).outcome ≠ none) (hrefused : ¬ (calls i).Refused) :
    i ∈ (g jobId).map Prod.fst := by
  have hmem : ∀ {report : Except JsError Report}, Reported calls db₀ i report (w.shared, g) →
      i ∈ (g jobId).map Prod.fst :=
    fun hreported => List.mem_map_of_mem (hreported.tookEffect jobId hon).mem
  cases hprog : w.prog i with
  | call c next =>
      rw [hprog] at hover
      exact absurd rfl hover
  | ret result =>
      obtain ⟨a, -, hreported⟩ := h.ended hprog
      exact hmem hreported
  | raise e =>
      rcases h.threw hprog with ⟨-, hi, -⟩ | ⟨-, hreported⟩
      · exact absurd hi hrefused
      · exact hmem hreported

/-- Where every claim that draws the token is over, none takes effect later. -/
theorem OrdersIn.undrawn {later : List (ι × Bool)} (h : OrdersIn calls db₀ v g)
    (h' : OrdersIn calls db₀ w g') (hlater : g' jobId = g jobId ++ later)
    (hover : ∀ i, (calls i).claimToken = some leaseToken → (v.prog i).outcome ≠ none) :
    ¬ ∃ e ∈ later, (calls e.1).claimToken = some leaseToken := by
  rintro ⟨e, he, hdraws⟩
  have hmem : e ∈ g' jobId := hlater ▸ List.mem_append_right _ he
  by_cases hrefused : (calls e.1).Refused
  · exact (h'.quiet hrefused).2 jobId (List.mem_map_of_mem hmem)
  -- a claim that is over is in the order already, and no call is in it twice
  · have hbefore := h.over (h'.inv.2.on jobId e hmem) (hover e.1 hdraws) hrefused
    have hnodup : ((g' jobId).map Prod.fst).Nodup := h'.inv.2.nodup jobId
    rw [hlater, List.map_append, List.nodup_append] at hnodup
    exact hnodup.2.2 _ hbefore _ (List.mem_map_of_mem he) rfl

/-- A token that a job has lost is lost for good. -/
theorem OrdersIn.overtaken (h : OrdersIn calls db₀ v g)
    (hreaches : Pool.Reaches postgres.readCommitted v w) (hv : Overtaken calls v jobId leaseToken) :
    (w.shared.db.rowsOf jobId).leaseToken ≠ some leaseToken := by
  obtain ⟨g', h', hadv⟩ := h.reaches hreaches
  obtain ⟨later, hlater, hrows, -⟩ := hadv jobId
  have hon : ∀ e ∈ later, (calls e.1).On jobId := fun e he =>
    h'.inv.2.on jobId e (hlater ▸ List.mem_append_right _ he)
  have hrows' : w.shared.db.rowsOf jobId =
      replay (callEffect calls jobId) later (v.shared.db.rowsOf jobId) := hrows
  intro htoken
  rw [hrows'] at htoken
  cases hjob : (v.shared.db.rowsOf jobId).job with
  | none =>
      rw [replay_none hjob] at htoken
      exact hv.1 htoken
  | some job =>
      obtain ⟨job', hjob', hfollows⟩ := replay_follows hon hjob
      unfold JobRows.leaseToken at htoken
      rw [hjob'] at htoken
      obtain ⟨hold, -⟩ := hfollows.attempt htoken (h.undrawn h' hlater hv.2)
      apply hv.1
      unfold JobRows.leaseToken
      rw [hjob]
      exact hold

/-- A call under a token that its job does not have changes no job. -/
theorem Outlined.fencedOff (h : Outlined calls db₀ w g)
    (htoken : (w.shared.db.rowsOf jobId).leaseToken ≠ some leaseToken) :
    FencedOff calls w jobId leaseToken := by
  intro i v hunder hs id
  obtain ⟨g', ⟨-, hadv⟩, hinv, -⟩ :=
    Contract.outlines_run (orderContract_sound calls db₀) h.inv h.outline hs
  obtain ⟨later, hlater, hrows, hmine⟩ := hadv id
  rw [sameJob_iff]
  apply hrows.trans
  apply replay_unchanged
  -- a step adds at most its own call to an order, and here that call changes nothing
  intro e he
  have hon : (calls e.1).On id := hinv.2.on id e (hlater ▸ List.mem_append_right _ he)
  have hei : e.1 = i := hmine e he
  unfold callEffect
  rw [hei] at hon ⊢
  obtain rfl := hunder.eq hon
  rcases hunder.effect e.2 (w.shared.db.rowsOf id) with ⟨hsame, -⟩ | hleased
  · exact hsame
  · exact absurd hleased htoken

/-- A job that is finished stays as it is. -/
theorem Outlined.finished_stays (h : Outlined calls db₀ v g)
    (hreaches : Pool.Reaches postgres.readCommitted v w) {job : Job}
    (hjob : v.shared.db.jobs.find jobId = some job) (hfinished : job.finished) :
    SameJob jobId v.shared.db w.shared.db := by
  obtain ⟨g', -, hadv⟩ := h.reaches hreaches
  obtain ⟨later, -, hrows, -⟩ := hadv jobId
  rw [sameJob_iff]
  apply hrows.trans
  apply replay_closed hjob
  · rcases hfinished with hstate | hstate <;> simp [hstate]
  · rcases hfinished with hstate | hstate <;> simp [hstate]

/-- Lease fencing while claims, renewals, recoveries and results are interleaved statement by
statement.  In every order in which the calls on a job act, a renewal or a result is accepted only
under the lease that the job has there, any other one changes nothing, and between two applied
results the job is claimed.  A token that the job has lost, with every claim over that draws it, is
lost for good, and from then on no command of a call under it changes a job.  A finished job stays
as it is. -/
theorem statement_fencing [Finite ι] (hdb : Reachable db₀)
    (hstart : ∀ i, (calls i).isStart = false) (hdrawn : DrawnApart calls db₀)
    (h : Interleaves calls db₀ v) (jobId : Uuid) :
    (∃ order, SerializedBy calls db₀ v jobId order) ∧
      (∀ order, SerializedBy calls db₀ v jobId order → FencedBy calls db₀ v jobId order) ∧
      ∀ w, Pool.Reaches postgres.readCommitted v w →
        (∀ leaseToken, Overtaken calls v jobId leaseToken →
          (w.shared.db.rowsOf jobId).leaseToken ≠ some leaseToken ∧
            FencedOff calls w jobId leaseToken) ∧
        ∀ job, v.shared.db.jobs.find jobId = some job → job.finished →
          SameJob jobId v.shared.db w.shared.db := by
  obtain ⟨g, hg⟩ := h.orders hdb hdrawn hstart
  refine ⟨h.serialized hdb hstart hdrawn jobId,
    fun order horder => horder.fenced hdb.consistent hdrawn, fun w hreaches => ⟨?_, ?_⟩⟩
  · intro leaseToken hovertaken
    obtain ⟨g', hg', -⟩ := hg.reaches hreaches
    have hlost := hg.overtaken hreaches hovertaken
    exact ⟨hlost, hg'.fencedOff hlost⟩
  · intro job hjob hfinished
    exact hg.finished_stays hreaches hjob hfinished

end

namespace Sample

theorem overtaken_lost : Overtaken contenders overtaken 11 20 := by
  refine ⟨by decide +kernel, fun i hdraws => ?_⟩
  have htoken : (20 : Uuid) = 30 := (contenders_claim hdraws).2
  cases htoken

end Sample

/-- The guards of the `UPDATE`s refuse both. -/
theorem statement_fencing_overtaken :
    FencedOff Sample.contenders Sample.overtaken 11 20 ∧
      Sample.answer Sample.late 0 = some .stale ∧
      Sample.answer Sample.late 1 = some (.renewed false) ∧
      (Sample.late.shared.db.rowsOf 11).leaseToken = some 30 := by
  have hinterleaves : Interleaves Sample.contenders Sample.leased Sample.overtaken :=
    interleaves_interleave _ _ _
  have hfenced := statement_fencing ((Reachable.empty Sample.workspaces).runAll _ |>.runAll _)
    (by decide) Sample.contenders_apart hinterleaves 11
  refine ⟨((hfenced.2.2 _ (.refl _ _)).1 20 Sample.overtaken_lost).2, ?_, ?_, ?_⟩
  · decide +kernel
  · decide +kernel
  · decide +kernel

end InboxSaas.Product
