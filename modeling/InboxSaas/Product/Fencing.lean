import InboxSaas.Product.Calls

/-!
# Lease fencing

A history says which claim gave a job its lease; the stored token of a running job is always the
token of that claim.  So a renewal or a result is accepted only under the latest claim, and a result
ends it.  A finished job is never touched again.
-/

namespace InboxSaas.Product

open Reasoning

/-! ## Claims and recoveries of a history -/

namespace Entry

/-- The call changed the row of the job. -/
def Touches (e : Entry) (jobId : Uuid) : Prop :=
  e.after.jobs.find jobId ≠ e.before.jobs.find jobId

/-- A claim of the job that took effect, whether or not its answer arrived. -/
def Claims (e : Entry) (jobId leaseToken : Uuid) : Prop :=
  (∃ now leaseDurationMs, e.call = .claim jobId now leaseDurationMs leaseToken) ∧ e.Touches jobId

def Recovers (e : Entry) (jobId : Uuid) : Prop :=
  (∃ now defaults, e.call = .recover now defaults) ∧ e.Touches jobId

/-- `renewTenantValidationJobLease` returned true. -/
def Renewed (e : Entry) (jobId leaseToken : Uuid) : Prop :=
  ∃ now leaseDurationMs before after,
    e = ⟨.renew jobId leaseToken now leaseDurationMs, .ok true, before, after⟩

theorem renewed_of_true {jobId leaseToken : Uuid} {now : Time} {leaseDurationMs : Int}
    {o : Except JsError Bool} {before after : Store} (h : o = .ok true) :
    Renewed ⟨.renew jobId leaseToken now leaseDurationMs, o, before, after⟩ jobId leaseToken :=
  ⟨now, leaseDurationMs, before, after, by rw [h]⟩

/-- `applyTenantValidationResult` returned "applied". -/
def Applied (e : Entry) (jobId leaseToken : Uuid) : Prop :=
  ∃ result now defaults connection job reused before after,
    e = ⟨.apply jobId leaseToken result now defaults, .ok (.applied connection job reused),
      before, after⟩

/-- The token a claim draws. -/
def claimToken (e : Entry) : Option Uuid :=
  match e.call with
  | .claim _ _ _ leaseToken => some leaseToken
  | _ => none

theorem Claims.claimToken {e : Entry} {jobId leaseToken : Uuid} (h : e.Claims jobId leaseToken) :
    e.claimToken = some leaseToken := by
  obtain ⟨⟨now, leaseDurationMs, hcall⟩, _⟩ := h
  rw [Entry.claimToken, hcall]

end Entry

/-- No two claims of the history drew the same token. -/
def FreshTokens (history : List Entry) : Prop :=
  (history.filterMap Entry.claimToken).Nodup

/-- No claim and no recovery of the job. -/
def Undisturbed (history : List Entry) (jobId : Uuid) : Prop :=
  ∀ e ∈ history, (∀ leaseToken, ¬ e.Claims jobId leaseToken) ∧ ¬ e.Recovers jobId

/-- The token came from the latest claim of the job, and no recovery happened since. -/
def HoldsLease (history : List Entry) (jobId leaseToken : Uuid) : Prop :=
  ∃ older claim newer, history = older ++ claim :: newer ∧ claim.Claims jobId leaseToken ∧
    Undisturbed newer jobId

theorem HoldsLease.append {history later : List Entry} {jobId leaseToken : Uuid}
    (h : HoldsLease history jobId leaseToken) (hl : Undisturbed later jobId) :
    HoldsLease (history ++ later) jobId leaseToken := by
  obtain ⟨older, claim, newer, rfl, hclaim, hnewer⟩ := h
  refine ⟨older, claim, newer ++ later, by simp, hclaim, fun e he => ?_⟩
  rcases List.mem_append.mp he with he | he
  · exact hnewer e he
  · exact hl e he

theorem mem_filterMap_claimToken {history : List Entry} {e : Entry} {leaseToken : Uuid}
    (he : e ∈ history) (ht : e.claimToken = some leaseToken) :
    leaseToken ∈ history.filterMap Entry.claimToken :=
  List.mem_filterMap.mpr ⟨e, he, ht⟩

/-- With fresh tokens a token says where in the history it was drawn. -/
theorem FreshTokens.unique {older older' newer newer' : List Entry} {e e' : Entry}
    {leaseToken : Uuid} (hfresh : FreshTokens (older ++ e :: newer))
    (heq : older ++ e :: newer = older' ++ e' :: newer') (ht : e.claimToken = some leaseToken)
    (ht' : e'.claimToken = some leaseToken) : older = older' ∧ e = e' ∧ newer = newer' := by
  induction older generalizing older' with
  | nil =>
      cases older' with
      | nil =>
          rw [List.nil_append, List.nil_append, List.cons.injEq] at heq
          exact ⟨rfl, heq⟩
      | cons x rest =>
          rw [List.nil_append, List.cons_append, List.cons.injEq] at heq
          rw [FreshTokens, List.nil_append, List.filterMap_cons, ht, List.nodup_cons] at hfresh
          have hmem : e' ∈ newer := heq.2 ▸ List.mem_append_right _ List.mem_cons_self
          exact absurd (mem_filterMap_claimToken hmem ht') hfresh.1
  | cons y rest ih =>
      cases older' with
      | nil =>
          rw [List.nil_append, List.cons_append, List.cons.injEq] at heq
          rw [FreshTokens, List.cons_append, List.filterMap_cons, heq.1, ht', List.nodup_cons]
            at hfresh
          have hmem : e ∈ rest ++ e :: newer := List.mem_append_right _ List.mem_cons_self
          exact absurd (mem_filterMap_claimToken hmem ht) hfresh.1
      | cons x rest' =>
          rw [List.cons_append, List.cons_append, List.cons.injEq] at heq
          have hrest : FreshTokens (rest ++ e :: newer) := by
            rw [FreshTokens, List.cons_append, List.filterMap_cons] at hfresh
            split at hfresh
            · exact hfresh
            · exact (List.nodup_cons.mp hfresh).2
          obtain ⟨h₁, h₂⟩ := ih hrest heq.2
          exact ⟨by rw [heq.1, h₁], h₂⟩

/-! ## The token of a running job -/

/-- The stored token of every running job is the token of its latest claim. -/
def TokensOf (history : List Entry) (db : Store) : Prop :=
  ∀ (jobId : Uuid) (job : Job), db.jobs.find jobId = some job → job.state = .running →
    ∃ leaseToken, job.leaseToken = some leaseToken ∧ HoldsLease history jobId leaseToken

/-- An entry that leaves the row of a job alone neither claims nor recovers it. -/
theorem undisturbed_of_same {e : Entry} {jobId : Uuid}
    (h : e.after.jobs.find jobId = e.before.jobs.find jobId) : Undisturbed [e] jobId := by
  intro x hx
  rw [List.mem_singleton] at hx
  subst hx
  exact ⟨fun _ hclaims => hclaims.2 h, fun hrecovers => hrecovers.2 h⟩

theorem undisturbed_of_renew {e : Entry} {jobId leaseToken : Uuid} {now : Time}
    {leaseDurationMs : Int} (h : e.call = .renew jobId leaseToken now leaseDurationMs) :
    Undisturbed [e] jobId := by
  intro x hx
  rw [List.mem_singleton] at hx
  subst hx
  constructor
  · intro t hclaims
    obtain ⟨⟨_, _, hcall⟩, _⟩ := hclaims
    rw [h] at hcall
    cases hcall
  · intro hrecovers
    obtain ⟨⟨_, _, hcall⟩, _⟩ := hrecovers
    rw [h] at hcall
    cases hcall

theorem TokensOf.call {history : List Entry} {call : Call} {db db' : Store}
    {o : Except JsError call.Result} (ht : TokensOf history db) (hc : Consistent db)
    (h : call.Runs db o db') : TokensOf (history ++ [⟨call, o, db, db'⟩]) db' := by
  intro jobId job hjob hrunning
  rcases h.at hc jobId with hsame | ⟨m, hmakes, rfl, hrow, -⟩
  · rw [hsame.job] at hjob
    obtain ⟨leaseToken, hstored, hholds⟩ := ht jobId job hjob hrunning
    exact ⟨leaseToken, hstored, hholds.append (undisturbed_of_same hsame.job)⟩
  · generalize hold : db.jobs.find m.jobId = before at hrow
    rw [hjob] at hrow
    cases hrow with
    | started => cases hrunning
    | claimed hguard =>
        rename_i jobId leaseToken now leaseExpiresAt job
        obtain ⟨leaseDurationMs, rfl⟩ := hmakes.claimed
        refine ⟨leaseToken, rfl, history, _, [], rfl, ⟨⟨_, _, rfl⟩, fun he => ?_⟩,
          fun _ hx => absurd hx List.not_mem_nil⟩
        -- a claim counts an attempt, so the row is another one
        have hcount := congrArg (Option.map Job.attemptCount) (hjob.symm.trans (he.trans hold))
        simp [Job.claim] at hcount
    | renewed hguard =>
        obtain ⟨leaseDurationMs, rfl⟩ := hmakes.renewed
        obtain ⟨t, hstored, hholds⟩ := ht _ _ hold (leaseValid_running hguard)
        exact ⟨t, hstored, hholds.append (undisturbed_of_renew rfl)⟩
    | recovered => cases hrunning
    | retried => cases hrunning
    | completed => cases hrunning
    | failed => cases hrunning

theorem TokensOf.run {past history : List Entry} {db db' : Store} (h : Run db history db')
    (ht : TokensOf past db) (hc : Consistent db) : TokensOf (past ++ history) db' := by
  induction h generalizing past with
  | nil => rwa [List.append_nil]
  | cons runs _ ih =>
      have hstep := ih (ht.call hc runs) (hc.call runs)
      rwa [List.append_assoc] at hstep

/-- From the empty store on. -/
theorem Run.tokensOf {workspaces : Table Workspace} {history : List Entry} {db : Store}
    (h : Run (.empty workspaces) history db) : TokensOf history db := by
  have hempty : TokensOf [] (.empty workspaces) := fun _ _ hjob => by cases hjob
  exact hempty.run h (.empty workspaces)

/-! ## What an accepted renewal or result proves -/

theorem renewed_valid {jobId leaseToken : Uuid} {now : Time} {leaseDurationMs : Int}
    {db db' : Store} (h : (Call.renew jobId leaseToken now leaseDurationMs).Runs db (.ok true) db') :
    ∃ job, db.jobs.find jobId = some job ∧ leaseValid leaseToken now job = true := by
  obtain ⟨s', h⟩ := h
  have hrun := (runs_renew h).2
  cases hrun with
  | renewed hf => exact ⟨_, filter_find hf⟩

/-- The row under which a result was applied, and the row it left. -/
theorem applied_valid {jobId leaseToken : Uuid} {result : TenantValidationResult} {now : Time}
    {defaults : OutboxDefaults} {connection : TenantConnectionDto} {row : Job} {reused : Bool}
    {db db' : Store} (hc : Consistent db)
    (h : (Call.apply jobId leaseToken result now defaults).Runs db
      (.ok (.applied connection row reused)) db') :
    (∃ job, db.jobs.find jobId = some job ∧ leaseValid leaseToken now job = true) ∧
      db'.jobs.find jobId = some row ∧ row.state ≠ .running := by
  obtain ⟨s', h⟩ := h
  have hrun := (runs_apply (fun _ he => he) hc h).2
  cases hrun with
  | ended hbody ho =>
      have hok := ho.resolve_right (fun ⟨_, _, he⟩ => by cases he)
      cases hok
      cases hbody with
      | completed hjob hlease =>
        exact ⟨⟨_, hjob, hlease⟩, find_put_job hjob rfl, by simp [Job.complete]⟩
      | retried hjob hlease => exact ⟨⟨_, hjob, hlease⟩, find_put_job hjob rfl, by simp [Job.retry]⟩
      | failed hjob hlease => exact ⟨⟨_, hjob, hlease⟩, find_put_job hjob rfl, by simp [Job.fail]⟩
  | collided _ _ hbody ho =>
      have hok := ho.resolve_right (fun ⟨_, _, he⟩ => by cases he)
      cases hok
      cases hbody with
      | failed hjob hlease => exact ⟨⟨_, hjob, hlease⟩, find_put_job hjob rfl, by simp [Job.fail]⟩

/-! ## Between two results -/

/-- A job that is not running stays so until it is claimed. -/
theorem idle_call {call : Call} {db db' : Store} {o : Except JsError call.Result}
    (hc : Consistent db) (h : call.Runs db o db') {jobId : Uuid}
    (hidle : ∀ job, db.jobs.find jobId = some job → job.state ≠ .running)
    (hclaim : ∀ leaseToken, ¬ Entry.Claims ⟨call, o, db, db'⟩ jobId leaseToken) :
    ∀ job, db'.jobs.find jobId = some job → job.state ≠ .running := by
  intro job hjob hrunning
  rcases h.at hc jobId with hsame | ⟨m, hmakes, rfl, hrow, -⟩
  · exact hidle job (hsame.job ▸ hjob) hrunning
  · generalize hold : db.jobs.find m.jobId = before at hrow
    rw [hjob] at hrow
    cases hrow with
    | claimed hguard =>
        rename_i jobId leaseToken now leaseExpiresAt job
        obtain ⟨leaseDurationMs, rfl⟩ := hmakes.claimed
        refine hclaim leaseToken ⟨⟨_, _, rfl⟩, fun he => ?_⟩
        have hcount := congrArg (Option.map Job.attemptCount) (hjob.symm.trans (he.trans hold))
        simp [Job.claim] at hcount
    | renewed hguard => exact hidle _ hold (leaseValid_running hguard)
    | started => cases hrunning
    | recovered => cases hrunning
    | retried => cases hrunning
    | completed => cases hrunning
    | failed => cases hrunning

theorem idle_run {history : List Entry} {db db' : Store} (h : Run db history db')
    (hc : Consistent db) {jobId : Uuid}
    (hidle : ∀ job, db.jobs.find jobId = some job → job.state ≠ .running)
    (hclaim : ∀ e ∈ history, ∀ leaseToken, ¬ e.Claims jobId leaseToken) :
    ∀ job, db'.jobs.find jobId = some job → job.state ≠ .running := by
  induction h with
  | nil => exact hidle
  | cons runs _ ih =>
      exact ih (hc.call runs) (idle_call hc runs hidle (hclaim _ List.mem_cons_self))
        (fun e he => hclaim e (List.mem_cons_of_mem _ he))

/-! ## Finished jobs -/

def Job.finished (job : Job) : Prop :=
  job.state = .completed ∨ job.state = .failed

theorem finished_call {call : Call} {db db' : Store} {o : Except JsError call.Result}
    (hc : Consistent db) (h : call.Runs db o db') {jobId : Uuid} {job : Job}
    (hjob : db.jobs.find jobId = some job) (hf : job.finished) : SameJob jobId db db' := by
  rcases h.at hc jobId with hsame | ⟨m, -, rfl, hrow, -⟩
  · exact hsame
  · have hopen : ¬ (job.state = .queued ∨ job.state = .running) := by
      rcases hf with hf | hf <;> simp [hf]
    rw [hjob] at hrow
    generalize db'.jobs.find m.jobId = after at hrow
    cases hrow with
    | claimed hguard => exact absurd (claimable_open hguard) hopen
    | renewed hguard => exact absurd (.inr (leaseValid_running hguard)) hopen
    | recovered hguard => exact absurd (.inr (leaseExpired_running hguard)) hopen
    | retried hguard => exact absurd (.inr (leaseValid_running hguard)) hopen
    | completed hguard => exact absurd (.inr (leaseValid_running hguard)) hopen
    | failed hguard => exact absurd (.inr (leaseValid_running hguard)) hopen

theorem finished_run {history : List Entry} {db db' : Store} (h : Run db history db')
    (hc : Consistent db) {jobId : Uuid} {job : Job} (hjob : db.jobs.find jobId = some job)
    (hf : job.finished) : SameJob jobId db db' := by
  induction h with
  | nil => exact .refl jobId _
  | cons runs _ ih =>
      have hsame := finished_call hc runs hjob hf
      exact hsame.trans (ih (hc.call runs) (hsame.job.trans hjob))

/-! ## Fencing -/

/-- The token of an accepted renewal or result came from the latest claim of the job. -/
theorem holdsLease_of_accepted {workspaces : Table Workspace} {older later : List Entry} {e : Entry}
    {db : Store} (h : Run (.empty workspaces) (older ++ e :: later) db) {jobId leaseToken : Uuid}
    (he : e.Renewed jobId leaseToken ∨ e.Applied jobId leaseToken) :
    HoldsLease older jobId leaseToken := by
  obtain ⟨hrun, hcall, _⟩ := h.split_cons
  have hc := hrun.consistent (.empty workspaces)
  have hvalid : ∃ now job, e.before.jobs.find jobId = some job ∧
      leaseValid leaseToken now job = true := by
    rcases he with ⟨now, d, before, after, rfl⟩ | ⟨result, now, defaults, c, row, reused, before,
      after, rfl⟩
    · exact ⟨now, renewed_valid hcall⟩
    · exact ⟨now, (applied_valid hc hcall).1⟩
  obtain ⟨now, job, hjob, hlease⟩ := hvalid
  obtain ⟨t, hstored, hholds⟩ := hrun.tokensOf _ _ hjob (leaseValid_running hlease)
  rw [leaseValid_token hlease, Option.some.injEq] at hstored
  rwa [hstored]

/-- Between two applied results of a job it is claimed again. -/
theorem claim_between {workspaces : Table Workspace} {older between later : List Entry}
    {a b : Entry} {db : Store}
    (h : Run (.empty workspaces) (older ++ a :: (between ++ b :: later)) db)
    {jobId leaseToken leaseToken' : Uuid} (ha : a.Applied jobId leaseToken)
    (hb : b.Applied jobId leaseToken') : ∃ e ∈ between, ∃ t, e.Claims jobId t := by
  by_contra hnone
  obtain ⟨hrun, hcall, hrest⟩ := h.split_cons
  have hc := hrun.consistent (.empty workspaces)
  have hc' := hc.call hcall
  obtain ⟨hmiddle, hcall', _⟩ := hrest.split_cons
  have hidle : ∀ job, a.after.jobs.find jobId = some job → job.state ≠ .running := by
    obtain ⟨result, now, defaults, c, row, reused, before, after, rfl⟩ := ha
    obtain ⟨_, hrow, hstate⟩ := applied_valid hc hcall
    intro job hjob
    rw [hrow] at hjob
    cases hjob
    exact hstate
  have hclaim : ∀ e ∈ between, ∀ t, ¬ e.Claims jobId t :=
    fun e he t ht => hnone ⟨e, he, t, ht⟩
  have hlast := idle_run hmiddle hc' hidle hclaim
  obtain ⟨result, now, defaults, c, row, reused, before, after, rfl⟩ := hb
  obtain ⟨⟨job, hjob, hlease⟩, _⟩ := applied_valid (hmiddle.consistent hc') hcall'
  exact hlast job hjob (leaseValid_running hlease)

/-- Lease fencing, over every history from an empty store whose claims drew fresh tokens.  A renewal
or a result is accepted only for the token of the latest claim of its job, with no recovery since;
a token drawn by any claim is the token of that latest one.  Two applied results of a job have a
claim of it between them.  A job that is finished at some point keeps its row, its connection's row
and its events. -/
theorem lease_fencing {workspaces : Table Workspace} {history : List Entry} {db : Store}
    (h : Run (.empty workspaces) history db) (hfresh : FreshTokens history) :
    (∀ older e later jobId leaseToken, history = older ++ e :: later →
      (e.Renewed jobId leaseToken ∨ e.Applied jobId leaseToken) →
      HoldsLease older jobId leaseToken ∧
      ∀ before claim after, older = before ++ claim :: after →
        claim.claimToken = some leaseToken →
        claim.Claims jobId leaseToken ∧ Undisturbed after jobId) ∧
    (∀ older a between b later jobId leaseToken leaseToken',
      history = older ++ a :: (between ++ b :: later) →
      a.Applied jobId leaseToken → b.Applied jobId leaseToken' →
      ∃ e ∈ between, ∃ t, e.Claims jobId t) ∧
    ∀ older later db₁ jobId job, history = older ++ later → Run (.empty workspaces) older db₁ →
      Run db₁ later db → db₁.jobs.find jobId = some job → job.finished → SameJob jobId db₁ db := by
  refine ⟨fun older e later jobId leaseToken heq he => ?_,
    fun older a between b later jobId leaseToken leaseToken' heq ha hb => ?_,
    fun older later db₁ jobId job heq hrun hlater hjob hf => ?_⟩
  · subst heq
    have hholds := holdsLease_of_accepted h he
    refine ⟨hholds, fun before claim after heq ht => ?_⟩
    obtain ⟨before', claim', after', heq', hclaims, hundisturbed⟩ := hholds
    have hfresh' : FreshTokens older := by
      unfold FreshTokens at hfresh
      rw [List.filterMap_append] at hfresh
      exact (List.nodup_append.mp hfresh).1
    obtain ⟨rfl, rfl, rfl⟩ := FreshTokens.unique (heq ▸ hfresh') (heq.symm.trans heq') ht
      hclaims.claimToken
    exact ⟨hclaims, hundisturbed⟩
  · subst heq
    exact claim_between h ha hb
  · exact finished_run hlater (hrun.consistent (.empty workspaces)) hjob hf

namespace Sample

/-- A history of successful calls from the empty store. -/
def history (db : Store) : List Call → List Entry
  | [] => []
  | call :: rest => ⟨call, (call.run db).1, db, (call.run db).2⟩ :: history (call.run db).2 rest

theorem history_run (db : Store) (calls : List Call) :
    Run db (history db calls) (runAll db calls) := by
  induction calls generalizing db with
  | nil => exact .nil db
  | cons call rest ih => exact .cons (call.runs_run db) (ih _)

/-- A job is claimed, its lease expires, it is recovered and claimed again, and completes. -/
def fenced : List Call :=
  [start, .claim 11 5 60000 20, .recover 70000 (fun _ => ⟨14, 70000⟩), .claim 11 70001 60000 21,
    .renew 11 21 70002 60000, .apply 11 21 (.success [116]) 70003 ⟨15, 70003⟩]

end Sample

/-- The renewal of the second claim's lease was accepted, so that claim was the latest. -/
theorem lease_fencing_fenced :
    HoldsLease ((Sample.history (.empty Sample.workspaces) Sample.fenced).take 4) 11 21 := by
  have hrun := Sample.history_run (.empty Sample.workspaces) Sample.fenced
  have hfresh : FreshTokens (Sample.history (.empty Sample.workspaces) Sample.fenced) := by
    unfold FreshTokens
    decide +kernel
  have htrue : ((Call.renew 11 21 70002 60000).run (runAll (.empty Sample.workspaces)
      (Sample.fenced.take 4))).1 = .ok true := by decide +kernel
  exact ((lease_fencing hrun hfresh).1 _ _ _ 11 21 rfl (.inl (Entry.renewed_of_true htrue))).1

end InboxSaas.Product
