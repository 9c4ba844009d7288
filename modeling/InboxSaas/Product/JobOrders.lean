import InboxSaas.Product.Consistency
import InboxSaas.Product.Creations

/-!
# The order of the calls on a job

Claims, renewals, recoveries and results are interleaved statement by statement.  The ghost state is
one order for each job: the calls that have taken effect on it, each with whether the index on the
Microsoft tenant rejected it.  What the store holds of a job is always what these calls, one after
another, make of it (`Linearized`).  So a lease token says which claim stored it, and an id that a
call drew for an event is free until the call takes effect.
-/

namespace InboxSaas.Product

open Reasoning

/-! ## What the effect of a call keeps -/

/-- The token a claim draws. -/
def Call.claimToken : Call → Option Uuid
  | .claim _ _ _ leaseToken => some leaseToken
  | _ => none

/-- `job'` is a later version of `job`.  Under a token that was not drawn in between it is still the
same attempt. -/
structure Job.Follows (drawn : Uuid → Prop) (job job' : Job) : Prop where
  tenantConnectionId : job'.tenantConnectionId = job.tenantConnectionId
  attempt {leaseToken : Uuid} (h : job'.leaseToken = some leaseToken) (hdrawn : ¬ drawn leaseToken) :
    job.leaseToken = some leaseToken ∧ job'.attemptCount = job.attemptCount

namespace Job.Follows

variable {drawn drawn' : Uuid → Prop} {job job₁ job' : Job}

theorem refl (drawn : Uuid → Prop) (job : Job) : job.Follows drawn job :=
  ⟨rfl, fun h _ => ⟨h, rfl⟩⟩

theorem trans (h : job.Follows drawn job₁) (h' : job₁.Follows drawn' job') :
    job.Follows (fun leaseToken => drawn leaseToken ∨ drawn' leaseToken) job' where
  tenantConnectionId := h'.tenantConnectionId.trans h.tenantConnectionId
  attempt ht hd := by
    rw [not_or] at hd
    obtain ⟨ht₁, hcount⟩ := h'.attempt ht hd.2
    obtain ⟨ht₀, hcount₁⟩ := h.attempt ht₁ hd.1
    exact ⟨ht₀, hcount.trans hcount₁⟩

/-- A version without a lease. -/
theorem of_idle (htc : job'.tenantConnectionId = job.tenantConnectionId)
    (htoken : job'.leaseToken = none) : job.Follows drawn job' where
  tenantConnectionId := htc
  attempt ht := by
    rw [htoken] at ht
    cases ht

end Job.Follows

section

variable {jobId : Uuid} {rejected : Bool} {call : Call} {rows : JobRows} {job : Job}

/-- No effect creates a job. -/
theorem Call.effect_none (h : rows.job = none) : (call.effect jobId rejected rows).2 = rows := by
  cases call with
  | start => rfl
  | claim id now leaseDurationMs leaseToken =>
      change (claimEffect leaseToken now leaseDurationMs rows).2 = rows
      unfold claimEffect
      rw [h]
      split <;> rfl
  | renew id leaseToken now leaseDurationMs =>
      change (renewEffect leaseToken now leaseDurationMs rows).2 = rows
      unfold renewEffect
      rw [h]
      split <;> rfl
  | recover now defaults =>
      change (recoverEffect jobId now defaults rows).2 = rows
      unfold recoverEffect
      rw [h]
      rfl
  | apply id leaseToken result now defaults =>
      change (applyEffect jobId leaseToken now rejected result defaults rows).2 = rows
      rw [applyEffect_of_none h]

/-- No effect changes a job that is over. -/
theorem Call.effect_closed (h : rows.job = some job) (hqueued : job.state ≠ .queued)
    (hrunning : job.state ≠ .running) : (call.effect jobId rejected rows).2 = rows := by
  have hnone : ∀ {guard : Job → Bool}, (guard job = true → job.state = .queued ∨ job.state = .running) →
      rows.job.filter guard = none := by
    intro guard hopen
    rw [h, Option.filter_eq_none_iff]
    intro job' hjob' hguard
    cases hjob'
    exact (hopen hguard).elim hqueued hrunning
  cases call with
  | start => rfl
  | claim id now leaseDurationMs leaseToken =>
      change (claimEffect leaseToken now leaseDurationMs rows).2 = rows
      unfold claimEffect
      rw [hnone claimable_open]
      split <;> rfl
  | renew id leaseToken now leaseDurationMs =>
      change (renewEffect leaseToken now leaseDurationMs rows).2 = rows
      unfold renewEffect
      rw [hnone fun hvalid => .inr (leaseValid_running hvalid)]
      split <;> rfl
  | recover now defaults =>
      change (recoverEffect jobId now defaults rows).2 = rows
      unfold recoverEffect
      rw [hnone fun hexpired => .inr (leaseExpired_running hexpired)]
  | apply id leaseToken result now defaults =>
      change (applyEffect jobId leaseToken now rejected result defaults rows).2 = rows
      rw [applyEffect_of_stale h]
      exact Bool.eq_false_iff.mpr fun hvalid => hrunning (leaseValid_running hvalid)

/-- What an effect leaves of a stored job: a later version of it, and its events with at most one
more. -/
structure Call.Rewrites (call : Call) (jobId : Uuid) (job : Job) (rows rows' : JobRows) : Prop where
  job : ∃ job', rows'.job = some job' ∧ job.Follows (fun t => call.claimToken = some t) job'
  events : rows'.events = rows.events ∨
    ∃ event, call.Inserts jobId event.id ∧ rows'.events = rows.events ++ [event]

theorem Call.Rewrites.refl (h : rows.job = some job) : call.Rewrites jobId job rows rows :=
  ⟨⟨job, h, .refl _ job⟩, .inl rfl⟩

theorem applyEffect_rewrites {leaseToken : Uuid} {now : Time} {result : TenantValidationResult}
    {defaults : OutboxDefaults} (h : rows.job = some job) :
    (Call.apply jobId leaseToken result now defaults).Rewrites jobId job rows
      (applyEffect jobId leaseToken now rejected result defaults rows).2 := by
  unfold applyEffect
  rw [h]
  dsimp only
  split
  · exact .refl h
  · cases result with
    | success microsoftTenantId =>
        dsimp only
        split
        · exact .refl h
        · split
          · exact ⟨⟨_, rfl, .of_idle rfl rfl⟩, .inl rfl⟩
          · exact ⟨⟨_, rfl, .of_idle rfl rfl⟩, .inl rfl⟩
    | failure code retryable =>
        dsimp only
        split
        · rename_i hretry
          split
          · exact .refl h
          · unfold shouldRetry at hretry
            rw [Bool.and_eq_true] at hretry
            have hretryable : retryable = true := hretry.1
            subst hretryable
            exact ⟨⟨_, rfl, .of_idle rfl rfl⟩, .inr ⟨_, ⟨rfl, ⟨code, rfl⟩, rfl⟩, rfl⟩⟩
        · exact ⟨⟨_, rfl, .of_idle rfl rfl⟩, .inl rfl⟩

theorem Call.effect_rewrites (rejected : Bool) (hon : call.On jobId) (h : rows.job = some job) :
    call.Rewrites jobId job rows (call.effect jobId rejected rows).2 := by
  cases call with
  | start => exact .refl h
  | claim id now leaseDurationMs leaseToken =>
      change Call.Rewrites _ jobId job rows (claimEffect leaseToken now leaseDurationMs rows).2
      unfold claimEffect
      split
      · exact .refl h
      · split
        · exact .refl h
        · rename_i hfilter
          obtain ⟨hjob, -⟩ := Option.filter_eq_some_iff.mp hfilter
          cases h.symm.trans hjob
          refine ⟨⟨_, rfl, rfl, fun ht hd => ?_⟩, .inl rfl⟩
          exact absurd ht hd
  | renew id leaseToken now leaseDurationMs =>
      change Call.Rewrites _ jobId job rows (renewEffect leaseToken now leaseDurationMs rows).2
      unfold renewEffect
      split
      · exact .refl h
      · split
        · exact .refl h
        · rename_i hfilter
          obtain ⟨hjob, -⟩ := Option.filter_eq_some_iff.mp hfilter
          cases h.symm.trans hjob
          exact ⟨⟨_, rfl, rfl, fun ht _ => ⟨ht, rfl⟩⟩, .inl rfl⟩
  | recover now defaults =>
      change Call.Rewrites _ jobId job rows (recoverEffect jobId now defaults rows).2
      unfold recoverEffect
      split
      · exact .refl h
      · rename_i hfilter
        obtain ⟨hjob, -⟩ := Option.filter_eq_some_iff.mp hfilter
        cases h.symm.trans hjob
        exact ⟨⟨_, rfl, .of_idle rfl rfl⟩,
          .inr ⟨tenantValidationRequested jobId now (defaults jobId), rfl, rfl⟩⟩
  | apply id leaseToken result now defaults =>
      have hid : id = jobId := hon
      subst hid
      exact applyEffect_rewrites h

end

/-! ## Along an order -/

section

variable {ι : Type} {calls : ι → Call} {jobId : Uuid} {rows : JobRows} {job : Job}

theorem replay_none {ops : List (ι × Bool)} (h : rows.job = none) :
    replay (callEffect calls jobId) ops rows = rows :=
  replay_unchanged fun _ _ => Call.effect_none h

theorem replay_closed {ops : List (ι × Bool)} (h : rows.job = some job)
    (hqueued : job.state ≠ .queued) (hrunning : job.state ≠ .running) :
    replay (callEffect calls jobId) ops rows = rows :=
  replay_unchanged fun _ _ => Call.effect_closed h hqueued hrunning

/-- The job after a sequence of calls. -/
theorem replay_follows {ops : List (ι × Bool)} (hon : ∀ e ∈ ops, (calls e.1).On jobId)
    (h : rows.job = some job) :
    ∃ job', (replay (callEffect calls jobId) ops rows).job = some job' ∧
      job.Follows (fun t => ∃ e ∈ ops, (calls e.1).claimToken = some t) job' := by
  induction ops generalizing rows job with
  | nil => exact ⟨job, h, .refl _ job⟩
  | cons e rest ih =>
      obtain ⟨job₁, hjob₁, hfollows₁⟩ :=
        (Call.effect_rewrites e.2 (hon e List.mem_cons_self) h).job
      obtain ⟨job', hjob', hfollows⟩ := ih (fun e' he' => hon e' (List.mem_cons_of_mem e he')) hjob₁
      refine ⟨job', hjob', ⟨hfollows.tenantConnectionId.trans hfollows₁.tenantConnectionId, ?_⟩⟩
      intro t ht hd
      refine (hfollows₁.trans hfollows).attempt ht (not_or.mpr ⟨fun he => ?_, fun he => ?_⟩)
      · exact hd ⟨e, List.mem_cons_self, he⟩
      · obtain ⟨e', he', hdraw⟩ := he
        exact hd ⟨e', List.mem_cons_of_mem e he', hdraw⟩

/-- The events after a sequence of calls. -/
theorem replay_events {ops : List (ι × Bool)} (hon : ∀ e ∈ ops, (calls e.1).On jobId)
    {event : OutboxEvent} (h : event ∈ (replay (callEffect calls jobId) ops rows).events) :
    event ∈ rows.events ∨ ∃ e ∈ ops, (calls e.1).Inserts jobId event.id := by
  cases hjob : rows.job with
  | none =>
      rw [replay_none hjob] at h
      exact .inl h
  | some job =>
      induction ops generalizing rows job with
      | nil => exact .inl h
      | cons e rest ih =>
          have hrewrites := Call.effect_rewrites e.2 (hon e List.mem_cons_self) hjob
          obtain ⟨job', hjob', -⟩ := hrewrites.job
          rcases ih (fun e' he' => hon e' (List.mem_cons_of_mem e he')) h job' hjob' with
            hmem | ⟨e', he', hinserts⟩
          · change event ∈ ((calls e.1).effect jobId e.2 rows).2.events at hmem
            rcases hrewrites.events with hsame | ⟨event', hinserts, hmore⟩
            · exact .inl (hsame ▸ hmem)
            · rw [hmore] at hmem
              rcases List.mem_append.mp hmem with hmem | hmem
              · exact .inl hmem
              · rw [List.mem_singleton.mp hmem]
                exact .inr ⟨e, List.mem_cons_self, hinserts⟩
          · exact .inr ⟨e', List.mem_cons_of_mem e he', hinserts⟩

end

/-! ## What a client's log says -/

/-- The index on the Microsoft tenant rejected the update of a connection. -/
def rejection : Answer Statement Statement.Reply JsError → Bool
  | ⟨.updateTenantConnection _ _, .error e⟩ => isUniqueViolation e
  | _ => false

/-- The attempt of the job that a `SELECT` without a guard read. -/
def readAttempt : Answer Statement Statement.Reply JsError → Option Nat
  | ⟨.selectJob _, .ok (some job)⟩ => some job.attemptCount
  | _ => none

/-- The attempt of the row that a guarded `UPDATE` of a job rewrote; none but a claim counts one. -/
def updatedAttempt : Answer Statement Statement.Reply JsError → Option Nat
  | ⟨.updateJob _ _ _, .ok (some job)⟩ => some job.attemptCount
  | _ => none

/-- Where `a` read a job and `b` rewrote one, it was the same attempt. -/
def SameAttempt (a b : Answer Statement Statement.Reply JsError) : Prop :=
  ∀ m n, readAttempt a = some m → updatedAttempt b = some n → m = n

/-- A connection is active with the Microsoft tenant that the call found. -/
def Call.Taken (call : Call) (db : Store) : Prop :=
  ∃ jobId leaseToken microsoftTenantId text now defaults,
    call = .apply jobId leaseToken (.success microsoftTenantId) now defaults ∧
    storedText microsoftTenantId = .ok text ∧
    ∃ connection ∈ db.tenantConnections, connection.indexed = true ∧
      connection.microsoftTenantId = some text

/-! ## Orders -/

/-- For each job the calls that took effect on it, and whether the index rejected them. -/
abbrev Orders (ι : Type) : Type := Uuid → List (ι × Bool)

section

variable {ι : Type} (calls : ι → Call) (db₀ : Store)

/-- The store holds of each job what the calls of its order make of it. -/
structure Ordered (t : Store × Orders ι) : Prop where
  consistent : Consistent t.1
  oneActive : OneActive t.1
  rows : ∀ jobId, t.1.rowsOf jobId =
    replay (callEffect calls jobId) (t.2 jobId) (db₀.rowsOf jobId)
  nodup : ∀ jobId, ((t.2 jobId).map Prod.fst).Nodup
  on : ∀ jobId, ∀ e ∈ t.2 jobId, (calls e.1).On jobId

/-- The orders fit the logs. -/
structure Linearized (σ : Database ι) (g : Orders ι) : Prop extends Ordered calls db₀ (σ.db, g) where
  rejected : ∀ jobId, ∀ e ∈ g jobId, e.2 = (σ.log e.1).any rejection
  attempts : ∀ i, (σ.log i).Pairwise SameAttempt
  taken : ∀ i, (σ.log i).any rejection = true → (calls i).Taken σ.db

/-- What the calls draw is new and differs: the tokens of claims and the ids of events. -/
structure DrawnApart : Prop where
  tokens : ∀ i j t, (calls i).claimToken = some t → (calls j).claimToken = some t → i = j
  newTokens : ∀ i t, (calls i).claimToken = some t → ∀ job ∈ db₀.jobs, job.leaseToken ≠ some t
  events : EventsApart calls db₀
  newEvents : ∀ i, (calls i).Undrawn db₀

/-- The call has not taken effect on the job. -/
def Unordered (i : ι) (jobId : Uuid) (g : Orders ι) : Prop :=
  i ∉ (g jobId).map Prod.fst

/-- The others' calls took effect. -/
abbrev Advanced (i : ι) (t u : Store × Orders ι) : Prop :=
  Advances (fun jobId (db : Store) => db.rowsOf jobId) (callEffect calls) (fun e => e.1 ≠ i) t u

/-- What a call that read `job` under its token knows of the job from then on: every claim that
draws the token has taken effect, so as long as the row has the token it is of the same attempt. -/
structure Tracks (jobId leaseToken : Uuid) (job : Job) (t : Store × Orders ι) : Prop where
  current : ∃ current, t.1.jobs.find jobId = some current ∧
    current.tenantConnectionId = job.tenantConnectionId ∧
    (current.leaseToken = some leaseToken → current.attemptCount = job.attemptCount)
  claimed : ∀ k, (calls k).claimToken = some leaseToken → (calls k).On jobId →
    k ∈ (t.2 jobId).map Prod.fst

/-- The call took effect on the job and was answered `r`. -/
def TookEffect (jobId : Uuid) (op : ι × Bool) (r : Except JsError Report)
    (t : Store × Orders ι) : Prop :=
  Answers (callEffect calls jobId) (db₀.rowsOf jobId) (t.2 jobId) op r

variable {calls} {db₀} {i : ι} {t u : Store × Orders ι} {jobId : Uuid}

theorem Ordered.initial (h : Reachable db₀) : Ordered calls db₀ (db₀, fun _ => []) where
  consistent := h.consistent
  oneActive := h.oneActive
  rows _ := rfl
  nodup _ := List.nodup_nil
  on _ _ he := absurd he List.not_mem_nil

theorem Linearized.initial (h : Reachable db₀) :
    Linearized calls db₀ (Server.initial db₀ : Database ι) fun _ => [] where
  toOrdered := .initial h
  rejected _ _ he := absurd he List.not_mem_nil
  attempts _ := .nil
  taken _ h := by cases h

theorem Unordered.advanced (h : Unordered i jobId t.2) (hadv : Advanced calls i t u) :
    Unordered i jobId u.2 := by
  obtain ⟨later, hlater, -, hne⟩ := hadv jobId
  unfold Unordered at h ⊢
  rw [hlater, List.map_append, List.mem_append, not_or]
  refine ⟨h, fun hi => ?_⟩
  obtain ⟨e, he, hei⟩ := List.mem_map.mp hi
  exact hne e he hei

/-- A token that is stored was stored by the claim that draws it. -/
theorem Ordered.tracks (h : Ordered calls db₀ t) (hdrawn : DrawnApart calls db₀)
    {leaseToken : Uuid} {job : Job} (hjob : t.1.jobs.find jobId = some job)
    (htoken : job.leaseToken = some leaseToken) : Tracks calls jobId leaseToken job t where
  current := ⟨job, hjob, rfl, fun _ => rfl⟩
  claimed k hk _ := by
    have hrows : (replay (callEffect calls jobId) (t.2 jobId) (db₀.rowsOf jobId)).job =
        some job := by
      rw [← h.rows]
      exact hjob
    cases hold : (db₀.rowsOf jobId).job with
    | none =>
        rw [replay_none hold, hold] at hrows
        cases hrows
    | some old =>
        obtain ⟨job', hjob', hfollows⟩ := replay_follows (h.on jobId) hold
        cases hjob'.symm.trans hrows
        by_contra hnot
        refine hdrawn.newTokens k leaseToken hk old (Table.mem_of_find hold) ?_
        refine (hfollows.attempt htoken fun ⟨e, he, hdraw⟩ => hnot ?_).1
        rw [hdrawn.tokens k e.1 leaseToken hk hdraw]
        exact List.mem_map_of_mem he

/-- What the others made of a job. -/
theorem Ordered.follows (hu : Ordered calls db₀ u) (hadv : Advanced calls i t u) {job : Job}
    (hjob : t.1.jobs.find jobId = some job) :
    ∃ later job', u.2 jobId = t.2 jobId ++ later ∧ u.1.jobs.find jobId = some job' ∧
      job.Follows (fun leaseToken => ∃ e ∈ later, (calls e.1).claimToken = some leaseToken) job' ∧
      ∀ e ∈ later, (calls e.1).On jobId := by
  obtain ⟨later, hlater, hrows, -⟩ := hadv jobId
  have hon : ∀ e ∈ later, (calls e.1).On jobId := by
    intro e he
    apply hu.on jobId e
    rw [hlater]
    exact List.mem_append_right _ he
  have hjob' : (t.1.rowsOf jobId).job = some job := hjob
  obtain ⟨job', hafter, hfollows⟩ := replay_follows hon hjob'
  rw [← hrows] at hafter
  exact ⟨later, job', hlater, hafter, hfollows, hon⟩

/-- What takes effect leaves an active connection as it is: its job is over. -/
theorem active_kept {who : ι × Bool → Prop} (ht : Consistent t.1)
    (hadv : Advances (fun jobId (db : Store) => db.rowsOf jobId) (callEffect calls) who t u)
    {connection : TenantConnection} (hmem : connection ∈ t.1.tenantConnections)
    (hactive : connection.state = .active) : connection ∈ u.1.tenantConnections := by
  have hfind := Table.find_of_mem hmem
  obtain ⟨jobId, job, hjob, htc⟩ := ht.job hfind
  obtain ⟨connection', hconnection, hagrees⟩ := ht.connection hjob
  rw [htc, hfind] at hconnection
  cases hconnection
  have hcompleted := hagrees.active.mpr hactive
  obtain ⟨later, -, hrows, -⟩ := hadv jobId
  have hsame : u.1.rowsOf jobId = t.1.rowsOf jobId := by
    apply hrows.trans
    apply replay_closed hjob
    · rw [hcompleted]
      decide
    · rw [hcompleted]
      decide
  have hjob' : u.1.jobs.find jobId = some job := (congrArg JobRows.job hsame).trans hjob
  have hconnection := congrArg JobRows.connection hsame
  unfold Store.rowsOf at hconnection
  rw [hjob, hjob', Option.bind_some, Option.bind_some, htc, hfind] at hconnection
  exact Table.mem_of_find hconnection

theorem indexed_active {connection : TenantConnection} (h : connection.indexed = true) :
    connection.state = .active := by
  unfold TenantConnection.indexed at h
  rw [Bool.and_eq_true, decide_eq_true_iff] at h
  exact h.1

/-- An active connection has a Microsoft tenant, so it is in the index. -/
theorem Consistent.indexed {db : Store} (hc : Consistent db) {connection : TenantConnection}
    (hmem : connection ∈ db.tenantConnections) (hactive : connection.state = .active) :
    connection.indexed = true := by
  have hfind := Table.find_of_mem hmem
  obtain ⟨jobId, job, hjob, htc⟩ := hc.job hfind
  obtain ⟨connection', hconnection, hagrees⟩ := hc.connection hjob
  rw [htc, hfind] at hconnection
  cases hconnection
  unfold TenantConnection.indexed
  rw [Bool.and_eq_true, decide_eq_true_iff, Option.isSome_iff_ne_none]
  exact ⟨hactive, hagrees.tenant.mpr hactive⟩

/-- The connection that has the Microsoft tenant of the row already. -/
theorem mem_of_activeElsewhere {db : Store} {row : TenantConnection}
    (h : db.activeElsewhere row = true) : ∃ other ∈ db.tenantConnections, other.indexed = true ∧
      other.microsoftTenantId = row.microsoftTenantId := by
  obtain ⟨other, hother, h⟩ := List.any_eq_true.mp h
  rw [Bool.and_eq_true, Bool.and_eq_true, decide_eq_true_iff, decide_eq_true_iff] at h
  exact ⟨other, hother, h.1.2, h.2⟩

theorem Call.Taken.kept {call : Call} {who : ι × Bool → Prop} (h : call.Taken t.1)
    (ht : Consistent t.1)
    (hadv : Advances (fun jobId (db : Store) => db.rowsOf jobId) (callEffect calls) who t u) :
    call.Taken u.1 := by
  obtain ⟨jobId, leaseToken, microsoftTenantId, text, now, defaults, hcall, htext, connection, hmem,
    hi, hm⟩ := h
  exact ⟨jobId, leaseToken, microsoftTenantId, text, now, defaults, hcall, htext, connection,
    active_kept ht hadv hmem (indexed_active hi), hi, hm⟩

theorem Tracks.advanced {leaseToken : Uuid} {job : Job} (h : Tracks calls jobId leaseToken job t)
    (hadv : Advanced calls i t u) (hu : Ordered calls db₀ u) :
    Tracks calls jobId leaseToken job u := by
  obtain ⟨current, hcurrent, htc, hcount⟩ := h.current
  obtain ⟨later, current', hlater, hcurrent', hfollows, hon⟩ := hu.follows hadv hcurrent
  refine ⟨⟨current', hcurrent', hfollows.tenantConnectionId.trans htc, fun htoken => ?_⟩, ?_⟩
  · have hundrawn : ¬ ∃ e ∈ later, (calls e.1).claimToken = some leaseToken := by
      rintro ⟨e, he, hdraw⟩
      have hnodup := hu.nodup jobId
      rw [hlater, List.map_append, List.nodup_append] at hnodup
      exact hnodup.2.2 _ (h.claimed e.1 hdraw (hon e he)) _ (List.mem_map_of_mem he) rfl
    obtain ⟨hold, hsame⟩ := hfollows.attempt htoken hundrawn
    exact hsame.trans (hcount hold)
  · intro k hk hkon
    rw [hlater, List.map_append]
    exact List.mem_append_left _ (h.claimed k hk hkon)

theorem Call.Inserts.drawsEvent {call : Call} {id : Uuid} (h : call.Inserts jobId id) :
    call.DrawsEvent id := by
  cases call with
  | recover now defaults => exact ⟨jobId, h⟩
  | apply => exact ⟨h.2.1, h.2.2⟩
  | start => exact absurd h not_false
  | claim => exact absurd h not_false
  | renew => exact absurd h not_false

/-- No call creates a job. -/
theorem Ordered.stored (h : Ordered calls db₀ t) {job : Job}
    (hjob : t.1.jobs.find jobId = some job) : db₀.jobs.find jobId ≠ none := by
  intro hnone
  have hrows : (t.1.rowsOf jobId).job = some job := hjob
  have hnone' : (db₀.rowsOf jobId).job = none := hnone
  rw [h.rows, replay_none hnone', hnone'] at hrows
  cases hrows

/-- The id that a call may give to an event is free until the call takes effect. -/
theorem Ordered.event_free (h : Ordered calls db₀ t) (hdrawn : DrawnApart calls db₀) {id : Uuid}
    {job : Job} (hjob : t.1.jobs.find jobId = some job) (hinserts : (calls i).Inserts jobId id)
    (hi : Unordered i jobId t.2) : t.1.outboxEvents.find id = none := by
  have hdraws : (calls i).Draws db₀ jobId id := ⟨h.stored hjob, hinserts⟩
  cases hfind : t.1.outboxEvents.find id with
  | none => rfl
  | some event =>
      have hid : event.id = id := Table.key_of_find hfind
      have hmem : event ∈ (t.1.rowsOf event.jobId).events :=
        mem_eventsOf.mpr ⟨Table.mem_of_find hfind, rfl⟩
      have hnotOld : event ∉ (db₀.rowsOf event.jobId).events := by
        intro hold
        have hstored := Table.find_of_mem (mem_eventsOf.mp hold).1
        rw [key_outboxEvent, hid, hdrawn.newEvents i jobId id hdraws] at hstored
        cases hstored
      rw [h.rows] at hmem
      have hstored : db₀.jobs.find event.jobId ≠ none := by
        intro hnone
        rw [replay_none hnone] at hmem
        exact hnotOld hmem
      obtain ⟨e, he, hinserts'⟩ := (replay_events (h.on event.jobId) hmem).resolve_left hnotOld
      rw [hid] at hinserts'
      obtain ⟨hei, hsame⟩ := hdrawn.events e.1 i _ _ id ⟨hstored, hinserts'⟩ hdraws
      refine absurd ?_ hi
      rw [← hsame, ← hei]
      exact List.mem_map_of_mem he

/-! ## Taking effect -/

/-- A command of call `i` on a connection in state `s` lets the call take effect on the jobs `on`. -/
structure Takes (calls : ι → Call) (i : ι) (s : Session Write Lock) (t : Store × Orders ι)
    (c : Command Statement) (on : Uuid → Prop) (rejected : Bool) : Prop where
  consistent : Consistent (postgres.perform c t.1 s).2.1
  oneActive : OneActive (postgres.perform c t.1 s).2.1
  unordered : ∀ jobId, on jobId → Unordered i jobId t.2 ∧ (calls i).On jobId
  effect : ∀ jobId, on jobId → (postgres.perform c t.1 s).2.1.rowsOf jobId =
    (callEffect calls jobId (i, rejected) (t.1.rowsOf jobId)).2
  others : ∀ jobId, ¬ on jobId →
    (postgres.perform c t.1 s).2.1.rowsOf jobId = t.1.rowsOf jobId

/-- A command that commits nothing, with which the call takes effect on jobs that it does not
change. -/
theorem Takes.unchanged {s : Session Write Lock} {c : Command Statement} {on : Uuid → Prop}
    {rejected : Bool} (ht : Ordered calls db₀ t) (hread : (postgres.perform c t.1 s).2.1 = t.1)
    (hon : ∀ jobId, on jobId → Unordered i jobId t.2 ∧ (calls i).On jobId ∧
      (callEffect calls jobId (i, rejected) (t.1.rowsOf jobId)).2 = t.1.rowsOf jobId) :
    Takes calls i s t c on rejected where
  consistent := hread.symm ▸ ht.consistent
  oneActive := hread.symm ▸ ht.oneActive
  unordered jobId ho := ⟨(hon jobId ho).1, (hon jobId ho).2.1⟩
  effect jobId ho := by rw [hread, (hon jobId ho).2.2]
  others _ _ := by rw [hread]

/-- What the log says so far: whether the index rejected the call, and the attempts of which a row
that it rewrites can still be. -/
structure Heard (rejected : Bool) (attempts : Set Nat)
    (log : List (Answer Statement Statement.Reply JsError)) : Prop where
  rejected_eq : log.any rejection = rejected
  reads : ∀ a ∈ log, ∀ n, readAttempt a = some n → attempts ⊆ {n}

/-- What an answer adds.  A rejection comes before the call has taken effect, and an update is of
the attempt that was read. -/
structure Logs (calls : ι → Call) (i : ι) (t : Store × Orders ι) (rejected : Bool)
    (attempts : Set Nat) (answers : List (Answer Statement Statement.Reply JsError)) (rejected' : Bool)
    (attempts' : Set Nat) : Prop where
  rejected_eq : rejected' = (rejected || answers.any rejection)
  early : answers.any rejection = true → ∀ jobId, Unordered i jobId t.2
  taken : answers.any rejection = true → (calls i).Taken t.1
  subset : attempts' ⊆ attempts
  reads : ∀ a ∈ answers, ∀ n, readAttempt a = some n → attempts' ⊆ {n}
  updates : ∀ a ∈ answers, ∀ n, updatedAttempt a = some n → n ∈ attempts

theorem Logs.heard {rejected rejected' : Bool} {attempts attempts' : Set Nat}
    {log answers : List (Answer Statement Statement.Reply JsError)}
    (h : Logs calls i t rejected attempts answers rejected' attempts')
    (hlog : Heard rejected attempts log) : Heard rejected' attempts' (log ++ answers) where
  rejected_eq := by rw [List.any_append, hlog.rejected_eq, h.rejected_eq]
  reads a ha n hn := by
    rcases List.mem_append.mp ha with ha | ha
    · exact h.subset.trans (hlog.reads a ha n hn)
    · exact h.reads a ha n hn

theorem Logs.nil (rejected : Bool) (attempts : Set Nat) :
    Logs calls i t rejected attempts [] rejected attempts where
  rejected_eq := (Bool.or_false _).symm
  early h := by cases h
  taken h := by cases h
  subset := subset_rfl
  reads _ h := absurd h List.not_mem_nil
  updates _ h := absurd h List.not_mem_nil

theorem Linearized.advance [DecidableEq ι] {σ : Database ι} {g : Orders ι}
    {c : Command Statement} {on : Uuid → Prop} {rejected rejected' : Bool}
    {attempts attempts' : Set Nat} (h : Linearized calls db₀ σ g)
    (htakes : Takes calls i (σ.session i) (σ.db, g) c on rejected')
    (hheard : Heard rejected attempts (σ.log i))
    (hlogs : Logs calls i (σ.db, g) rejected attempts
      (c.answer (postgres.perform c σ.db (σ.session i)).1)
      rejected' attempts') :
    Linearized calls db₀ (postgres.advance σ i c) (record g on (i, rejected')) where
  consistent := htakes.consistent
  oneActive := htakes.oneActive
  rows jobId := by
    change (postgres.perform c σ.db (σ.session i)).2.1.rowsOf jobId =
      replay (callEffect calls jobId) (record g on (i, rejected') jobId) (db₀.rowsOf jobId)
    by_cases ho : on jobId
    · rw [htakes.effect jobId ho, record_of ho, replay_concat, ← h.rows jobId]
    · rw [htakes.others jobId ho, record_of_not ho, ← h.rows jobId]
  nodup jobId := by
    change ((record g on (i, rejected') jobId).map Prod.fst).Nodup
    by_cases ho : on jobId
    · rw [record_of ho, List.map_append, List.nodup_append]
      refine ⟨h.nodup jobId, List.nodup_singleton _, fun a ha b hb hab => ?_⟩
      have hai : a = i := hab.trans (List.mem_singleton.mp hb)
      exact (htakes.unordered jobId ho).1 (hai ▸ ha)
    · rw [record_of_not ho]
      exact h.nodup jobId
  on jobId e he := by
    rcases mem_record.mp he with he | ⟨ho, rfl⟩
    · exact h.on jobId e he
    · exact (htakes.unordered jobId ho).2
  rejected jobId e he := by
    have hlog := hlogs.heard hheard
    rcases mem_record.mp he with hold | ⟨-, rfl⟩
    · by_cases hei : e.1 = i
      -- a call is rejected before it is in an order, never after
      · have hfalse : (c.answer (postgres.perform c σ.db (σ.session i)).1).any rejection = false := by
          rw [← Bool.not_eq_true]
          intro htrue
          exact hlogs.early htrue jobId (hei ▸ List.mem_map_of_mem hold)
        rw [h.rejected jobId e hold, hei, postgres.advance_log, List.any_append, hfalse,
          Bool.or_false]
      · rw [postgres.advance_log_ne σ i c hei]
        exact h.rejected jobId e hold
    · rw [postgres.advance_log, hlog.rejected_eq]
  attempts j := by
    by_cases hj : j = i
    · subst hj
      rw [postgres.advance_log, List.pairwise_append]
      refine ⟨h.attempts j, ?_, fun a ha b hb m n hm hn => ?_⟩
      · cases c with
        | statement op => exact List.pairwise_singleton _ _
        | begin => exact .nil
        | commit => exact .nil
        | rollback => exact .nil
      -- the attempt that an update sets is one that the call has read
      · exact (hheard.reads a ha m hm (hlogs.updates b hb n hn)).symm
    · rw [postgres.advance_log_ne σ i c hj]
      exact h.attempts j
  taken j hj := by
    have hadv : Advances (fun jobId (db : Store) => db.rowsOf jobId) (callEffect calls)
        (fun e => e.1 = i) (σ.db, g) ((postgres.advance σ i c).db, record g on (i, rejected')) :=
      .record rfl htakes.effect htakes.others
    by_cases hji : j = i
    · subst hji
      rw [postgres.advance_log, List.any_append, Bool.or_eq_true] at hj
      rcases hj with hj | hj
      · exact (h.taken j hj).kept h.consistent hadv
      · exact (hlogs.taken hj).kept h.consistent hadv
    · rw [postgres.advance_log_ne σ i c hji] at hj
      exact (h.taken j hj).kept h.consistent hadv

/-- What takes effect elsewhere does not matter to the job. -/
theorem TookEffect.elsewhere {op : ι × Bool} {r : Except JsError Report}
    (h : TookEffect calls db₀ jobId op r t) (db : Store) (on : Uuid → Prop) (op' : ι × Bool)
    (hnot : ¬ on jobId) : TookEffect calls db₀ jobId op r (db, record t.2 on op') := by
  unfold TookEffect
  dsimp only
  rw [record_of_not hnot]
  exact h

theorem Unordered.elsewhere {g : Orders ι} (h : Unordered i jobId g) (on : Uuid → Prop)
    (op : ι × Bool) (hnot : ¬ on jobId) : Unordered i jobId (record g on op) := by
  unfold Unordered
  rw [record_of_not hnot]
  exact h

/-- The answer of a call that takes effect. -/
theorem Ordered.takes {x : Store × Orders ι} (hx : Ordered calls db₀ x) (db : Store)
    (on : Uuid → Prop) (op : ι × Bool) (ho : on jobId) {r : Except JsError Report}
    (hr : (callEffect calls jobId op (x.1.rowsOf jobId)).1 = r) :
    TookEffect calls db₀ jobId op r (db, record x.2 on op) := by
  unfold TookEffect
  dsimp only
  rw [record_of ho, ← hr, hx.rows]
  exact .concat _ op

end

end InboxSaas.Product
