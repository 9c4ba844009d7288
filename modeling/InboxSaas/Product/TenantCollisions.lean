import Mathlib.SetTheory.Cardinal.Finite
import InboxSaas.Reasoning.Progress
import InboxSaas.Product.StatementAtomicity

/-!
# Microsoft tenant collisions

Successes for any jobs and Microsoft tenants are applied at once, each under a lease that lasts until
it is settled.  A call whose tenant id holds U+0000 throws and changes nothing.  By the others every
job is settled once: it is completed, or the index on active connections has rejected its tenant and
it failed.  The calls ask for the locks of a job before those of an index entry, so they all come to
their end.
-/

namespace InboxSaas.Product

open Reasoning

/-- A success that is applied. -/
structure Success where
  jobId : Uuid
  leaseToken : Uuid
  microsoftTenantId : JsString
  now : Time
  defaults : OutboxDefaults

namespace Success

variable (success : Success)

def call : Call :=
  .apply success.jobId success.leaseToken (.success success.microsoftTenantId) success.now
    success.defaults

/-- The tenant id can be stored. -/
def Storable : Prop :=
  0 ∉ success.microsoftTenantId

instance : Decidable success.Storable :=
  inferInstanceAs (Decidable (¬ _))

/-- What is stored of the tenant id. -/
def text : JsString :=
  Encoding.toWellFormed success.microsoftTenantId

/-- What becomes of the job; `rejected` says whether the index rejected the tenant. -/
def jobAfter (rejected : Bool) (job : Job) : Job :=
  if rejected then job.fail .tenantAlreadyConnected false success.now else job.complete success.now

def connectionAfter (rejected : Bool) (connection : TenantConnection) : TenantConnection :=
  if rejected then connection.reject else connection.activate success.text

/-- The success won: its job is completed and its connection is active. -/
structure Won (db : Store) (job : Job) (connection : TenantConnection) : Prop where
  stored : db.jobs.find success.jobId = some job
  connected : db.tenantConnections.find job.tenantConnectionId = some connection
  completed : job.state = .completed
  active : connection.state = .active
  microsoftTenantId : connection.microsoftTenantId = some success.text

/-- The success lost to an active connection of its Microsoft tenant. -/
structure Lost (db : Store) (job : Job) (connection : TenantConnection) : Prop where
  stored : db.jobs.find success.jobId = some job
  connected : db.tenantConnections.find job.tenantConnectionId = some connection
  failed : job.state = .failed
  failureCode : job.failureCode = some .tenantAlreadyConnected
  retryable : job.retryable = some false
  validationFailed : connection.state = .validationFailed
  microsoftTenantId : connection.microsoftTenantId = none
  taken : ∃ other ∈ db.tenantConnections, other.state = .active ∧
    other.microsoftTenantId = some success.text

/-- How the success ended. -/
def Settled (rejected : Bool) (db : Store) (job : Job) (connection : TenantConnection) : Prop :=
  if rejected then success.Lost db job connection else success.Won db job connection

variable {success} {db₀ db : Store} {rejected : Bool} {row : Job}

theorem Storable.text (h : success.Storable) :
    storedText success.microsoftTenantId = .ok success.text :=
  storedText_of_not_mem h

/-- The effect on a job under the lease: the job and its connection are rewritten together. -/
theorem effect_leased (rejected : Bool) (hstorable : success.Storable) (hc : Consistent db₀)
    (hjob : db₀.jobs.find success.jobId = some row)
    (hvalid : leaseValid success.leaseToken success.now row = true) :
    ∃ connection, connection.microsoftTenantId = none ∧
      success.call.effect success.jobId rejected (db₀.rowsOf success.jobId) =
        (.ok (.applied (success.jobAfter rejected row)),
          ⟨some (success.jobAfter rejected row), some (success.connectionAfter rejected connection),
            db₀.eventsOf success.jobId⟩) := by
  obtain ⟨connection, hconnection, hagrees⟩ := hc.connection hjob
  have hrunning := leaseValid_running hvalid
  have hvalidating := hagrees.validating.mp (.inr hrunning)
  refine ⟨connection, ?_, ?_⟩
  · by_contra hsome
    have hactive := hagrees.tenant.mp hsome
    rw [hvalidating] at hactive
    cases hactive
  · have hrows : (db₀.rowsOf success.jobId).connection = some connection := by
      unfold Store.rowsOf
      rw [hjob]
      exact hconnection
    change applyEffect success.jobId success.leaseToken success.now rejected
      (.success success.microsoftTenantId) success.defaults _ = _
    rw [applyEffect_of_success hjob hvalid hstorable.text]
    cases rejected
    · unfold settle JobRows.updateConnection JobRows.putJob
      rw [if_neg (by decide), hrows]
      rfl
    · unfold settle JobRows.updateConnection JobRows.putJob
      rw [if_pos rfl, hrows]
      rfl

/-- The effect under the lease of a tenant id that cannot be stored. -/
theorem effect_refused (rejected : Bool) (hstorable : ¬ success.Storable) {rows : JobRows}
    (hjob : rows.job = some row) (hvalid : leaseValid success.leaseToken success.now row = true) :
    success.call.effect success.jobId rejected rows = (.error invalidByteSequence, rows) := by
  have hmem : 0 ∈ success.microsoftTenantId := not_not.mp hstorable
  change applyEffect success.jobId success.leaseToken success.now rejected
    (.success success.microsoftTenantId) success.defaults rows = _
  exact applyEffect_of_refused hjob hvalid (storedText_of_mem hmem)

/-- It leaves all rows as they are. -/
theorem effect_unstorable (rejected : Bool) (hstorable : ¬ success.Storable) (rows : JobRows) :
    (success.call.effect success.jobId rejected rows).2 = rows := by
  cases hjob : rows.job with
  | none => exact congrArg Prod.snd (applyEffect_of_none hjob)
  | some row =>
      cases hvalid : leaseValid success.leaseToken success.now row with
      | false => exact congrArg Prod.snd (applyEffect_of_stale hjob hvalid)
      | true => exact congrArg Prod.snd (effect_refused rejected hstorable hjob hvalid)

/-- What the rows say of a success that was stored. -/
theorem settled_of_rows {connection : TenantConnection} {events : List OutboxEvent}
    (hstorable : success.Storable)
    (hrows : db.rowsOf success.jobId = ⟨some (success.jobAfter rejected row),
      some (success.connectionAfter rejected connection), events⟩)
    (hnone : connection.microsoftTenantId = none)
    (htaken : rejected = true → success.call.Taken db) :
    success.Settled rejected db (success.jobAfter rejected row)
      (success.connectionAfter rejected connection) := by
  have hjob : db.jobs.find success.jobId = some (success.jobAfter rejected row) :=
    congrArg JobRows.job hrows
  have hconnection := congrArg JobRows.connection hrows
  unfold Store.rowsOf at hconnection
  dsimp only at hconnection
  rw [hjob, Option.bind_some] at hconnection
  cases rejected with
  | false => exact ⟨hjob, hconnection, rfl, rfl, rfl⟩
  | true =>
      obtain ⟨_, _, microsoftTenantId, text, _, _, hcall, htext, other, hother, hi, hm⟩ := htaken rfl
      cases hcall
      cases htext.symm.trans hstorable.text
      exact ⟨hjob, hconnection, rfl, rfl, rfl, rfl, hnone, other, hother, indexed_active hi, hm⟩

theorem Settled.stored {job : Job} {connection : TenantConnection}
    (h : success.Settled rejected db job connection) :
    db.jobs.find success.jobId = some job := by
  cases rejected with
  | false =>
      have hwon : success.Won db job connection := h
      exact hwon.stored
  | true =>
      have hlost : success.Lost db job connection := h
      exact hlost.stored

theorem Settled.over {job : Job} {connection : TenantConnection}
    (h : success.Settled rejected db job connection) : job.state ≠ .running := by
  cases rejected with
  | false =>
      have hwon : success.Won db job connection := h
      rw [hwon.completed]
      decide
  | true =>
      have hlost : success.Lost db job connection := h
      rw [hlost.failed]
      decide

end Success

/-! ## Interleaved successes -/

section

variable {ι : Type} [DecidableEq ι] (successes : ι → Success) (db₀ : Store)

/-- Each client applies a success. -/
abbrev applySuccesses : ι → Call := fun i => (successes i).call

/-- Every call that is not over has its lease. -/
def LeasesLast (w : Clients ι) : Prop :=
  ∀ i, (w.prog i).outcome = none → (w.shared.db.jobs.find (successes i).jobId).any
    (leaseValid (successes i).leaseToken (successes i).now) = true

instance [Fintype ι] (w : Clients ι) : Decidable (LeasesLast successes w) :=
  inferInstanceAs (Decidable (∀ _, _ → _))

/-- While the leases last no job is settled twice: of the calls in its order only the last one can
have changed it. -/
structure SettledOnce (w : Clients ι) (g : Orders ι) : Prop extends
    Outlined (applySuccesses successes) db₀ w g where
  once : ∀ jobId, ∀ e ∈ (g jobId).dropLast, ¬ (successes e.1).Storable

variable {successes} {db₀} {w : Clients ι} {g : Orders ι}

theorem SettledOnce.linearized (h : SettledOnce successes db₀ w g) :
    Linearized (applySuccesses successes) db₀ w.shared g :=
  h.inv.2

/-- A call that did not come last changed nothing. -/
theorem SettledOnce.unchanged (h : SettledOnce successes db₀ w g) {e : ι × Bool} {jobId : Uuid}
    (he : e ∈ (g jobId).dropLast) (rows : JobRows) :
    (callEffect (applySuccesses successes) jobId e rows).2 = rows := by
  have hjobId : (successes e.1).jobId = jobId :=
    h.linearized.on jobId e (List.mem_of_mem_dropLast he)
  have hstorable := h.once jobId e he
  subst hjobId
  exact Success.effect_unstorable e.2 hstorable rows

/-- A call with a tenant id that can be stored comes last. -/
theorem SettledOnce.last (h : SettledOnce successes db₀ w g) {e : ι × Bool} {jobId : Uuid}
    (he : e ∈ g jobId) (hstorable : (successes e.1).Storable) :
    g jobId = (g jobId).dropLast ++ [e] := by
  have hne : g jobId ≠ [] := List.ne_nil_of_mem he
  have hsplit := List.dropLast_append_getLast hne
  rw [← hsplit] at he
  rcases List.mem_append.mp he with hearlier | hlast
  · exact absurd hstorable (h.once jobId e hearlier)
  · rw [List.mem_singleton.mp hlast]
    exact hsplit.symm

/-- It has settled the job. -/
theorem SettledOnce.settled (h : SettledOnce successes db₀ w g) (hdb : Reachable db₀)
    (hleases : LeasesLast successes (connect (applySuccesses successes) db₀)) {e : ι × Bool}
    {jobId : Uuid} (he : e ∈ g jobId) (hstorable : (successes e.1).Storable) :
    (successes e.1).jobId = jobId ∧ w.shared.db.eventsOf jobId = db₀.eventsOf jobId ∧
      ∃ job connection, (successes e.1).Settled e.2 w.shared.db job connection ∧
        (callEffect (applySuccesses successes) jobId e (db₀.rowsOf jobId)).1 =
          .ok (.applied job) := by
  have hlinearized := h.linearized
  have hjobId : (successes e.1).jobId = jobId := hlinearized.on jobId e he
  subst hjobId
  obtain ⟨stored, hstored, hvalid⟩ := (Option.any_eq_true _ _).mp (hleases e.1 rfl)
  obtain ⟨connection, hnone, heffect⟩ :=
    Success.effect_leased e.2 hstorable hdb.consistent hstored hvalid
  have hrows : w.shared.db.rowsOf (successes e.1).jobId =
      ((successes e.1).call.effect (successes e.1).jobId e.2 (db₀.rowsOf (successes e.1).jobId)).2 := by
    apply (hlinearized.rows (successes e.1).jobId).trans
    dsimp only
    rw [h.last he hstorable, replay_concat, replay_unchanged fun _ he' => h.unchanged he' _]
    rfl
  rw [heffect] at hrows
  refine ⟨rfl, congrArg JobRows.events hrows, _, _,
    Success.settled_of_rows hstorable hrows hnone ?_, congrArg Prod.fst heffect⟩
  intro hrejected
  apply hlinearized.taken
  rw [← hlinearized.rejected _ e he, hrejected]

/-- A job that a call has under its lease is not settled. -/
theorem SettledOnce.unsettled (h : SettledOnce successes db₀ w g) (hdb : Reachable db₀)
    (hfirst : LeasesLast successes (connect (applySuccesses successes) db₀))
    (hleases : LeasesLast successes w) {i : ι} (hi : (w.prog i).outcome = none) :
    ∀ e ∈ g (successes i).jobId, ¬ (successes e.1).Storable := by
  obtain ⟨row, hrow, hvalid⟩ := (Option.any_eq_true _ _).mp (hleases i hi)
  intro e he hstorable
  obtain ⟨hjobId, -, job, connection, hsettled, -⟩ := h.settled hdb hfirst he hstorable
  have hstored := hsettled.stored
  rw [hjobId, hrow] at hstored
  cases hstored
  exact hsettled.over (leaseValid_running hvalid)

/-- A step of a call that has its lease settles no job that is settled already. -/
theorem SettledOnce.step (h : SettledOnce successes db₀ w g) (hdb : Reachable db₀)
    (hfirst : LeasesLast successes (connect (applySuccesses successes) db₀))
    (hleases : LeasesLast successes w) {l : Label ι} {v : Clients ι}
    (hs : Pool.Step postgres.readCommitted w l v) : ∃ g', SettledOnce successes db₀ v g' := by
  obtain ⟨i, rfl⟩ := readCommitted_run hs
  have hsound := orderContract_sound (applySuccesses successes) db₀
  obtain ⟨g', hguar, hinv, hout⟩ := Contract.outlines_run hsound h.inv h.outline hs
  refine ⟨g', ⟨hinv, hout⟩, fun jobId => ?_⟩
  obtain ⟨later, hlater, -, hwho⟩ := hguar.2 jobId
  have hg' : g' jobId = g jobId ++ later := hlater
  -- the call is in no order twice
  have hshort : later.length ≤ 1 := by
    have hnodup := hinv.2.nodup jobId
    dsimp only at hnodup
    rw [hg', List.map_append] at hnodup
    have hall : ∀ j ∈ later.map Prod.fst, j = i := by
      intro j hj
      obtain ⟨e, he, rfl⟩ := List.mem_map.mp hj
      exact hwho e he
    have honce := hnodup.of_append_right
    rwa [List.eq_replicate_of_mem hall, List.nodup_replicate, List.length_map] at honce
  cases later with
  | nil =>
      rw [hg', List.append_nil]
      exact h.once jobId
  | cons e rest =>
      have hrest : rest = [] :=
        List.length_eq_zero_iff.mp (Nat.le_zero.mp (Nat.le_of_succ_le_succ hshort))
      subst hrest
      have he : e ∈ g' jobId := hg' ▸ List.mem_append_right _ List.mem_cons_self
      have hjobId : (successes e.1).jobId = jobId := hinv.2.on jobId e he
      rw [hwho e List.mem_cons_self] at hjobId
      rw [hg', List.dropLast_concat]
      exact hjobId ▸ h.unsettled hdb hfirst hleases hs.waiting

/-- What the order of its job says of a call that is over. -/
theorem SettledOnce.reported (h : SettledOnce successes db₀ w g) (hdb : Reachable db₀)
    (hfirst : LeasesLast successes (connect (applySuccesses successes) db₀)) {i : ι}
    {report : Except JsError Report}
    (hreported : Reported (applySuccesses successes) db₀ i report (w.shared, g)) :
    if (successes i).Storable then
      ∃ job connection, report = .ok (.applied job) ∧
        (successes i).Settled ((w.shared.log i).any rejection) w.shared.db job connection
    else report = .error invalidByteSequence := by
  have htook := hreported.tookEffect (successes i).jobId rfl
  have hanswers : Answers (callEffect (applySuccesses successes) (successes i).jobId)
      (db₀.rowsOf (successes i).jobId) (g (successes i).jobId) (i, _) report := htook
  have halone := hanswers.alone fun _ he => h.unchanged he _
  split
  · rename_i hstorable
    obtain ⟨-, -, job, connection, hsettled, hanswer⟩ := h.settled hdb hfirst htook.mem hstorable
    exact ⟨job, connection, halone.symm.trans hanswer, hsettled⟩
  · rename_i hstorable
    obtain ⟨row, hrow, hvalid⟩ := (Option.any_eq_true _ _).mp (hfirst i rfl)
    have hjob : (db₀.rowsOf (successes i).jobId).job = some row := hrow
    have hrefused := Success.effect_refused ((w.shared.log i).any rejection) hstorable hjob hvalid
    exact halone.symm.trans (congrArg Prod.fst hrefused)

/-- The outcome of a call that is over. -/
theorem SettledOnce.returned (h : SettledOnce successes db₀ w g) (hdb : Reachable db₀)
    (hfirst : LeasesLast successes (connect (applySuccesses successes) db₀)) {i : ι}
    (hi : (w.prog i).outcome ≠ none) : (w.shared.session i).held = [] ∧
      if (successes i).Storable then
        ∃ dto job reused connection,
          w.prog i = .ret ⟨(successes i).call, .applied dto job reused⟩ ∧
          (successes i).Settled ((w.shared.log i).any rejection) w.shared.db job connection
      else w.prog i = .raise invalidByteSequence := by
  have hidle : ∀ {report}, Reported (applySuccesses successes) db₀ i report (w.shared, g) →
      (w.shared.session i).held = [] := by
    intro report hreported
    have hsession : w.shared.session i = .idle := hreported.session
    rw [hsession]
    rfl
  cases hprog : w.prog i with
  | call c next =>
      rw [hprog] at hi
      exact absurd rfl hi
  | raise e =>
      rcases h.threw hprog with ⟨-, hrefused, -⟩ | ⟨-, hreported⟩
      · exact absurd hrefused not_false
      · refine ⟨hidle hreported, ?_⟩
        have hreport := h.reported hdb hfirst hreported
        split at hreport
        · obtain ⟨_, _, hok, -⟩ := hreport
          cases hok
        · cases hreport
          rw [if_neg ‹_›]
  | ret result =>
      obtain ⟨a, rfl, hreported⟩ := h.ended hprog
      refine ⟨hidle hreported, ?_⟩
      have hreport := h.reported hdb hfirst hreported
      split at hreport
      · obtain ⟨job, connection, hok, hsettled⟩ := hreport
        rw [if_pos ‹_›]
        cases a with
        | notFound => cases hok
        | stale => cases hok
        | applied dto job' reused =>
            cases hok
            exact ⟨dto, _, reused, connection, rfl, hsettled⟩
      · cases hreport

/-! ### No call waits forever -/

section

variable {db : Store} {locks more : List Lock} {k : Lock} {a b : Success}

end

end

namespace Sample

/-- Two validations, each under its first lease. -/
def twoLeased : Store :=
  runAll started [
    .start [⟨2, .write, .organization⟩] { input with idempotencyKey := [108] } cipher
      ⟨[], 40, 41, 42, 43, 1⟩,
    .claim 11 5 60000 20, .claim 41 5 60000 21]

inductive Finder where
  | winner
  | loser
  | refused
deriving DecidableEq

instance : Fintype Finder where
  elems := {.winner, .loser, .refused}
  complete finder := by cases finder <;> decide

/-- The first two find ids that are stored alike, and the third one finds an id that cannot be
stored. -/
def finders : Finder → Success
  | .winner => ⟨11, 20, [0xD800], 10, ⟨50, 10⟩⟩
  | .loser => ⟨41, 21, [0xFFFD], 10, ⟨51, 10⟩⟩
  | .refused => ⟨41, 21, [0], 10, ⟨52, 10⟩⟩

def turns (finder : Finder) (count : Nat) : List (Pool.Turn Finder Unit Empty) :=
  .replicate count (.run finder ())

def refusedTurns : List (Pool.Turn Unit Unit Empty) :=
  .replicate 5 (.run () ())

/-- The third call alone. -/
def refused : Clients Unit :=
  postgres.schedule.play (connect (applySuccesses fun _ => finders .refused) twoLeased) refusedTurns

end Sample

end InboxSaas.Product
