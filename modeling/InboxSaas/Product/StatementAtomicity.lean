import Mathlib.Data.Set.Finite.Basic
import Mathlib.Tactic.FinCases
import InboxSaas.Product.ApplyOutline
import InboxSaas.Product.Interleavings

/-!
# Statement-level atomicity

Claims, renewals, recoveries and results are interleaved statement by statement.  For every job what
is committed, and what the callers are answered, is what the calls on it would do one after another.
-/

namespace InboxSaas.Product

open Reasoning

/-- The call throws before it sends a command. -/
def Call.Refused : Call → Prop
  | .claim _ _ leaseDurationMs _ => leaseDurationMs ≤ 0
  | .renew _ _ _ leaseDurationMs => leaseDurationMs ≤ 0
  | _ => False

theorem Call.Refused.session {call : Call} (h : call.Refused) :
    call.session = .raise invalidLeaseDuration := by
  cases call with
  | claim jobId now leaseDurationMs leaseToken =>
      have hprogram : claimTenantValidationJob jobId now leaseDurationMs leaseToken =
          .raise invalidLeaseDuration := if_pos h
      unfold Call.session Call.program
      dsimp only
      rw [hprogram]
      rfl
  | renew jobId leaseToken now leaseDurationMs =>
      have hprogram : renewTenantValidationJobLease jobId leaseToken now leaseDurationMs =
          .raise invalidLeaseDuration := if_pos h
      unfold Call.session Call.program
      dsimp only
      rw [hprogram]
      rfl
  | start => exact absurd h not_false
  | recover => exact absurd h not_false
  | apply => exact absurd h not_false

theorem Call.Refused.effect {call : Call} (h : call.Refused) (jobId : Uuid) (rejected : Bool)
    (rows : JobRows) : call.effect jobId rejected rows = (.error invalidLeaseDuration, rows) := by
  cases call with
  | claim => exact if_pos h
  | renew => exact if_pos h
  | start => exact absurd h not_false
  | recover => exact absurd h not_false
  | apply => exact absurd h not_false

section

variable {ι : Type} (calls : ι → Call) (db₀ : Store)

/-- The job is as if the calls of `order` had run alone one after another, and so are the answers.
Next to each call stands whether the index on the Microsoft tenant rejected an update of it. -/
structure SerializedBy (w : Clients ι) (jobId : Uuid) (order : List (ι × Bool)) : Prop where
  once : (order.map Prod.fst).Nodup
  on : ∀ e ∈ order, (calls e.1).On jobId
  rejected : ∀ e ∈ order, e.2 = (w.shared.log e.1).any rejection
  rows : w.shared.db.rowsOf jobId = (replay (callRun calls) order db₀).rowsOf jobId
  answered {i : ι} {o : Except JsError (Σ call : Call, call.Result)} (hon : (calls i).On jobId)
    (ho : (w.prog i).outcome = some o) :
    Answers (callRun calls) db₀ order (i, (w.shared.log i).any rejection)
      (o.map fun result => result.1.report result.2)

/-- A client that returned has its report in the orders. -/
def OrderEnded (i : ι) (result : Σ call : Call, call.Result) (t : Database ι × Orders ι) : Prop :=
  ∃ a, result = ⟨calls i, a⟩ ∧ Reported calls db₀ i (.ok ((calls i).report a)) t

/-- A client that threw did nothing before, or has its error in the orders. -/
def OrderThrew (i : ι) (e : JsError) (t : Database ι × Orders ι) : Prop :=
  (e = invalidLeaseDuration ∧ (calls i).Refused ∧ t.1.log i = [] ∧
      ∀ jobId, Unordered i jobId t.2) ∨
    ¬ (calls i).Refused ∧ Reported calls db₀ i (.error e) t

variable {calls} {db₀} {i : ι}

variable [DecidableEq ι]

/-- The outline of every call that is not refused. -/
theorem outline_call {t : Database ι × Orders ι} (hdrawn : DrawnApart calls db₀)
    (hstart : (calls i).isStart = false) (hrefused : ¬ (calls i).Refused)
    (ht : Knows i .idle false Set.univ (fun t => ∀ jobId, Unordered i jobId t.2) t) :
    (orderContract calls db₀).Outline postgres.readCommitted i
      (fun a => Reported calls db₀ i (.ok ((calls i).report a)))
      (fun e => Reported calls db₀ i (.error e)) (calls i).program t := by
  have hnever : ∀ (e : JsError) (u : Database ι × Orders ι), (orderContract calls db₀).inv u →
      False → Reported calls db₀ i (.error e) u := fun _ _ _ h => absurd h not_false
  have hone : ∀ jobId, Knows i .idle false Set.univ (fun t => Unordered i jobId t.2) t :=
    fun jobId => ht.know (ht.known jobId)
  cases hcall : calls i with
  | start =>
      rw [hcall] at hstart
      cases hstart
  | claim jobId now leaseDurationMs leaseToken =>
      rw [hcall] at hrefused
      exact (outline_claim hcall (Int.not_le.mp hrefused) (hone jobId)).conseq (fun _ _ _ h => h)
        hnever
  | renew jobId leaseToken now leaseDurationMs =>
      rw [hcall] at hrefused
      exact (outline_renew hcall (Int.not_le.mp hrefused) (hone jobId)).conseq (fun _ _ _ h => h)
        hnever
  | recover now defaults =>
      exact (outline_recover hcall hdrawn ht).conseq (fun _ _ _ h => h) hnever
  | apply jobId leaseToken result now defaults => exact outline_apply hcall hdrawn (hone jobId)

/-- The contract holds, with empty orders, before any client has sent a command. -/
theorem orderContract_connect (hdb : Reachable db₀) (hdrawn : DrawnApart calls db₀)
    (hstart : ∀ i, (calls i).isStart = false) :
    (orderContract calls db₀).inv ((connect calls db₀).shared, fun _ => []) ∧
      ∀ i, (orderContract calls db₀).Outline postgres.readCommitted i (OrderEnded calls db₀ i)
        (OrderThrew calls db₀ i) ((connect calls db₀).prog i)
        ((connect calls db₀).shared, fun _ => []) := by
  refine ⟨⟨Locked.initial, Linearized.initial hdb⟩, fun i => ?_⟩
  have hnew : ∀ jobId, Unordered i jobId (fun _ => [] : Orders ι) := fun _ => List.not_mem_nil
  by_cases hrefused : (calls i).Refused
  · change Contract.Outline _ _ _ _ _ (calls i).session _
    rw [hrefused.session]
    intro u hr hu
    exact .inl ⟨rfl, hrefused, hr.2.1, fun jobId => (hnew jobId).advanced hr.2.2.2⟩
  · apply Contract.Outline.bind (orderContract_sound calls db₀)
    have ht : Knows i .idle false Set.univ (fun t => ∀ jobId, Unordered i jobId t.2)
        ((Server.initial db₀ : Database ι), fun _ => []) :=
      ⟨rfl, ⟨rfl, fun _ ha => absurd ha List.not_mem_nil⟩, hnew⟩
    apply (outline_call hdrawn (hstart i) hrefused ht).conseq
    · exact fun a u _ ha v hr _ => ⟨a, rfl, ha.rely hr⟩
    · exact fun e u _ he => .inr ⟨hrefused, he⟩

variable (calls) (db₀) in
/-- Orders that fit the world, with the outlines of what the clients still have to do. -/
structure Outlined (w : Clients ι) (g : Orders ι) : Prop where
  inv : (orderContract calls db₀).inv (w.shared, g)
  outline : ∀ i, (orderContract calls db₀).Outline postgres.readCommitted i
    (OrderEnded calls db₀ i) (OrderThrew calls db₀ i) (w.prog i) (w.shared, g)

theorem Outlined.ended {w : Clients ι} {g : Orders ι} (h : Outlined calls db₀ w g)
    {result : Σ call : Call, call.Result} (hprog : w.prog i = .ret result) :
    OrderEnded calls db₀ i result (w.shared, g) := by
  have hout := h.outline i
  rw [hprog] at hout
  exact hout _ ((orderContract_sound calls db₀).rely_refl i _) h.inv

theorem Outlined.threw {w : Clients ι} {g : Orders ι} (h : Outlined calls db₀ w g) {e : JsError}
    (hprog : w.prog i = .raise e) : OrderThrew calls db₀ i e (w.shared, g) := by
  have hout := h.outline i
  rw [hprog] at hout
  exact hout _ ((orderContract_sound calls db₀).rely_refl i _) h.inv

/-- From world to world the orders grow, and the jobs follow them. -/
theorem Outlined.reaches {v w : Clients ι} {g : Orders ι} (hg : Outlined calls db₀ v g)
    (h : Pool.Reaches postgres.readCommitted v w) :
    ∃ g', Outlined calls db₀ w g' ∧
      Advances (fun jobId (db : Store) => db.rowsOf jobId) (callEffect calls) (fun _ => True)
        (v.shared.db, g) (w.shared.db, g') := by
  have hsound := orderContract_sound calls db₀
  refine h.invariant (P := fun w => ∃ g', Outlined calls db₀ w g' ∧
    Advances (fun jobId (db : Store) => db.rowsOf jobId) (callEffect calls) (fun _ => True)
      (v.shared.db, g) (w.shared.db, g')) ⟨g, hg, .refl _ _⟩ ?_
  rintro u l u' ⟨g', hg', hadv⟩ hs
  obtain ⟨i, rfl⟩ := readCommitted_run hs
  obtain ⟨g'', hguar, hinv, hout⟩ := Contract.outlines_run hsound hg'.inv hg'.outline hs
  exact ⟨g'', ⟨hinv, hout⟩, hadv.trans (hguar.2.mono fun _ _ => trivial)⟩

variable (calls) (db₀) in
/-- The orders of a world; a call that was refused is over from the start. -/
structure OrdersIn (w : Clients ι) (g : Orders ι) : Prop extends Outlined calls db₀ w g where
  refused : ∀ i, (calls i).Refused → w.prog i = .raise invalidLeaseDuration

theorem OrdersIn.reaches {v w : Clients ι} {g : Orders ι} (hg : OrdersIn calls db₀ v g)
    (h : Pool.Reaches postgres.readCommitted v w) :
    ∃ g', OrdersIn calls db₀ w g' ∧
      Advances (fun jobId (db : Store) => db.rowsOf jobId) (callEffect calls) (fun _ => True)
        (v.shared.db, g) (w.shared.db, g') := by
  obtain ⟨g', hg', hadv⟩ := hg.toOutlined.reaches h
  refine ⟨g', ⟨hg', fun i hrefused => ?_⟩, hadv⟩
  have hover : v.prog i = .ofExcept (.error invalidLeaseDuration) := hg.refused i hrefused
  exact h.over hover

theorem Interleaves.orders (hdb : Reachable db₀) (hdrawn : DrawnApart calls db₀)
    (hstart : ∀ i, (calls i).isStart = false) {w : Clients ι} (h : Interleaves calls db₀ w) :
    ∃ g, OrdersIn calls db₀ w g := by
  obtain ⟨g, hinv, hout⟩ := Contract.reaches (orderContract_sound calls db₀)
    ⟨_, orderContract_connect hdb hdrawn hstart⟩ h
  refine ⟨g, ⟨hinv, hout⟩, fun i hrefused => ?_⟩
  have hover : (connect calls db₀).prog i = .ofExcept (.error invalidLeaseDuration) :=
    hrefused.session
  exact Pool.Reaches.over h hover

omit [DecidableEq ι] in
/-- The calls of an order can be run on the store the clients found. -/
theorem Remaining.initial (hdb : Consistent db₀) (hdrawn : DrawnApart calls db₀) {jobId : Uuid}
    {order : List (ι × Bool)} (honce : (order.map Prod.fst).Nodup)
    (hon : ∀ e ∈ order, (calls e.1).On jobId) :
    Remaining calls db₀ jobId order (db₀.rowsOf jobId) db₀ :=
  ⟨hdb, rfl, honce, hon, fun _ hnone => hnone, fun e _ => hdrawn.newEvents e.1⟩

/-- A call that was refused did nothing. -/
theorem OrdersIn.quiet {w : Clients ι} {g : Orders ι} (h : OrdersIn calls db₀ w g)
    (hi : (calls i).Refused) : w.shared.log i = [] ∧ ∀ jobId, Unordered i jobId g := by
  rcases h.threw (h.refused i hi) with ⟨-, -, hquiet⟩ | ⟨hnot, -⟩
  · exact hquiet
  · exact absurd hi hnot

/-- The calls on a job that were refused can be put at the end of its order. -/
theorem OrdersIn.serializedBy {w : Clients ι} {g : Orders ι} (h : OrdersIn calls db₀ w g)
    (hdb : Consistent db₀) (hdrawn : DrawnApart calls db₀) {jobId : Uuid} {refused : List ι}
    (hnodup : refused.Nodup)
    (hrefused : ∀ i, i ∈ refused ↔ (calls i).Refused ∧ (calls i).On jobId) :
    SerializedBy calls db₀ w jobId (g jobId ++ refused.map fun i => (i, false)) := by
  have hquiet : ∀ {i}, i ∈ refused → w.shared.log i = [] ∧ ∀ jobId, Unordered i jobId g :=
    fun hi => h.quiet ((hrefused _).mp hi).1
  -- a refused call changes nothing, so it may stand anywhere
  have hsame : ∀ e ∈ refused.map fun i => (i, false), ∀ rows,
      (callEffect calls jobId e rows).2 = rows := by
    intro e he rows
    obtain ⟨i, hi, rfl⟩ := List.mem_map.mp he
    exact congrArg Prod.snd (((hrefused i).mp hi).1.effect jobId false rows)
  have hon : ∀ e ∈ g jobId ++ refused.map fun i => (i, false), (calls e.1).On jobId := by
    intro e he
    rcases List.mem_append.mp he with he | he
    · exact h.inv.2.on jobId e he
    · obtain ⟨i, hi, rfl⟩ := List.mem_map.mp he
      exact ((hrefused i).mp hi).2
  have honce : ((g jobId ++ refused.map fun i => (i, false)).map Prod.fst).Nodup := by
    rw [List.map_append, List.map_map, List.nodup_append]
    refine ⟨h.inv.2.nodup jobId, (List.map_id refused).symm ▸ hnodup, fun a ha b hb hab => ?_⟩
    obtain ⟨i, hi, rfl⟩ := List.mem_map.mp hb
    have hai : a = i := hab
    exact (hquiet hi).2 jobId (hai ▸ ha)
  have hremaining := Remaining.initial hdb hdrawn honce hon
  have hsimulates := callRun_simulates calls hdrawn.events jobId
  refine ⟨honce, hon, fun e he => ?_, ?_, fun {i o} honJob ho => ?_⟩
  · rcases List.mem_append.mp he with he | he
    · exact h.inv.2.rejected jobId e he
    · obtain ⟨i, hi, rfl⟩ := List.mem_map.mp he
      rw [(hquiet hi).1]
      rfl
  · have hrows := (hsimulates.replay (g jobId ++ refused.map fun i => (i, false)) []
      (by rw [List.append_nil]; exact hremaining)).rows
    rw [hrows, replay_append, ← h.inv.2.rows, replay_unchanged fun e he => hsame e he _]
  · apply hsimulates.answers hremaining
    cases hprog : w.prog i with
    | call c next =>
        rw [hprog] at ho
        cases ho
    | ret result =>
        rw [hprog] at ho
        cases ho
        obtain ⟨a, rfl, hreported⟩ := h.ended hprog
        exact (hreported.tookEffect jobId honJob).append _
    | raise e =>
        rw [hprog] at ho
        cases ho
        rcases h.threw hprog with ⟨rfl, hi, hlog, -⟩ | ⟨-, hreported⟩
        · have hmem : i ∈ refused := (hrefused i).mpr ⟨hi, honJob⟩
          rw [hlog]
          refine .of_mem (List.mem_append_right _ (List.mem_map_of_mem hmem)) fun rows => ?_
          exact congrArg Prod.fst (hi.effect jobId false rows)
        · exact (hreported.tookEffect jobId honJob).append _

/-- Every job has an order in which the calls on it act one after another. -/
theorem Interleaves.serialized [Finite ι] (hdb : Reachable db₀)
    (hstart : ∀ i, (calls i).isStart = false) (hdrawn : DrawnApart calls db₀) {w : Clients ι}
    (h : Interleaves calls db₀ w) (jobId : Uuid) :
    ∃ order, SerializedBy calls db₀ w jobId order := by
  obtain ⟨g, hg⟩ := h.orders hdb hdrawn hstart
  have hfinite := Set.toFinite {i | (calls i).Refused ∧ (calls i).On jobId}
  refine ⟨_, hg.serializedBy hdb.consistent hdrawn hfinite.toFinset.nodup_toList fun i => ?_⟩
  rw [Finset.mem_toList, Set.Finite.mem_toFinset]
  rfl

/-- Whatever is interleaved, the calls on a job act one after another. -/
theorem statement_atomicity [Finite ι] (hdb : Reachable db₀)
    (hstart : ∀ i, (calls i).isStart = false) (hdrawn : DrawnApart calls db₀) {w : Clients ι}
    (h : Interleaves calls db₀ w) : (∀ jobId, ∃ order, SerializedBy calls db₀ w jobId order) ∧
      ∀ i, (w.shared.log i).Pairwise SameAttempt := by
  obtain ⟨g, hg⟩ := h.orders hdb hdrawn hstart
  exact ⟨h.serialized hdb hstart hdrawn, hg.inv.2.attempts⟩

end

namespace Sample

/-- The job under its first lease. -/
def leased : Store := runAll started [.claim 11 5 60000 20]

/-- A result, a renewal and a recovery at the end of the lease, and the claim of the retry. -/
def contenders : Fin 4 → Call
  | 0 => .apply 11 20 (.failure .invalidCredentials true) 50000 ⟨50, 50000⟩
  | 1 => .renew 11 20 50000 60000
  | 2 => .recover 60010 fun _ => ⟨51, 60010⟩
  | 3 => .claim 11 120000 60000 30

/-- The lease is renewed after the result and the recovery have read the job, and the claim waits
for the result to commit. -/
def contention : Clients (Fin 4) :=
  interleave contenders leased ([0, 0, 2, 2, 1, 2, 2, 0, 0, 0, 0, 3, 0, 3, 3] : List (Fin 4))

/-- The result has read the job under its lease when the job is recovered and claimed again; the
renewal has sent nothing yet. -/
def overtaken : Clients (Fin 4) :=
  interleave contenders leased ([0, 0, 2, 2, 2, 2, 2, 3, 3, 3] : List (Fin 4))

/-- Then the result and the renewal go on. -/
def late : Clients (Fin 4) :=
  postgres.schedule.play overtaken (([0, 0, 0, 1, 1] : List (Fin 4)).map fun i => .run i ())

/-- What the client was answered. -/
def answer (w : Clients (Fin 4)) (i : Fin 4) : Option Report :=
  match w.prog i with
  | .ret ⟨call, a⟩ => some (call.report a)
  | _ => none

theorem leased_jobs {jobId : Uuid} (h : leased.jobs.find jobId ≠ none) : jobId = 11 := by
  have hkeys : leased.jobs.rows.map Keyed.key = [(11 : Uuid)] := by decide +kernel
  have hmem : jobId ∈ leased.jobs.rows.map Keyed.key :=
    Table.mem_keys.mpr (Option.isSome_iff_ne_none.mpr h)
  rw [hkeys] at hmem
  exact List.mem_singleton.mp hmem

theorem contenders_draw {i : Fin 4} {jobId id : Uuid} (h : (contenders i).Draws leased jobId id) :
    jobId = 11 ∧ (i = 0 ∧ id = 50 ∨ i = 2 ∧ id = 51) := by
  refine ⟨leased_jobs h.1, ?_⟩
  have hinserts := h.2
  fin_cases i
  · exact .inl ⟨rfl, hinserts.2.2.symm⟩
  · exact absurd hinserts not_false
  · exact .inr ⟨rfl, Eq.symm hinserts⟩
  · exact absurd hinserts not_false

theorem contenders_claim {i : Fin 4} {leaseToken : Uuid}
    (h : (contenders i).claimToken = some leaseToken) : i = 3 ∧ leaseToken = 30 := by
  fin_cases i
  · cases h
  · cases h
  · cases h
  · exact ⟨rfl, (Option.some.inj h).symm⟩

theorem contenders_apart : DrawnApart contenders leased where
  tokens i j t hi hj := (contenders_claim hi).1.trans (contenders_claim hj).1.symm
  newTokens i t hi job hjob := by
    have hnew : ∀ job ∈ leased.jobs.rows, job.leaseToken ≠ some (30 : Uuid) := by decide +kernel
    rw [(contenders_claim hi).2]
    exact hnew job hjob
  events i j a b id hi hj := by
    obtain ⟨rfl, ⟨rfl, rfl⟩ | ⟨rfl, rfl⟩⟩ := contenders_draw hi <;>
      obtain ⟨rfl, ⟨rfl, he⟩ | ⟨rfl, he⟩⟩ := contenders_draw hj <;>
      first | exact ⟨rfl, rfl⟩ | exact absurd he (by decide)
  newEvents i jobId id h := by
    obtain ⟨-, ⟨-, rfl⟩ | ⟨-, rfl⟩⟩ := contenders_draw h
    · decide +kernel
    · decide +kernel

end Sample

/-- The result takes effect after the renewal, the recovery recovers nothing, and the retry is the
second attempt. -/
theorem statement_atomicity_contended :
    ((∀ jobId, ∃ order, SerializedBy Sample.contenders Sample.leased Sample.contention jobId order) ∧
      ∀ i, (Sample.contention.shared.log i).Pairwise SameAttempt) ∧
    (Sample.contention.shared.db.jobs.find 11).map Job.attemptCount = some 2 ∧
    Sample.answer Sample.contention 1 = some (.renewed true) ∧
    Sample.answer Sample.contention 2 = some .done := by
  refine ⟨statement_atomicity ((Reachable.empty Sample.workspaces).runAll _ |>.runAll _) (by decide)
    Sample.contenders_apart (interleaves_interleave _ _ _), ?_, ?_, ?_⟩
  · decide +kernel
  · decide +kernel
  · decide +kernel

end InboxSaas.Product
