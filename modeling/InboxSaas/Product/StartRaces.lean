import Mathlib.Data.Fintype.Basic
import Mathlib.Tactic.FinCases
import InboxSaas.Product.Interleavings

/-!
# Starts that race for one key

Any number of starts share an organization and an idempotency key, and are interleaved with each
other and with calls of every other kind.  One of them creates the job at most, the others leave the
store as it is, and all of them that accept name this one job.
-/

namespace InboxSaas.Product

open Reasoning

/-- The call is a start with this key, for a workspace of this organization if it finds one. -/
def Call.SharesKey (db : Store) (organizationId : Uuid) (key : JsString) : Call → Prop
  | .start _ input _ _ => input.idempotencyKey = key ∧
      ∀ workspace, (uuidIn input.workspaceId).bind db.workspaces.find = some workspace →
        workspace.organizationId = organizationId
  | _ => False

/-- A row with an id that the start generated is stored. -/
def StartDraws.Stored (draws : StartDraws) (db : Store) : Prop :=
  db.tenantConnections.find draws.tenantConnectionId ≠ none ∨ db.jobs.find draws.jobId ≠ none ∨
    db.idempotencyRecords.find draws.idempotencyRecordId ≠ none ∨
    db.outboxEvents.find draws.outboxEventId ≠ none

/-- All rows of the start are stored. -/
structure StartDraws.Complete (draws : StartDraws) (db : Store) : Prop where
  tenantConnection : db.tenantConnections.find draws.tenantConnectionId ≠ none
  job : db.jobs.find draws.jobId ≠ none
  idempotencyRecord : db.idempotencyRecords.find draws.idempotencyRecordId ≠ none
  outboxEvent : db.outboxEvents.find draws.outboxEventId ≠ none

section

variable {ι : Type} [DecidableEq ι] (calls : ι → Call) (db₀ : Store) (organizationId : Uuid)
  (key : JsString)

/-- In this world the starts that share the key have started one job at most. -/
structure StartedOnce (w : Clients ι) : Prop where
  /-- Of all the rows that they generated ids for, those of one start are stored. -/
  once {i j : ι} {draws draws' : StartDraws} (hi : (calls i).SharesKey db₀ organizationId key)
    (hj : (calls j).SharesKey db₀ organizationId key) (hd : (calls i).startDraws = some draws)
    (hd' : (calls j).startDraws = some draws') (hs : draws.Stored w.shared.db)
    (hs' : draws'.Stored w.shared.db) : i = j
  whole {i : ι} {draws : StartDraws} (hi : (calls i).SharesKey db₀ organizationId key)
    (hd : (calls i).startDraws = some draws) (hs : draws.Stored w.shared.db) :
    draws.Complete w.shared.db
  record : (w.shared.db.idempotencyRecords.rows.filter fun row =>
    row.organizationId = organizationId && row.key = key).length ≤ 1
  /-- Who accepts names the job of the record and the connection of this job. -/
  accepted {i : ι} {connection : TenantConnectionDto} {job : Job} {reused : Bool}
    (hi : (calls i).SharesKey db₀ organizationId key)
    (ha : Returned w i (.accepted connection job reused)) :
    ∃ record row, w.shared.db.idempotencyRecord organizationId key = some record ∧
      w.shared.db.jobs.find record.jobId = some row ∧ job.id = record.jobId ∧
      connection.id = row.tenantConnectionId
  /-- One of them has `reused` false. -/
  creator {i : ι} {connection : TenantConnectionDto} {job : Job} {reused : Bool}
    (hi : (calls i).SharesKey db₀ organizationId key)
    (ha : Returned w i (.accepted connection job reused)) :
    ∃ j, ((calls j).SharesKey db₀ organizationId key ∧
        ∃ connection job, Returned w j (.accepted connection job false)) ∧
      ∀ k, (calls k).SharesKey db₀ organizationId key →
        (∃ connection job, Returned w k (.accepted connection job false)) → k = j
  /-- A start whose fingerprint is not the one of the record ends with a conflict. -/
  conflict {i : ι} {c : Creation} {record : IdempotencyRecord}
    {o : Except JsError (Σ call : Call, call.Result)}
    (hi : (calls i).SharesKey db₀ organizationId key) (hadmitted : (calls i).Admitted db₀ c)
    (hrecord : w.shared.db.idempotencyRecord organizationId key = some record)
    (hf : c.payloadFingerprint ≠ record.payloadFingerprint)
    (ho : (w.prog i).outcome = some o) :
    ∃ grants input cipher draws, o = .ok ⟨.start grants input cipher draws, .idempotencyConflict⟩
  /-- A step of one of them that changes the store is the one that creates the job. -/
  unchanged {i : ι} {v : Clients ι} (hi : (calls i).SharesKey db₀ organizationId key)
    (hs : Pool.Step postgres.readCommitted w (.run i) v) (hdb : v.shared.db ≠ w.shared.db) :
    ∃ connection job, Returned v i (.accepted connection job false)

end

/-! ## The creations of a world -/

section

variable {ι : Type} {calls : ι → Call} {db₀ : Store} {organizationId : Uuid} {key : JsString}
  {i : ι} {c : Creation}

theorem Call.SharesKey.isStart {call : Call} (h : call.SharesKey db₀ organizationId key) :
    call.isStart = true := by
  cases call with
  | start => rfl
  | claim => exact absurd h not_false
  | renew => exact absurd h not_false
  | recover => exact absurd h not_false
  | apply => exact absurd h not_false

/-- An admitted start that shares the key is one of the key. -/
theorem Call.Admitted.sharesKey {call : Call} (h : call.Admitted db₀ c)
    (hs : call.SharesKey db₀ organizationId key) :
    c.targetWorkspace.organizationId = organizationId ∧ c.idempotencyKey = key := by
  cases call with
  | start grants input cipher draws => exact ⟨hs.2 _ h.2.2.found, h.2.1.trans hs.1⟩
  | claim => exact absurd h not_false
  | renew => exact absurd h not_false
  | recover => exact absurd h not_false
  | apply => exact absurd h not_false

theorem Call.Admitted.sharesKey_of_eq {call : Call} (h : call.Admitted db₀ c)
    (horganization : c.targetWorkspace.organizationId = organizationId)
    (hkey : c.idempotencyKey = key) : call.SharesKey db₀ organizationId key := by
  cases call with
  | start grants input cipher draws =>
      refine ⟨h.2.1.symm.trans hkey, fun workspace hfound => ?_⟩
      cases hfound.symm.trans h.2.2.found
      exact horganization
  | claim => exact absurd h not_false
  | renew => exact absurd h not_false
  | recover => exact absurd h not_false
  | apply => exact absurd h not_false

/-- The rows of a creation are all stored. -/
theorem Creation.Lasts.complete {db : Store} (h : c.Lasts db) : c.draws.Complete db where
  tenantConnection := by
    obtain ⟨connection, hc, -⟩ := h.connection
    rw [hc]
    exact Option.some_ne_none connection
  job := by
    obtain ⟨job, hjob, -⟩ := h.job
    rw [hjob]
    exact Option.some_ne_none job
  idempotencyRecord := by
    have hfind : db.idempotencyRecords.find (Keyed.key c.record) = some c.record :=
      Table.find_of_mem (mem_of_stored h.record).1
    have hid : Keyed.key c.record = c.draws.idempotencyRecordId := rfl
    rw [← hid, hfind]
    exact Option.some_ne_none c.record
  outboxEvent := Option.isSome_iff_ne_none.mp h.event

theorem Call.Admitted.stored {call : Call} (h : call.Admitted db₀ c)
    (hs : call.SharesKey db₀ organizationId key) (db : Store) :
    c.stored db = db.idempotencyRecord organizationId key := by
  obtain ⟨horganization, hkey⟩ := h.sharesKey hs
  rw [Creation.stored, horganization, hkey]

theorem mem_of_not_pending {g : List (ι × Creation)} (h : ¬ Pending i g) : ∃ c, (i, c) ∈ g := by
  unfold Pending at h
  rw [not_not, List.mem_map] at h
  obtain ⟨⟨j, c⟩, hmem, rfl⟩ := h
  exact ⟨c, hmem⟩

variable {w : Clients ι} {g : List (ι × Creation)}

/-- The creation of a stored row. -/
theorem StartsIn.creation (h : StartsIn calls db₀ w g) (hapart : StartsApart calls db₀)
    {draws : StartDraws} (hd : (calls i).startDraws = some draws)
    (hs : draws.Stored w.shared.db) : ∃ c, (i, c) ∈ g ∧ c.draws = draws := by
  have hnot : ¬ Pending i g := by
    intro hp
    obtain ⟨h₁, h₂, h₃, h₄⟩ := h.started.untaken hapart hd hp
    rcases hs with hs | hs | hs | hs
    · exact hs h₁
    · exact hs h₂
    · exact hs h₃
    · exact hs h₄
  obtain ⟨c, hmem⟩ := mem_of_not_pending hnot
  have hdraws := (h.started.admitted _ hmem).draws
  rw [hd] at hdraws
  exact ⟨c, hmem, (Option.some.inj hdraws).symm⟩

/-- Two creations under one key are one. -/
theorem StartsIn.creator_unique (h : StartsIn calls db₀ w g) (hapart : StartsApart calls db₀)
    {j : ι} {c' : Creation} (hc : (i, c) ∈ g) (hc' : (j, c') ∈ g)
    (hi : (calls i).SharesKey db₀ organizationId key)
    (hj : (calls j).SharesKey db₀ organizationId key) : i = j := by
  have hadmitted := h.started.admitted _ hc
  have hadmitted' := h.started.admitted _ hc'
  have hrecord := (h.started.lasts _ hc).record
  have hrecord' := (h.started.lasts _ hc').record
  rw [hadmitted.stored hi] at hrecord
  rw [hadmitted'.stored hj, hrecord] at hrecord'
  have hid : c.draws.idempotencyRecordId = c'.draws.idempotencyRecordId :=
    congrArg IdempotencyRecord.id (Option.some.inj hrecord')
  exact hapart.idempotencyRecords _ _ _ _ hadmitted.draws hadmitted'.draws hid

/-- A start that created its job has returned it. -/
theorem StartsIn.returned (h : StartsIn calls db₀ w g) (hi : (calls i).isStart = true)
    (hnot : ¬ Pending i g) : ∃ connection job, Returned w i (.accepted connection job false) := by
  cases hcall : calls i with
  | start grants input cipher draws =>
      cases hprog : w.prog i with
      | ret result =>
          obtain ⟨a, rfl, hanswered⟩ := h.ended i _ hprog _ _ _ _ hcall
          rcases hanswered with ⟨-, hp, -⟩ | ⟨c, -, hanswered⟩
          · exact absurd hp hnot
          cases a with
          | notFound => exact absurd hanswered not_false
          | idempotencyConflict => exact absurd hanswered.1 hnot
          | accepted connection job reused =>
              cases reused with
              | true => exact absurd hanswered.1 hnot
              | false => exact ⟨connection, job, _, _, _, _, hprog⟩
      | raise e => exact absurd (h.threw i e hprog _ _ _ _ hcall).1 hnot
      | call c next => exact absurd (h.waiting i c next hprog hi) hnot
  | claim => rw [hcall] at hi; cases hi
  | renew => rw [hcall] at hi; cases hi
  | recover => rw [hcall] at hi; cases hi
  | apply => rw [hcall] at hi; cases hi

/-- The record of a key that was free at first is the one of the start that created it. -/
theorem StartsIn.creator (h : StartsIn calls db₀ w g)
    (hfree : db₀.idempotencyRecord organizationId key = none) {record : IdempotencyRecord}
    (hmem : record ∈ w.shared.db.idempotencyRecords.rows)
    (horganization : record.organizationId = organizationId) (hkey : record.key = key) :
    ∃ e ∈ g, (calls e.1).SharesKey db₀ organizationId key ∧ e.2.record = record := by
  rw [h.started.records] at hmem
  rcases List.mem_append.mp hmem with hmem | hmem
  · have hnone := List.find?_eq_none.mp hfree record hmem
    simp [horganization, hkey] at hnone
  · obtain ⟨e, he, rfl⟩ := List.mem_map.mp hmem
    exact ⟨e, he, (h.started.admitted e he).sharesKey_of_eq horganization hkey, rfl⟩

end

/-! ## One job for a key -/

theorem length_le_one_of_nodup {α : Type} {l : List α} (hn : l.Nodup)
    (h : ∀ a ∈ l, ∀ b ∈ l, a = b) : l.length ≤ 1 := by
  cases l with
  | nil => exact Nat.zero_le 1
  | cons a rest =>
      cases rest with
      | nil => exact Nat.le_refl 1
      | cons b rest =>
          have hab := h a List.mem_cons_self b (List.mem_cons_of_mem a List.mem_cons_self)
          rw [List.nodup_cons, hab] at hn
          exact absurd List.mem_cons_self hn.1

/-- Starts that share a key start one job, and all who accept name it. -/
theorem start_races {ι : Type} [DecidableEq ι] {calls : ι → Call} {db₀ : Store}
    (hdb : Reachable db₀) (hapart : StartsApart calls db₀) {organizationId : Uuid} {key : JsString}
    (hfree : db₀.idempotencyRecord organizationId key = none) {w : Clients ι}
    (h : Interleaves calls db₀ w) : StartedOnce calls db₀ organizationId key w := by
  have hhomed := Homed.of_consistent hdb.consistent
  obtain ⟨g, hg⟩ := h.starts hhomed
  have hund : ∀ {i : ι} {c : Creation}, (calls i).Admitted db₀ c →
      (calls i).SharesKey db₀ organizationId key → Undisputed calls db₀ c := by
    intro i c hadmitted hi
    exact ⟨hapart, (hadmitted.stored hi db₀).trans hfree⟩
  constructor
  · intro i j draws draws' hi hj hd hd' hs hs'
    obtain ⟨c, hc, -⟩ := hg.creation hapart hd hs
    obtain ⟨c', hc', -⟩ := hg.creation hapart hd' hs'
    exact hg.creator_unique hapart hc hc' hi hj
  · intro i draws hi hd hs
    obtain ⟨c, hc, rfl⟩ := hg.creation hapart hd hs
    exact (hg.started.lasts _ hc).complete
  -- two records of one key would have two creators
  · apply length_le_one_of_nodup
    · exact (List.Nodup.of_map _ w.shared.db.idempotencyRecords.keys_nodup).filter _
    · intro a ha b hb
      rw [List.mem_filter, Bool.and_eq_true, decide_eq_true_iff, decide_eq_true_iff] at ha hb
      obtain ⟨e, he, hshares, rfl⟩ := hg.creator hfree ha.1 ha.2.1 ha.2.2
      obtain ⟨e', he', hshares', rfl⟩ := hg.creator hfree hb.1 hb.2.1 hb.2.2
      have hij : e.1 = e'.1 := hg.creator_unique hapart he he' hshares hshares'
      have hsame := hg.started.admitted e he
      rw [hij] at hsame
      rw [hsame.unique (hg.started.admitted e' he')]
  · intro i connection job reused hi ha
    obtain ⟨c, hadmitted, -, record, hrecord, -, hid, ⟨row, hrow, htc⟩, -⟩ :=
      hg.accepted hi.isStart ha
    rw [hadmitted.stored hi] at hrecord
    exact ⟨record, row, hrecord, hrow, hid, htc.symm⟩
  · intro i connection job reused hi ha
    obtain ⟨c, hadmitted, -, record, hrecord, -⟩ := hg.accepted hi.isStart ha
    obtain ⟨hmem, horganization, hkey⟩ := mem_of_stored hrecord
    obtain ⟨ho, hk⟩ := hadmitted.sharesKey hi
    obtain ⟨e, he, hshares, -⟩ := hg.creator hfree hmem (horganization.trans ho) (hkey.trans hk)
    -- the creator of the record is the one that returns `reused` false
    have hcreated : ¬ Pending e.1 g := fun hp => hp (List.mem_map_of_mem he)
    refine ⟨e.1, ⟨hshares, hg.returned hshares.isStart hcreated⟩,
      fun k hk ⟨connection', job', hr⟩ => ?_⟩
    obtain ⟨c', -, hmine, -⟩ := hg.accepted hk.isStart hr
    exact hg.creator_unique hapart hmine he hk hshares
  · intro i c record o hi hadmitted hrecord hf ho
    have hu := hund hadmitted hi
    cases hcall : calls i with
    | start grants input cipher draws =>
        cases hprog : w.prog i with
        | call op next =>
            rw [hprog] at ho
            cases ho
        | raise e => exact absurd hu ((hg.threw i e hprog _ _ _ _ hcall).2.1 c hadmitted)
        | ret result =>
            rw [hprog] at ho
            cases ho
            obtain ⟨a, rfl, hanswered⟩ := hg.ended i _ hprog _ _ _ _ hcall
            rcases hanswered with ⟨-, -, -, hnone⟩ | ⟨c', hadmitted', hanswered⟩
            · have hadmits := hadmitted
              rw [hcall] at hadmits
              have hauth := hnone _ hadmits.2.2.found
              rw [hadmits.2.2.authorized] at hauth
              cases hauth
            have hc := hadmitted'.unique hadmitted
            subst hc
            cases a with
            | notFound => exact absurd hanswered not_false
            | idempotencyConflict => exact ⟨_, _, _, _, rfl⟩
            | accepted connection job reused =>
                -- an accepted answer names a record with the fingerprint of the call
                obtain ⟨-, record', hrecord', hsame, -⟩ := hanswered
                rw [hadmitted.stored hi] at hrecord'
                cases hrecord.symm.trans hrecord'
                exact absurd hsame.symm hf
    | claim => rw [hcall] at hadmitted; exact absurd hadmitted not_false
    | renew => rw [hcall] at hadmitted; exact absurd hadmitted not_false
    | recover => rw [hcall] at hadmitted; exact absurd hadmitted not_false
    | apply => rw [hcall] at hadmitted; exact absurd hadmitted not_false
  · intro i v hi hs hchanged
    obtain ⟨g', hg', hdb' | hnot⟩ := h.step hhomed hi.isStart hs
    · exact absurd hdb' hchanged
    · exact hg'.returned hi.isStart hnot

namespace Sample

/-- Two starts of one request, and a claim of the job of the first. -/
def racers : Fin 3 → Call
  | 0 => start
  | 1 => .start [⟨2, .write, .organization⟩] input cipher ⟨[], 20, 21, 22, 23, 1⟩
  | 2 => .claim 11 5 60000 30

/-- The second start finds no record of the key, and waits for the first one to commit. -/
def race : Clients (Fin 3) :=
  interleave racers (.empty workspaces)
    ([0, 0, 0, 0, 0, 0, 0, 1, 1, 1, 1, 1, 1, 0, 1, 1, 1, 1, 1, 2, 2] : List (Fin 3))

/-- The job that a start accepted. -/
def acceptedJob (w : Clients (Fin 3)) (i : Fin 3) : Option (Uuid × Bool) :=
  match w.prog i with
  | .ret ⟨.start _ _ _ _, .accepted _ job reused⟩ => some (job.id, reused)
  | _ => none

theorem racers_draws {i : Fin 3} {draws : StartDraws}
    (h : (racers i).startDraws = some draws) :
    (i = 0 ∧ draws = ⟨[], 10, 11, 12, 13, 0⟩) ∨ i = 1 ∧ draws = ⟨[], 20, 21, 22, 23, 1⟩ := by
  fin_cases i
  · exact .inl ⟨rfl, (Option.some.inj h).symm⟩
  · exact .inr ⟨rfl, (Option.some.inj h).symm⟩
  · cases h

theorem racers_apart : StartsApart racers (.empty workspaces) where
  tenantConnections i j d d' hd hd' he := by
    rcases racers_draws hd with ⟨rfl, rfl⟩ | ⟨rfl, rfl⟩ <;>
      rcases racers_draws hd' with ⟨rfl, rfl⟩ | ⟨rfl, rfl⟩ <;>
      first | rfl | exact absurd he (by decide)
  jobs i j d d' hd hd' he := by
    rcases racers_draws hd with ⟨rfl, rfl⟩ | ⟨rfl, rfl⟩ <;>
      rcases racers_draws hd' with ⟨rfl, rfl⟩ | ⟨rfl, rfl⟩ <;>
      first | rfl | exact absurd he (by decide)
  idempotencyRecords i j d d' hd hd' he := by
    rcases racers_draws hd with ⟨rfl, rfl⟩ | ⟨rfl, rfl⟩ <;>
      rcases racers_draws hd' with ⟨rfl, rfl⟩ | ⟨rfl, rfl⟩ <;>
      first | rfl | exact absurd he (by decide)
  outboxEvents i j d hd he := by
    have hj : ∀ id, (racers j).DrawsEvent id → (j = 0 ∧ id = 13) ∨ j = 1 ∧ id = 23 := by
      intro id h
      fin_cases j
      · exact .inl ⟨rfl, Eq.symm h⟩
      · exact .inr ⟨rfl, Eq.symm h⟩
      · exact absurd h not_false
    rcases racers_draws hd with ⟨rfl, rfl⟩ | ⟨rfl, rfl⟩ <;>
      rcases hj _ he with ⟨rfl, h⟩ | ⟨rfl, h⟩ <;> first | rfl | exact absurd h (by decide)
  new i d hd := ⟨rfl, rfl, rfl, rfl⟩

end Sample

/-- The start that lost the race names the job of the other one. -/
theorem start_races_lost :
    StartedOnce Sample.racers (.empty Sample.workspaces) 2 [107] Sample.race ∧
    Sample.acceptedJob Sample.race 0 = some (11, false) ∧
    Sample.acceptedJob Sample.race 1 = some (11, true) :=
  ⟨start_races (.empty _) Sample.racers_apart rfl (interleaves_interleave _ _ _),
    by decide +kernel, by decide +kernel⟩

end InboxSaas.Product
