import InboxSaas.Worker.LimitedRuns
import InboxSaas.Worker.SupersededRuns

/-!
# Runs within the limits

The limits hold of the runs themselves: of those that call the provisioner, not only of the counters.
Nobody waits for a run that is over or waits itself.
-/

namespace InboxSaas.Worker

open Reasoning Product Program

section

variable {Host : Type} {host : Nat → Host} {tasks : Nat → Task} {db : Store} {clock : Time}
  {w : LimitedRuns Host}

/-! ## Whoever holds a permit -/

/-- The run has a permit that it has not given back; it may not have seen it yet. -/
def LimitedRuns.Holds (host : Nat → Host) (w : LimitedRuns Host) (i : Nat) (organizationId : Uuid) :
    Prop :=
  ∃ request, w.requests i = some request ∧
    ⟨organizationId, request, false⟩ ∈ (w.limiters (host i)).permits

/-- The run has called `acquire`, and no permit was granted to this call. -/
def LimitedRuns.Waits (host : Nat → Host) (w : LimitedRuns Host) (i : Nat) (organizationId : Uuid) :
    Prop :=
  (∃ next, w.runs.prog i = .call (.acquire organizationId) next) ∧
    ∃ request, w.requests i = some request ∧
      ∀ permit ∈ (w.limiters (host i)).permits, permit.request ≠ request

/-- The run calls the provisioner. -/
def LimitedRuns.Validates (w : LimitedRuns Host) (i : Nat) (request : TenantValidationRequest) :
    Prop :=
  ∃ next, w.runs.prog i = .call (.validateTenant request) next

theorem LimitedRuns.holds_of_mem {i : Nat} {permit : Permit Uuid}
    (hmem : permit ∈ (w.limiters (host i)).permits) (hrequest : w.requests i = some permit.request)
    (hreleased : permit.released = false) : w.Holds host i permit.organizationId := by
  refine ⟨permit.request, hrequest, ?_⟩
  rw [← hreleased]
  exact hmem

theorem LimitedRuns.Holds.not_waits {i : Nat} {organizationId : Uuid}
    (h : w.Holds host i organizationId) (other : Uuid) : ¬ w.Waits host i other := by
  intro hwaits
  have ⟨request, hrequest, hmem⟩ := h
  have ⟨_, request', hrequest', hnone⟩ := hwaits
  rw [hrequest] at hrequest'
  exact hnone _ hmem (Option.some.inj hrequest')

namespace Managed

variable {h' : Host} {P : Permit Uuid → Bool}

/-- Different runs have different permits. -/
theorem length_le (h : Managed host w) {runs : List Nat} (hruns : runs.Nodup)
    (hpermits : ∀ i ∈ runs, host i = h' ∧
      ∃ permit ∈ (w.limiters h').permits, w.requests i = some permit.request ∧ P permit = true) :
    runs.length ≤ (w.limiters h').permits.countP P := by
  let number := fun i => (w.requests i).getD 0
  have hnodup : (runs.map number).Nodup := by
    refine hruns.map_on fun i hi j hj hsame => ?_
    have ⟨hhost, permit, _, hrequest, _⟩ := hpermits i hi
    have ⟨hhost', permit', _, hrequest', _⟩ := hpermits j hj
    have hnumber : permit.request = permit'.request := by
      have hboth : (w.requests i).getD 0 = (w.requests j).getD 0 := hsame
      rwa [hrequest, hrequest'] at hboth
    rw [hnumber] at hrequest
    exact h.numbered.distinct i j _ (hhost.trans hhost'.symm) hrequest hrequest'
  have hsubset : runs.map number ⊆ ((w.limiters h').permits.filter P).map Permit.request := by
    intro request hmem
    have ⟨i, hi, he⟩ := List.mem_map.mp hmem
    have ⟨_, permit, hpermit, hrequest, hP⟩ := hpermits i hi
    have hnumber : number i = permit.request := by
      show (w.requests i).getD 0 = permit.request
      rw [hrequest]
      rfl
    rw [← he, hnumber]
    exact List.mem_map_of_mem (List.mem_filter.mpr ⟨hpermit, hP⟩)
  calc
    runs.length = (runs.map number).length := (List.length_map _).symm
    _ ≤ (((w.limiters h').permits.filter P).map Permit.request).length :=
      (hnodup.subperm hsubset).length_le
    _ = (w.limiters h').permits.countP P := by rw [List.length_map, List.countP_eq_length_filter]

/-- Every permit is a run's. -/
theorem holders (h : Managed host w) (h' : Host) (P : Permit Uuid → Bool) :
    ∃ runs : List Nat, runs.Nodup ∧ runs.length = (w.limiters h').permits.countP P ∧
      ∀ i ∈ runs, host i = h' ∧
        ∃ permit ∈ (w.limiters h').permits, w.requests i = some permit.request ∧ P permit = true := by
  have hqueued := (h.settled h').queued
  have howned : ∀ request, ∃ i, request < w.calls h' → host i = h' ∧ w.requests i = some request := by
    intro request
    by_cases hlt : request < w.calls h'
    · have ⟨i, hi⟩ := h.numbered.owned h' request hlt
      exact ⟨i, fun _ => hi⟩
    · exact ⟨0, fun hlt' => absurd hlt' hlt⟩
  choose owner howner using howned
  have hof : ∀ permit ∈ (w.limiters h').permits, host (owner permit.request) = h' ∧
      w.requests (owner permit.request) = some permit.request :=
    fun permit hmem => howner _ (hqueued.request_lt hmem)
  have hnodup : (w.limiters h').permits.Nodup := by
    have hrequests : ((w.limiters h').permits.map Permit.request).Nodup :=
      (hqueued.once.nodup_iff.mpr List.nodup_range).of_append_left
    exact hrequests.of_map
  refine ⟨((w.limiters h').permits.filter P).map fun permit => owner permit.request, ?_, ?_, ?_⟩
  · refine (hnodup.filter P).map_on fun permit hmem permit' hmem' hsame => ?_
    have hold := (List.mem_filter.mp hmem).1
    have hold' := (List.mem_filter.mp hmem').1
    have hrequest := (hof permit hold).2
    rw [hsame, (hof permit' hold').2] at hrequest
    exact hqueued.permit_eq hold hold' (Option.some.inj hrequest).symm
  · rw [List.length_map, List.countP_eq_length_filter]
  · intro i hi
    have ⟨permit, hmem, he⟩ := List.mem_map.mp hi
    have ⟨hold, hP⟩ := List.mem_filter.mp hmem
    have ⟨hhost, hrequest⟩ := hof permit hold
    rw [← he]
    exact ⟨hhost, permit, hold, hrequest, hP⟩

/-- A run that is over has given its permit back. -/
theorem unfinished (h : Managed host w) {ciphers : Nat → TenantCredentialCipher} {i : Nat}
    (hobeys : Obeys ((tasks i).requests (ciphers i)) (fun _ l => (course l).Released)
      (w.runs.prog i) (own i w.runs.shared.2)) {organizationId : Uuid}
    (hholds : w.Holds host i organizationId) : (w.runs.prog i).outcome = none := by
  have ⟨request, hrequest, hmem⟩ := hholds
  have hagrees := h.agrees i
  rw [hrequest] at hagrees
  have hover : (course (own i w.runs.shared.2)).Released → (w.runs.prog i).outcome = none := by
    intro hreleased
    cases hcourse : (course (own i w.runs.shared.2)).permit with
    | notAsked =>
        rw [hcourse] at hagrees
        have ⟨_, _, hprog, _⟩ := hagrees
        rw [hprog]
        rfl
    | held other => exact absurd hcourse (hreleased other)
    | givenBack =>
        rw [hcourse] at hagrees
        have ⟨_, hback⟩ := hagrees
        have hsame := (h.settled _).queued.permit_eq hmem hback rfl
        cases hsame
  cases hprog : w.runs.prog i with
  | ret a =>
      rw [hprog] at hobeys hover
      exact hover hobeys
  | raise e =>
      rw [hprog] at hobeys hover
      exact hover hobeys
  | call op next => rfl

/-- A run that calls the provisioner holds a permit of the organization it claimed for. -/
theorem validating (h : Managed host w) {ciphers : Nat → TenantCredentialCipher} {i : Nat}
    (hobeys : Obeys ((tasks i).requests (ciphers i)) (fun _ l => (course l).Released)
      (w.runs.prog i) (own i w.runs.shared.2)) {request : TenantValidationRequest}
    (hvalidates : w.Validates i request) :
    ∃ connection, (course (own i w.runs.shared.2)).connection = some connection ∧
      w.Holds host i connection.organizationId := by
  have ⟨next, hprog⟩ := hvalidates
  rw [hprog] at hobeys
  have ⟨connection, hconnection, _, hheld⟩ := Task.permits_validateTenant hobeys.1
  have hagrees := h.agrees i
  rw [hheld] at hagrees
  cases hrequest : w.requests i with
  | none =>
      rw [hrequest] at hagrees
      cases hagrees
  | some request =>
      rw [hrequest] at hagrees
      exact ⟨connection, hconnection, request, hrequest, hagrees⟩

theorem length_le_five (h : Managed host w) {h' : Host} {runs : List Nat} (hruns : runs.Nodup)
    (hholds : ∀ i ∈ runs, host i = h' ∧ ∃ organizationId, w.Holds host i organizationId) :
    runs.length ≤ 5 := by
  refine Nat.le_trans (h.length_le (P := fun permit => !permit.released) hruns fun i hi => ?_)
    (h.settled h').counted.globalLimit
  have ⟨hhost, organizationId, request, hrequest, hmem⟩ := hholds i hi
  exact ⟨hhost, _, hhost ▸ hmem, hrequest, rfl⟩

theorem length_le_three (h : Managed host w) {h' : Host} {runs : List Nat} (hruns : runs.Nodup)
    {organizationId : Uuid} (hholds : ∀ i ∈ runs, host i = h' ∧ w.Holds host i organizationId) :
    runs.length ≤ 3 := by
  refine Nat.le_trans (h.length_le
    (P := fun permit => !permit.released && permit.organizationId = organizationId) hruns
    fun i hi => ?_) ((h.settled h').counted.organizationLimit organizationId)
  have ⟨hhost, request, hrequest, hmem⟩ := hholds i hi
  exact ⟨hhost, _, hhost ▸ hmem, hrequest, by simp⟩

/-- Whoever waits waits for five runs, or for three of its organization. -/
theorem blocked (h : Managed host w) {i : Nat} {organizationId : Uuid}
    (hwaits : w.Waits host i organizationId)
    (hnotAsked : (course (own i w.runs.shared.2)).permit = .notAsked) :
    ∃ holders : List Nat, holders.Nodup ∧
      (∀ j ∈ holders, host j = host i ∧ ∃ other, w.Holds host j other) ∧
      (holders.length = 5 ∨
        holders.length = 3 ∧ ∀ j ∈ holders, w.Holds host j organizationId) := by
  have ⟨⟨next, hprog⟩, request, hrequest, hnone⟩ := hwaits
  have hsettled := h.settled (host i)
  have hagrees := h.agrees i
  rw [hrequest, hprog, hnotAsked] at hagrees
  have ⟨_, _, he, hasked, _⟩ := hagrees
  cases he
  have ⟨waiter, hwaiter, hme⟩ := hsettled.queued.waits (hagrees.lt hsettled.queued) hnone
  have horganization : waiter.organizationId = organizationId := by
    have hwaiting := hsettled.queued.waiting waiter hwaiter
    rw [hme, hasked] at hwaiting
    exact (Option.some.inj hwaiting).symm
  have hcapacity := hsettled.blocked waiter hwaiter
  rw [horganization, Bool.eq_false_iff, ne_eq, hsettled.counted.hasCapacity] at hcapacity
  by_cases hheld : held (w.limiters (host i)).permits < 5
  · -- the organization has all its permits
    have hlimit := hsettled.counted.organizationLimit organizationId
    have hfull : heldBy (w.limiters (host i)).permits organizationId = 3 := by omega
    have ⟨runs, hnodup, hlength, hruns⟩ := h.holders (host i)
      fun permit => !permit.released && permit.organizationId = organizationId
    have hholds : ∀ j ∈ runs, host j = host i ∧ w.Holds host j organizationId := by
      intro j hj
      have ⟨hhost, permit, hmem, hown, hP⟩ := hruns j hj
      rw [Bool.and_eq_true, Bool.not_eq_true', decide_eq_true_iff] at hP
      rw [← hhost] at hmem
      exact ⟨hhost, hP.2 ▸ LimitedRuns.holds_of_mem hmem hown hP.1⟩
    exact ⟨runs, hnodup, fun j hj => ⟨(hholds j hj).1, _, (hholds j hj).2⟩,
      .inr ⟨hlength.trans hfull, fun j hj => (hholds j hj).2⟩⟩
  · -- the process has
    have hlimit := hsettled.counted.globalLimit
    have hfull : held (w.limiters (host i)).permits = 5 := by omega
    have ⟨runs, hnodup, hlength, hruns⟩ := h.holders (host i) fun permit => !permit.released
    refine ⟨runs, hnodup, fun j hj => ?_, .inl (hlength.trans hfull)⟩
    have ⟨hhost, permit, hmem, hown, hP⟩ := hruns j hj
    rw [← hhost] at hmem
    exact ⟨hhost, _, LimitedRuns.holds_of_mem hmem hown (by simpa using hP)⟩

/-- Where all runs of a process are over, its limiter is as it was at first. -/
theorem idle (h : Managed host w) {h' : Host} (hnone : ∀ i, host i = h' → ∀ organizationId,
      ¬ w.Holds host i organizationId) (hover : ∀ i, host i = h' → (w.runs.prog i).outcome ≠ none) :
    (w.limiters h').activeGlobal = 0 ∧ (w.limiters h').waiters = [] ∧
      ∀ organizationId, (w.limiters h').activeByOrganization organizationId = none := by
  have hsettled := h.settled h'
  have hreleased : ∀ permit ∈ (w.limiters h').permits, permit.released = true := by
    intro permit hmem
    have ⟨i, hi, hrequest⟩ := h.numbered.owned h' _ (hsettled.queued.request_lt hmem)
    cases hr : permit.released with
    | true => rfl
    | false =>
        rw [← hi] at hmem
        exact absurd (LimitedRuns.holds_of_mem hmem hrequest hr) (hnone i hi _)
  have hheld : held (w.limiters h').permits = 0 :=
    List.countP_eq_zero.mpr fun permit hmem => by simp [hreleased permit hmem]
  have hheldBy : ∀ organizationId, heldBy (w.limiters h').permits organizationId = 0 :=
    fun organizationId => List.countP_eq_zero.mpr fun permit hmem => by simp [hreleased permit hmem]
  refine ⟨?_, ?_, fun organizationId => ?_⟩
  · rw [hsettled.counted.global, hheld]
    rfl
  · apply List.eq_nil_iff_forall_not_mem.mpr
    intro waiter hmem
    have hwaiting := hsettled.queued.waiting waiter hmem
    have ⟨i, hi, hrequest⟩ := h.numbered.owned h' _ (List.getElem?_eq_some_iff.mp hwaiting).1
    have hagrees := h.agrees i
    rw [hrequest, hi] at hagrees
    -- the call of a run that is over was granted a permit, so it does not wait
    have hgranted : ∀ permit ∈ (w.limiters h').permits, permit.request ≠ waiter.request := by
      intro permit hpermit he
      have hnodup := hsettled.queued.once.nodup_iff.mpr List.nodup_range
      exact (List.nodup_append.mp hnodup).2.2 _ (List.mem_map_of_mem hpermit) _
        (List.mem_map_of_mem hmem) he
    cases hcourse : (course (own i w.runs.shared.2)).permit with
    | notAsked =>
        rw [hcourse] at hagrees
        have ⟨_, _, hprog, _⟩ := hagrees
        exact hover i hi (by rw [hprog]; rfl)
    | held organizationId =>
        rw [hcourse] at hagrees
        exact hgranted _ hagrees rfl
    | givenBack =>
        rw [hcourse] at hagrees
        have ⟨_, hback⟩ := hagrees
        exact hgranted _ hback rfl
  · rw [hsettled.counted.organization, hheldBy]
    rfl

end Managed

/-! ## Every run -/

/-- A tick uses no cipher, so any will do. -/
theorem Task.exists_uses (task : Task) : ∃ cipher, task.Uses cipher := by
  cases task with
  | process cipher => exact ⟨cipher, rfl⟩
  | tick =>
      have cipher : TenantCredentialCipher :=
        ⟨fun _ _ _ => .error processingFailed, fun _ _ => .error processingFailed,
          fun _ => .error processingFailed⟩
      exact ⟨cipher, trivial⟩
  | start _ _ cipher => exact ⟨cipher, rfl⟩

variable [DecidableEq Host]

/-- Under the limiters the system does nothing that it could not do without.  A process calls the
provisioner for at most five runs at once, and for at most three of one organization; a run waits
only while so many others, none of which is over or waits itself, have permits; and where all runs of
a process are over, no permit of it is taken and nobody waits. -/
theorem limited_runs (h : w.Reached host tasks db clock) :
    w.runs.Reached tasks db clock ∧
    (∀ (h' : Host) (runs : List Nat), runs.Nodup →
      (∀ i ∈ runs, host i = h' ∧ ∃ request, w.Validates i request) → runs.length ≤ 5) ∧
    (∀ (h' : Host) (organizationId : Uuid) (runs : List Nat), runs.Nodup →
      (∀ i ∈ runs, host i = h' ∧ (∃ request, w.Validates i request) ∧ ∃ connection,
        (course (own i w.runs.shared.2)).connection = some connection ∧
          connection.organizationId = organizationId) → runs.length ≤ 3) ∧
    (∀ i organizationId, w.Waits host i organizationId →
      ∃ holders : List Nat, holders.Nodup ∧
        (∀ j ∈ holders, host j = host i ∧ (∃ other, w.Holds host j other) ∧
          (w.runs.prog j).outcome = none ∧ ∀ other, ¬ w.Waits host j other) ∧
        (holders.length = 5 ∨
          holders.length = 3 ∧ ∀ j ∈ holders, w.Holds host j organizationId)) ∧
    ∀ h', (∀ i, host i = h' → (w.runs.prog i).outcome ≠ none) →
      (w.limiters h').activeGlobal = 0 ∧ (w.limiters h').waiters = [] ∧
        ∀ organizationId, (w.limiters h').activeByOrganization organizationId = none := by
  have ⟨ciphers, huses⟩ := Classical.axiomOfChoice fun i => (tasks i).exists_uses
  have hmanaged := h.managed huses
  have hobeys := h.refines.requests huses
  have hunfinished : ∀ i organizationId, w.Holds host i organizationId →
      (w.runs.prog i).outcome = none := fun i _ => hmanaged.unfinished (hobeys i)
  refine ⟨h.refines, fun h' runs hruns hall => ?_, fun h' organizationId runs hruns hall => ?_,
    fun i organizationId hwaits => ?_, fun h' hover => ?_⟩
  · apply hmanaged.length_le_five hruns
    intro i hi
    have ⟨hhost, request, hvalidates⟩ := hall i hi
    have ⟨connection, _, hholds⟩ := hmanaged.validating (hobeys i) hvalidates
    exact ⟨hhost, _, hholds⟩
  · apply hmanaged.length_le_three hruns
    intro i hi
    have ⟨hhost, ⟨request, hvalidates⟩, connection, hconnection, horganization⟩ := hall i hi
    have ⟨connection', hconnection', hholds⟩ := hmanaged.validating (hobeys i) hvalidates
    rw [hconnection] at hconnection'
    cases hconnection'
    exact ⟨hhost, horganization ▸ hholds⟩
  -- a run that waits has no permit, and has asked for this one only
  · have hnotAsked : (course (own i w.runs.shared.2)).permit = .notAsked := by
      have ⟨⟨next, hprog⟩, _⟩ := hwaits
      have hpermits := hobeys i
      rw [hprog] at hpermits
      exact Task.permits_acquire hpermits.1
    have ⟨holders, hnodup, hholders, hcount⟩ := hmanaged.blocked hwaits hnotAsked
    refine ⟨holders, hnodup, fun j hj => ?_, hcount⟩
    have ⟨hhost, other, hholds⟩ := hholders j hj
    exact ⟨hhost, ⟨other, hholds⟩, hunfinished j other hholds, hholds.not_waits⟩
  · exact hmanaged.idle (fun i hi organizationId hholds => hover i hi (hunfinished i _ hholds)) hover

/-! ## Playing runs under the limiter -/

/-- A turn of run `i`; one that is not possible is skipped. -/
def LimitedRuns.turn (host : Nat → Host) (w : LimitedRuns Host) (i : Nat) (how : How) :
    LimitedRuns Host :=
  match w.runs.prog i, w.requests i with
  | .call (.acquire organizationId) _, none => ⟨w.runs,
      Function.update w.limiters (host i) ((w.limiters (host i)).acquire organizationId),
      Function.update w.requests i (some (w.limiters (host i)).requests.length)⟩
  | .call (.acquire organizationId) next, some request =>
      if (w.limiters (host i)).permits.any (fun permit => permit.request = request) then
        ⟨w.runs.performed i w.runs.shared.1 ⟨.acquire organizationId, .ok ()⟩ (next (.ok ())),
          w.limiters, w.requests⟩
      else w
  | .call op next, _ =>
      if op.limited then w
      else
        match w.runs.shared.1.perform i op how with
        | some (r, s) => ⟨w.runs.performed i s ⟨op, r⟩ (next r), w.limiters, w.requests⟩
        | none => w
  | _, _ => w

theorem LimitedRuns.turn_cases (w : LimitedRuns Host) (i : Nat) (how : How) :
    w.turn host i how = w ∨ LimitedStep host w (w.turn host i how) := by
  unfold LimitedRuns.turn
  split
  · rename_i hprog hunasked
    exact .inr (.asks hprog hunasked)
  · rename_i hprog hrequest
    split
    · rename_i hany
      have ⟨permit, hmem, he⟩ := List.any_eq_true.mp hany
      have hsame := of_decide_eq_true he
      exact .inr (.resolves hprog hmem (by rw [hrequest, hsame]))
    · exact .inl rfl
  · split
    · exact .inl rfl
    · rename_i hprog _ _ hop
      split
      · rename_i hperform
        exact .inr (.performs hprog (Bool.eq_false_iff.mpr hop) (RenewedWorld.performs hperform))
      · exact .inl rfl
  · exact .inl rfl

def LimitedRuns.play (host : Nat → Host) (w : LimitedRuns Host) (turns : List (Nat × How)) :
    LimitedRuns Host :=
  turns.foldl (fun w turn => w.turn host turn.1 turn.2) w

theorem LimitedRuns.Reached.play (h : w.Reached host tasks db clock) (turns : List (Nat × How)) :
    (w.play host turns).Reached host tasks db clock := by
  induction turns generalizing w with
  | nil => exact h
  | cons turn rest ih =>
      have hturn : (w.turn host turn.1 turn.2).Reached host tasks db clock := by
        rcases w.turn_cases turn.1 turn.2 with hsame | hstep
        · rw [hsame]
          exact h
        · exact h.tail hstep
      exact ih hturn

end

namespace Sample

open Product.Sample

/-- Four jobs of one organization. -/
def fourStarted : Store :=
  runAll (.empty workspaces) ([(107, 10), (108, 20), (109, 30), (110, 40)].map fun (key, fresh) =>
    .start [⟨2, .write, .organization⟩] { input with idempotencyKey := [key] } cipher
      ⟨[], fresh, fresh + 1, fresh + 2, fresh + 3, 0⟩)

/-- All runs are of one process. -/
def oneHost (_ : Nat) : Unit := ()

/-- A run for each job. -/
def fourTasks (i : Nat) : Task :=
  .process { cipher with decrypt := fun _ _ => .ok input.credentials } input.credentials.email
    (([11, 21, 31, 41] : List Uuid).getD i 0) none

/-- Each run claims its job and asks for a permit; the first three are granted one and call the
provisioner. -/
def limited : LimitedRuns Unit :=
  (limitedSystem fourTasks fourStarted 5).play oneHost
    ([(0, 101), (1, 102), (2, 103), (3, 104)].flatMap fun (i, fresh) =>
      List.replicate 11 (i, How.succeeds fresh))

/-- What the program waits for, if it waits for a permit. -/
def acquiring : WorkerProgram (Option ProcessTenantValidationJobResult) → Option Uuid
  | .call (.acquire organizationId) _ => some organizationId
  | _ => none

theorem acquiring_eq_some {p : WorkerProgram (Option ProcessTenantValidationJobResult)}
    {organizationId : Uuid} (h : acquiring p = some organizationId) :
    ∃ next, p = .call (.acquire organizationId) next := by
  unfold acquiring at h
  split at h
  · cases h
    exact ⟨_, rfl⟩
  · cases h

end Sample

open Sample in
/-- The fourth run of the organization waits for the other three. -/
theorem limited_runs_fourth :
    limited.Waits oneHost 3 2 ∧ ∃ holders : List Nat, holders.Nodup ∧
      (∀ j ∈ holders, (∃ other, limited.Holds oneHost j other) ∧
        (limited.runs.prog j).outcome = none ∧ ∀ other, ¬ limited.Waits oneHost j other) ∧
      (holders.length = 5 ∨
        holders.length = 3 ∧ ∀ j ∈ holders, limited.Holds oneHost j 2) := by
  have hinitial : LimitedRuns.Reached oneHost fourTasks fourStarted 5
      (limitedSystem fourTasks fourStarted 5) := .refl
  have hreached : limited.Reached oneHost fourTasks fourStarted 5 := hinitial.play _
  have hacquiring : acquiring (limited.runs.prog 3) = some 2 := by decide +kernel
  have hnone :
      (limited.limiters (oneHost 3)).permits.all (fun permit => permit.request ≠ 3) = true := by
    decide +kernel
  have hwaits : limited.Waits oneHost 3 2 :=
    ⟨acquiring_eq_some hacquiring, 3, by decide +kernel, fun permit hmem =>
      of_decide_eq_true (List.all_eq_true.mp hnone permit hmem)⟩
  have ⟨holders, hnodup, hholders, hcount⟩ := (limited_runs hreached).2.2.2.1 3 2 hwaits
  exact ⟨hwaits, holders, hnodup, fun j hj => (hholders j hj).2, hcount⟩

end InboxSaas.Worker
