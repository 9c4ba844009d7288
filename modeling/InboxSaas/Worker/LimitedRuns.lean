import InboxSaas.Worker.Admission
import InboxSaas.Worker.RenewedRuns
import InboxSaas.Worker.ValidationRequests

/-!
# Runs under the limiter

The runs of any number of worker processes, each with a `MicrosoftWorkLimiter` of its own.  A run
calls `acquire`, which numbers the call, and goes on when the limiter has resolved it with a permit;
`release` is the release function of this permit.  Every world of this system is one of the system
in which permits are granted at any time, and what a run knows of its permit is what its limiter
does.
-/

namespace InboxSaas.Worker

open Reasoning Product Program

/-! ## What a call of the limiter does to the permits -/

section

variable {Organization : Type} [DecidableEq Organization]
  {l : MicrosoftWorkLimiter Organization} {permit : Permit Organization}

theorem permits_acquire (l : MicrosoftWorkLimiter Organization) (organizationId : Organization) :
    (l.acquire organizationId).requests = l.requests ++ [organizationId] ∧
      ((l.acquire organizationId).permits = l.permits ∨
        (l.acquire organizationId).permits =
          l.permits ++ [⟨organizationId, l.requests.length, false⟩]) := by
  unfold MicrosoftWorkLimiter.acquire
  dsimp only
  split
  · exact ⟨rfl, .inr rfl⟩
  · exact ⟨rfl, .inl rfl⟩

/-- Permits that are created by waking are not released. -/
theorem mem_wakeWaiters (h : permit ∈ l.wakeWaiters.permits) :
    permit ∈ l.permits ∨ permit.released = false := by
  have ⟨_, granted, hpermits, hnone⟩ := wakeWaiters_extends l
  rw [hpermits] at h
  rcases List.mem_append.mp h with hold | hnew
  · exact .inl hold
  · exact .inr (hnone permit hnew)

omit [DecidableEq Organization] in
/-- The requests of two permits differ. -/
theorem Queued.permit_eq (h : Queued l) {permit' : Permit Organization} (hmem : permit ∈ l.permits)
    (hmem' : permit' ∈ l.permits) (hsame : permit.request = permit'.request) : permit = permit' := by
  have hnodup : (l.permits.map Permit.request).Nodup :=
    (h.once.nodup_iff.mpr List.nodup_range).of_append_left
  exact List.inj_on_of_nodup_map hnodup hmem hmem' hsame

omit [DecidableEq Organization] in
theorem Queued.request_lt (h : Queued l) (hmem : permit ∈ l.permits) :
    permit.request < l.requests.length :=
  (List.getElem?_eq_some_iff.mp (h.granted permit hmem)).1

/-- A release function releases its own permit. -/
theorem permits_release {index : Nat} {organizationId : Organization} {request : Nat}
    (hpermit : l.permits[index]? = some ⟨organizationId, request, false⟩) :
    (l.release index).requests = l.requests ∧
      ⟨organizationId, request, true⟩ ∈ (l.release index).permits ∧
      (∀ permit ∈ l.permits, permit.request ≠ request → permit ∈ (l.release index).permits) ∧
      ∀ permit ∈ (l.release index).permits, permit.request ≠ request →
        permit ∈ l.permits ∨ permit.released = false := by
  have hreleases : l.release index =
      (l.giveBack index ⟨organizationId, request, false⟩).wakeWaiters := by
    unfold MicrosoftWorkLimiter.release
    rw [hpermit]
    rfl
  have ⟨hrequests, granted, hpermits, _⟩ :=
    wakeWaiters_extends (l.giveBack index ⟨organizationId, request, false⟩)
  have hset : (l.giveBack index ⟨organizationId, request, false⟩).permits =
      l.permits.set index ⟨organizationId, request, true⟩ := rfl
  have ⟨hlt, hget⟩ := List.getElem?_eq_some_iff.mp hpermit
  rw [hreleases]
  refine ⟨hrequests, ?_, ?_, ?_⟩
  · rw [hpermits]
    apply List.mem_append_left
    rw [hset]
    exact List.mem_set hlt _
  · intro permit hmem hne
    rw [hpermits]
    apply List.mem_append_left
    rw [hset]
    have ⟨j, hj, he⟩ := List.mem_iff_getElem.mp hmem
    have hindex : index ≠ j := by
      intro hij
      subst hij
      rw [hget] at he
      subst he
      exact hne rfl
    exact List.mem_iff_getElem.mpr ⟨j, by rwa [List.length_set],
      (List.getElem_set_ne hindex _).trans he⟩
  · intro permit hmem hne
    rcases mem_wakeWaiters hmem with hmem | hnew
    · rw [hset] at hmem
      rcases List.mem_or_eq_of_mem_set hmem with hold | he
      · exact .inl hold
      · subst he
        exact absurd rfl hne
    · exact .inr hnew

end

/-! ## The system -/

/-- The runs, the limiter of each worker process, and the number of the call of `acquire` that each
run made. -/
structure LimitedRuns (Host : Type) where
  runs : RenewedRuns
  limiters : Host → MicrosoftWorkLimiter Uuid
  requests : Nat → Option Nat

def limitedSystem {Host : Type} (tasks : Nat → Task) (db : Store) (clock : Time) :
    LimitedRuns Host :=
  ⟨renewedSystem tasks db clock, fun _ => .new, fun _ => none⟩

/-- The limiter decides how these go. -/
def WorkerOp.limited : WorkerOp → Bool
  | .acquire _ => true
  | .release _ => true
  | _ => false

/-- Run `i` performed the event, and `next` is left of it. -/
def RenewedRuns.performed (w : RenewedRuns) (i : Nat) (s : RenewedWorld) (e : WorkerEvent)
    (next : WorkerProgram (Option ProcessTenantValidationJobResult)) : RenewedRuns :=
  ⟨(s, w.shared.2 ++ [(i, e)]), Function.update w.prog i next⟩

section

variable {Host : Type} [DecidableEq Host]

/-- One step; `host i` is the worker process of run `i`. -/
inductive LimitedStep (host : Nat → Host) (w : LimitedRuns Host) : LimitedRuns Host → Prop where
  /-- The run calls `acquire` and waits for the promise. -/
  | asks {i : Nat} {organizationId : Uuid}
      {next : Except JsError Unit → WorkerProgram (Option ProcessTenantValidationJobResult)}
      (hprog : w.runs.prog i = .call (.acquire organizationId) next)
      (hunasked : w.requests i = none) :
      LimitedStep host w ⟨w.runs,
        Function.update w.limiters (host i) ((w.limiters (host i)).acquire organizationId),
        Function.update w.requests i (some (w.limiters (host i)).requests.length)⟩
  /-- The promise is resolved with a permit, and the run goes on. -/
  | resolves {i : Nat} {organizationId : Uuid}
      {next : Except JsError Unit → WorkerProgram (Option ProcessTenantValidationJobResult)}
      {permit : Permit Uuid} (hprog : w.runs.prog i = .call (.acquire organizationId) next)
      (hmem : permit ∈ (w.limiters (host i)).permits)
      (hrequest : w.requests i = some permit.request) :
      LimitedStep host w ⟨w.runs.performed i w.runs.shared.1 ⟨.acquire organizationId, .ok ()⟩
        (next (.ok ())), w.limiters, w.requests⟩
  /-- The run calls the release function it was given. -/
  | releases {i index : Nat} {organizationId : Uuid}
      {next : Except JsError Unit → WorkerProgram (Option ProcessTenantValidationJobResult)}
      {permit : Permit Uuid} (hprog : w.runs.prog i = .call (.release organizationId) next)
      (hpermit : (w.limiters (host i)).permits[index]? = some permit)
      (hrequest : w.requests i = some permit.request) :
      LimitedStep host w ⟨w.runs.performed i w.runs.shared.1 ⟨.release organizationId, .ok ()⟩
        (next (.ok ())),
        Function.update w.limiters (host i) ((w.limiters (host i)).release index), w.requests⟩
  | performs {i : Nat} {op : WorkerOp}
      {next : Except JsError op.Reply → WorkerProgram (Option ProcessTenantValidationJobResult)}
      {r : Except JsError op.Reply} {s : RenewedWorld} (hprog : w.runs.prog i = .call op next)
      (hop : op.limited = false) (h : RenewedPerforms i w.runs.shared.1 op r s) :
      LimitedStep host w ⟨w.runs.performed i s ⟨op, r⟩ (next r), w.limiters, w.requests⟩
  | drifts {s : RenewedWorld} (h : RenewedDrifts w.runs.shared.1 s) :
      LimitedStep host w ⟨⟨(s, w.runs.shared.2), w.runs.prog⟩, w.limiters, w.requests⟩

/-- The worlds that any interleaving of the tasks leads to. -/
def LimitedRuns.Reached (host : Nat → Host) (tasks : Nat → Task) (db : Store) (clock : Time)
    (w : LimitedRuns Host) : Prop :=
  Relation.ReflTransGen (LimitedStep host) (limitedSystem tasks db clock) w

/-! ## The limiter takes steps away -/

/-- A step under the limiter is a step of the system in which a permit is granted at any time, or
the runs stay as they are. -/
theorem LimitedStep.refines {host : Nat → Host} {w w' : LimitedRuns Host}
    (h : LimitedStep host w w') :
    w'.runs = w.runs ∨ ∃ l, Pool.Step renewedWorkers.traced w.runs l w'.runs := by
  cases h with
  | asks => exact .inl rfl
  | resolves hprog => exact .inr ⟨.run _, .run hprog ⟨.other nofun .acquire, rfl⟩⟩
  | releases hprog => exact .inr ⟨.run _, .run hprog ⟨.other nofun .release, rfl⟩⟩
  | performs hprog _ h => exact .inr ⟨.run _, .run hprog ⟨h, rfl⟩⟩
  | drifts h => exact .inr ⟨.drift, .drift ⟨h, rfl⟩⟩

theorem LimitedRuns.Reached.refines {host : Nat → Host} {tasks : Nat → Task} {db : Store}
    {clock : Time} {w : LimitedRuns Host} (h : w.Reached host tasks db clock) :
    w.runs.Reached tasks db clock := by
  induction h with
  | refl => exact Pool.Reaches.refl _ _
  | tail _ hstep ih =>
      rcases hstep.refines with hsame | ⟨l, hs⟩
      · rw [hsame]
        exact ih
      · exact Pool.Reaches.step ih hs

end

/-! ## What the limiter says of a run -/

/-- What a run did with its permit, and what the limiter knows of the call it made. -/
def Matches (l : MicrosoftWorkLimiter Uuid)
    (p : WorkerProgram (Option ProcessTenantValidationJobResult)) : Option Nat → Holding → Prop
  | none, holding => holding = .notAsked
  | some request, .notAsked => ∃ organizationId next,
      p = .call (.acquire organizationId) next ∧ l.requests[request]? = some organizationId ∧
        ∀ permit ∈ l.permits, permit.request = request → permit.released = false
  | some request, .held organizationId => ⟨organizationId, request, false⟩ ∈ l.permits
  | some request, .givenBack => ∃ organizationId, ⟨organizationId, request, true⟩ ∈ l.permits

namespace Matches

variable {l l' : MicrosoftWorkLimiter Uuid} {organizationId : Uuid} {request : Nat}
  {p p' : WorkerProgram (Option ProcessTenantValidationJobResult)} {holding : Holding}

theorem lt (h : Matches l p (some request) holding) (hqueued : Queued l) :
    request < l.requests.length := by
  cases holding with
  | notAsked =>
      have ⟨_, _, _, hrequest, _⟩ := h
      exact (List.getElem?_eq_some_iff.mp hrequest).1
  | held organizationId => exact hqueued.request_lt h
  | givenBack =>
      have ⟨_, hmem⟩ := h
      exact hqueued.request_lt hmem

/-- The calls and releases of others do not matter. -/
theorem keeps (h : Matches l p (some request) holding) (hrequests : l.requests <+: l'.requests)
    (hkept : ∀ permit ∈ l.permits, permit.request = request → permit ∈ l'.permits)
    (hnew : ∀ permit ∈ l'.permits, permit.request = request →
      permit ∈ l.permits ∨ permit.released = false) : Matches l' p (some request) holding := by
  cases holding with
  | notAsked =>
      have ⟨organizationId, next, hp, hrequest, hheld⟩ := h
      refine ⟨organizationId, next, hp, ?_, fun permit hmem hsame => ?_⟩
      · have ⟨later, hlater⟩ := hrequests
        rw [← hlater, List.getElem?_append_left (List.getElem?_eq_some_iff.mp hrequest).1, hrequest]
      · rcases hnew permit hmem hsame with hold | hnew
        · exact hheld permit hold hsame
        · exact hnew
  | held organizationId => exact hkept _ h rfl
  | givenBack =>
      have ⟨organizationId, hmem⟩ := h
      exact ⟨organizationId, hkept _ hmem rfl⟩

theorem acquire (h : Matches l p (some request) holding) (hqueued : Queued l)
    (organizationId : Uuid) : Matches (l.acquire organizationId) p (some request) holding := by
  have hlt := h.lt hqueued
  have ⟨hrequests, hpermits⟩ := permits_acquire l organizationId
  have hprefix : l.requests <+: (l.acquire organizationId).requests := by
    rw [hrequests]
    exact List.prefix_append _ _
  rcases hpermits with hsame | hgranted
  · exact h.keeps hprefix (fun _ hmem _ => hsame.symm ▸ hmem) fun _ hmem _ => .inl (hsame ▸ hmem)
  · apply h.keeps hprefix
    · intro permit hmem _
      rw [hgranted]
      exact List.mem_append_left _ hmem
    · intro permit hmem hrequest
      rw [hgranted] at hmem
      rcases List.mem_append.mp hmem with hmem | hmem
      · exact .inl hmem
      · rw [List.mem_singleton.mp hmem]
        exact .inr rfl

/-- The run goes on, and its permit stays. -/
theorem goesOn (h : Matches l p (some request) holding) (hholding : holding ≠ .notAsked) :
    Matches l p' (some request) holding := by
  cases holding with
  | notAsked => exact absurd rfl hholding
  | held => exact h
  | givenBack => exact h

/-- The permit of a run that waits or goes on is its own. -/
theorem resolved {next : Except JsError Unit → WorkerProgram (Option ProcessTenantValidationJobResult)}
    (h : Matches l (.call (.acquire organizationId) next) (some request) .notAsked)
    (hqueued : Queued l) {permit : Permit Uuid} (hmem : permit ∈ l.permits)
    (hrequest : permit.request = request) : permit = ⟨organizationId, request, false⟩ := by
  have ⟨organizationId', next', hp, hasked, hheld⟩ := h
  cases hp
  have hgranted := hqueued.granted permit hmem
  rw [hrequest, hasked] at hgranted
  cases permit
  cases hrequest
  cases hheld _ hmem rfl
  rw [Option.some.inj hgranted]

end Matches

/-! ## Every step -/

theorem Task.permits_acquire {task : Task} {cipher : TenantCredentialCipher} {l : List WorkerEvent}
    {organizationId : Uuid} (h : (task.requests cipher).permits l (.acquire organizationId)) :
    (course l).permit = .notAsked := by
  cases task with
  | process => exact h.1
  | tick => cases h
  | start => cases h

theorem Task.permits_release {task : Task} {cipher : TenantCredentialCipher} {l : List WorkerEvent}
    {organizationId : Uuid} (h : (task.requests cipher).permits l (.release organizationId)) :
    (course l).permit = .held organizationId := by
  cases task with
  | process => exact h
  | tick => cases h
  | start => cases h

theorem Task.permits_validateTenant {task : Task} {cipher : TenantCredentialCipher}
    {l : List WorkerEvent} {request : TenantValidationRequest}
    (h : (task.requests cipher).permits l (.validateTenant request)) :
    ∃ connection, (course l).connection = some connection ∧
      request.tenantConnectionId = connection.id ∧
      (course l).permit = .held connection.organizationId := by
  cases task with
  | process =>
      have ⟨connection, _, hconnection, _, hheld, _, hid, _⟩ := h
      exact ⟨connection, hconnection, hid, hheld⟩
  | tick => cases h
  | start => cases h

/-- Other operations leave the permit as it is. -/
theorem Course.next_permit (c : Course) {e : WorkerEvent} (h : e.op.limited = false) :
    (c.next e).permit = c.permit := by
  unfold Course.next
  split
  · rfl
  · rfl
  · cases h
  · cases h
  · rfl

/-! ## The numbers of the calls -/

/-- The `n` calls of a host are numbered below `n`, and each was made by one run. -/
structure Numbered {Host : Type} (host : Nat → Host) (calls : Host → Nat)
    (requests : Nat → Option Nat) : Prop where
  lt : ∀ i request, requests i = some request → request < calls (host i)
  distinct : ∀ i j request, host i = host j → requests i = some request →
    requests j = some request → i = j
  owned : ∀ h request, request < calls h → ∃ i, host i = h ∧ requests i = some request

/-- A run makes the next call of its host. -/
theorem Numbered.asks {Host : Type} [DecidableEq Host] {host : Nat → Host} {calls : Host → Nat}
    {requests : Nat → Option Nat} (h : Numbered host calls requests) {i : Nat}
    (hunasked : requests i = none) :
    Numbered host (Function.update calls (host i) (calls (host i) + 1))
      (Function.update requests i (some (calls (host i)))) := by
  have hle : ∀ h', calls h' ≤ Function.update calls (host i) (calls (host i) + 1) h' := by
    intro h'
    by_cases hh : h' = host i
    · rw [hh, Function.update_self]
      exact Nat.le_succ _
    · rw [Function.update_of_ne hh]
  have hasked : ∀ j request, Function.update requests i (some (calls (host i))) j = some request →
      j = i ∧ request = calls (host i) ∨ j ≠ i ∧ requests j = some request := by
    intro j request hrequest
    by_cases hj : j = i
    · rw [hj, Function.update_self] at hrequest
      exact .inl ⟨hj, (Option.some.inj hrequest).symm⟩
    · rw [Function.update_of_ne hj] at hrequest
      exact .inr ⟨hj, hrequest⟩
  constructor
  · intro j request hrequest
    rcases hasked j request hrequest with ⟨hj, he⟩ | ⟨_, hold⟩
    · rw [hj, he, Function.update_self]
      exact Nat.lt_succ_self _
    · exact Nat.lt_of_lt_of_le (h.lt j request hold) (hle _)
  -- the new number is above all that the host has given
  · intro j k request hhost hj hk
    rcases hasked j request hj with ⟨hji, he⟩ | ⟨_, hj⟩
    · rcases hasked k request hk with ⟨hki, _⟩ | ⟨_, hk⟩
      · exact hji.trans hki.symm
      · have hlt := h.lt k request hk
        rw [← hhost, hji, he] at hlt
        exact absurd hlt (Nat.lt_irrefl _)
    · rcases hasked k request hk with ⟨hki, he⟩ | ⟨_, hk⟩
      · have hlt := h.lt j request hj
        rw [hhost, hki, he] at hlt
        exact absurd hlt (Nat.lt_irrefl _)
      · exact h.distinct j k request hhost hj hk
  · intro h' request hlt
    have hold : request < calls h' → ∃ j, host j = h' ∧
        Function.update requests i (some (calls (host i))) j = some request := by
      intro hlt
      have ⟨j, hj, hrequest⟩ := h.owned h' request hlt
      have hji : j ≠ i := by
        intro hji
        rw [hji, hunasked] at hrequest
        cases hrequest
      exact ⟨j, hj, (Function.update_of_ne hji _ _).trans hrequest⟩
    by_cases hh : h' = host i
    · rw [hh, Function.update_self] at hlt
      rcases Nat.lt_succ_iff_lt_or_eq.mp hlt with hlt | he
      · exact hold (hh ▸ hlt)
      · exact ⟨i, hh.symm, by rw [he, Function.update_self]⟩
    · rw [Function.update_of_ne hh] at hlt
      exact hold hlt

section

variable {Host : Type}

/-- The number of calls that each limiter has seen. -/
def LimitedRuns.calls (w : LimitedRuns Host) (h : Host) : Nat :=
  (w.limiters h).requests.length

/-- The invariant: the limiters and the runs agree on what became of each call. -/
structure Managed (host : Nat → Host) (w : LimitedRuns Host) : Prop where
  settled : ∀ h, Settled (w.limiters h)
  agrees : ∀ i, Matches (w.limiters (host i)) (w.runs.prog i) (w.requests i)
    (course (own i w.runs.shared.2)).permit
  numbered : Numbered host w.calls w.requests

variable [DecidableEq Host] {host : Nat → Host} {tasks : Nat → Task} {db : Store} {clock : Time}
  {w w' : LimitedRuns Host}

/-- One limiter is replaced. -/
theorem calls_update (w : LimitedRuns Host) (runs : RenewedRuns) (requests : Nat → Option Nat)
    (h : Host) (l : MicrosoftWorkLimiter Uuid) :
    LimitedRuns.calls ⟨runs, Function.update w.limiters h l, requests⟩ =
      Function.update w.calls h l.requests.length := by
  funext h'
  show (Function.update w.limiters h l h').requests.length = _
  by_cases hh : h' = h
  · rw [hh, Function.update_self, Function.update_self]
  · rw [Function.update_of_ne hh, Function.update_of_ne hh]
    rfl

/-- What holds of each limiter holds where one is replaced. -/
theorem limiters_update {P : MicrosoftWorkLimiter Uuid → Prop}
    {limiters : Host → MicrosoftWorkLimiter Uuid} (h : Host) {l : MicrosoftWorkLimiter Uuid}
    (hlimiters : ∀ h, P (limiters h)) (hl : P l) (h' : Host) :
    P (Function.update limiters h l h') := by
  by_cases hh : h' = h
  · rw [hh, Function.update_self]
    exact hl
  · rw [Function.update_of_ne hh]
    exact hlimiters h'

namespace Managed

omit [DecidableEq Host] in
theorem initial (host : Nat → Host) (tasks : Nat → Task) (db : Store) (clock : Time) :
    Managed host (limitedSystem tasks db clock) where
  settled _ := .new
  agrees _ := rfl
  numbered := ⟨nofun, nofun, fun _ _ h => absurd h (Nat.not_lt_zero _)⟩

/-- Run `i` performs an event, and its limiter changes by that at most. -/
theorem advance (h : Managed host w) {i : Nat} {s : RenewedWorld} {e : WorkerEvent}
    {next : WorkerProgram (Option ProcessTenantValidationJobResult)}
    {l : MicrosoftWorkLimiter Uuid} (hl : Settled l)
    (hrequests : l.requests = (w.limiters (host i)).requests)
    (hothers : ∀ j, j ≠ i → host j = host i → Matches l (w.runs.prog j) (w.requests j)
      (course (own j w.runs.shared.2)).permit)
    (hown : Matches l next (w.requests i) ((course (own i w.runs.shared.2)).next e).permit) :
    Managed host
      ⟨w.runs.performed i s e next, Function.update w.limiters (host i) l, w.requests⟩ where
  settled := limiters_update _ h.settled hl
  agrees j := by
    show Matches (Function.update w.limiters (host i) l (host j))
      (Function.update w.runs.prog i next j) (w.requests j)
      (course (own j (w.runs.shared.2 ++ [(i, e)]))).permit
    rw [own_snoc]
    by_cases hj : i = j
    · subst hj
      rw [if_pos rfl, course_snoc, Function.update_self, Function.update_self]
      exact hown
    · rw [if_neg hj, Function.update_of_ne (Ne.symm hj)]
      by_cases hh : host j = host i
      · rw [hh, Function.update_self]
        exact hothers j (Ne.symm hj) hh
      · rw [Function.update_of_ne hh]
        exact h.agrees j
  numbered := by
    rw [calls_update, hrequests]
    show Numbered host (Function.update w.calls (host i) (w.calls (host i))) w.requests
    rw [Function.update_eq_self]
    exact h.numbered

/-- The limiter does not change. -/
theorem goesOn (h : Managed host w) {i : Nat} {s : RenewedWorld} {e : WorkerEvent}
    {next : WorkerProgram (Option ProcessTenantValidationJobResult)}
    (hown : Matches (w.limiters (host i)) next (w.requests i)
      ((course (own i w.runs.shared.2)).next e).permit) :
    Managed host ⟨w.runs.performed i s e next, w.limiters, w.requests⟩ := by
  have hsame := Function.update_eq_self (host i) w.limiters
  rw [← hsame]
  apply h.advance (h.settled _) rfl _ hown
  intro j _ hj
  rw [← hj]
  exact h.agrees j

/-- The run makes a call of `acquire`, the next one of its limiter. -/
theorem asks (h : Managed host w) {i : Nat} {organizationId : Uuid}
    {next : Except JsError Unit → WorkerProgram (Option ProcessTenantValidationJobResult)}
    (hprog : w.runs.prog i = .call (.acquire organizationId) next) (hunasked : w.requests i = none) :
    Managed host ⟨w.runs,
      Function.update w.limiters (host i) ((w.limiters (host i)).acquire organizationId),
      Function.update w.requests i (some (w.limiters (host i)).requests.length)⟩ := by
  have hqueued := (h.settled (host i)).queued
  have ⟨hrequests, hpermits⟩ := permits_acquire (w.limiters (host i)) organizationId
  constructor
  · exact limiters_update _ h.settled ((h.settled _).acquire organizationId).1
  · intro j
    show Matches (Function.update w.limiters (host i) _ (host j)) (w.runs.prog j)
      (Function.update w.requests i _ j) (course (own j w.runs.shared.2)).permit
    have hagrees := h.agrees j
    by_cases hj : j = i
    · subst hj
      rw [hunasked] at hagrees
      rw [Function.update_self, Function.update_self, hagrees]
      refine ⟨organizationId, next, hprog, ?_, fun permit hmem hsame => ?_⟩
      · rw [hrequests, List.getElem?_concat_length]
      · -- a permit with the number of this call is the one that the call was granted
        have hold : permit ∉ (w.limiters (host j)).permits := fun hold =>
          absurd hsame (Nat.ne_of_lt (hqueued.request_lt hold))
        rcases hpermits with he | he
        · exact absurd (he ▸ hmem) hold
        · rw [he] at hmem
          rcases List.mem_append.mp hmem with hmem | hmem
          · exact absurd hmem hold
          · rw [List.mem_singleton.mp hmem]
    · rw [Function.update_of_ne hj]
      by_cases hh : host j = host i
      · rw [hh, Function.update_self]
        rw [hh] at hagrees
        cases hasked : w.requests j with
        | none =>
            rw [hasked] at hagrees
            exact hagrees
        | some request =>
            rw [hasked] at hagrees
            exact hagrees.acquire hqueued organizationId
      · rw [Function.update_of_ne hh]
        exact hagrees
  · rw [calls_update, hrequests, List.length_append]
    exact h.numbered.asks hunasked

/-- The run gives its own permit back, and the permits of others stay. -/
theorem releases (h : Managed host w) {i index : Nat} {organizationId : Uuid}
    {next : Except JsError Unit → WorkerProgram (Option ProcessTenantValidationJobResult)}
    {permit : Permit Uuid} (hheld : (course (own i w.runs.shared.2)).permit = .held organizationId)
    (hpermit : (w.limiters (host i)).permits[index]? = some permit)
    (hrequest : w.requests i = some permit.request) :
    Managed host ⟨w.runs.performed i w.runs.shared.1 ⟨.release organizationId, .ok ()⟩
      (next (.ok ())),
      Function.update w.limiters (host i) ((w.limiters (host i)).release index), w.requests⟩ := by
  have hmine := h.agrees i
  rw [hrequest, hheld] at hmine
  have hqueued := (h.settled (host i)).queued
  have hsame : permit = ⟨organizationId, permit.request, false⟩ :=
    hqueued.permit_eq (List.mem_of_getElem? hpermit) hmine rfl
  rw [hsame] at hpermit
  have ⟨hrequests, hback, hkept, hnew⟩ := permits_release hpermit
  apply h.advance ((h.settled _).release index).1 hrequests
  · intro j hj hh
    have hagrees := h.agrees j
    rw [hh] at hagrees
    cases hasked : w.requests j with
    | none =>
        rw [hasked] at hagrees
        exact hagrees
    | some request =>
        have hne : request ≠ permit.request := by
          intro he
          rw [he] at hasked
          exact hj (h.numbered.distinct j i _ hh hasked hrequest)
        rw [hasked] at hagrees
        apply hagrees.keeps
        · exact hrequests ▸ List.prefix_refl _
        · exact fun other hmem hother => hkept other hmem (hother ▸ hne)
        · exact fun other hmem hother => hnew other hmem (hother ▸ hne)
  · rw [hrequest]
    exact ⟨organizationId, hback⟩

/-- A step of a run that does what its course permits. -/
theorem step (h : Managed host w) {ciphers : Nat → TenantCredentialCipher}
    (hobeys : ∀ i, Obeys ((tasks i).requests (ciphers i)) (fun _ l => (course l).Released)
      (w.runs.prog i) (own i w.runs.shared.2)) (hs : LimitedStep host w w') : Managed host w' := by
  have hpermits : ∀ i op next, w.runs.prog i = .call op next →
      ((tasks i).requests (ciphers i)).permits (own i w.runs.shared.2) op := by
    intro i op next hprog
    have hrun := hobeys i
    rw [hprog] at hrun
    exact hrun.1
  cases hs with
  | asks hprog hunasked => exact h.asks hprog hunasked
  | resolves hprog hmem hrequest =>
      rename_i i organizationId next permit
      have hagrees := h.agrees i
      rw [hrequest, hprog, Task.permits_acquire (hpermits i _ next hprog)] at hagrees
      have hmine := hagrees.resolved (h.settled _).queued hmem rfl
      apply h.goesOn
      rw [hrequest]
      show ⟨organizationId, permit.request, false⟩ ∈ (w.limiters (host i)).permits
      rwa [← hmine]
  | releases hprog hpermit hrequest =>
      exact h.releases (Task.permits_release (hpermits _ _ _ hprog)) hpermit hrequest
  | performs hprog hop _ =>
      rename_i i op next r s _
      have hagrees := h.agrees i
      apply h.goesOn
      rw [Course.next_permit _ hop]
      cases hasked : w.requests i with
      | none =>
          rw [hasked] at hagrees
          exact hagrees
      | some request =>
          rw [hasked] at hagrees
          apply hagrees.goesOn
          intro hnotAsked
          rw [hnotAsked, hprog] at hagrees
          have ⟨_, _, he, _⟩ := hagrees
          cases he
          cases hop
  | drifts => exact ⟨h.settled, h.agrees, h.numbered⟩

end Managed

/-- The invariant holds wherever the tasks get. -/
theorem LimitedRuns.Reached.managed (h : w.Reached host tasks db clock)
    {ciphers : Nat → TenantCredentialCipher} (huses : ∀ i, (tasks i).Uses (ciphers i)) :
    Managed host w := by
  induction h with
  | refl => exact .initial host tasks db clock
  | tail hreached hstep ih =>
      have hobeys := (LimitedRuns.Reached.refines hreached).requests huses
      exact ih.step hobeys hstep

end

end InboxSaas.Worker
