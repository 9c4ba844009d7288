import Mathlib.Data.List.Perm.Basic
import InboxSaas.Worker.MicrosoftWorkLimiter

/-!
# Admission

After any sequence of calls the counters of the limiter are the true numbers of permits that were
granted and not released, within the limits, and each call of `acquire` was granted once or waits
once.  Whoever waits has no capacity, and nobody who could have been granted a permit is overtaken.
-/

namespace InboxSaas.Worker

variable {Organization : Type}

/-- The number of permits that are granted and not released. -/
def held (permits : List (Permit Organization)) : Nat :=
  permits.countP fun permit => !permit.released

theorem held_append (permits : List (Permit Organization)) (organizationId : Organization)
    (request : Nat) : held (permits ++ [⟨organizationId, request, false⟩]) = held permits + 1 := by
  simp [held]

/-- Releasing a permit takes one off the count. -/
theorem held_set {permits : List (Permit Organization)} {index : Nat} {permit : Permit Organization}
    (h : permits[index]? = some permit) (hreleased : permit.released = false) :
    held permits = held (permits.set index { permit with released := true }) + 1 := by
  obtain ⟨hlt, hget⟩ := List.getElem?_eq_some_iff.mp h
  have hpos : 0 < permits.countP fun permit => !permit.released :=
    List.countP_pos_iff.mpr ⟨permit, List.mem_of_getElem? h, by simp [hreleased]⟩
  unfold held
  rw [List.countP_set hlt, hget]
  simp only [hreleased, Bool.not_false, if_true, Bool.not_true, Bool.false_eq_true, if_false]
  omega

variable [DecidableEq Organization]

def heldBy (permits : List (Permit Organization)) (organizationId : Organization) : Nat :=
  permits.countP fun permit => !permit.released && permit.organizationId = organizationId

/-! ## The counters -/

/-- The counters are the true counts, and these are within the limits. -/
structure Counted (l : MicrosoftWorkLimiter Organization) : Prop where
  global : l.activeGlobal = held l.permits
  organization : ∀ organizationId, l.activeByOrganization organizationId =
    if heldBy l.permits organizationId = 0 then none
    else some (heldBy l.permits organizationId : Int)
  globalLimit : held l.permits ≤ 5
  organizationLimit : ∀ organizationId, heldBy l.permits organizationId ≤ 3

theorem heldBy_append (permits : List (Permit Organization)) (organizationId other : Organization)
    (request : Nat) : heldBy (permits ++ [⟨organizationId, request, false⟩]) other =
      heldBy permits other + if organizationId = other then 1 else 0 := by
  unfold heldBy
  rw [List.countP_append, List.countP_singleton]
  by_cases h : organizationId = other <;> simp [h]

theorem heldBy_set {permits : List (Permit Organization)} {index : Nat}
    {permit : Permit Organization} (h : permits[index]? = some permit)
    (hreleased : permit.released = false) (organizationId : Organization) :
    heldBy permits organizationId =
      heldBy (permits.set index { permit with released := true }) organizationId +
        if permit.organizationId = organizationId then 1 else 0 := by
  obtain ⟨hlt, hget⟩ := List.getElem?_eq_some_iff.mp h
  unfold heldBy
  rw [List.countP_set hlt, hget]
  by_cases ho : permit.organizationId = organizationId
  · have hpos : 0 < permits.countP fun permit =>
        !permit.released && permit.organizationId = organizationId :=
      List.countP_pos_iff.mpr ⟨permit, List.mem_of_getElem? h, by simp [hreleased, ho]⟩
    simp only [hreleased, ho, Bool.not_false, Bool.true_and, decide_true, if_true, Bool.not_true,
      Bool.false_and, Bool.false_eq_true, if_false]
    omega
  · simp [hreleased, ho]

namespace Counted

variable {l : MicrosoftWorkLimiter Organization} {organizationId : Organization} {request : Nat}

theorem getD (h : Counted l) (organizationId : Organization) :
    (l.activeByOrganization organizationId).getD 0 = heldBy l.permits organizationId := by
  rw [h.organization]
  split
  · rename_i hz
    rw [hz]
    rfl
  · rfl

/-- The check of the code is the check of the true counts. -/
theorem hasCapacity (h : Counted l) : l.hasCapacity organizationId = true ↔
    held l.permits < 5 ∧ heldBy l.permits organizationId < 3 := by
  unfold MicrosoftWorkLimiter.hasCapacity
  rw [Bool.and_eq_true, decide_eq_true_iff, decide_eq_true_iff, h.global, h.getD]
  omega

theorem new : Counted (MicrosoftWorkLimiter.new : MicrosoftWorkLimiter Organization) where
  global := rfl
  organization _ := rfl
  globalLimit := Nat.zero_le 5
  organizationLimit _ := Nat.zero_le 3

/-- Waiters and requests do not count. -/
theorem congr {l' : MicrosoftWorkLimiter Organization} (h : Counted l)
    (hglobal : l'.activeGlobal = l.activeGlobal)
    (horganization : l'.activeByOrganization = l.activeByOrganization)
    (hpermits : l'.permits = l.permits) : Counted l' := by
  constructor
  · rw [hglobal, hpermits, h.global]
  · rw [horganization, hpermits]
    exact h.organization
  · rw [hpermits]
    exact h.globalLimit
  · rw [hpermits]
    exact h.organizationLimit

theorem grant (h : Counted l) (hcap : l.hasCapacity organizationId = true) :
    Counted (l.grant organizationId request) := by
  have hlt := h.hasCapacity.mp hcap
  have hheld : held (l.grant organizationId request).permits = held l.permits + 1 :=
    held_append l.permits organizationId request
  have hheldBy : ∀ other, heldBy (l.grant organizationId request).permits other =
      heldBy l.permits other + if organizationId = other then 1 else 0 :=
    fun other => heldBy_append l.permits organizationId other request
  refine ⟨?_, fun other => ?_, by omega, fun other => ?_⟩
  · have hglobal : (l.grant organizationId request).activeGlobal = l.activeGlobal + 1 := rfl
    rw [hglobal, hheld, h.global]
    omega
  · have hmap : (l.grant organizationId request).activeByOrganization =
        Function.update l.activeByOrganization organizationId
          (some ((l.activeByOrganization organizationId).getD 0 + 1)) := rfl
    rw [hmap, hheldBy]
    by_cases ho : other = organizationId
    · subst ho
      rw [Function.update_self, h.getD, if_pos rfl, if_neg (by omega)]
      congr 1
    · rw [Function.update_of_ne ho, h.organization, if_neg (Ne.symm ho), Nat.add_zero]
  · rw [hheldBy]
    split
    · rename_i ho
      subst ho
      omega
    · exact h.organizationLimit other

theorem giveBack (h : Counted l) {index : Nat} {permit : Permit Organization}
    (hpermit : l.permits[index]? = some permit) (hreleased : permit.released = false) :
    Counted (l.giveBack index permit) := by
  have hheld := held_set hpermit hreleased
  have hheldBy := heldBy_set hpermit hreleased
  have hpermits : (l.giveBack index permit).permits =
      l.permits.set index { permit with released := true } := rfl
  constructor
  · have hglobal : (l.giveBack index permit).activeGlobal = l.activeGlobal - 1 := rfl
    rw [hglobal, hpermits, h.global]
    omega
  · intro other
    have hmap : (l.giveBack index permit).activeByOrganization =
        Function.update l.activeByOrganization permit.organizationId
          (if (l.activeByOrganization permit.organizationId).getD 1 - 1 = 0 then none
          else some ((l.activeByOrganization permit.organizationId).getD 1 - 1)) := rfl
    rw [hmap, hpermits]
    by_cases ho : other = permit.organizationId
    · subst ho
      have hone := hheldBy permit.organizationId
      rw [if_pos rfl] at hone
      -- the entry is there, so the default of 1 is not used
      have hentry : (l.activeByOrganization permit.organizationId).getD 1 =
          heldBy l.permits permit.organizationId := by
        rw [h.organization, if_neg (by omega)]
        rfl
      rw [Function.update_self, hentry, hone]
      by_cases hz : heldBy (l.permits.set index { permit with released := true })
          permit.organizationId = 0
      · rw [if_pos (by omega), if_pos hz]
      · rw [if_neg (by omega), if_neg hz]
        congr 1
        omega
    · have hsame := hheldBy other
      rw [if_neg (Ne.symm ho), Nat.add_zero] at hsame
      rw [Function.update_of_ne ho, h.organization, hsame]
  · rw [hpermits]
    have hlimit := h.globalLimit
    omega
  · intro other
    rw [hpermits]
    have hlimit := h.organizationLimit other
    have hsame := hheldBy other
    omega

end Counted

/-! ## The queue -/

/-- Each call of `acquire` was granted a permit once or waits once, and the waiters are in the order
of their calls. -/
structure Queued (l : MicrosoftWorkLimiter Organization) : Prop where
  waiting : ∀ waiter ∈ l.waiters, l.requests[waiter.request]? = some waiter.organizationId
  granted : ∀ permit ∈ l.permits, l.requests[permit.request]? = some permit.organizationId
  once : (l.permits.map Permit.request ++ l.waiters.map Waiter.request).Perm
    (List.range l.requests.length)
  sorted : (l.waiters.map Waiter.request).Pairwise (· < ·)

namespace Queued

variable {l : MicrosoftWorkLimiter Organization}

omit [DecidableEq Organization] in
theorem new : Queued (MicrosoftWorkLimiter.new : MicrosoftWorkLimiter Organization) where
  waiting _ h := absurd h List.not_mem_nil
  granted _ h := absurd h List.not_mem_nil
  once := .refl _
  sorted := .nil

omit [DecidableEq Organization] in
/-- A call that has not been granted a permit waits. -/
theorem waits (h : Queued l) {request : Nat} (hlt : request < l.requests.length)
    (hnot : ∀ permit ∈ l.permits, permit.request ≠ request) :
    ∃ waiter ∈ l.waiters, waiter.request = request := by
  have hmem : request ∈ l.permits.map Permit.request ++ l.waiters.map Waiter.request :=
    h.once.mem_iff.mpr (List.mem_range.mpr hlt)
  rcases List.mem_append.mp hmem with hp | hw
  · obtain ⟨permit, hpermit, he⟩ := List.mem_map.mp hp
    exact absurd he (hnot permit hpermit)
  · exact List.mem_map.mp hw

/-- A waiter leaves the queue with a permit. -/
theorem grant (h : Queued l) {passed rest : List (Waiter Organization)}
    {waiter : Waiter Organization} (hw : l.waiters = passed ++ waiter :: rest) :
    Queued ({ l with waiters := passed ++ rest }.grant waiter.organizationId waiter.request) := by
  have hwaiting := h.waiting
  rw [hw] at hwaiting
  have hme : l.requests[waiter.request]? = some waiter.organizationId :=
    hwaiting waiter (List.mem_append_right _ List.mem_cons_self)
  have hsub : (passed ++ rest).Sublist (passed ++ waiter :: rest) :=
    List.Sublist.append_left (List.sublist_cons_self waiter rest) passed
  constructor
  · exact fun other ho => hwaiting other (hsub.subset ho)
  · intro permit hp
    rcases List.mem_append.mp hp with hp | hp
    · exact h.granted permit hp
    · rw [List.mem_singleton.mp hp]
      exact hme
  · have honce := h.once
    rw [hw] at honce
    refine List.Perm.trans ?_ honce
    change ((l.permits ++ [(⟨waiter.organizationId, waiter.request, false⟩ : Permit Organization)]).map
      Permit.request ++ (passed ++ rest).map Waiter.request).Perm _
    rw [List.map_append, List.append_assoc]
    refine List.Perm.append_left _ ?_
    have hmiddle : (waiter :: (passed ++ rest)).Perm (passed ++ waiter :: rest) :=
      List.perm_middle.symm
    exact hmiddle.map Waiter.request
  · have hsorted := h.sorted
    rw [hw] at hsorted
    exact hsorted.sublist (hsub.map Waiter.request)

/-- A new call is appended to the requests, with its permit or at the end of the queue. -/
theorem acquire (h : Queued l) (organizationId : Organization) :
    Queued (l.acquire organizationId) := by
  have hold : ∀ {request : Nat} {o : Organization}, l.requests[request]? = some o →
      (l.requests ++ [organizationId])[request]? = some o := by
    intro request o ho
    obtain ⟨hlt, -⟩ := List.getElem?_eq_some_iff.mp ho
    rw [List.getElem?_append_left hlt, ho]
  have hnew : (l.requests ++ [organizationId])[l.requests.length]? = some organizationId := by
    simp
  have hrange : List.range (l.requests ++ [organizationId]).length =
      List.range l.requests.length ++ [l.requests.length] := by
    rw [List.length_append, List.length_singleton, List.range_succ]
  unfold MicrosoftWorkLimiter.acquire
  split
  · constructor
    · exact fun waiter hw => hold (h.waiting waiter hw)
    · intro permit hp
      rcases List.mem_append.mp hp with hp | hp
      · exact hold (h.granted permit hp)
      · rw [List.mem_singleton.mp hp]
        exact hnew
    · change ((l.permits ++ [(⟨organizationId, l.requests.length, false⟩ : Permit Organization)]).map
        Permit.request ++ l.waiters.map Waiter.request).Perm
        (List.range (l.requests ++ [organizationId]).length)
      rw [hrange, List.map_append, List.append_assoc]
      refine List.Perm.trans (List.Perm.append_left _ List.perm_append_comm) ?_
      rw [← List.append_assoc]
      exact h.once.append_right _
    · exact h.sorted
  · constructor
    · intro waiter hw
      rcases List.mem_append.mp hw with hw | hw
      · exact hold (h.waiting waiter hw)
      · rw [List.mem_singleton.mp hw]
        exact hnew
    · exact fun permit hp => hold (h.granted permit hp)
    · change (l.permits.map Permit.request ++
        (l.waiters ++ [(⟨organizationId, l.requests.length⟩ : Waiter Organization)]).map
        Waiter.request).Perm
        (List.range (l.requests ++ [organizationId]).length)
      rw [hrange, List.map_append, ← List.append_assoc]
      exact h.once.append_right _
    · change ((l.waiters ++ [(⟨organizationId, l.requests.length⟩ : Waiter Organization)]).map
        Waiter.request).Pairwise _
      rw [List.map_append, List.pairwise_append]
      refine ⟨h.sorted, List.pairwise_singleton _ _, fun request hr later hl => ?_⟩
      rw [List.mem_singleton.mp hl]
      obtain ⟨waiter, hw, rfl⟩ := List.mem_map.mp hr
      exact (List.getElem?_eq_some_iff.mp (h.waiting waiter hw)).1

/-- Giving a permit back does not touch the queue. -/
theorem giveBack (h : Queued l) {index : Nat} {permit : Permit Organization}
    (hpermit : l.permits[index]? = some permit) : Queued (l.giveBack index permit) := by
  have hmap : (l.permits.set index { permit with released := true }).map Permit.request =
      l.permits.map Permit.request := by
    apply List.ext_getElem?
    intro k
    rw [List.getElem?_map, List.getElem?_map, List.getElem?_set]
    by_cases hk : index = k
    · subst hk
      rw [if_pos rfl, hpermit]
      simp [(List.getElem?_eq_some_iff.mp hpermit).1]
    · rw [if_neg hk]
  constructor
  · exact h.waiting
  · intro other ho
    rcases List.mem_or_eq_of_mem_set ho with ho | rfl
    · exact h.granted other ho
    · exact h.granted permit (List.mem_of_getElem? hpermit)
  · change ((l.permits.set index { permit with released := true }).map Permit.request ++ _).Perm _
    rw [hmap]
    exact h.once
  · exact h.sorted

end Queued

/-! ## Overtaking -/

/-- Each permit from the `n`th on was granted fairly: an earlier call that was still waiting at that
moment is of another organization, which held all its permits. -/
def Fair (n : Nat) (l : MicrosoftWorkLimiter Organization) : Prop :=
  ∀ j permit, n ≤ j → l.permits[j]? = some permit → ∀ request organizationId,
    request < permit.request → l.requests[request]? = some organizationId →
    (∀ earlier ∈ l.permits.take j, earlier.request ≠ request) →
    organizationId ≠ permit.organizationId ∧ heldBy (l.permits.take j) organizationId = 3

/-- Calls of one organization are granted their permits in the order of the calls. -/
def Fifo (l : MicrosoftWorkLimiter Organization) : Prop :=
  ∀ j permit, l.permits[j]? = some permit → ∀ request, request < permit.request →
    l.requests[request]? = some permit.organizationId →
    ∃ earlier ∈ l.permits.take j, earlier.request = request

/-- An organization without capacity gets none by a grant. -/
theorem Counted.blocked_grant {l : MicrosoftWorkLimiter Organization} (h : Counted l)
    {organizationId other : Organization} {request : Nat}
    (hcap : l.hasCapacity organizationId = true) (hother : l.hasCapacity other = false) :
    (l.grant organizationId request).hasCapacity other = false := by
  rw [Bool.eq_false_iff, ne_eq, (h.grant hcap).hasCapacity]
  rw [Bool.eq_false_iff, ne_eq, h.hasCapacity] at hother
  have hheld : held (l.grant organizationId request).permits = held l.permits + 1 :=
    held_append l.permits organizationId request
  have hheldBy : heldBy (l.grant organizationId request).permits other =
      heldBy l.permits other + if organizationId = other then 1 else 0 :=
    heldBy_append l.permits organizationId other request
  omega

/-- A permit is granted fairly when every earlier call that still waits has no capacity. -/
theorem Fair.grant {l : MicrosoftWorkLimiter Organization} {n : Nat} (h : Fair n l)
    (hcounted : Counted l) {organizationId : Organization} {request : Nat}
    (hcap : l.hasCapacity organizationId = true)
    (hblocked : ∀ earlier other, earlier < request → l.requests[earlier]? = some other →
      (∀ permit ∈ l.permits, permit.request ≠ earlier) → l.hasCapacity other = false) :
    Fair n (l.grant organizationId request) := by
  intro j permit hj hpermit earlier other hlt hother hnot
  have hpermits : (l.grant organizationId request).permits =
      l.permits ++ [⟨organizationId, request, false⟩] := rfl
  rw [hpermits] at hpermit hnot ⊢
  by_cases hold : j < l.permits.length
  · rw [List.getElem?_append_left hold] at hpermit
    rw [List.take_append_of_le_length (by omega)] at hnot ⊢
    exact h j permit hj hpermit earlier other hlt hother hnot
  · -- the permit that is granted now
    have hlast : j = l.permits.length := by
      have hbound := (List.getElem?_eq_some_iff.mp hpermit).1
      rw [List.length_append, List.length_singleton] at hbound
      omega
    subst hlast
    rw [List.getElem?_concat_length] at hpermit
    have hpermit' := Option.some.inj hpermit
    subst hpermit'
    rw [List.take_left] at hnot ⊢
    have hfull := hblocked earlier other hlt hother hnot
    have hme := hcounted.hasCapacity.mp hcap
    rw [Bool.eq_false_iff, ne_eq, hcounted.hasCapacity] at hfull
    have hlimit := hcounted.organizationLimit other
    refine ⟨fun he => ?_, by omega⟩
    have hsame : heldBy l.permits other < 3 := by
      rw [he]
      exact hme.2
    omega

/-- What the loop of `#wakeWaiters` keeps. -/
structure Waking (n : Nat) (l : MicrosoftWorkLimiter Organization)
    (passed : List (Waiter Organization)) : Prop where
  counted : Counted l
  queued : Queued l
  blocked : ∀ waiter ∈ passed, l.hasCapacity waiter.organizationId = false
  fair : Fair n l

namespace Waking

variable {n : Nat} {l : MicrosoftWorkLimiter Organization} {passed rest : List (Waiter Organization)}
  {waiter : Waiter Organization}

theorem skip (h : Waking n l passed) (hcap : l.hasCapacity waiter.organizationId = false) :
    Waking n l (passed ++ [waiter]) := by
  refine ⟨h.counted, h.queued, fun other ho => ?_, h.fair⟩
  rcases List.mem_append.mp ho with ho | ho
  · exact h.blocked other ho
  · rw [List.mem_singleton.mp ho]
    exact hcap

theorem grant (h : Waking n l passed) (hw : l.waiters = passed ++ waiter :: rest)
    (hcap : l.hasCapacity waiter.organizationId = true) :
    Waking n ({ l with waiters := passed ++ rest }.grant waiter.organizationId waiter.request)
      passed := by
  have hcounted : Counted { l with waiters := passed ++ rest } := h.counted.congr rfl rfl rfl
  refine ⟨hcounted.grant hcap, h.queued.grant hw,
    fun other ho => hcounted.blocked_grant hcap (h.blocked other ho), ?_⟩
  refine Fair.grant (l := { l with waiters := passed ++ rest }) h.fair hcounted hcap
    fun earlier other hlt hother hnot => ?_
  -- an earlier call that waits stands before the waiter, so the loop has passed it
  obtain ⟨before, hmem, hrequest⟩ :=
    h.queued.waits (List.getElem?_eq_some_iff.mp hother).1 hnot
  have horganization := h.queued.waiting before hmem
  rw [hrequest, hother] at horganization
  have hother' := Option.some.inj horganization
  rw [hw] at hmem
  have hsorted := h.queued.sorted
  rw [hw, List.map_append, List.map_cons, List.pairwise_append, List.pairwise_cons] at hsorted
  rcases List.mem_append.mp hmem with hmem | hmem
  · rw [hother']
    exact h.blocked before hmem
  · rcases List.mem_cons.mp hmem with rfl | hmem
    · omega
    · have hlater := hsorted.2.1.1 before.request (List.mem_map_of_mem hmem)
      omega

end Waking

/-- Waking only adds permits, and none of them is released. -/
theorem wakeWaiters_extends (l : MicrosoftWorkLimiter Organization) :
    l.wakeWaiters.requests = l.requests ∧ ∃ granted, l.wakeWaiters.permits = l.permits ++ granted ∧
      ∀ permit ∈ granted, permit.released = false := by
  have hgrant : ∀ (l' : MicrosoftWorkLimiter Organization) (passed : List (Waiter Organization))
      (waiter : Waiter Organization) (rest : List (Waiter Organization)),
      (l'.requests = l.requests ∧ ∃ granted, l'.permits = l.permits ++ granted ∧
        ∀ permit ∈ granted, permit.released = false) →
      l'.waiters = passed ++ waiter :: rest → l'.hasCapacity waiter.organizationId = true →
      l'.requests = l.requests ∧ ∃ granted,
        l'.permits ++ [⟨waiter.organizationId, waiter.request, false⟩] = l.permits ++ granted ∧
          ∀ permit ∈ granted, permit.released = false := by
    intro l' passed waiter rest h _ _
    have ⟨hrequests, granted, hpermits, hnone⟩ := h
    refine ⟨hrequests, granted ++ [⟨waiter.organizationId, waiter.request, false⟩], ?_, ?_⟩
    · rw [hpermits, List.append_assoc]
    · intro permit hpermit
      rcases List.mem_append.mp hpermit with hold | hnew
      · exact hnone permit hold
      · rw [List.mem_singleton.mp hnew]
  obtain ⟨-, -, h, -⟩ := MicrosoftWorkLimiter.wakeFrom_invariant
    (P := fun l' _ => l'.requests = l.requests ∧ ∃ granted, l'.permits = l.permits ++ granted ∧
      ∀ permit ∈ granted, permit.released = false)
    (fun _ _ _ _ h _ _ => h) hgrant
    ⟨rfl, [], (List.append_nil _).symm, fun _ h => absurd h List.not_mem_nil⟩
    (show l.waiters = [] ++ l.waiters from rfl)
  exact h

/-- The calls and organizations that permits were granted to. -/
def grants (permits : List (Permit Organization)) : List (Nat × Organization) :=
  permits.map fun permit => (permit.request, permit.organizationId)

/-- What holds between calls. -/
structure Settled (l : MicrosoftWorkLimiter Organization) : Prop where
  counted : Counted l
  queued : Queued l
  blocked : ∀ waiter ∈ l.waiters, l.hasCapacity waiter.organizationId = false
  fifo : Fifo l

/-- The order in which the old permits were granted stays as it was. -/
theorem Fifo.extend {l l' : MicrosoftWorkLimiter Organization} (h : Fifo l) (hqueued : Queued l)
    (hfair : Fair l.permits.length l') (hgrants : grants l.permits <+: grants l'.permits)
    (hrequests : l.requests <+: l'.requests) : Fifo l' := by
  intro j permit hpermit request hlt hrequest
  obtain ⟨later, hlater⟩ := hgrants
  by_cases hj : j < l.permits.length
  · -- an old permit
    have hget : (grants l'.permits)[j]? = some (permit.request, permit.organizationId) := by
      rw [grants, List.getElem?_map, hpermit]
      rfl
    rw [← hlater, List.getElem?_append_left (by simpa [grants] using hj), grants, List.getElem?_map]
      at hget
    obtain ⟨old, hold, hkey⟩ := Option.map_eq_some_iff.mp hget
    have hrequest' : old.request = permit.request := congrArg Prod.fst hkey
    have horganization : old.organizationId = permit.organizationId := congrArg Prod.snd hkey
    have hbound := (List.getElem?_eq_some_iff.mp
      (hqueued.granted old (List.mem_of_getElem? hold))).1
    obtain ⟨added, hadded⟩ := hrequests
    have hfound : l.requests[request]? = some old.organizationId := by
      rw [← hadded, List.getElem?_append_left (by omega)] at hrequest
      rw [hrequest, horganization]
    obtain ⟨earlier, hearlier, he⟩ := h j old hold request (by omega) hfound
    have hmem : (earlier.request, earlier.organizationId) ∈ grants (l'.permits.take j) := by
      have htake : grants (l'.permits.take j) = (grants l'.permits).take j := List.map_take
      have htake' : grants (l.permits.take j) = (grants l.permits).take j := List.map_take
      rw [htake, ← hlater, List.take_append_of_le_length (by simpa [grants] using hj.le), ← htake']
      exact List.mem_map_of_mem hearlier
    obtain ⟨same, hsame, hkey'⟩ := List.mem_map.mp hmem
    exact ⟨same, hsame, (congrArg Prod.fst hkey').trans he⟩
  · by_contra hnone
    refine (hfair j permit (by omega) hpermit request permit.organizationId hlt hrequest
      fun earlier hearlier he => ?_).1 rfl
    exact hnone ⟨earlier, hearlier, he⟩

omit [DecidableEq Organization] in
theorem grants_set {permits : List (Permit Organization)} {index : Nat}
    {permit : Permit Organization} (h : permits[index]? = some permit) :
    grants (permits.set index { permit with released := true }) = grants permits := by
  apply List.ext_getElem?
  intro k
  rw [grants, grants, List.getElem?_map, List.getElem?_map, List.getElem?_set]
  by_cases hk : index = k
  · subst hk
    rw [if_pos rfl, h]
    simp [(List.getElem?_eq_some_iff.mp h).1]
  · rw [if_neg hk]

namespace Settled

variable {l : MicrosoftWorkLimiter Organization}

theorem new : Settled (MicrosoftWorkLimiter.new : MicrosoftWorkLimiter Organization) where
  counted := .new
  queued := .new
  blocked _ h := absurd h List.not_mem_nil
  fifo j permit h := absurd h (by simp [MicrosoftWorkLimiter.new])

/-- Nobody is overtaken by a call that is granted a permit at once. -/
theorem acquire (h : Settled l) (organizationId : Organization) :
    Settled (l.acquire organizationId) ∧ Fair l.permits.length (l.acquire organizationId) := by
  have hqueued := h.queued.acquire organizationId
  have hcalled : Counted { l with requests := l.requests ++ [organizationId] } :=
    h.counted.congr rfl rfl rfl
  unfold MicrosoftWorkLimiter.acquire at hqueued ⊢
  cases hcap : l.hasCapacity organizationId with
  | true =>
      rw [hcap, if_pos rfl] at hqueued
      rw [if_pos rfl]
      have hfair : Fair l.permits.length (({ l with requests := l.requests ++ [organizationId] } :
          MicrosoftWorkLimiter Organization).grant organizationId l.requests.length) := by
        refine Fair.grant (fun j permit hj hpermit => ?_) hcalled hcap
          fun earlier other hlt hother hnot => ?_
        · have hbound := (List.getElem?_eq_some_iff.mp hpermit).1
          change j < l.permits.length at hbound
          omega
        -- an earlier call without a permit waits, and whoever waits has no capacity
        · obtain ⟨waiter, hw, hrequest⟩ := h.queued.waits hlt hnot
          have horganization := h.queued.waiting waiter hw
          change (l.requests ++ [organizationId])[earlier]? = some other at hother
          rw [List.getElem?_append_left hlt, ← hrequest, horganization] at hother
          rw [← Option.some.inj hother]
          exact h.blocked waiter hw
      have hgrants : grants l.permits <+: grants (l.permits ++
          [⟨organizationId, l.requests.length, false⟩]) := by
        rw [grants, grants, List.map_append]
        exact List.prefix_append _ _
      refine ⟨⟨hcalled.grant hcap, hqueued, fun waiter hw => ?_, ?_⟩, hfair⟩
      · exact hcalled.blocked_grant hcap (h.blocked waiter hw)
      · exact h.fifo.extend h.queued hfair hgrants (List.prefix_append _ _)
  | false =>
      rw [hcap, if_neg (by decide)] at hqueued
      rw [if_neg (by decide)]
      have hfair : Fair l.permits.length ({ l with
          requests := l.requests ++ [organizationId]
          waiters := l.waiters ++ [⟨organizationId, l.requests.length⟩] } :
          MicrosoftWorkLimiter Organization) := by
        intro j permit hj hpermit
        have hbound := (List.getElem?_eq_some_iff.mp hpermit).1
        change j < l.permits.length at hbound
        omega
      refine ⟨⟨hcalled.congr rfl rfl rfl, hqueued, fun waiter hw => ?_, ?_⟩, hfair⟩
      · rcases List.mem_append.mp hw with hw | hw
        · exact h.blocked waiter hw
        · rw [List.mem_singleton.mp hw]
          exact hcap
      · exact h.fifo.extend h.queued hfair (List.prefix_refl _) (List.prefix_append _ _)

/-- A release wakes every waiter it can, in the order of the queue. -/
theorem release (h : Settled l) (index : Nat) :
    Settled (l.release index) ∧ Fair l.permits.length (l.release index) := by
  have hnone : ∀ l' : MicrosoftWorkLimiter Organization, l'.permits.length = l.permits.length →
      Fair l.permits.length l' := by
    intro l' hlength j permit hj hpermit
    have hbound := (List.getElem?_eq_some_iff.mp hpermit).1
    omega
  unfold MicrosoftWorkLimiter.release
  cases hpermit : l.permits[index]? with
  | none => exact ⟨h, hnone l rfl⟩
  | some permit =>
      cases hreleased : permit.released with
      | true =>
          dsimp only
          rw [if_pos hreleased]
          exact ⟨h, hnone l rfl⟩
      | false =>
          dsimp only
          rw [if_neg (Bool.eq_false_iff.mp hreleased)]
          -- the permit is given back before the queue is looked at
          have hstart : Waking l.permits.length (l.giveBack index permit) [] :=
            ⟨h.counted.giveBack hpermit hreleased, h.queued.giveBack hpermit,
              fun _ hw => absurd hw List.not_mem_nil, hnone _ (List.length_set)⟩
          have hqueue : (l.giveBack index permit).waiters =
              [] ++ (l.giveBack index permit).waiters := rfl
          obtain ⟨passed, rest, hwaking, hwaiters, hend⟩ := MicrosoftWorkLimiter.wakeFrom_invariant
            (P := Waking l.permits.length) (fun _ _ _ _ hw _ hcap => hw.skip hcap)
            (fun _ _ _ _ hw hwaiters hcap => hw.grant hwaiters hcap) hstart hqueue
          obtain ⟨hrequests, granted, hpermits, -⟩ := wakeWaiters_extends (l.giveBack index permit)
          refine ⟨⟨hwaking.counted, hwaking.queued, fun waiter hw => ?_, ?_⟩, hwaking.fair⟩
          · rw [MicrosoftWorkLimiter.wakeWaiters, hwaiters] at hw
            rcases List.mem_append.mp hw with hw | hw
            · exact hwaking.blocked waiter hw
            -- the loop ended with the queue, or because five permits are held
            · rcases hend with rfl | hfull
              · exact absurd hw List.not_mem_nil
              · exact Bool.eq_false_iff.mpr fun hcap => hfull (by
                  rw [MicrosoftWorkLimiter.hasCapacity, Bool.and_eq_true, decide_eq_true_iff]
                    at hcap
                  exact hcap.1)
          · refine h.fifo.extend h.queued hwaking.fair ?_ ?_
            · rw [← grants_set hpermit, hpermits, grants, grants, List.map_append]
              exact List.prefix_append _ _
            · exact hrequests ▸ List.prefix_refl _

theorem call (h : Settled l) (c : LimiterCall Organization) :
    Settled (l.call c) ∧ Fair l.permits.length (l.call c) := by
  cases c with
  | acquire organizationId => exact h.acquire organizationId
  | release index => exact h.release index

theorem after (calls : List (LimiterCall Organization)) :
    Settled (MicrosoftWorkLimiter.after calls) :=
  MicrosoftWorkLimiter.after_invariant new (fun _ c h => (h.call c).1) calls

end Settled

/-! ## Releasing -/

/-- The release function with this index was called after `request` was resolved with it. -/
def GivenBack (calls : List (LimiterCall Organization)) (index request : Nat) : Prop :=
  ∃ before later permit, calls = before ++ .release index :: later ∧
    (MicrosoftWorkLimiter.after before).permits[index]? = some permit ∧ permit.request = request

omit [DecidableEq Organization] in
/-- The flag that a call sets. -/
def marked (permits : List (Permit Organization)) :
    LimiterCall Organization → List (Permit Organization)
  | .acquire _ => permits
  | .release index => permits.modify index fun permit => { permit with released := true }

omit [DecidableEq Organization] in
theorem marked_some {permits : List (Permit Organization)} {index : Nat} {old : Permit Organization}
    (h : permits[index]? = some old) (c : LimiterCall Organization) :
    ∃ permit, (marked permits c)[index]? = some permit ∧ permit.request = old.request ∧
      (permit.released = true ↔ old.released = true ∨ c = .release index) := by
  cases c with
  | acquire organizationId =>
      exact ⟨old, h, rfl, (or_iff_left fun hc => by cases hc).symm⟩
  | release other =>
      show ∃ permit, (permits.modify other _)[index]? = some permit ∧ _
      rw [List.getElem?_modify, h]
      by_cases hother : other = index
      · subst hother
        exact ⟨{ old with released := true }, by simp, rfl, iff_of_true rfl (.inr rfl)⟩
      · refine ⟨old, by simp [hother], rfl, (or_iff_left fun hc => hother ?_).symm⟩
        cases hc
        rfl

/-- A call sets the flag of its own release function, and grants permits that are not released. -/
theorem call_permits (l : MicrosoftWorkLimiter Organization) (c : LimiterCall Organization) :
    ∃ granted, (l.call c).permits = marked l.permits c ++ granted ∧
      ∀ permit ∈ granted, permit.released = false := by
  have hnone : ∀ permit ∈ ([] : List (Permit Organization)), permit.released = false :=
    fun _ h => absurd h List.not_mem_nil
  cases c with
  | acquire organizationId =>
      show ∃ granted, (l.acquire organizationId).permits = l.permits ++ granted ∧ _
      unfold MicrosoftWorkLimiter.acquire
      split
      · exact ⟨[⟨organizationId, l.requests.length, false⟩], rfl, by simp⟩
      · exact ⟨[], (List.append_nil _).symm, hnone⟩
  | release index =>
      show ∃ granted, (l.release index).permits = l.permits.modify index _ ++ granted ∧ _
      unfold MicrosoftWorkLimiter.release
      cases hpermit : l.permits[index]? with
      | none =>
          have hlen := List.getElem?_eq_none_iff.mp hpermit
          refine ⟨[], ?_, hnone⟩
          rw [List.append_nil, List.modify_eq_self hlen]
      | some permit =>
          have hmodify : l.permits.modify index (fun permit => { permit with released := true }) =
              l.permits.set index { permit with released := true } := by
            rw [List.modify_eq_set_getElem?, hpermit]
            rfl
          rw [hmodify]
          dsimp only
          split
          · -- the flag was set before
            rename_i hreleased
            have hsame : ({ permit with released := true } : Permit Organization) = permit := by
              rw [← hreleased]
            have ⟨hlt, hget⟩ := List.getElem?_eq_some_iff.mp hpermit
            refine ⟨[], ?_, hnone⟩
            rw [List.append_nil, hsame, ← hget, List.set_getElem_self]
          · exact (wakeWaiters_extends (l.giveBack index permit)).2

/-- A release function stays that of its call. -/
theorem permits_kept {l : MicrosoftWorkLimiter Organization} {index : Nat}
    {permit : Permit Organization} (h : l.permits[index]? = some permit)
    (calls : List (LimiterCall Organization)) :
    ∃ later, (calls.foldl MicrosoftWorkLimiter.call l).permits[index]? = some later ∧
      later.request = permit.request := by
  induction calls generalizing l permit with
  | nil => exact ⟨permit, h, rfl⟩
  | cons c rest ih =>
      have ⟨granted, hpermits, _⟩ := call_permits l c
      have ⟨old, hold, hrequest, _⟩ := marked_some h c
      have hcall : (l.call c).permits[index]? = some old := by
        rw [hpermits, List.getElem?_append_left (List.getElem?_eq_some_iff.mp hold).1, hold]
      have ⟨later, hlater, he⟩ := ih hcall
      exact ⟨later, hlater, he.trans hrequest⟩

/-- What one call adds to the release functions that were called. -/
theorem givenBack_concat (calls : List (LimiterCall Organization)) (c : LimiterCall Organization)
    (index request : Nat) : GivenBack (calls ++ [c]) index request ↔
      GivenBack calls index request ∨ c = .release index ∧ ∃ permit,
        (MicrosoftWorkLimiter.after calls).permits[index]? = some permit ∧
          permit.request = request := by
  constructor
  · intro h
    have ⟨before, later, permit, he, hpermit, hrequest⟩ := h
    cases later using List.reverseRecOn with
    | nil =>
        have ⟨hcalls, hc⟩ := List.append_inj' he rfl
        subst hcalls
        exact .inr ⟨List.singleton_inj.mp hc, permit, hpermit, hrequest⟩
    | append_singleton later' c' =>
        rw [← List.cons_append, ← List.append_assoc] at he
        exact .inl ⟨before, later', permit, (List.append_inj' he rfl).1, hpermit, hrequest⟩
  · intro h
    rcases h with h | ⟨hc, permit, hpermit, hrequest⟩
    · have ⟨before, later, permit, he, hpermit, hrequest⟩ := h
      refine ⟨before, later ++ [c], permit, ?_, hpermit, hrequest⟩
      rw [he, List.append_assoc, List.cons_append]
    · exact ⟨calls, [], permit, by rw [hc], hpermit, hrequest⟩

/-- The flag of a release function says whether it was called. -/
theorem released_iff (calls : List (LimiterCall Organization)) {index : Nat}
    {permit : Permit Organization}
    (h : (MicrosoftWorkLimiter.after calls).permits[index]? = some permit) :
    permit.released = true ↔ GivenBack calls index permit.request := by
  induction calls using List.reverseRecOn generalizing permit with
  | nil => exact absurd h (by simp [MicrosoftWorkLimiter.after, MicrosoftWorkLimiter.new])
  | append_singleton calls c ih =>
      rw [MicrosoftWorkLimiter.after_concat] at h
      have ⟨granted, hpermits, hnone⟩ := call_permits (MicrosoftWorkLimiter.after calls) c
      rw [givenBack_concat]
      rw [hpermits] at h
      have hlength : (marked (MicrosoftWorkLimiter.after calls).permits c).length =
          (MicrosoftWorkLimiter.after calls).permits.length := by
        cases c with
        | acquire => rfl
        | release => exact List.length_modify ..
      cases hold : (MicrosoftWorkLimiter.after calls).permits[index]? with
      | none =>
          -- the permit was granted by this call
          have hge := List.getElem?_eq_none_iff.mp hold
          rw [List.getElem?_append_right (hlength ▸ hge)] at h
          rw [hnone permit (List.mem_of_getElem? h)]
          refine iff_of_false (by decide) fun hgiven => ?_
          rcases hgiven with hgiven | ⟨_, _, hfound, _⟩
          · have ⟨before, later, earlier, he, hearlier, _⟩ := hgiven
            have ⟨found, hfound, _⟩ := permits_kept hearlier (.release index :: later)
            rw [MicrosoftWorkLimiter.after, ← List.foldl_append, ← he] at hfound
            cases hold.symm.trans hfound
          · cases hfound
      | some old =>
          have hlt := (List.getElem?_eq_some_iff.mp hold).1
          have ⟨found, hfound, hrequest, hreleased⟩ := marked_some hold c
          rw [List.getElem?_append_left (hlength.symm ▸ hlt), hfound] at h
          cases h
          rw [hreleased, ih hold, hrequest]
          have hgranted : ∃ earlier, some old = some earlier ∧ earlier.request = old.request :=
            ⟨old, rfl, rfl⟩
          rw [and_iff_left hgranted]

/-- Calling a release function again changes nothing. -/
theorem release_released {l : MicrosoftWorkLimiter Organization} {index : Nat}
    {permit : Permit Organization} (h : l.permits[index]? = some permit)
    (hreleased : permit.released = true) : l.release index = l := by
  unfold MicrosoftWorkLimiter.release
  rw [h]
  exact if_pos hreleased

/-! ## Results -/

/-- The organizations of the calls of `acquire`, in their order. -/
def acquired : List (LimiterCall Organization) → List Organization
  | [] => []
  | .acquire organizationId :: rest => organizationId :: acquired rest
  | .release _ :: rest => acquired rest

theorem requests_calls (l : MicrosoftWorkLimiter Organization)
    (calls : List (LimiterCall Organization)) :
    (calls.foldl MicrosoftWorkLimiter.call l).requests = l.requests ++ acquired calls := by
  induction calls generalizing l with
  | nil => exact (List.append_nil _).symm
  | cons c rest ih =>
      rw [List.foldl_cons, ih]
      cases c with
      | acquire organizationId =>
          have hcall : (l.call (.acquire organizationId)).requests =
              l.requests ++ [organizationId] := by
            change (l.acquire organizationId).requests = _
            unfold MicrosoftWorkLimiter.acquire
            split <;> rfl
          rw [hcall, List.append_assoc]
          rfl
      | release index =>
          have hcall : (l.call (.release index)).requests = l.requests := by
            change (l.release index).requests = _
            unfold MicrosoftWorkLimiter.release
            split
            · rfl
            · split
              · rfl
              · exact (wakeWaiters_extends _).1
          rw [hcall]
          rfl

/-- After any calls a permit is released exactly when its release function was called, the permits
are within the limits, the counters are the true counts, each call of `acquire` was granted a permit
of its organization once or waits once, and a release function that was called does nothing when it
is called again. -/
theorem admission_limits (calls : List (LimiterCall Organization)) :
    let l := MicrosoftWorkLimiter.after calls
    (∀ index permit, l.permits[index]? = some permit →
      (permit.released = true ↔ GivenBack calls index permit.request)) ∧
    held l.permits ≤ 5 ∧
    (∀ organizationId, heldBy l.permits organizationId ≤ 3) ∧
    l.activeGlobal = held l.permits ∧
    (∀ organizationId, (l.activeByOrganization organizationId).getD 0 =
      heldBy l.permits organizationId) ∧
    (∀ organizationId n, l.activeByOrganization organizationId = some n → 0 < n) ∧
    (l.requests = acquired calls ∧
      (∀ permit ∈ l.permits, l.requests[permit.request]? = some permit.organizationId) ∧
      (∀ waiter ∈ l.waiters, l.requests[waiter.request]? = some waiter.organizationId) ∧
      ∀ request, request < l.requests.length →
        l.permits.countP (fun permit => permit.request = request) +
          l.waiters.countP (fun waiter => waiter.request = request) = 1) ∧
    ∀ index later, index < l.permits.length →
      let l' := MicrosoftWorkLimiter.after (calls ++ .release index :: later)
      l'.release index = l' := by
  have h := Settled.after calls
  refine ⟨fun index permit hpermit => released_iff calls hpermit, h.counted.globalLimit,
    h.counted.organizationLimit, h.counted.global, h.counted.getD, fun organizationId n hn => ?_,
    ⟨?_, h.queued.granted, h.queued.waiting, fun request hlt => ?_⟩, fun index later hlt => ?_⟩
  · rw [h.counted.organization] at hn
    split at hn
    · cases hn
    · have hn' := Option.some.inj hn
      omega
  · exact requests_calls _ calls
  · have hcount := h.queued.once.count_eq request
    rw [List.count_append, List.count_range, if_pos hlt] at hcount
    rw [List.count_eq_countP, List.countP_map, List.count_eq_countP, List.countP_map] at hcount
    exact hcount
  · have hpermit := List.getElem?_eq_getElem hlt
    have ⟨found, hfound, hrequest⟩ := permits_kept hpermit (.release index :: later)
    rw [MicrosoftWorkLimiter.after, ← List.foldl_append] at hfound
    have hgiven : GivenBack (calls ++ .release index :: later) index found.request :=
      ⟨calls, later, _, rfl, hpermit, hrequest.symm⟩
    exact release_released hfound ((released_iff _ hfound).mpr hgiven)

/-- Whatever call comes next: afterwards a permit is released exactly when its release function was
called, and no waiter has capacity; calls of one organization are granted their permits in their
order; and when the call grants a permit while an earlier call of another organization waits, that
organization holds three permits at that moment.  The permits before the `j`th are those of the
moment the `j`th is granted: one call releases before it grants. -/
theorem limiter_fairness (calls : List (LimiterCall Organization))
    (c : LimiterCall Organization) :
    let l := MicrosoftWorkLimiter.after calls
    let l' := MicrosoftWorkLimiter.after (calls ++ [c])
    (∀ index permit, l'.permits[index]? = some permit →
      (permit.released = true ↔ GivenBack (calls ++ [c]) index permit.request)) ∧
    (∀ waiter ∈ l'.waiters,
      ¬ (held l'.permits < 5 ∧ heldBy l'.permits waiter.organizationId < 3)) ∧
    (∀ j permit request, l'.permits[j]? = some permit → request < permit.request →
      l'.requests[request]? = some permit.organizationId →
      ∃ earlier ∈ l'.permits.take j, earlier.request = request) ∧
    ∀ j permit request organizationId, l.permits.length ≤ j → l'.permits[j]? = some permit →
      request < permit.request → l'.requests[request]? = some organizationId →
      organizationId ≠ permit.organizationId →
      (∀ earlier ∈ l'.permits.take j, earlier.request ≠ request) →
      heldBy (l'.permits.take j) organizationId = 3 := by
  have hcall := (Settled.after calls).call c
  rw [← MicrosoftWorkLimiter.after_concat] at hcall
  obtain ⟨h, hfair⟩ := hcall
  refine ⟨fun index permit hpermit => released_iff _ hpermit, fun waiter hw => ?_,
    fun j permit request hpermit hlt hrequest => ?_,
    fun j permit request organizationId hj hpermit hlt hrequest _ hnot => ?_⟩
  · rw [← h.counted.hasCapacity, h.blocked waiter hw]
    decide
  · exact h.fifo j permit hpermit request hlt hrequest
  · exact (hfair j permit hj hpermit request organizationId hlt hrequest hnot).2

end InboxSaas.Worker
