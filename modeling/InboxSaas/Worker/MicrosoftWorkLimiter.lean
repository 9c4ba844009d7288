import Mathlib.Data.List.Nodup
import Mathlib.Data.List.Range
import Mathlib.Data.List.Count
import Mathlib.Logic.Function.Basic

/-!
# The Microsoft work limiter

`acquire` grants a permit at once or queues a waiter; the release function of a permit gives it back
once and then wakes waiters.  The calls of `acquire` are numbered, so that it can be said which call
a permit was granted to; a release function is the variables it closes over.

The organizations are any type with decidable equality: the code only compares their ids.
-/

namespace InboxSaas.Worker

/-- A call of `acquire` whose promise is not resolved. -/
structure Waiter (Organization : Type) where
  organizationId : Organization
  request : Nat
  deriving DecidableEq, Repr

/-- What the release function that a call was resolved with closes over. -/
structure Permit (Organization : Type) where
  organizationId : Organization
  request : Nat
  released : Bool
  deriving DecidableEq, Repr

structure MicrosoftWorkLimiter (Organization : Type) where
  activeGlobal : Int
  /-- The `Map`: an organization without an entry has no value. -/
  activeByOrganization : Organization → Option Int
  waiters : List (Waiter Organization)
  /-- The release functions in the order in which they were created. -/
  permits : List (Permit Organization)
  /-- The organization of each call of `acquire`, in the order of the calls. -/
  requests : List Organization

namespace MicrosoftWorkLimiter

variable {Organization : Type}

def new : MicrosoftWorkLimiter Organization where
  activeGlobal := 0
  activeByOrganization _ := none
  waiters := []
  permits := []
  requests := []

def hasCapacity (l : MicrosoftWorkLimiter Organization) (organizationId : Organization) : Bool :=
  l.activeGlobal < 5 && (l.activeByOrganization organizationId).getD 0 < 3

variable [DecidableEq Organization]

/-- `#grant`: the promise of `request` is resolved with the release function it creates. -/
def grant (l : MicrosoftWorkLimiter Organization) (organizationId : Organization) (request : Nat) :
    MicrosoftWorkLimiter Organization where
  activeGlobal := l.activeGlobal + 1
  activeByOrganization := Function.update l.activeByOrganization organizationId
    (some ((l.activeByOrganization organizationId).getD 0 + 1))
  waiters := l.waiters
  permits := l.permits ++ [⟨organizationId, request, false⟩]
  requests := l.requests

def acquire (organizationId : Organization) (l : MicrosoftWorkLimiter Organization) :
    MicrosoftWorkLimiter Organization :=
  let called := { l with requests := l.requests ++ [organizationId] }
  if l.hasCapacity organizationId then called.grant organizationId l.requests.length
  else { called with waiters := l.waiters ++ [⟨organizationId, l.requests.length⟩] }

/-- The loop of `#wakeWaiters`: `passed` are the waiters before `index`, the list those from it
on. -/
def wakeFrom (l : MicrosoftWorkLimiter Organization) (passed : List (Waiter Organization)) :
    List (Waiter Organization) → MicrosoftWorkLimiter Organization
  | [] => l
  | waiter :: rest =>
      if l.activeGlobal < 5 then
        if !l.hasCapacity waiter.organizationId then wakeFrom l (passed ++ [waiter]) rest
        else
          wakeFrom ({ l with waiters := passed ++ rest }.grant waiter.organizationId waiter.request)
            passed rest
      else l

def wakeWaiters (l : MicrosoftWorkLimiter Organization) : MicrosoftWorkLimiter Organization :=
  l.wakeFrom [] l.waiters

/-- What the first call of a release function does to its own flag and to the counters. -/
def giveBack (l : MicrosoftWorkLimiter Organization) (index : Nat) (permit : Permit Organization) :
    MicrosoftWorkLimiter Organization :=
  let activeForOrganization := (l.activeByOrganization permit.organizationId).getD 1 - 1
  { l with
    activeGlobal := l.activeGlobal - 1
    activeByOrganization := Function.update l.activeByOrganization permit.organizationId
      (if activeForOrganization = 0 then none else some activeForOrganization)
    permits := l.permits.set index { permit with released := true } }

/-- The release function with this index is called; one that was never returned cannot be. -/
def release (index : Nat) (l : MicrosoftWorkLimiter Organization) :
    MicrosoftWorkLimiter Organization :=
  match l.permits[index]? with
  | none => l
  | some permit => if permit.released then l else (l.giveBack index permit).wakeWaiters

end MicrosoftWorkLimiter

/-- A call from outside. -/
inductive LimiterCall (Organization : Type) where
  | acquire (organizationId : Organization)
  | release (index : Nat)
  deriving Repr

namespace MicrosoftWorkLimiter

variable {Organization : Type} [DecidableEq Organization]

def call (l : MicrosoftWorkLimiter Organization) :
    LimiterCall Organization → MicrosoftWorkLimiter Organization
  | .acquire organizationId => l.acquire organizationId
  | .release index => l.release index

/-- The limiter after a sequence of calls. -/
def after (calls : List (LimiterCall Organization)) : MicrosoftWorkLimiter Organization :=
  calls.foldl call new

theorem after_concat (calls : List (LimiterCall Organization)) (c : LimiterCall Organization) :
    after (calls ++ [c]) = (after calls).call c :=
  List.foldl_append

/-- What holds at first and is kept by every call holds after every sequence of calls. -/
theorem after_invariant {P : MicrosoftWorkLimiter Organization → Prop} (hnew : P new)
    (hcall : ∀ l c, P l → P (l.call c)) (calls : List (LimiterCall Organization)) :
    P (after calls) := by
  induction calls using List.reverseRecOn with
  | nil => exact hnew
  | append_singleton calls c ih =>
      rw [after_concat]
      exact hcall _ c ih

/-- The rule for the loop of `#wakeWaiters`: what each turn keeps holds where the loop ends, and it
ends at the end of the list or when nobody can be granted a permit. -/
theorem wakeFrom_invariant
    {P : MicrosoftWorkLimiter Organization → List (Waiter Organization) → Prop}
    (hskip : ∀ l passed waiter rest, P l passed → l.waiters = passed ++ waiter :: rest →
      l.hasCapacity waiter.organizationId = false → P l (passed ++ [waiter]))
    (hgrant : ∀ l passed waiter rest, P l passed → l.waiters = passed ++ waiter :: rest →
      l.hasCapacity waiter.organizationId = true →
      P ({ l with waiters := passed ++ rest }.grant waiter.organizationId waiter.request) passed)
    {l : MicrosoftWorkLimiter Organization} {passed rest : List (Waiter Organization)}
    (hl : P l passed) (hw : l.waiters = passed ++ rest) :
    ∃ passed' rest', P (l.wakeFrom passed rest) passed' ∧
      (l.wakeFrom passed rest).waiters = passed' ++ rest' ∧
      (rest' = [] ∨ ¬ (l.wakeFrom passed rest).activeGlobal < 5) := by
  induction rest generalizing l passed with
  | nil => exact ⟨passed, [], hl, hw, .inl rfl⟩
  | cons waiter rest ih =>
      unfold wakeFrom
      split
      · cases hc : l.hasCapacity waiter.organizationId with
        | false =>
            rw [if_pos (by rfl)]
            exact ih (hskip l passed waiter rest hl hw hc) (by rw [hw, List.append_assoc]; rfl)
        | true =>
            rw [if_neg (by decide)]
            exact ih (hgrant l passed waiter rest hl hw hc) rfl
      · rename_i hfull
        exact ⟨passed, waiter :: rest, hl, hw, .inr hfull⟩

end MicrosoftWorkLimiter

end InboxSaas.Worker
