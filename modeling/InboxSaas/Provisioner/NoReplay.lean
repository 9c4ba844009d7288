import Mathlib.Data.Rat.Cast.Order
import InboxSaas.Provisioner.RequestAuth

/-!
# No replay

A nonce is kept until its expiry, and a request is verified up to and including that moment.  So a
replay is rejected at every other time, and accepted at the expiry itself.
-/

namespace InboxSaas.Provisioner

variable {R : Type} [Ring R] [LinearOrder R]

/-- `validate_tenant` up to its 401: the request is verified and its nonce is new. -/
def authorize (digests : Digests) (secret : Bytes) (store : InMemoryNonceStore R)
    (request : SignedRequest R) : Bool × InMemoryNonceStore R :=
  match verifySignedRequest digests secret request with
  | none => (false, store)
  | some verified =>
      store.checkAndStore verified.nonce verified.nonceExpiresAt verified.verifiedAt

/-- The store after a sequence of requests. -/
def authorizeAll (digests : Digests) (secret : Bytes) (store : InMemoryNonceStore R)
    (requests : List (SignedRequest R)) : InMemoryNonceStore R :=
  requests.foldl (fun store request => (authorize digests secret store request).2) store

/-- The request is authorized when it comes after the others. -/
def Accepted (digests : Digests) (secret : Bytes) (store : InMemoryNonceStore R)
    (earlier : List (SignedRequest R)) (request : SignedRequest R) : Prop :=
  (authorize digests secret (authorizeAll digests secret store earlier) request).1 = true

/-- The same timestamp, nonce and signature. -/
def Repeats (request replay : SignedRequest R) : Prop :=
  replay.timestamp = request.timestamp ∧ replay.nonce = request.nonce ∧
    replay.signature = request.signature

/-- The request is verified at the very end of its validity. -/
def AtExpiry (request : SignedRequest R) : Prop :=
  ∃ timestamp, request.timestamp = some timestamp ∧
    request.now = (decimal timestamp : R) + (maxRequestAgeSeconds : R)

section

variable {digests : Digests} {secret : Bytes} {store : InMemoryNonceStore R} {nonce : PyString}
  {expiry : R}

/-- One request keeps a live nonce. -/
theorem authorize_keeps {request : SignedRequest R} (h : (nonce, expiry) ∈ store.nonces)
    (hlive : request.now < expiry) :
    (nonce, expiry) ∈ (authorize digests secret store request).2.nonces := by
  unfold authorize
  split
  · exact h
  · rename_i v hv
    obtain ⟨_, _, _, _, _, rfl⟩ := verified hv
    exact InMemoryNonceStore.checkAndStore_keeps h hlive _ _

/-- Any number of requests keep it, as long as they come before it expires. -/
theorem authorizeAll_keeps (digests : Digests) (secret : Bytes)
    {requests : List (SignedRequest R)} (h : (nonce, expiry) ∈ store.nonces)
    (hlive : ∀ request ∈ requests, request.now < expiry) :
    (nonce, expiry) ∈ (authorizeAll digests secret store requests).nonces := by
  induction requests generalizing store with
  | nil => exact h
  | cons request rest ih =>
      apply ih
      · exact authorize_keeps h (hlive request List.mem_cons_self)
      · exact fun other ho => hlive other (List.mem_cons_of_mem _ ho)

theorem authorizeAll_append {earlier later : List (SignedRequest R)} :
    authorizeAll digests secret store (earlier ++ later) =
      authorizeAll digests secret (authorizeAll digests secret store earlier) later :=
  List.foldl_append

end

variable [IsStrictOrderedRing R]

/-- Over every sequence of requests with a non-decreasing clock, with a store of any capacity: no
request is accepted again, unless it is repeated at the very moment it expires. -/
theorem no_replay (digests : Digests) (secret : Bytes) (maxEntries : Nat) (hmax : 1 ≤ maxEntries)
    (requests : List (SignedRequest R))
    (hclock : requests.Pairwise (fun earlier later => earlier.now ≤ later.now)) :
    ∀ before request between replay after,
      requests = before ++ request :: (between ++ replay :: after) → Repeats request replay →
      ¬ AtExpiry replay → Accepted digests secret (.empty maxEntries hmax) before request →
      ¬ Accepted digests secret (.empty maxEntries hmax) (before ++ request :: between) replay := by
  intro before request between replay after heq hrepeats hnot haccepted hreplayed
  unfold Accepted at haccepted hreplayed
  rw [authorizeAll_append] at hreplayed
  generalize authorizeAll digests secret (.empty maxEntries hmax) before = store
    at haccepted hreplayed
  change (authorize digests secret (authorizeAll digests secret
    (authorize digests secret store request).2 between) replay).1 = true at hreplayed
  -- the accepted request left its nonce behind
  unfold authorize at haccepted hreplayed
  split at haccepted
  · cases haccepted
  rename_i v hv
  rw [hv] at hreplayed
  obtain ⟨timestamp, nonce, ht, hn, _, rfl⟩ := verified hv
  have hstored := InMemoryNonceStore.checkAndStore_stored haccepted
  dsimp only at hreplayed hstored
  split at hreplayed
  · cases hreplayed
  rename_i v' hv'
  -- the replay is verified before the nonce expires
  obtain ⟨timestamp', nonce', ht', hn', hage, rfl⟩ := verified hv'
  rw [hrepeats.1, ht, Option.some.injEq] at ht'
  rw [hrepeats.2.1, hn, Option.some.injEq] at hn'
  subst ht' hn'
  have hlive : replay.now < (decimal timestamp : R) + (maxRequestAgeSeconds : R) := by
    have hle : replay.now ≤ (decimal timestamp : R) + (maxRequestAgeSeconds : R) :=
      sub_le_iff_le_add'.mp (le_trans (le_abs_self _) hage)
    exact lt_of_le_of_ne hle fun he => hnot ⟨timestamp, hrepeats.1.trans ht, he⟩
  have hbetween : ∀ other ∈ between, other.now < (decimal timestamp : R) +
      (maxRequestAgeSeconds : R) := by
    intro other ho
    rw [heq, List.pairwise_append] at hclock
    have htail := (List.pairwise_cons.mp hclock.2.1).2
    rw [List.pairwise_append] at htail
    exact lt_of_le_of_lt (htail.2.2 other ho replay List.mem_cons_self) hlive
  have hkept := authorizeAll_keeps digests secret hstored hbetween
  rw [InMemoryNonceStore.checkAndStore_live hkept hlive] at hreplayed
  cases hreplayed

/-! ## At the expiry -/

/-- At its expiry a request is still verified. -/
theorem verified_at_expiry {digests : Digests} {secret : Bytes} {request replay : SignedRequest R}
    {v : VerifiedRequest R} (h : verifySignedRequest digests secret request = some v)
    (hrepeats : Repeats request replay) (hbody : replay.rawBody = request.rawBody)
    (hexpiry : AtExpiry replay) :
    verifySignedRequest digests secret replay = some ⟨v.nonce, v.nonceExpiresAt, replay.now⟩ ∧
      replay.now = v.nonceExpiresAt := by
  obtain ⟨text, htext, hnow⟩ := hexpiry
  unfold verifySignedRequest at h ⊢
  rw [hrepeats.1, hrepeats.2.1, hrepeats.2.2, hbody]
  rw [hrepeats.1] at htext
  split at h
  · rename_i timestamp nonce signature ht hn hs
    rw [present_eq_some ht, Option.some.injEq] at htext
    subst htext
    dsimp only at h ⊢
    -- at its expiry the age is the limit, and the code refuses only what is older
    have hage : ¬ (maxRequestAgeSeconds : R) < |replay.now - (decimal timestamp : R)| := by
      rw [hnow, add_sub_cancel_left, abs_of_nonneg (by simp [maxRequestAgeSeconds])]
      exact lt_irrefl _
    split at h
    · cases h
    rename_i h₁
    split at h
    · cases h
    rename_i h₂
    split at h
    · cases h
    rename_i h₃
    split at h
    · cases h
    split at h
    · cases h
    rename_i h₅
    rw [Option.some.injEq] at h
    subst h
    rw [if_neg h₁, if_neg h₂, if_neg h₃, if_neg hage, if_neg h₅]
    exact ⟨rfl, hnow⟩
  · cases h

/-- A request that was accepted first is accepted again when it is repeated at its expiry. -/
theorem accepted_at_expiry {digests : Digests} {secret : Bytes} {maxEntries : Nat}
    {hmax : 1 ≤ maxEntries} {request replay : SignedRequest R}
    (haccepted : Accepted digests secret (.empty maxEntries hmax) [] request)
    (hrepeats : Repeats request replay) (hbody : replay.rawBody = request.rawBody)
    (hexpiry : AtExpiry replay) :
    Accepted digests secret (.empty maxEntries hmax) [request] replay := by
  change (authorize digests secret (.empty maxEntries hmax) request).1 = true at haccepted
  change (authorize digests secret (authorize digests secret (.empty maxEntries hmax) request).2
    replay).1 = true
  unfold authorize at haccepted ⊢
  split at haccepted
  · cases haccepted
  rename_i v hv
  obtain ⟨hreplay, hnow⟩ := verified_at_expiry hv hrepeats hbody hexpiry
  rw [hreplay]
  dsimp only
  have hmax' : ¬ maxEntries ≤ 0 := by omega
  -- the store holds the nonce alone, and it has just expired
  simp [InMemoryNonceStore.checkAndStore, InMemoryNonceStore.live, InMemoryNonceStore.empty, hmax',
    hnow]

namespace Sample

def secret : Bytes := List.replicate 32 7

/-- The digests of the sample request, for evaluation only. -/
def digests : Digests where
  sha256 _ := [68, 19, 111, 163, 85, 179, 103, 138, 17, 70, 173, 22, 247, 232, 100, 158, 148, 251,
    79, 194, 31, 231, 126, 131, 16, 192, 96, 246, 28, 170, 255, 138]
  hmacSha256 _ _ := [174, 110, 210, 170, 32, 169, 55, 83, 205, 117, 42, 166, 147, 118, 30, 180, 41,
    80, 68, 242, 158, 28, 95, 115, 229, 128, 139, 77, 253, 75, 237, 198]

/-- The body "{}", signed at 1000. -/
def request (now : ℚ) : SignedRequest ℚ where
  rawBody := [123, 125]
  timestamp := some "1000".toList
  nonce := some "n".toList
  signature := some "ae6ed2aa20a93753cd752aa693761eb4295044f29e1c5f73e5808b4dfd4bedc6".toList
  now := now

end Sample

/-- The sample request is accepted, and its replay one second before the expiry is not. -/
theorem no_replay_before_expiry :
    Accepted Sample.digests Sample.secret (.empty 10000 (by decide)) [] (Sample.request 1000) ∧
    ¬ Accepted Sample.digests Sample.secret (.empty 10000 (by decide)) [Sample.request 1000]
      (Sample.request 1299) := by
  have hfirst : Accepted Sample.digests Sample.secret (.empty 10000 (by decide)) []
      (Sample.request 1000) := by
    unfold Accepted
    decide +kernel
  have hearly : ¬ AtExpiry (Sample.request 1299) := by
    rintro ⟨timestamp, ht, hnow⟩
    cases ht
    exact absurd hnow (by decide +kernel)
  exact ⟨hfirst, no_replay Sample.digests Sample.secret 10000 (by decide)
    [Sample.request 1000, Sample.request 1299] (by decide +kernel) [] _ [] _ [] rfl
    ⟨rfl, rfl, rfl⟩ hearly hfirst⟩

theorem replayed_at_expiry :
    ¬ ∀ requests : List (SignedRequest ℚ),
      requests.Pairwise (fun earlier later => earlier.now ≤ later.now) →
      ∀ before request between replay after,
        requests = before ++ request :: (between ++ replay :: after) → Repeats request replay →
        Accepted Sample.digests Sample.secret (.empty 10000 (by decide)) before request →
        ¬ Accepted Sample.digests Sample.secret (.empty 10000 (by decide))
          (before ++ request :: between) replay := by
  intro h
  have hfirst : Accepted Sample.digests Sample.secret (.empty 10000 (by decide)) []
      (Sample.request 1000) := by
    unfold Accepted
    decide +kernel
  have hagain : Accepted Sample.digests Sample.secret (.empty 10000 (by decide))
      [Sample.request 1000] (Sample.request 1300) := by
    unfold Accepted
    decide +kernel
  exact h [Sample.request 1000, Sample.request 1300] (by decide +kernel) [] _ [] _ [] rfl
    ⟨rfl, rfl, rfl⟩ hfirst hagain

end InboxSaas.Provisioner
