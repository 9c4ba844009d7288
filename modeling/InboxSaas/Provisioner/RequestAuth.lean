import Mathlib.Algebra.Order.Ring.Cast
import Mathlib.Algebra.Order.Group.Abs
import Mathlib.Data.List.Nodup

/-!
# Signed requests and their nonces

`verify_signed_request` and `InMemoryNonceStore.check_and_store`.  A Python string is the list of
its characters, a `timestamp()` an element of an ordered ring, and the digests of `hashlib` and
`hmac` are parameters.
-/

namespace InboxSaas.Provisioner

abbrev PyString := List Char

abbrev Bytes := List UInt8

def maxRequestAgeSeconds : Int := 300

def maxNonceLength : Nat := 256

/-- The digests the service computes. -/
structure Digests where
  sha256 : Bytes → Bytes
  hmacSha256 : Bytes → Bytes → Bytes

/-! ## Text -/

def hexChar (digit : Nat) : Char :=
  if digit < 10 then Char.ofNat (48 + digit) else Char.ofNat (87 + digit)

def hexdigest (digest : Bytes) : PyString :=
  digest.flatMap fun byte => [hexChar (byte.toNat / 16), hexChar (byte.toNat % 16)]

/-- `str.encode()` -/
def encode (text : PyString) : Bytes :=
  text.flatMap String.utf8EncodeChar

/-- `_TIMESTAMP_PATTERN.fullmatch` -/
def timestampMatches (timestamp : PyString) : Bool :=
  timestamp.all (fun c => '0' ≤ c && c ≤ '9') && 1 ≤ timestamp.length && timestamp.length ≤ 16

/-- `int` of a string of digits -/
def decimal (digits : PyString) : Nat :=
  digits.foldl (fun value c => value * 10 + (c.toNat - 48)) 0

/-- The characters a signature may have. -/
def hexDigits : PyString := "0123456789abcdef".toList

/-! ## Verification -/

/-- A request as it reaches verification, with the time that `clock()` returns there. -/
structure SignedRequest (R : Type) where
  rawBody : Bytes
  timestamp : Option PyString
  nonce : Option PyString
  signature : Option PyString
  now : R

structure VerifiedRequest (R : Type) where
  nonce : PyString
  nonceExpiresAt : R
  verifiedAt : R
  deriving DecidableEq

def canonicalInput (digests : Digests) (timestamp nonce : PyString) (rawBody : Bytes) : Bytes :=
  encode (timestamp ++ ['\n'] ++ nonce ++ ['\n'] ++ hexdigest (digests.sha256 rawBody))

/-- A header that is missing or empty counts as missing. -/
def present (header : Option PyString) : Option PyString :=
  header.filter (fun text => text ≠ [])

def verifySignedRequest {R : Type} [Ring R] [LinearOrder R] (digests : Digests) (secret : Bytes)
    (request : SignedRequest R) : Option (VerifiedRequest R) :=
  match present request.timestamp, present request.nonce, present request.signature with
  | some timestamp, some nonce, some signature =>
      if secret = [] then none
      else if !timestampMatches timestamp || maxNonceLength < nonce.length then none
      else if signature.length ≠ 64 || signature.any (fun c => !hexDigits.contains c) then none
      else
        let requestTimestamp : R := (decimal timestamp : R)
        if (maxRequestAgeSeconds : R) < |request.now - requestTimestamp| then none
        else
          let expectedSignature := hexdigest (digests.hmacSha256 secret
            (canonicalInput digests timestamp nonce request.rawBody))
          if expectedSignature ≠ signature then none
          else some ⟨nonce, requestTimestamp + (maxRequestAgeSeconds : R), request.now⟩
  | _, _, _ => none

theorem present_eq_some {header : Option PyString} {text : PyString}
    (h : present header = some text) : header = some text :=
  (Option.filter_eq_some_iff.mp h).1

/-- What a verified request looks like. -/
theorem verified {R : Type} [Ring R] [LinearOrder R] {digests : Digests} {secret : Bytes}
    {request : SignedRequest R} {v : VerifiedRequest R}
    (h : verifySignedRequest digests secret request = some v) :
    ∃ timestamp nonce, request.timestamp = some timestamp ∧ request.nonce = some nonce ∧
      |request.now - (decimal timestamp : R)| ≤ (maxRequestAgeSeconds : R) ∧
      v = ⟨nonce, (decimal timestamp : R) + (maxRequestAgeSeconds : R), request.now⟩ := by
  unfold verifySignedRequest at h
  split at h
  · rename_i timestamp nonce signature ht hn _
    split at h
    · cases h
    split at h
    · cases h
    split at h
    · cases h
    dsimp only at h
    split at h
    · cases h
    rename_i hage
    split at h
    · cases h
    rw [Option.some.injEq] at h
    exact ⟨timestamp, nonce, present_eq_some ht, present_eq_some hn, not_lt.mp hage, h.symm⟩
  · cases h

section

variable {R : Type} [Ring R] [LinearOrder R] {digests : Digests} {secret rawBody : Bytes}
  {timestamp nonce signature : PyString} {now : R}

theorem present_some {text : PyString} (h : text ≠ []) : present (some text) = some text := by
  rw [present, Option.filter_some, if_pos (decide_eq_true h)]

/-- Only the signature of the canonical text is verified. -/
theorem verified_signature (h : (verifySignedRequest digests secret
    ⟨rawBody, some timestamp, some nonce, some signature, now⟩).isSome = true) :
    timestampMatches timestamp = true ∧ signature =
      hexdigest (digests.hmacSha256 secret (canonicalInput digests timestamp nonce rawBody)) := by
  unfold verifySignedRequest at h
  split at h
  · rename_i ht hn hs
    cases present_eq_some ht
    cases present_eq_some hn
    cases present_eq_some hs
    split at h
    · cases h
    split at h
    · cases h
    rename_i hformat
    split at h
    · cases h
    dsimp only at h
    split at h
    · cases h
    split at h
    · cases h
    rename_i hsignature
    rw [Bool.not_eq_true, Bool.or_eq_false_iff, Bool.not_eq_false'] at hformat
    exact ⟨hformat.1, (not_not.mp hsignature).symm⟩
  · cases h

/-- And it is verified, if it has its 64 digits and the timestamp is recent. -/
theorem verifySignedRequest_signature (hsecret : secret ≠ [])
    (htimestamp : timestampMatches timestamp = true) (hnonce : nonce ≠ [])
    (hlength : nonce.length ≤ maxNonceLength)
    (hage : |now - (decimal timestamp : R)| ≤ (maxRequestAgeSeconds : R))
    (hsignature : signature =
      hexdigest (digests.hmacSha256 secret (canonicalInput digests timestamp nonce rawBody)))
    (hdigits : signature.length = 64) (hhex : ∀ c ∈ signature, c ∈ hexDigits) :
    verifySignedRequest digests secret
        ⟨rawBody, some timestamp, some nonce, some signature, now⟩ =
      some ⟨nonce, (decimal timestamp : R) + (maxRequestAgeSeconds : R), now⟩ := by
  have hne : timestamp ≠ [] := by
    rintro rfl
    cases htimestamp
  have hpresent : signature ≠ [] := by
    rintro rfl
    cases hdigits
  have hformat : (!timestampMatches timestamp || decide (maxNonceLength < nonce.length)) = false := by
    rw [htimestamp, decide_eq_false (Nat.not_lt.mpr hlength)]
    rfl
  have hany : signature.any (fun c => !hexDigits.contains c) = false := by
    rw [List.any_eq_false]
    intro c hc
    rw [List.contains_iff_mem.mpr (hhex c hc)]
    exact Bool.false_ne_true
  unfold verifySignedRequest
  dsimp only
  rw [present_some hne, present_some hnonce, present_some hpresent]
  dsimp only
  rw [if_neg hsecret, hformat, if_neg Bool.false_ne_true, hany, hdigits, if_neg (by decide),
    if_neg (not_lt.mpr hage), if_neg (not_not.mpr hsignature.symm)]

end

/-! ## The nonce store -/

/-- Nonces with their expiry, the oldest first; at most `maxEntries` of them. -/
structure InMemoryNonceStore (R : Type) where
  maxEntries : Nat
  nonces : List (PyString × R)
  positive : 1 ≤ maxEntries
  nodup : (nonces.map Prod.fst).Nodup
  bounded : nonces.length ≤ maxEntries

namespace InMemoryNonceStore

variable {R : Type} [LinearOrder R]

def empty (maxEntries : Nat) (h : 1 ≤ maxEntries) : InMemoryNonceStore R :=
  ⟨maxEntries, [], h, List.nodup_nil, Nat.zero_le _⟩

/-- The entries that are still live. -/
def live (store : InMemoryNonceStore R) (now : R) : List (PyString × R) :=
  store.nonces.filter (fun entry => !(entry.2 ≤ now))

theorem live_nodup (store : InMemoryNonceStore R) (now : R) :
    ((store.live now).map Prod.fst).Nodup :=
  store.nodup.sublist (List.filter_sublist.map Prod.fst)

theorem live_bounded (store : InMemoryNonceStore R) (now : R) :
    (store.live now).length ≤ store.maxEntries :=
  Nat.le_trans (List.length_filter_le _ _) store.bounded

/-- `check_and_store`: its result and the store after it. -/
def checkAndStore (store : InMemoryNonceStore R) (nonce : PyString) (expiresAt now : R) :
    Bool × InMemoryNonceStore R :=
  if h : nonce ∈ (store.live now).map Prod.fst ∨ store.maxEntries ≤ (store.live now).length then
    (false, { store with
      nonces := store.live now
      nodup := store.live_nodup now
      bounded := store.live_bounded now })
  else
    (true, { store with
      nonces := store.live now ++ [(nonce, expiresAt)]
      nodup := by
        rw [List.map_append, List.nodup_append]
        refine ⟨store.live_nodup now, List.nodup_singleton _, fun a ha b hb he => ?_⟩
        rw [List.map_singleton, List.mem_singleton] at hb
        rw [he, hb] at ha
        exact h (.inl ha)
      bounded := by
        rw [List.length_append, List.length_singleton]
        omega })

section

variable {store : InMemoryNonceStore R} {nonce : PyString} {expiry now : R}

theorem mem_live (h : (nonce, expiry) ∈ store.nonces) (hlive : now < expiry) :
    (nonce, expiry) ∈ store.live now := by
  rw [live, List.mem_filter]
  exact ⟨h, by simp [hlive]⟩

/-- A live nonce is refused. -/
theorem checkAndStore_live (h : (nonce, expiry) ∈ store.nonces) (hlive : now < expiry)
    (expiresAt : R) : (store.checkAndStore nonce expiresAt now).1 = false := by
  have hmem : nonce ∈ (store.live now).map Prod.fst :=
    List.mem_map.mpr ⟨_, mem_live h hlive, rfl⟩
  unfold checkAndStore
  rw [dif_pos (.inl hmem)]

/-- An accepted nonce is stored. -/
theorem checkAndStore_stored {expiresAt : R}
    (h : (store.checkAndStore nonce expiresAt now).1 = true) :
    (nonce, expiresAt) ∈ (store.checkAndStore nonce expiresAt now).2.nonces := by
  unfold checkAndStore at h ⊢
  split at h
  · cases h
  · rename_i hnew
    rw [dif_neg hnew]
    simp

/-- Storing one nonce keeps the others that are live. -/
theorem checkAndStore_keeps (h : (nonce, expiry) ∈ store.nonces) (hlive : now < expiry)
    (other : PyString) (expiresAt : R) :
    (nonce, expiry) ∈ (store.checkAndStore other expiresAt now).2.nonces := by
  have hmem := mem_live h hlive
  unfold checkAndStore
  split
  · exact hmem
  · exact List.mem_append_left _ hmem

end

end InMemoryNonceStore

end InboxSaas.Provisioner
