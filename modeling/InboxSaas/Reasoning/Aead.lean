import Mathlib.Logic.Basic

/-!
# Authenticated encryption with associated data

An `Aead` seals a plaintext under a key, a nonce and associated data, and unseals it under the same
three.  It is ideal for a key when nothing unseals but what was sealed, and a sealed value has one
origin: the associated data then binds the value to its context.
-/

namespace Reasoning

variable {Key Nonce Data Plain Sealed : Type}

structure Aead (Key Nonce Data Plain Sealed : Type) where
  sealed : Key → Nonce → Data → Plain → Sealed
  unsealed : Key → Nonce → Data → Sealed → Option Plain

namespace Aead

variable {aead : Aead Key Nonce Data Plain Sealed} {key : Key}

/-- What was sealed is unsealed under the same key, nonce and data. -/
def Opens (aead : Aead Key Nonce Data Plain Sealed) (key : Key) : Prop :=
  ∀ nonce data plain, aead.unsealed key nonce data (aead.sealed key nonce data plain) = some plain

structure Ideal (aead : Aead Key Nonce Data Plain Sealed) (key : Key) : Prop where
  unsealed_eq_some : ∀ nonce data value plain,
    aead.unsealed key nonce data value = some plain ↔ aead.sealed key nonce data plain = value
  data_eq : ∀ nonce data data' plain plain',
    aead.sealed key nonce data plain = aead.sealed key nonce data' plain' → data = data'

theorem Ideal.opens (h : aead.Ideal key) : aead.Opens key :=
  fun nonce data plain => (h.unsealed_eq_some nonce data _ plain).mpr rfl

/-- Under other associated data nothing comes out. -/
theorem Ideal.unsealed_other (h : aead.Ideal key) (nonce : Nonce) {data data' : Data}
    (hne : data' ≠ data) (plain : Plain) :
    aead.unsealed key nonce data' (aead.sealed key nonce data plain) = none := by
  cases hout : aead.unsealed key nonce data' (aead.sealed key nonce data plain) with
  | none => rfl
  | some plain' =>
      have hsame := (h.unsealed_eq_some nonce data' _ plain').mp hout
      exact absurd (h.data_eq nonce data' data plain' plain hsame) hne

end Aead

end Reasoning
