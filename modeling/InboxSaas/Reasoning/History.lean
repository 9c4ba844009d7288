import Mathlib.Data.List.Induction

/-!
# Histories

A `History` is what was seen of a system on the way to a state, first things first.  `Stands` says
that something was seen and that nothing seen since has ended it.
-/

namespace Reasoning

variable {σ α : Type}

/-- The events `events`, in this order, lead from `init` to the state. -/
inductive History (step : σ → α → σ → Prop) (init : σ) : List α → σ → Prop where
  | nil : History step init [] init
  | snoc {events : List α} {s s' : σ} {e : α} (h : History step init events s) (hs : step s e s') :
      History step init (events ++ [e]) s'

namespace History

variable {step : σ → α → σ → Prop} {init s : σ} {events : List α}

/-- What holds at first and is preserved by every step that follows a history. -/
theorem invariant {P : List α → σ → Prop} (h : History step init events s) (hinit : P [] init)
    (hstep : ∀ events s e s', History step init events s → P events s → step s e s' →
      P (events ++ [e]) s') : P events s := by
  induction h with
  | nil => exact hinit
  | snoc h hs ih => exact hstep _ _ _ _ h ih hs

/-- The step that was seen as `e`. -/
theorem split (h : History step init events s) {before after : List α} {e : α}
    (he : events = before ++ e :: after) :
    ∃ s₁ s₂, History step init before s₁ ∧ step s₁ e s₂ := by
  induction h generalizing after with
  | nil => exact absurd he.symm (List.append_ne_nil_of_right_ne_nil _ (List.cons_ne_nil _ _))
  | @snoc events s₁ s₂ last h hs ih =>
      rcases List.eq_nil_or_concat after with rfl | ⟨rest, other, rfl⟩
      · obtain ⟨rfl, hlast⟩ := List.append_inj' he rfl
        cases hlast
        exact ⟨s₁, s₂, h, hs⟩
      · rw [List.concat_eq_append, ← List.cons_append, ← List.append_assoc] at he
        exact ih (List.append_inj_left' he rfl)

end History

/-- After the events `before` of it, an `e` with `p before e` was seen, and no `ends` since. -/
def Stands (p : List α → α → Prop) (ends : α → Prop) (events : List α) : Prop :=
  ∃ before e after, events = before ++ e :: after ∧ p before e ∧ ∀ later ∈ after, ¬ ends later

section

variable {p : List α → α → Prop} {ends : α → Prop} {events : List α} {e : α}

theorem not_stands_nil : ¬ Stands p ends [] := by
  rintro ⟨before, e, after, he, -⟩
  exact absurd he.symm (List.append_ne_nil_of_right_ne_nil _ (List.cons_ne_nil _ _))

theorem Stands.seen (h : p events e) : Stands p ends (events ++ [e]) :=
  ⟨events, e, [], rfl, h, fun _ hnil => absurd hnil List.not_mem_nil⟩

theorem Stands.append (h : Stands p ends events) (he : ¬ ends e) :
    Stands p ends (events ++ [e]) := by
  obtain ⟨before, first, after, rfl, hp, hafter⟩ := h
  refine ⟨before, first, after ++ [e], by rw [List.append_assoc, List.cons_append], hp, ?_⟩
  intro later hlater
  rcases List.mem_append.mp hlater with hlater | hlater
  · exact hafter later hlater
  · rw [List.mem_singleton.mp hlater]
    exact he

/-- What stands was seen last, or stood before and was not ended last. -/
theorem stands_append :
    Stands p ends (events ++ [e]) ↔ p events e ∨ Stands p ends events ∧ ¬ ends e := by
  constructor
  · rintro ⟨before, first, after, he, hp, hafter⟩
    rcases List.eq_nil_or_concat after with rfl | ⟨rest, last, rfl⟩
    · obtain ⟨rfl, hlast⟩ := List.append_inj' he rfl
      cases hlast
      exact .inl hp
    · rw [List.concat_eq_append] at he hafter
      rw [← List.cons_append, ← List.append_assoc] at he
      obtain ⟨rfl, hlast⟩ := List.append_inj' he rfl
      cases hlast
      refine .inr ⟨⟨before, first, rest, rfl, hp, fun later hlater => ?_⟩, ?_⟩
      · exact hafter later (List.mem_append_left _ hlater)
      · exact hafter e (List.mem_append_right _ (List.mem_singleton_self e))
  · rintro (hp | ⟨hstands, he⟩)
    · exact .seen hp
    · exact hstands.append he

end

end Reasoning
