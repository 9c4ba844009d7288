import Mathlib.Logic.Function.Basic

/-!
# Custody

Resources that are made once, are in one place at a time and are released in the end.  `Custody`
says that none is lost and none is in two places; the lemmas are the things that can happen to one.
-/

namespace Reasoning

variable {κ ρ : Type} [DecidableEq κ]

/-- Every resource that was made is released, or in a place, and in no two. -/
structure Custody (place : κ → Option ρ) (made released : ρ → Prop) : Prop where
  exists_made : ∀ a r, place a = some r → made r
  unique : ∀ a b r, place a = some r → place b = some r → a = b
  kept : ∀ r, made r → released r ∨ ∃ a, place a = some r

namespace Custody

variable {place : κ → Option ρ} {made released : ρ → Prop} {a b : κ} {r : ρ}

omit [DecidableEq κ] in
theorem empty : Custody (fun _ : κ => none) (fun _ : ρ => False) released where
  exists_made _ _ h := by cases h
  unique _ _ _ h := by cases h
  kept _ h := h.elim

omit [DecidableEq κ] in
theorem weaken {released' : ρ → Prop} (h : Custody place made released)
    (hreleased : ∀ r, released r → released' r) : Custody place made released' where
  exists_made := h.exists_made
  unique := h.unique
  kept r hr := (h.kept r hr).imp_left (hreleased r)

omit [DecidableEq κ] in
theorem congr {made' : ρ → Prop} (h : Custody place made released)
    (hmade : ∀ r, made r ↔ made' r) : Custody place made' released where
  exists_made a r ha := (hmade r).mp (h.exists_made a r ha)
  unique := h.unique
  kept r hr := h.kept r ((hmade r).mpr hr)

/-- A resource is made in an empty place. -/
theorem make (h : Custody place made released) (ha : place a = none) (hr : ¬ made r) :
    Custody (Function.update place a (some r)) (fun x => x = r ∨ made x) released where
  exists_made b x hb := by
    by_cases hab : b = a
    · rw [hab, Function.update_self] at hb
      exact .inl (Option.some.inj hb).symm
    · rw [Function.update_of_ne hab] at hb
      exact .inr (h.exists_made b x hb)
  unique b d x hb hd := by
    by_cases hab : b = a
    · by_cases had : d = a
      · rw [hab, had]
      · rw [hab, Function.update_self] at hb
        rw [Function.update_of_ne had, ← Option.some.inj hb] at hd
        exact absurd (h.exists_made d r hd) hr
    · rw [Function.update_of_ne hab] at hb
      by_cases had : d = a
      · rw [had, Function.update_self] at hd
        rw [← Option.some.inj hd] at hb
        exact absurd (h.exists_made b r hb) hr
      · rw [Function.update_of_ne had] at hd
        exact h.unique b d x hb hd
  kept x hx := by
    rcases hx with rfl | hx
    · exact .inr ⟨a, Function.update_self ..⟩
    · refine (h.kept x hx).imp_right fun ⟨b, hb⟩ => ⟨b, ?_⟩
      have hab : b ≠ a := by
        rintro rfl
        rw [ha] at hb
        cases hb
      rwa [Function.update_of_ne hab]

/-- A place is emptied, and what was there released. -/
theorem release (h : Custody place made released) (hr : ∀ r, place a = some r → released r) :
    Custody (Function.update place a none) made released where
  exists_made b x hb := by
    by_cases hab : b = a
    · rw [hab, Function.update_self] at hb
      cases hb
    · rw [Function.update_of_ne hab] at hb
      exact h.exists_made b x hb
  unique b d x hb hd := by
    by_cases hab : b = a
    · rw [hab, Function.update_self] at hb
      cases hb
    · by_cases had : d = a
      · rw [had, Function.update_self] at hd
        cases hd
      · rw [Function.update_of_ne hab] at hb
        rw [Function.update_of_ne had] at hd
        exact h.unique b d x hb hd
  kept x hx := by
    rcases h.kept x hx with hx | ⟨b, hb⟩
    · exact .inl hx
    · by_cases hab : b = a
      · rw [hab] at hb
        exact .inl (hr x hb)
      · exact .inr ⟨b, by rwa [Function.update_of_ne hab]⟩

/-- What is in one place is moved to an empty one. -/
theorem move (h : Custody place made released) (hab : a ≠ b) (hb : place b = none) :
    Custody (Function.update (Function.update place b (place a)) a none) made released := by
  -- what is where afterwards was there before, or is what was moved
  have hplace : ∀ {d : κ} {x : ρ},
      Function.update (Function.update place b (place a)) a none d = some x →
      d = b ∧ place a = some x ∨ d ≠ a ∧ place d = some x := by
    intro d x hd
    by_cases hda : d = a
    · rw [hda, Function.update_self] at hd
      cases hd
    · rw [Function.update_of_ne hda] at hd
      by_cases hdb : d = b
      · rw [hdb, Function.update_self] at hd
        exact .inl ⟨hdb, hd⟩
      · rw [Function.update_of_ne hdb] at hd
        exact .inr ⟨hda, hd⟩
  refine ⟨fun d x hd => ?_, fun d e x hd he => ?_, fun x hx => ?_⟩
  · rcases hplace hd with ⟨-, hd⟩ | ⟨-, hd⟩
    · exact h.exists_made a x hd
    · exact h.exists_made d x hd
  · rcases hplace hd with ⟨hdb, hd⟩ | ⟨hda, hd⟩
    · rcases hplace he with ⟨heb, -⟩ | ⟨hea, he⟩
      · rw [hdb, heb]
      · exact absurd (h.unique e a x he hd) hea
    · rcases hplace he with ⟨-, he⟩ | ⟨-, he⟩
      · exact absurd (h.unique d a x hd he) hda
      · exact h.unique d e x hd he
  · refine (h.kept x hx).imp_right fun ⟨d, hd⟩ => ?_
    by_cases hda : d = a
    · refine ⟨b, ?_⟩
      rw [Function.update_of_ne (Ne.symm hab), Function.update_self, ← hda, hd]
    · have hdb : d ≠ b := by
        rintro rfl
        rw [hb] at hd
        cases hd
      exact ⟨d, by rw [Function.update_of_ne hda, Function.update_of_ne hdb, hd]⟩

end Custody

end Reasoning
