import Mathlib.Data.List.DropRight
import Mathlib.Data.List.TakeWhile

/-!
# Trimming a text at both ends

`trimEnds p` removes what `p` holds of from the front and from the back.  What is left is `Trimmed`,
and nothing more is removed from it.
-/

namespace Encoding

variable {α : Type} {p : α → Bool}

def trimEnds (p : α → Bool) (text : List α) : List α := (text.dropWhile p).rdropWhile p

/-- Neither end is one to be removed. -/
structure Trimmed (p : α → Bool) (text : List α) : Prop where
  first : ∀ a, text.head? = some a → p a = false
  last : ∀ a, text.getLast? = some a → p a = false

theorem dropWhile_of_first {text : List α} (h : ∀ a, text.head? = some a → p a = false) :
    text.dropWhile p = text := by
  cases text with
  | nil => rfl
  | cons a rest => rw [List.dropWhile_cons, h a rfl, if_neg Bool.false_ne_true]

theorem rdropWhile_of_last {text : List α} (h : ∀ a, text.getLast? = some a → p a = false) :
    text.rdropWhile p = text := by
  rw [List.rdropWhile_eq_self_iff]
  intro hne hp
  rw [h _ (List.getLast?_eq_some_getLast hne)] at hp
  exact Bool.false_ne_true hp

theorem Trimmed.trimEnds_eq {text : List α} (h : Trimmed p text) : trimEnds p text = text := by
  rw [trimEnds, dropWhile_of_first h.first, rdropWhile_of_last h.last]

theorem trimmed_trimEnds (p : α → Bool) (text : List α) : Trimmed p (trimEnds p text) := by
  constructor
  · intro a ha
    -- the front of what is left is the front of what the first pass left
    have hhead : (text.dropWhile p).head? = some a := by
      have hrest := List.rdropWhile_append_rtakeWhile (p := p) (l := text.dropWhile p)
      rw [← hrest, List.head?_append, ← trimEnds, ha, Option.some_or]
    have hnot := List.head?_dropWhile_not p text
    rw [hhead] at hnot
    exact hnot
  · intro a ha
    have hne : (text.dropWhile p).rdropWhile p ≠ [] := by
      intro hnil
      rw [trimEnds, hnil] at ha
      cases ha
    have hlast := List.rdropWhile_last_not p (text.dropWhile p) hne
    rw [trimEnds, List.getLast?_eq_some_getLast hne, Option.some.injEq] at ha
    rw [ha] at hlast
    exact Bool.eq_false_iff.mpr hlast

theorem trimEnds_subset (p : α → Bool) (text : List α) : trimEnds p text ⊆ text :=
  fun _ ha => (List.dropWhile_sublist p).subset ((List.rdropWhile_prefix p _).subset ha)

end Encoding
