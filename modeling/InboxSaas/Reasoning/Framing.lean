import Mathlib.Data.List.Induction

/-!
# Frames in a shared stream

Several producers write to one stream, one after the other; each ends its part with a closing item
of its own.  Seen by one producer, a stretch of the stream is an open frame while its part is being
written, and a closed frame when the closing item is there.  A reader that stops at the closing item
has read everything of its producer (`ClosedFrame.stop`), and the last item with some property is
the producer's as soon as the producer wrote one (`OpenFrame.mine_of_last`).
-/

namespace Reasoning

variable {α : Type} {mine closing : α → Prop} {l : List α}

/-- Items of others, then the frame's own, none of which closes it. -/
def OpenFrame (mine closing : α → Prop) (l : List α) : Prop :=
  ∃ others own, l = others ++ own ∧ (∀ x ∈ others, ¬ mine x) ∧ ∀ x ∈ own, mine x ∧ ¬ closing x

/-- An open frame and its closing item. -/
def ClosedFrame (mine closing : α → Prop) (l : List α) : Prop :=
  ∃ front last, l = front ++ [last] ∧ OpenFrame mine closing front ∧ mine last ∧ closing last

theorem OpenFrame.of_others (h : ∀ x ∈ l, ¬ mine x) : OpenFrame mine closing l :=
  ⟨l, [], (List.append_nil l).symm, h, fun _ hx => absurd hx List.not_mem_nil⟩

theorem OpenFrame.snoc (h : OpenFrame mine closing l) {x : α} (hx : mine x) (hc : ¬ closing x) :
    OpenFrame mine closing (l ++ [x]) := by
  have ⟨others, own, hl, hothers, hown⟩ := h
  refine ⟨others, own ++ [x], by rw [hl, List.append_assoc], hothers, fun y hy => ?_⟩
  cases List.mem_append.mp hy with
  | inl hy => exact hown y hy
  | inr hy => exact List.mem_singleton.mp hy ▸ ⟨hx, hc⟩

theorem OpenFrame.not_closing (h : OpenFrame mine closing l) {x : α} (hx : x ∈ l) (hm : mine x) :
    ¬ closing x := by
  have ⟨others, own, hl, hothers, hown⟩ := h
  rw [hl] at hx
  cases List.mem_append.mp hx with
  | inl hx => exact absurd hm (hothers x hx)
  | inr hx => exact (hown x hx).2

theorem OpenFrame.close (h : OpenFrame mine closing l) {x : α} (hx : mine x) (hc : closing x) :
    ClosedFrame mine closing (l ++ [x]) :=
  ⟨l, x, rfl, h, hx, hc⟩

/-- The closing item is the last of the frame. -/
theorem ClosedFrame.stop {front rest : List α} {x : α}
    (h : ClosedFrame mine closing (front ++ x :: rest)) (hx : mine x) (hc : closing x) :
    rest = [] ∧ OpenFrame mine closing front := by
  have ⟨front', last, hl, hopen, _, _⟩ := h
  cases rest using List.reverseRecOn with
  | nil => exact ⟨rfl, (List.append_inj' hl rfl).1 ▸ hopen⟩
  | append_singleton rest y =>
      have hsame : (front ++ x :: rest) ++ [y] = front' ++ [last] := by
        rw [← hl, List.append_assoc, List.cons_append]
      have hfront := (List.append_inj' hsame rfl).1
      have hmem : x ∈ front' := hfront ▸ List.mem_append_right front List.mem_cons_self
      exact absurd hc (hopen.not_closing hmem hx)

/-- If the frame's producer wrote an item with `P`, the last item with `P` is its own. -/
theorem OpenFrame.mine_of_last {P : α → Prop} {front rest : List α} {x : α}
    (h : OpenFrame mine closing (front ++ x :: rest))
    (hexists : ∃ y ∈ front ++ x :: rest, mine y ∧ P y) (hlast : ∀ y ∈ rest, ¬ P y) : mine x := by
  have ⟨others, own, hl, hothers, hown⟩ := h
  have ⟨y, hy, hmine, hP⟩ := hexists
  have hy' : y ∈ own := by
    rw [hl] at hy
    cases List.mem_append.mp hy with
    | inl hy => exact absurd hmine (hothers y hy)
    | inr hy => exact hy
  cases List.append_eq_append_iff.mp hl with
  | inl hcase =>
      have ⟨gap, hothers', hrest⟩ := hcase
      cases gap with
      | nil =>
          have hown' : own = x :: rest := hrest.symm
          exact (hown x (hown' ▸ List.mem_cons_self)).1
      | cons z gap =>
          -- all that the producer wrote stands after `x`
          have htail : rest = gap ++ own := (List.cons.inj hrest).2
          exact absurd hP (hlast y (htail ▸ List.mem_append_right gap hy'))
  | inr hcase =>
      have ⟨gap, _, hown'⟩ := hcase
      exact (hown x (hown' ▸ List.mem_append_right gap List.mem_cons_self)).1

end Reasoning
