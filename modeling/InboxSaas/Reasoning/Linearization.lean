import Mathlib.Data.List.Basic
import Mathlib.Data.List.Nodup

/-!
# Sequential objects and their histories

A sequential object answers each operation at once: `effect op v` is the answer in state `v` and the
state after it.  A history is the list of the operations in the order in which they take effect.
What an operation of a history was answered depends on the operations before it only, so an answer
stays right while the history grows (`Answers.append`).  Two objects that answer alike in related
states answer alike along a history (`Simulation`).

A store may hold many objects, each with a history of its own.  An operation takes effect on several
of them at once (`record`), and the histories only grow (`Advances`).
-/

namespace Reasoning

variable {κ V W R : Type}

/-- The state after a history. -/
def replay (effect : κ → V → R × V) (history : List κ) (v : V) : V :=
  history.foldl (fun v op => (effect op v).2) v

/-- The operation takes effect in the history with the answer `r`. -/
def Answers (effect : κ → V → R × V) (v : V) (history : List κ) (op : κ) (r : R) : Prop :=
  ∃ before after, history = before ++ op :: after ∧ (effect op (replay effect before v)).1 = r

variable {effect : κ → V → R × V} {v : V}

@[simp] theorem replay_nil : replay effect [] v = v := rfl

theorem replay_append (before after : List κ) :
    replay effect (before ++ after) v = replay effect after (replay effect before v) :=
  List.foldl_append

theorem replay_concat (history : List κ) (op : κ) :
    replay effect (history ++ [op]) v = (effect op (replay effect history v)).2 :=
  replay_append history [op]

theorem Answers.append {history : List κ} {op : κ} {r : R} (h : Answers effect v history op r)
    (later : List κ) : Answers effect v (history ++ later) op r := by
  obtain ⟨before, after, rfl, hr⟩ := h
  exact ⟨before, after ++ later, by simp, hr⟩

theorem Answers.concat (history : List κ) (op : κ) :
    Answers effect v (history ++ [op]) op (effect op (replay effect history v)).1 :=
  ⟨history, [], rfl, rfl⟩

theorem Answers.mem {history : List κ} {op : κ} {r : R} (h : Answers effect v history op r) :
    op ∈ history := by
  obtain ⟨before, after, rfl, -⟩ := h
  exact List.mem_append_right _ List.mem_cons_self

/-- An operation that is answered alike in every state. -/
theorem Answers.of_mem {history : List κ} {op : κ} {r : R} (hmem : op ∈ history)
    (h : ∀ v, (effect op v).1 = r) : Answers effect v history op r := by
  obtain ⟨before, after, rfl⟩ := List.append_of_mem hmem
  exact ⟨before, after, rfl, h _⟩

/-- Operations that do not change the state. -/
theorem replay_unchanged {ops : List κ} (h : ∀ op ∈ ops, (effect op v).2 = v) :
    replay effect ops v = v := by
  induction ops with
  | nil => rfl
  | cons op rest ih =>
      change replay effect rest (effect op v).2 = v
      rw [h op List.mem_cons_self, ih fun op' ho => h op' (List.mem_cons_of_mem op ho)]

/-- Where only the last operation changes the state, each is answered as if it were alone. -/
theorem Answers.alone {history : List κ} {op : κ} {r : R} (h : Answers effect v history op r)
    (hsame : ∀ op' ∈ history.dropLast, (effect op' v).2 = v) : (effect op v).1 = r := by
  obtain ⟨before, after, rfl, hr⟩ := h
  have hbefore : replay effect before v = v := by
    refine replay_unchanged fun op' ho => hsame op' ?_
    rw [List.dropLast_append_of_ne_nil (List.cons_ne_nil op after)]
    exact List.mem_append_left _ ho
  rwa [hbefore] at hr

/-- Where no two operations of a history have the same label, an operation has one place and one
answer. -/
theorem Answers.at_place {L : Type} {label : κ → L} {before after : List κ} {op op' : κ} {r : R}
    (hnodup : ((before ++ op :: after).map label).Nodup)
    (h : Answers effect v (before ++ op :: after) op' r) (hlabel : label op' = label op) :
    (effect op (replay effect before v)).1 = r := by
  obtain ⟨before', after', heq, hr⟩ := h
  have hnot : ∀ ops : List κ, label op ∉ ops.map label → op' ∉ ops := by
    intro ops hnot hmem
    rw [← hlabel] at hnot
    exact hnot (List.mem_map_of_mem hmem)
  rw [List.map_append, List.map_cons, List.nodup_append, List.nodup_cons] at hnodup
  obtain ⟨-, ⟨hafter, -⟩, hdisjoint⟩ := hnodup
  have hbefore : label op ∉ before.map label :=
    fun hmem => hdisjoint _ hmem _ List.mem_cons_self rfl
  obtain ⟨rfl, rfl, -⟩ :=
    (List.append_cons_inj_of_notMem (hnot before hbefore) (hnot after hafter)).mp heq
  exact hr

/-- The states of `real` refine those of `effect`: `Rel ops` relates them while the operations
`ops` have not taken effect. -/
structure Simulation (effect : κ → V → R × V) (real : κ → W → R × W)
    (Rel : List κ → V → W → Prop) : Prop where
  step : ∀ op ops v w, Rel (op :: ops) v w →
    (real op w).1 = (effect op v).1 ∧ Rel ops (effect op v).2 (real op w).2

namespace Simulation

variable {real : κ → W → R × W} {Rel : List κ → V → W → Prop} {w : W}

theorem replay (h : Simulation effect real Rel) (history ops : List κ)
    (hr : Rel (history ++ ops) v w) :
    Rel ops (Reasoning.replay effect history v) (Reasoning.replay real history w) := by
  induction history generalizing v w with
  | nil => exact hr
  | cons op rest ih => exact ih (h.step op _ v w hr).2

/-- What the object answers along a history is what the real operation answers there. -/
theorem answers (h : Simulation effect real Rel) {history : List κ} (hr : Rel history v w) {op : κ}
    {r : R} (ha : Answers effect v history op r) : Answers real w history op r := by
  obtain ⟨before, after, rfl, rfl⟩ := ha
  exact ⟨before, after, rfl, (h.step op after _ _ (h.replay before _ hr)).1⟩

end Simulation

/-! ## Many objects in one store -/

section

variable {O S : Type}

open Classical in
/-- The operation takes effect on the objects `on`. -/
noncomputable def record (histories : O → List κ) (on : O → Prop) (op : κ) : O → List κ :=
  fun o => if on o then histories o ++ [op] else histories o

theorem record_of {histories : O → List κ} {on : O → Prop} {op : κ} {o : O} (h : on o) :
    record histories on op o = histories o ++ [op] :=
  if_pos h

theorem record_of_not {histories : O → List κ} {on : O → Prop} {op : κ} {o : O} (h : ¬ on o) :
    record histories on op o = histories o :=
  if_neg h

theorem record_none (histories : O → List κ) (op : κ) :
    record histories (fun _ => False) op = histories :=
  funext fun _ => record_of_not not_false

theorem mem_record {histories : O → List κ} {on : O → Prop} {op op' : κ} {o : O} :
    op' ∈ record histories on op o ↔ op' ∈ histories o ∨ on o ∧ op' = op := by
  by_cases h : on o
  · rw [record_of h, List.mem_append, List.mem_singleton]
    exact or_congr_right ⟨fun he => ⟨h, he⟩, And.right⟩
  · rw [record_of_not h]
    exact ⟨.inl, fun he => he.resolve_right fun he => h he.1⟩

variable (view : O → S → V) (effect : O → κ → V → R × V)

/-- The histories grew by operations of `who`, and what the store holds of each object followed. -/
def Advances (who : κ → Prop) (t u : S × (O → List κ)) : Prop :=
  ∀ o, ∃ later, u.2 o = t.2 o ++ later ∧
    view o u.1 = replay (effect o) later (view o t.1) ∧ ∀ op ∈ later, who op

namespace Advances

variable {view : O → S → V} {effect : O → κ → V → R × V} {who who' : κ → Prop}
  {t u v : S × (O → List κ)}

theorem refl (who : κ → Prop) (t : S × (O → List κ)) : Advances view effect who t t :=
  fun _ => ⟨[], (List.append_nil _).symm, rfl, fun _ h => absurd h List.not_mem_nil⟩

theorem trans (h : Advances view effect who t u) (h' : Advances view effect who u v) :
    Advances view effect who t v := by
  intro o
  obtain ⟨later, hg, hv, hwho⟩ := h o
  obtain ⟨later', hg', hv', hwho'⟩ := h' o
  refine ⟨later ++ later', by rw [hg', hg, List.append_assoc], ?_, fun op hop => ?_⟩
  · rw [hv', hv, replay_append]
  · rcases List.mem_append.mp hop with hop | hop
    · exact hwho op hop
    · exact hwho' op hop

theorem mono (h : Advances view effect who t u) (hwho : ∀ op, who op → who' op) :
    Advances view effect who' t u := by
  intro o
  obtain ⟨later, hg, hv, hall⟩ := h o
  exact ⟨later, hg, hv, fun op hop => hwho op (hall op hop)⟩

/-- An operation takes effect at once on some objects and does not touch the others. -/
theorem record {s s' : S} {histories : O → List κ} {on : O → Prop} {op : κ} (hwho : who op)
    (hon : ∀ o, on o → view o s' = (effect o op (view o s)).2)
    (hoff : ∀ o, ¬ on o → view o s' = view o s) :
    Advances view effect who (s, histories) (s', Reasoning.record histories on op) := by
  intro o
  by_cases ho : on o
  · exact ⟨[op], record_of ho, hon o ho, fun _ h => List.mem_singleton.mp h ▸ hwho⟩
  · refine ⟨[], ?_, hoff o ho, fun _ h => absurd h List.not_mem_nil⟩
    exact (record_of_not ho).trans (List.append_nil _).symm

/-- An answer that an operation got stays its answer. -/
theorem answers {s₀ : S} {o : O} {op : κ} {r : R} (h : Advances view effect who t u)
    (ha : Answers (effect o) (view o s₀) (t.2 o) op r) :
    Answers (effect o) (view o s₀) (u.2 o) op r := by
  obtain ⟨later, hg, -, -⟩ := h o
  rw [hg]
  exact ha.append later

end Advances

end

end Reasoning
