import InboxSaas.Product.StartOutline

/-!
# Interleaved calls

Each client makes one call on a connection of its own; the calls are interleaved statement by
statement.  What the rely/guarantee rule says of the starts among them holds in every world that
such an interleaving reaches.
-/

namespace InboxSaas.Product

open Reasoning

/-- A call with its answer. -/
def Call.session (call : Call) : DatabaseProgram (Σ call : Call, call.Result) :=
  call.program >>= fun result => .ret ⟨call, result⟩

/-- The database and what each client still has to do. -/
abbrev Clients (ι : Type) : Type :=
  Pool ι (Database ι) (Command Statement) (Command.Reply Statement.Reply) JsError
    (Σ call : Call, call.Result)

section

variable {ι : Type}

/-- No client has sent anything yet. -/
def connect (calls : ι → Call) (db : Store) : Clients ι :=
  ⟨Server.initial db, fun i => (calls i).session⟩

variable [DecidableEq ι]

/-- Some interleaving of the calls on the store leads to the world. -/
def Interleaves (calls : ι → Call) (db : Store) (w : Clients ι) : Prop :=
  Pool.Reaches postgres.readCommitted (connect calls db) w

/-- The client returned this from its call to `startTenantValidation`. -/
def Returned (w : Clients ι) (i : ι) (a : StartTenantValidationResult) : Prop :=
  ∃ grants input cipher draws, w.prog i = .ret ⟨.start grants input cipher draws, a⟩

/-- The clients' commands in the order of their turns; who has to wait for a lock loses a turn. -/
def interleave [Fintype ι] (calls : ι → Call) (db : Store) (turns : List ι) : Clients ι :=
  postgres.schedule.play (connect calls db) (turns.map fun i => .run i ())

theorem interleaves_interleave [Fintype ι] (calls : ι → Call) (db : Store) (turns : List ι) :
    Interleaves calls db (interleave calls db turns) :=
  postgres.schedule.reaches _ _

/-! ## Starts -/

variable (calls : ι → Call) (db₀ : Store)

/-- A client that made a start ended with an answer of it. -/
def StartEnded (i : ι) (result : Σ call : Call, call.Result)
    (t : Database ι × List (ι × Creation)) : Prop :=
  ∀ grants input cipher draws, calls i = .start grants input cipher draws →
    ∃ a, result = ⟨.start grants input cipher draws, a⟩ ∧ StartAnswered calls db₀ i grants input a t

def StartThrew (i : ι) (e : JsError) (t : Database ι × List (ι × Creation)) : Prop :=
  ∀ grants input cipher draws, calls i = .start grants input cipher draws →
    StartFailed calls db₀ i grants input e t

variable {calls} {db₀}

omit [DecidableEq ι] in
theorem StartAnswered.rely {i : ι} {grants : List AccessGrant} {input : StartTenantValidationInput}
    {a : StartTenantValidationResult} {t u : Database ι × List (ι × Creation)}
    (h : StartAnswered calls db₀ i grants input a t)
    (hr : (startContract calls db₀).rely i t u) : StartAnswered calls db₀ i grants input a u := by
  rcases h with ⟨rfl, hp, hwhy⟩ | ⟨c, hadmitted, ha⟩
  · exact .inl ⟨rfl, hp.grows hr.2.2.2, hwhy⟩
  · exact .inr ⟨c, hadmitted, ha.rely hr⟩

/-- The contract holds before any client has sent a command. -/
theorem startContract_connect (h : Homed db₀) :
    (startContract calls db₀).Holds postgres.readCommitted (StartEnded calls db₀)
      (StartThrew calls db₀) (connect calls db₀) := by
  refine ⟨[], ⟨Locked.initial, Started.initial calls db₀ h⟩, fun i => ?_⟩
  apply Contract.Outline.bind (startContract_sound calls db₀)
  cases hs : (calls i).isStart with
  | false =>
      have hnot : ∀ {grants input cipher draws}, calls i ≠ .start grants input cipher draws := by
        intro grants input cipher draws hcall
        rw [hcall] at hs
        cases hs
      apply (outline_rewrites hs (Server.initial db₀, [])).conseq
      · exact fun a u _ _ v _ _ grants input cipher draws hcall => absurd hcall hnot
      · exact fun e u _ _ grants input cipher draws hcall => absurd hcall hnot
  | true =>
      cases hcall : calls i with
      | start grants input cipher draws =>
          have hat : At i .idle (fun _ => True)
              (Server.initial db₀, ([] : List (ι × Creation))) :=
            ⟨rfl, List.not_mem_nil, trivial⟩
          apply (outline_start hcall hat).conseq
          · intro a u _ ha v hr _ grants' input' cipher' draws' hcall'
            cases hcall.symm.trans hcall'
            exact ⟨a, rfl, ha.rely hr⟩
          · intro e u _ he grants' input' cipher' draws' hcall'
            cases hcall.symm.trans hcall'
            exact he
      | claim => rw [hcall] at hs; cases hs
      | renew => rw [hcall] at hs; cases hs
      | recover => rw [hcall] at hs; cases hs
      | apply => rw [hcall] at hs; cases hs

/-- What is true of the starts in a world. -/
structure StartsIn (calls : ι → Call) (db₀ : Store) (w : Clients ι) (g : List (ι × Creation)) :
    Prop where
  started : Started calls db₀ w.shared g
  ended : ∀ i result, w.prog i = .ret result → StartEnded calls db₀ i result (w.shared, g)
  threw : ∀ i e, w.prog i = .raise e → StartThrew calls db₀ i e (w.shared, g)
  waiting : ∀ i c next, w.prog i = .call c next → (calls i).isStart = true → Pending i g

section

variable {i : ι} {w : Clients ι} {g : List (ι × Creation)}

omit [DecidableEq ι] in
/-- What a start that returned was answered. -/
theorem StartsIn.answered (h : StartsIn calls db₀ w g) {a : StartTenantValidationResult}
    (hi : (calls i).isStart = true) (ha : Returned w i a) :
    ∃ grants input cipher draws, calls i = .start grants input cipher draws ∧
      StartAnswered calls db₀ i grants input a (w.shared, g) := by
  obtain ⟨grants', input', cipher', draws', hprog⟩ := ha
  cases hcall : calls i with
  | start grants input cipher draws =>
      obtain ⟨a', he, hanswered⟩ := h.ended i _ hprog _ _ _ _ hcall
      cases he
      exact ⟨_, _, _, _, rfl, hanswered⟩
  | claim => rw [hcall] at hi; cases hi
  | renew => rw [hcall] at hi; cases hi
  | recover => rw [hcall] at hi; cases hi
  | apply => rw [hcall] at hi; cases hi

omit [DecidableEq ι] in
/-- What a start that accepted was answered. -/
theorem StartsIn.accepted (h : StartsIn calls db₀ w g) {connection : TenantConnectionDto}
    {job : Job} {reused : Bool} (hi : (calls i).isStart = true)
    (ha : Returned w i (.accepted connection job reused)) :
    ∃ c, (calls i).Admitted db₀ c ∧
      Answered calls db₀ i c (.accepted connection job reused) (w.shared, g) := by
  obtain ⟨_, _, _, _, -, hanswered⟩ := h.answered hi ha
  rcases hanswered with ⟨he, -⟩ | hanswered
  · cases he
  · exact hanswered

end

theorem Interleaves.holds (hdb : Homed db₀) {w : Clients ι} (h : Interleaves calls db₀ w) :
    (startContract calls db₀).Holds postgres.readCommitted (StartEnded calls db₀)
      (StartThrew calls db₀) w :=
  Contract.reaches (startContract_sound calls db₀) (startContract_connect hdb) h

theorem Interleaves.starts (hdb : Homed db₀) {w : Clients ι} (h : Interleaves calls db₀ w) :
    ∃ g, StartsIn calls db₀ w g := by
  obtain ⟨g, hinv, hret, hraise, hctl⟩ := (h.holds hdb).ended (startContract_sound calls db₀)
  exact ⟨g, hinv.2, hret, hraise, hctl⟩

theorem Interleaves.keeps (hdb : Homed db₀) {w : Clients ι} (h : Interleaves calls db₀ w) :
    Keeps db₀ w.shared.db := by
  obtain ⟨g, hg⟩ := h.starts hdb
  exact hg.started.keeps

/-- A step of a start changes the store only when it creates. -/
theorem Interleaves.step (hdb : Homed db₀) {w v : Clients ι} (h : Interleaves calls db₀ w) {i : ι}
    (hi : (calls i).isStart = true) (hs : Pool.Step postgres.readCommitted w (.run i) v) :
    ∃ g, StartsIn calls db₀ v g ∧ (v.shared.db = w.shared.db ∨ ¬ Pending i g) := by
  obtain ⟨g, g', hinv, ⟨-, ⟨-, later, hlater, hmine⟩, hsame⟩, hinv', hout⟩ :=
    (h.holds hdb).guar (startContract_sound calls db₀) hs
  have hrefl := (startContract_sound calls db₀).rely_refl
  refine ⟨g', ⟨hinv'.2, fun j a ha => ?_, fun j e he => ?_, fun j c next hc => ?_⟩, ?_⟩
  · have ho := hout j
    rw [ha] at ho
    exact ho _ (hrefl j _) hinv'
  · have ho := hout j
    rw [he] at ho
    exact ho _ (hrefl j _) hinv'
  · have ho := hout j
    rw [hc] at ho
    exact (ho _ (hrefl j _) hinv').1
  · cases later with
    | nil => exact .inl (hsame hi (hlater.trans (List.append_nil g)))
    | cons e rest =>
        apply Or.inr
        intro hp
        apply hp
        have hlater' : g' = g ++ e :: rest := hlater
        rw [hlater', List.map_append, ← hmine e List.mem_cons_self]
        exact List.mem_append_right _ List.mem_cons_self

end

end InboxSaas.Product
