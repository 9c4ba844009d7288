import Mathlib.Computability.Language

/-!
# Patterns

Regular expressions as backtracking engines read them.  A cursor stands in a text, with the groups
captured on the way.  `run` lists the cursors at which a match can end, in the order in which an
engine tries them, so the first of them is the match it reports; `Matches` is the relation without
the order, and `run` misses nothing of it and adds nothing (`mem_run`).
-/

namespace Reasoning

variable {α : Type}

inductive Pattern (α : Type) where
  | empty
  | unit (accepts : α → Bool)
  /-- `\b` -/
  | boundary (isWord : α → Bool)
  /-- `^`, without the multiline flag -/
  | start
  /-- `$`, where only the end of the text is the end -/
  | finish
  | seq (first second : Pattern α)
  /-- the first alternative is tried first -/
  | alt (first second : Pattern α)
  /-- the greedy `*` -/
  | star (body : Pattern α)
  | group (number : Nat) (body : Pattern α)

/-- A place in a text: what was passed, last unit first, and what is to come. -/
structure Cursor (α : Type) where
  before : List α
  after : List α
  groups : List (Nat × List α)

namespace Cursor

/-- Past a text that is to come. -/
def advance (c : Cursor α) (text : List α) : Cursor α :=
  { c with before := text.reverse ++ c.before, after := c.after.drop text.length }

def atBoundary (isWord : α → Bool) (c : Cursor α) : Bool :=
  c.before.head?.any isWord != c.after.head?.any isWord

/-- The group is what was passed since `c`. -/
def capture (number : Nat) (c d : Cursor α) : Cursor α :=
  { d with
    groups := (number, (d.before.take (d.before.length - c.before.length)).reverse) :: d.groups }

/-- The text of a group; the last capture counts. -/
def group (number : Nat) (c : Cursor α) : Option (List α) :=
  (c.groups.find? fun entry => entry.1 = number).map Prod.snd

/-- `d` is past `text`, whatever was captured. -/
structure Passes (c : Cursor α) (text : List α) (d : Cursor α) : Prop where
  before : d.before = text.reverse ++ c.before
  after : c.after = text ++ d.after

variable {c d e : Cursor α} {text more : List α}

/-- Past a text that is not empty there is less to come. -/
theorem Passes.length_lt_iff (h : c.Passes text d) :
    d.after.length < c.after.length ↔ text ≠ [] := by
  rw [h.after, List.length_append, ← List.length_pos_iff]
  omega

/-- What a group captures is what was passed. -/
theorem Passes.groups_capture (h : c.Passes text d) (number : Nat) :
    (Cursor.capture number c d).groups = (number, text) :: d.groups := by
  have hlength : d.before.length - c.before.length = text.reverse.length := by
    rw [h.before, List.length_append, Nat.add_sub_cancel]
  change (number, _) :: d.groups = _
  rw [hlength, h.before, List.take_left, List.reverse_reverse]

theorem passes_advance (h : c.after = text ++ more) : c.Passes text (c.advance text) where
  before := rfl
  after := by rw [advance, h, List.drop_left]

end Cursor

namespace Pattern

/-! ## What an engine does -/

/-- The ends of `body*`, longest run of the body first; a pass of the body that moves nowhere is not
repeated.  The count is of the units to come. -/
def repeats (body : Cursor α → List (Cursor α)) : Nat → Cursor α → List (Cursor α)
  | 0, c => [c]
  | n + 1, c =>
      ((body c).filter fun d => d.after.length < c.after.length).flatMap (repeats body n) ++ [c]

/-- Where a match that starts at the cursor can end, in order of preference. -/
def run : Pattern α → Cursor α → List (Cursor α)
  | .empty, c => [c]
  | .unit accepts, c =>
      match c.after with
      | [] => []
      | a :: rest => if accepts a then [{ c with before := a :: c.before, after := rest }] else []
  | .boundary isWord, c => if c.atBoundary isWord then [c] else []
  | .start, c => if c.before.isEmpty then [c] else []
  | .finish, c => if c.after.isEmpty then [c] else []
  | .seq first second, c => (first.run c).flatMap second.run
  | .alt first second, c => first.run c ++ second.run c
  | .star body, c => repeats body.run c.after.length c
  | .group number body, c => (body.run c).map (Cursor.capture number c)

/-- From the cursor on: the first match at the first place that has one. -/
def searchFrom (r : Pattern α) (before : List α) : List α → Option (Cursor α)
  | [] => (r.run ⟨before, [], []⟩).head?
  | a :: rest => (r.run ⟨before, a :: rest, []⟩).head?.or (searchFrom r (a :: before) rest)

/-- `re.search`, `RegExp.prototype.exec` -/
def search (r : Pattern α) (text : List α) : Option (Cursor α) := searchFrom r [] text

/-- `RegExp.prototype.test` -/
def test (r : Pattern α) (text : List α) : Bool := (r.search text).isSome

/-! ## Writing patterns -/

def text [DecidableEq α] : List α → Pattern α
  | [] => .empty
  | a :: rest => .seq (.unit fun b => b = a) (text rest)

/-- `(?: )?` -/
def optional (body : Pattern α) : Pattern α := .alt body .empty

/-- `{n}` -/
def times : Nat → Pattern α → Pattern α
  | 0, _ => .empty
  | n + 1, body => .seq body (times n body)

/-- `{n,}` -/
def atLeast (n : Nat) (body : Pattern α) : Pattern α := .seq (times n body) (.star body)

/-- `{m,n}`, for the n - m further passes -/
def upTo : Nat → Pattern α → Pattern α
  | 0, _ => .empty
  | n + 1, body => optional (.seq body (upTo n body))

/-! ## What matches -/

inductive Matches : Pattern α → Cursor α → Cursor α → Prop where
  | empty {c : Cursor α} : Matches .empty c c
  | unit {accepts : α → Bool} {before rest : List α} {groups : List (Nat × List α)} {a : α}
      (h : accepts a = true) :
      Matches (.unit accepts) ⟨before, a :: rest, groups⟩ ⟨a :: before, rest, groups⟩
  | boundary {isWord : α → Bool} {c : Cursor α} (h : c.atBoundary isWord = true) :
      Matches (.boundary isWord) c c
  | start {c : Cursor α} (h : c.before = []) : Matches .start c c
  | finish {c : Cursor α} (h : c.after = []) : Matches .finish c c
  | seq {first second : Pattern α} {c d e : Cursor α} (h : Matches first c d)
      (h' : Matches second d e) : Matches (.seq first second) c e
  | altFirst {first second : Pattern α} {c d : Cursor α} (h : Matches first c d) :
      Matches (.alt first second) c d
  | altSecond {first second : Pattern α} {c d : Cursor α} (h : Matches second c d) :
      Matches (.alt first second) c d
  | starDone {body : Pattern α} {c : Cursor α} : Matches (.star body) c c
  | starMore {body : Pattern α} {c d e : Cursor α} (h : Matches body c d)
      (hmoves : d.after.length < c.after.length) (h' : Matches (.star body) d e) :
      Matches (.star body) c e
  | group {number : Nat} {body : Pattern α} {c d : Cursor α} (h : Matches body c d) :
      Matches (.group number body) c (Cursor.capture number c d)

section

variable {r s : Pattern α} {c d : Cursor α}

theorem matches_empty : Matches .empty c d ↔ d = c := by
  constructor
  · intro h
    cases h
    rfl
  · rintro rfl
    exact .empty

theorem matches_unit {accepts : α → Bool} : Matches (.unit accepts) c d ↔
    ∃ a rest, c.after = a :: rest ∧ accepts a = true ∧ d = c.advance [a] := by
  constructor
  · intro h
    cases h with
    | unit h => exact ⟨_, _, rfl, h, rfl⟩
  · rintro ⟨a, rest, hafter, haccepts, rfl⟩
    obtain ⟨before, after, groups⟩ := c
    cases hafter
    exact .unit haccepts

theorem matches_seq : Matches (.seq r s) c d ↔ ∃ e, Matches r c e ∧ Matches s e d := by
  constructor
  · intro h
    cases h with
    | seq h h' => exact ⟨_, h, h'⟩
  · rintro ⟨e, h, h'⟩
    exact .seq h h'

theorem matches_alt : Matches (.alt r s) c d ↔ Matches r c d ∨ Matches s c d := by
  constructor
  · intro h
    cases h with
    | altFirst h => exact .inl h
    | altSecond h => exact .inr h
  · rintro (h | h)
    · exact .altFirst h
    · exact .altSecond h

theorem matches_group {number : Nat} : Matches (.group number r) c d ↔
    ∃ e, Matches r c e ∧ d = Cursor.capture number c e := by
  constructor
  · intro h
    cases h with
    | group h => exact ⟨_, h, rfl⟩
  · rintro ⟨e, h, rfl⟩
    exact .group h

/-- The count of `repeats` is never what ends it. -/
theorem mem_repeats {body : Pattern α} (hbody : ∀ c d, d ∈ body.run c ↔ Matches body c d) {n : Nat}
    (hn : c.after.length ≤ n) : d ∈ repeats body.run n c ↔ Matches (.star body) c d := by
  induction n generalizing c with
  | zero =>
      rw [repeats, List.mem_singleton]
      constructor
      · rintro rfl
        exact .starDone
      · intro h
        cases h with
        | starDone => rfl
        | starMore _ hmoves _ => omega
  | succ n ih =>
      rw [repeats, List.mem_append, List.mem_singleton, List.mem_flatMap]
      constructor
      · rintro (⟨e, he, hd⟩ | rfl)
        · rw [List.mem_filter, decide_eq_true_iff] at he
          exact .starMore ((hbody _ _).mp he.1) he.2 ((ih (by omega)).mp hd)
        · exact .starDone
      · intro h
        cases h with
        | starDone => exact .inr rfl
        | starMore h hmoves h' =>
            refine .inl ⟨_, List.mem_filter.mpr ⟨(hbody _ _).mpr h, decide_eq_true hmoves⟩, ?_⟩
            exact (ih (by omega)).mpr h'

/-- The engine finds every match and nothing else. -/
theorem mem_run : d ∈ r.run c ↔ Matches r c d := by
  induction r generalizing c d with
  | empty => rw [run, List.mem_singleton, matches_empty]
  | unit accepts =>
      rw [matches_unit]
      obtain ⟨before, after, groups⟩ := c
      cases after with
      | nil => simp [run]
      | cons a rest =>
          by_cases ha : accepts a = true
          · simp [run, ha, Cursor.advance]
          · simp [run, ha]
  | boundary isWord =>
      rw [run]
      split
      · rename_i h
        rw [List.mem_singleton]
        exact ⟨fun hd => by subst hd; exact .boundary h, fun hd => by cases hd; rfl⟩
      · rename_i h
        exact ⟨fun hd => absurd hd List.not_mem_nil, fun hd => by cases hd; contradiction⟩
  | start =>
      rw [run]
      split
      · rename_i h
        rw [List.isEmpty_iff] at h
        rw [List.mem_singleton]
        exact ⟨fun hd => by subst hd; exact .start h, fun hd => by cases hd; rfl⟩
      · rename_i h
        rw [List.isEmpty_iff] at h
        exact ⟨fun hd => absurd hd List.not_mem_nil, fun hd => by cases hd; contradiction⟩
  | finish =>
      rw [run]
      split
      · rename_i h
        rw [List.isEmpty_iff] at h
        rw [List.mem_singleton]
        exact ⟨fun hd => by subst hd; exact .finish h, fun hd => by cases hd; rfl⟩
      · rename_i h
        rw [List.isEmpty_iff] at h
        exact ⟨fun hd => absurd hd List.not_mem_nil, fun hd => by cases hd; contradiction⟩
  | seq first second ih ih' =>
      rw [run, List.mem_flatMap, matches_seq]
      simp only [ih, ih']
  | alt first second ih ih' => rw [run, List.mem_append, ih, ih', matches_alt]
  | star body ih => exact mem_repeats (fun _ _ => ih) (Nat.le_refl _)
  | group number body ih =>
      rw [run, List.mem_map, matches_group]
      simp only [ih, eq_comm]

/-! ## The first match -/

/-- What comes first after a list of cursors none of which is a dead end. -/
theorem head?_flatMap {β γ : Type} {l : List β} {f : β → List γ} (h : ∀ b ∈ l, f b ≠ []) :
    (l.flatMap f).head? = l.head?.bind fun b => (f b).head? := by
  cases l with
  | nil => rfl
  | cons b rest =>
      have hne := h b List.mem_cons_self
      rw [List.flatMap_cons, List.head?_append, List.head?_cons, Option.bind_some]
      cases hf : f b with
      | nil => exact absurd hf hne
      | cons => rfl

/-- Where nothing is to come, the body can only stay. -/
theorem repeats_nil {body : Cursor α → List (Cursor α)} {n : Nat} (hc : c.after = []) :
    repeats body n c = [c] := by
  cases n with
  | zero => rfl
  | succ n =>
      have hnone : (body c).filter (fun d => d.after.length < c.after.length) = [] := by
        rw [List.filter_eq_nil_iff]
        intro d _
        simp [hc]
      rw [repeats, hnone]
      rfl

/-- The count does not matter once it is large enough. -/
theorem repeats_eq {body : Cursor α → List (Cursor α)} {m n : Nat} (hm : c.after.length ≤ m)
    (hn : c.after.length ≤ n) : repeats body m c = repeats body n c := by
  induction m generalizing c n with
  | zero =>
      have hc : c.after = [] := List.length_eq_zero_iff.mp (Nat.le_zero.mp hm)
      rw [repeats_nil hc, repeats_nil hc]
  | succ m ih =>
      cases n with
      | zero =>
          have hc : c.after = [] := List.length_eq_zero_iff.mp (Nat.le_zero.mp hn)
          rw [repeats_nil hc, repeats_nil hc]
      | succ n =>
          rw [repeats, repeats]
          congr 1
          apply List.flatMap_congr
          intro d hd
          have hlt := of_decide_eq_true (List.mem_filter.mp hd).2
          exact ih (by omega) (by omega)

theorem run_star : (Pattern.star r).run c =
    ((r.run c).filter fun d => d.after.length < c.after.length).flatMap (Pattern.star r).run ++
      [c] := by
  have hlarge : (Pattern.star r).run c = repeats r.run (c.after.length + 1) c :=
    repeats_eq (Nat.le_refl _) (Nat.le_succ _)
  rw [hlarge, repeats]
  congr 1
  apply List.flatMap_congr
  intro d hd
  have hlt := of_decide_eq_true (List.mem_filter.mp hd).2
  exact repeats_eq (Nat.le_of_lt hlt) (Nat.le_refl _)

theorem run_star_ne_nil : (Pattern.star r).run c ≠ [] := by
  rw [run_star]
  exact List.append_ne_nil_of_right_ne_nil _ (List.cons_ne_nil c [])

/-- A pattern that cannot fail does not make the engine go back. -/
theorem head?_run_seq (h : ∀ d, Matches r c d → s.run d ≠ []) :
    ((Pattern.seq r s).run c).head? = (r.run c).head?.bind fun d => (s.run d).head? :=
  head?_flatMap fun d hd => h d (mem_run.mp hd)

/-- A greedy star goes on while its body can move. -/
theorem head?_run_star : ((Pattern.star r).run c).head? =
    (((r.run c).filter fun d => d.after.length < c.after.length).head?.bind fun d =>
      ((Pattern.star r).run d).head?).or (some c) := by
  rw [run_star, List.head?_append, head?_flatMap fun _ _ => run_star_ne_nil]
  rfl

/-- The body cannot move on from here. -/
def Stuck (r : Pattern α) (c : Cursor α) : Prop :=
  ∀ d, Matches r c d → ¬ d.after.length < c.after.length

/-- The first match of a star ends where the body is stuck: there, or at an end of the body. -/
theorem stuck_of_head?_star (h : ((Pattern.star r).run c).head? = some d) :
    r.Stuck d ∧ (d = c ∨ ∃ e, ((r.run e).filter fun d => d.after.length < e.after.length).head? =
      some d) := by
  induction hn : c.after.length using Nat.strong_induction_on generalizing c with
  | _ n ih =>
      rw [head?_run_star] at h
      cases hmore : ((r.run c).filter fun d => d.after.length < c.after.length).head? with
      | none =>
          rw [hmore] at h
          cases h
          refine ⟨fun e he hlt => ?_, .inl rfl⟩
          rw [List.head?_eq_none_iff, List.filter_eq_nil_iff] at hmore
          exact hmore e (mem_run.mpr he) (decide_eq_true hlt)
      | some e =>
          have hlt : e.after.length < c.after.length :=
            of_decide_eq_true (List.mem_filter.mp (List.mem_of_head? hmore)).2
          rw [hmore, Option.bind_some] at h
          cases hrest : ((Pattern.star r).run e).head? with
          | none => exact absurd (List.head?_eq_none_iff.mp hrest) run_star_ne_nil
          | some d' =>
              rw [hrest] at h
              cases h
              obtain ⟨hstuck, hlast⟩ := ih _ (hn ▸ hlt) hrest rfl
              refine ⟨hstuck, .inr ?_⟩
              rcases hlast with rfl | hlast
              · exact ⟨c, hmore⟩
              · exact hlast

theorem run_seq_assoc {t : Pattern α} :
    (Pattern.seq r (.seq s t)).run c = (Pattern.seq (.seq r s) t).run c := by
  rw [run, run, run, List.flatMap_assoc]
  rfl

/-- Behind anything else too, a star goes as far as it can. -/
theorem stuck_of_head?_seq_star (h : ((Pattern.seq r (.star s)).run c).head? = some d) :
    s.Stuck d := by
  rw [head?_run_seq fun _ _ => run_star_ne_nil] at h
  obtain ⟨e, -, hd⟩ := Option.bind_eq_some_iff.mp h
  exact (stuck_of_head?_star hd).1

/-- The first match of a sequence ends with a first match of its second part. -/
theorem head?_of_seq (h : ((Pattern.seq r s).run c).head? = some d) :
    ∃ e, Matches r c e ∧ (s.run e).head? = some d := by
  rw [run] at h
  generalize hl : r.run c = l at h
  have hmem : ∀ e ∈ l, Matches r c e := fun e he => mem_run.mp (hl ▸ he)
  clear hl
  induction l with
  | nil => cases h
  | cons e rest ih =>
      rw [List.flatMap_cons, List.head?_append] at h
      cases he : (s.run e).head? with
      | none =>
          rw [he] at h
          exact ih h fun e' he' => hmem e' (List.mem_cons_of_mem _ he')
      | some d' =>
          rw [he] at h
          cases h
          exact ⟨e, hmem e List.mem_cons_self, he⟩

/-! ## Search -/

/-- The places that a search tries: the split of the text, and what matches there. -/
def NoMatchAt (r : Pattern α) (before after : List α) : Prop :=
  ∀ d, ¬ Matches r ⟨before.reverse, after, []⟩ d

theorem noMatchAt_iff {before after : List α} :
    r.NoMatchAt before after ↔ (r.run ⟨before.reverse, after, []⟩).head? = none := by
  rw [List.head?_eq_none_iff, List.eq_nil_iff_forall_not_mem]
  exact forall_congr' fun d => not_congr mem_run.symm

theorem searchFrom_eq_none (passed : List α) {after : List α} :
    searchFrom r passed.reverse after = none ↔
      ∀ more rest, after = more ++ rest → r.NoMatchAt (passed ++ more) rest := by
  induction after generalizing passed with
  | nil =>
      rw [searchFrom, ← noMatchAt_iff]
      constructor
      · intro h more rest hsplit
        obtain ⟨rfl, rfl⟩ := List.append_eq_nil_iff.mp hsplit.symm
        rwa [List.append_nil]
      · intro h
        have hhere := h [] [] rfl
        rwa [List.append_nil] at hhere
  | cons a rest ih =>
      have hnext : a :: passed.reverse = (passed ++ [a]).reverse := by simp
      rw [searchFrom, Option.or_eq_none_iff, ← noMatchAt_iff, hnext, ih]
      constructor
      · rintro ⟨hhere, hlater⟩ more rest' hsplit
        cases more with
        | nil =>
            cases hsplit
            rwa [List.append_nil]
        | cons b more =>
            obtain ⟨rfl, hrest⟩ := List.cons.inj hsplit
            have hd := hlater more rest' hrest
            rwa [List.append_assoc] at hd
      · intro h
        have hhere := h [] (a :: rest) rfl
        rw [List.append_nil] at hhere
        refine ⟨hhere, fun more rest' hsplit => ?_⟩
        have hd := h (a :: more) rest' (by rw [hsplit]; rfl)
        rwa [List.append_assoc]

theorem searchFrom_eq_some (passed : List α) {after : List α}
    (h : searchFrom r passed.reverse after = some d) :
    ∃ more rest, after = more ++ rest ∧
      (r.run ⟨(passed ++ more).reverse, rest, []⟩).head? = some d ∧
      ∀ fewer a between, more = fewer ++ a :: between →
        r.NoMatchAt (passed ++ fewer) (a :: between ++ rest) := by
  induction after generalizing passed with
  | nil =>
      refine ⟨[], [], rfl, ?_, fun fewer a between hmore => ?_⟩
      · rw [List.append_nil]
        exact h
      · exact absurd (List.append_eq_nil_iff.mp hmore.symm).2 (List.cons_ne_nil _ _)
  | cons a rest ih =>
      have hnext : a :: passed.reverse = (passed ++ [a]).reverse := by simp
      rw [searchFrom] at h
      cases hhere : (r.run ⟨passed.reverse, a :: rest, []⟩).head? with
      | some d' =>
          rw [hhere] at h
          cases h
          refine ⟨[], a :: rest, rfl, ?_, fun fewer b between hmore => ?_⟩
          · rw [List.append_nil]
            exact hhere
          · exact absurd (List.append_eq_nil_iff.mp hmore.symm).2 (List.cons_ne_nil _ _)
      -- nothing matches here, so the match is further on, and here is one more place without
      | none =>
          rw [hhere, Option.none_or, hnext] at h
          obtain ⟨more, rest', rfl, hfirst, hbefore⟩ := ih _ h
          refine ⟨a :: more, rest', rfl, ?_, fun fewer b between hmore => ?_⟩
          · rwa [List.append_assoc] at hfirst
          · cases fewer with
            | nil =>
                obtain ⟨rfl, rfl⟩ := List.cons.inj hmore
                rw [List.append_nil]
                exact noMatchAt_iff.mpr hhere
            | cons c fewer =>
                obtain ⟨rfl, rfl⟩ := List.cons.inj hmore
                have hnot := hbefore fewer b between rfl
                rwa [List.append_assoc] at hnot

/-- A search fails if the pattern matches nowhere. -/
theorem search_eq_none {text : List α} : r.search text = none ↔
    ∀ before after, text = before ++ after → r.NoMatchAt before after :=
  searchFrom_eq_none []

/-- What a search reports is the first match at the first place that has one. -/
theorem search_eq_some {text : List α} (h : r.search text = some d) :
    ∃ before after, text = before ++ after ∧
      (r.run ⟨before.reverse, after, []⟩).head? = some d ∧
      ∀ fewer a between, before = fewer ++ a :: between →
        r.NoMatchAt fewer (a :: between ++ after) :=
  searchFrom_eq_some [] h

end

/-! ## Patterns and languages -/

/-- The texts of one unit of a class. -/
def oneOf (accepts : α → Bool) : Language α := {text | ∃ a, text = [a] ∧ accepts a = true}

/-- The texts of a class. -/
def anyOf (accepts : α → Bool) : Language α := {text | ∀ a ∈ text, accepts a = true}

/-- The texts of a class with a length. -/
def exactly (n : Nat) (accepts : α → Bool) : Language α :=
  {text | text.length = n ∧ ∀ a ∈ text, accepts a = true}

def orMore (n : Nat) (accepts : α → Bool) : Language α :=
  {text | n ≤ text.length ∧ ∀ a ∈ text, accepts a = true}

/-- Wherever the pattern stands, it reads the texts of the language, and captures nothing. -/
def Reads (r : Pattern α) (L : Language α) : Prop :=
  ∀ c d, Matches r c d ↔ ∃ text ∈ L, ∃ rest, c.after = text ++ rest ∧ d = c.advance text

section

variable {r s : Pattern α} {L M : Language α}

theorem reads_empty : (Pattern.empty : Pattern α).Reads 1 := by
  intro c d
  rw [matches_empty]
  constructor
  · rintro rfl
    exact ⟨[], Language.nil_mem_one, d.after, rfl, rfl⟩
  · rintro ⟨text, htext, rest, -, rfl⟩
    rw [(Language.mem_one text).mp htext]
    rfl

theorem reads_unit {accepts : α → Bool} : (Pattern.unit accepts).Reads (oneOf accepts) := by
  intro c d
  rw [matches_unit]
  constructor
  · rintro ⟨a, rest, hafter, ha, rfl⟩
    exact ⟨[a], ⟨a, rfl, ha⟩, rest, hafter, rfl⟩
  · rintro ⟨text, ⟨a, rfl, ha⟩, rest, hafter, rfl⟩
    exact ⟨a, rest, hafter, ha, rfl⟩

theorem advance_append {c : Cursor α} {text more : List α} :
    c.advance (text ++ more) = (c.advance text).advance more := by
  unfold Cursor.advance
  rw [List.reverse_append, List.length_append, List.append_assoc, List.drop_drop]

theorem Reads.seq (hr : r.Reads L) (hs : s.Reads M) : (Pattern.seq r s).Reads (L * M) := by
  intro c d
  rw [matches_seq]
  constructor
  · rintro ⟨e, he, hd⟩
    obtain ⟨text, htext, rest, hafter, rfl⟩ := (hr _ _).mp he
    obtain ⟨more, hmore, rest', hafter', rfl⟩ := (hs _ _).mp hd
    have hrest : rest = more ++ rest' := by
      rw [← hafter', Cursor.advance, hafter, List.drop_left]
    refine ⟨text ++ more, Language.append_mem_mul htext hmore, rest', ?_, advance_append.symm⟩
    rw [hafter, hrest, List.append_assoc]
  · rintro ⟨both, hboth, rest, hafter, rfl⟩
    obtain ⟨text, htext, more, hmore, rfl⟩ := Language.mem_mul.mp hboth
    rw [List.append_assoc] at hafter
    refine ⟨c.advance text, (hr _ _).mpr ⟨text, htext, _, hafter, rfl⟩, (hs _ _).mpr ?_⟩
    exact ⟨more, hmore, rest, by rw [Cursor.advance, hafter, List.drop_left], advance_append⟩

theorem Reads.alt (hr : r.Reads L) (hs : s.Reads M) : (Pattern.alt r s).Reads (L + M) := by
  intro c d
  rw [matches_alt, hr, hs]
  constructor
  · rintro (⟨text, htext, h⟩ | ⟨text, htext, h⟩)
    · exact ⟨text, .inl htext, h⟩
    · exact ⟨text, .inr htext, h⟩
  · rintro ⟨text, htext | htext, h⟩
    · exact .inl ⟨text, htext, h⟩
    · exact .inr ⟨text, htext, h⟩

theorem Reads.optional (hr : r.Reads L) : (optional r).Reads (L + 1) := hr.alt reads_empty

theorem after_advance {c : Cursor α} {text rest : List α} (h : c.after = text ++ rest) :
    (c.advance text).after = rest := by
  rw [Cursor.advance, h, List.drop_left]

theorem Reads.star (hr : r.Reads L) : (Pattern.star r).Reads (KStar.kstar L) := by
  intro c d
  constructor
  · intro h
    generalize hstar : Pattern.star r = p at h
    induction h with
    | starDone => exact ⟨[], Language.nil_mem_kstar L, _, rfl, rfl⟩
    | starMore h _ _ _ ih =>
        cases hstar
        obtain ⟨text, htext, rest, hafter, rfl⟩ := (hr _ _).mp h
        obtain ⟨more, hmore, rest', hafter', rfl⟩ := ih rfl
        rw [after_advance hafter] at hafter'
        refine ⟨text ++ more, ?_, rest', ?_, advance_append.symm⟩
        · obtain ⟨texts, rfl, htexts⟩ := Language.mem_kstar.mp hmore
          exact Language.mem_kstar.mpr ⟨text :: texts, rfl, List.forall_mem_cons.mpr ⟨htext, htexts⟩⟩
        · rw [hafter, hafter', List.append_assoc]
    | _ => cases hstar
  · rintro ⟨both, hboth, rest, hafter, rfl⟩
    obtain ⟨texts, rfl, htexts⟩ := Language.mem_kstar.mp hboth
    clear hboth
    induction texts generalizing c with
    | nil => exact .starDone
    | cons text texts ih =>
        rw [List.forall_mem_cons] at htexts
        rw [List.flatten_cons, List.append_assoc] at hafter
        have hlater := ih (c := c.advance text) htexts.2 (after_advance hafter)
        rw [List.flatten_cons, advance_append]
        -- a pass of the body that moves nowhere is left out
        cases text with
        | nil => exact hlater
        | cons a text =>
            refine .starMore ((hr _ _).mpr ⟨_, htexts.1, _, hafter, rfl⟩) ?_ hlater
            exact (Cursor.passes_advance hafter).length_lt_iff.mpr (List.cons_ne_nil a text)

theorem reads_text [DecidableEq α] (l : List α) : (text l).Reads {l} := by
  induction l with
  | nil => exact reads_empty
  | cons a l ih =>
      intro c d
      rw [text, (reads_unit.seq ih) c d]
      constructor
      · rintro ⟨both, hboth, h⟩
        obtain ⟨_, ⟨b, rfl, hb⟩, _, rfl, rfl⟩ := Language.mem_mul.mp hboth
        rw [of_decide_eq_true hb] at h
        exact ⟨_, rfl, h⟩
      · rintro ⟨_, rfl, h⟩
        exact ⟨_, Language.append_mem_mul ⟨a, rfl, decide_eq_true rfl⟩ rfl, h⟩

theorem Reads.congr (hr : r.Reads L) (h : ∀ text, text ∈ L ↔ text ∈ M) : r.Reads M := by
  intro c d
  rw [hr c d]
  exact exists_congr fun text => and_congr_left fun _ => h text

theorem reads_star_unit {accepts : α → Bool} :
    (Pattern.star (.unit accepts)).Reads (anyOf accepts) := by
  apply reads_unit.star.congr
  intro both
  rw [Language.mem_kstar]
  constructor
  · rintro ⟨texts, rfl, htexts⟩ a ha
    obtain ⟨text, htext, hmem⟩ := List.mem_flatten.mp ha
    obtain ⟨b, rfl, hb⟩ := htexts text htext
    rw [List.mem_singleton.mp hmem]
    exact hb
  · intro hall
    refine ⟨both.map fun a => [a], ?_, fun text htext => ?_⟩
    · clear hall
      induction both with
      | nil => rfl
      | cons a both ih => rw [List.map_cons, List.flatten_cons, ← ih]; rfl
    · obtain ⟨a, ha, rfl⟩ := List.mem_map.mp htext
      exact ⟨a, rfl, hall a ha⟩

theorem reads_times_unit {accepts : α → Bool} {n : Nat} :
    (times n (.unit accepts)).Reads (exactly n accepts) := by
  induction n with
  | zero =>
      apply reads_empty.congr
      intro text
      constructor
      · rintro rfl
        exact ⟨rfl, fun a ha => absurd ha List.not_mem_nil⟩
      · exact fun h => List.length_eq_zero_iff.mp h.1
  | succ n ih =>
      apply (reads_unit.seq ih).congr
      intro both
      rw [Language.mem_mul]
      constructor
      · rintro ⟨_, ⟨a, rfl, ha⟩, text, ⟨hlength, hall⟩, rfl⟩
        exact ⟨congrArg Nat.succ hlength, List.forall_mem_cons.mpr ⟨ha, hall⟩⟩
      · rintro ⟨hlength, hall⟩
        cases both with
        | nil => cases hlength
        | cons a text =>
            obtain ⟨ha, htext⟩ := List.forall_mem_cons.mp hall
            exact ⟨[a], ⟨a, rfl, ha⟩, text, ⟨Nat.succ.inj hlength, htext⟩, rfl⟩

theorem reads_atLeast_unit {accepts : α → Bool} {n : Nat} :
    (atLeast n (.unit accepts)).Reads (orMore n accepts) := by
  apply (reads_times_unit.seq reads_star_unit).congr
  intro both
  rw [Language.mem_mul]
  constructor
  · rintro ⟨text, ⟨rfl, htext⟩, more, hmore, rfl⟩
    refine ⟨?_, List.forall_mem_append.mpr ⟨htext, hmore⟩⟩
    rw [List.length_append]
    exact Nat.le_add_right _ _
  · rintro ⟨hlength, hall⟩
    refine ⟨both.take n, ⟨List.length_take_of_le hlength, ?_⟩, both.drop n, ?_,
      List.take_append_drop n both⟩
    · exact fun a ha => hall a (List.mem_of_mem_take ha)
    · exact fun a ha => hall a (List.mem_of_mem_drop ha)

/-- What a group captures is what its body reads. -/
theorem Reads.matches_group {number : Nat} (hr : r.Reads L) {c d : Cursor α} :
    Matches (.group number r) c d ↔ ∃ text ∈ L, ∃ rest, c.after = text ++ rest ∧
      d = { c.advance text with groups := (number, text) :: c.groups } := by
  rw [Pattern.matches_group]
  constructor
  · rintro ⟨e, he, rfl⟩
    obtain ⟨text, htext, rest, hafter, rfl⟩ := (hr _ _).mp he
    have hgroups := (Cursor.passes_advance hafter).groups_capture number
    refine ⟨text, htext, rest, hafter, ?_⟩
    exact congrArg (fun groups => { c.advance text with groups := groups }) hgroups
  · rintro ⟨text, htext, rest, hafter, rfl⟩
    have hgroups := (Cursor.passes_advance hafter).groups_capture number
    refine ⟨c.advance text, (hr _ _).mpr ⟨text, htext, rest, hafter, rfl⟩, ?_⟩
    exact (congrArg (fun groups => { c.advance text with groups := groups }) hgroups).symm

end

end Pattern

end Reasoning
