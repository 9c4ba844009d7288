import InboxSaas.Reasoning.Framing
import InboxSaas.Provisioner.PowerShell

/-!
# A health check answers for its own command

Seen by the call that holds the command lock, the lines it has read and the lines in the pipe are a
frame: what abandoned commands left behind, then its own output.  The frame is not there yet while
older commands run, it is open while the call's own command runs, and it is closed once the marker
is printed (`FrameOf`).  So the call stops at its own marker, and the last JSON object in front of
it is its own.
-/

namespace InboxSaas.Provisioner

open Reasoning
open Encoding (Json)

section

variable {ι : Type} {loads : JsonLoads} {hex : ι → PyString}

/-! ## The frame of a call -/

def PrintedBy (i : ι) (printed : PrintedLine ι) : Prop := printed.command = i

def Closes (hex : ι → PyString) (i : ι) (printed : PrintedLine ι) : Prop :=
  printed.text = markerOf hex i

/-- The command has printed a JSON object. -/
def HasObject (loads : JsonLoads) (hex : ι → PyString) (i : ι) (output : List (PrintedLine ι)) :
    Prop :=
  ∃ printed ∈ output, PrintedBy i printed ∧ ¬ Closes hex i printed ∧
    isObject loads printed.text = true

theorem HasObject.append {i : ι} {output : List (PrintedLine ι)} (h : HasObject loads hex i output)
    (more : List (PrintedLine ι)) : HasObject loads hex i (output ++ more) := by
  have ⟨printed, hmem, hprinted⟩ := h
  exact ⟨printed, List.mem_append_left more hmem, hprinted⟩

/-- Where the frame of a call that has written its command is, among what it has read and what it
will read. -/
inductive FrameOf (loads : JsonLoads) (hex : ι → PyString) (i : ι) (stdin : List ι)
    (printedObject : Bool) (output : List (PrintedLine ι)) : Prop where
  /-- Older commands have not finished. -/
  | queued {first : ι} {earlier : List ι} (stdin_eq : stdin = first :: earlier ++ [i])
      (absent : i ∉ first :: earlier) (others : ∀ printed ∈ output, ¬ PrintedBy i printed)
  | running (stdin_eq : stdin = [i]) (frame : OpenFrame (PrintedBy i) (Closes hex i) output)
      (object : printedObject = true → HasObject loads hex i output)
  | finished (stdin_eq : stdin = []) (frame : ClosedFrame (PrintedBy i) (Closes hex i) output)
      (object : HasObject loads hex i output)

namespace FrameOf

variable {i j : ι} {stdin later : List ι} {printedObject : Bool} {output : List (PrintedLine ι)}

/-- A command that was just written is the last in the queue. -/
theorem write (habsent : i ∉ stdin) (hothers : ∀ printed ∈ output, ¬ PrintedBy i printed)
    (hidle : stdin = [] → printedObject = false) :
    FrameOf loads hex i (stdin ++ [i]) printedObject output := by
  cases stdin with
  | nil =>
      exact .running rfl (.of_others hothers) fun htrue => nomatch htrue.symm.trans (hidle rfl)
  | cons first earlier => exact .queued rfl habsent hothers

theorem print (h : FrameOf loads hex i stdin printedObject output) (hstdin : stdin = j :: later)
    {line : PyString} (hline : Ordinary hex line) :
    FrameOf loads hex i stdin (printedObject || isObject loads (rstrip line))
      (output ++ [⟨line, j⟩]) := by
  cases h with
  | queued heq habsent hothers =>
      refine .queued heq habsent fun printed hprinted => ?_
      cases List.mem_append.mp hprinted with
      | inl hmem => exact hothers printed hmem
      | inr hmem =>
          -- the first command printed it, and that is another one
          rw [List.mem_singleton.mp hmem]
          intro hji
          have hfirst := (List.cons.inj (hstdin.symm.trans heq)).1
          exact habsent (hfirst.symm.trans hji ▸ List.mem_cons_self)
  | running heq hframe hobject =>
      have hji : j = i := (List.cons.inj (hstdin.symm.trans heq)).1
      refine .running heq (hframe.snoc hji (hline i)) fun htrue => ?_
      rw [Bool.or_eq_true] at htrue
      cases htrue with
      | inl hbefore => exact (hobject hbefore).append _
      | inr hnow =>
          exact ⟨⟨line, j⟩, List.mem_append_right output List.mem_cons_self, hji, hline i, hnow⟩
  | finished heq _ _ => cases hstdin.symm.trans heq

theorem complete (h : FrameOf loads hex i stdin printedObject output) (hstdin : stdin = j :: later)
    (hobject : printedObject = true) {printed : PrintedLine ι} (hcommand : printed.command = j)
    (hmarker : printed.text = markerOf hex j) :
    FrameOf loads hex i later false (output ++ [printed]) := by
  cases h with
  | @queued first earlier heq habsent hothers =>
      have ⟨hfirst, hlater⟩ := List.cons.inj (hstdin.symm.trans heq)
      have hothers' : ∀ p ∈ output ++ [printed], ¬ PrintedBy i p := by
        intro p hp
        cases List.mem_append.mp hp with
        | inl hmem => exact hothers p hmem
        | inr hmem =>
            rw [List.mem_singleton.mp hmem]
            intro hi
            have hji : first = i := hfirst.symm.trans (hcommand.symm.trans hi)
            exact habsent (hji ▸ List.mem_cons_self)
      rw [hlater]
      exact write (fun hmem => habsent (List.mem_cons_of_mem first hmem)) hothers' fun _ => rfl
  | running heq hframe hhas =>
      have ⟨hji, hlater⟩ := List.cons.inj (hstdin.symm.trans heq)
      have hmine : PrintedBy i printed := hcommand.trans hji
      have hcloses : Closes hex i printed := hji ▸ hmarker
      exact .finished hlater (hframe.close hmine hcloses) ((hhas hobject).append _)
  | finished heq _ _ => cases hstdin.symm.trans heq

/-- The call's own marker is the last line of its frame, behind an object of its own. -/
theorem stop {front rest : List (PrintedLine ι)} {printed : PrintedLine ι}
    (h : FrameOf loads hex i stdin printedObject (front ++ printed :: rest))
    (hmine : PrintedBy i printed) (hcloses : Closes hex i printed) :
    OpenFrame (PrintedBy i) (Closes hex i) front ∧ HasObject loads hex i front := by
  have hmem : printed ∈ front ++ printed :: rest := List.mem_append_right front List.mem_cons_self
  cases h with
  | queued _ _ hothers => exact absurd hmine (hothers printed hmem)
  | running _ hframe _ => exact absurd hcloses (hframe.not_closing hmem hmine)
  | finished _ hframe hobject =>
      have ⟨hrest, hopen⟩ := hframe.stop hmine hcloses
      have ⟨object, hobj, hprinted, hordinary, his⟩ := hobject
      rw [hrest] at hobj
      cases List.mem_append.mp hobj with
      | inl hobj => exact ⟨hopen, object, hobj, hprinted, hordinary, his⟩
      | inr hobj => exact absurd (List.mem_singleton.mp hobj ▸ hcloses) hordinary

end FrameOf

/-- What a call has read when `_execute_internal` returns `output`. -/
def ReadFrame (loads : JsonLoads) (hex : ι → PyString) (i : ι) (read : List (PrintedLine ι))
    (output : List PyString) : Prop :=
  ∃ front last, read = front ++ [last] ∧ output = front.map PrintedLine.text ∧
    PrintedBy i last ∧ Closes hex i last ∧
    OpenFrame (PrintedBy i) (Closes hex i) front ∧ HasObject loads hex i front

/-! ## The invariant -/

structure OwnOutput (loads : JsonLoads) (hex : ι → PyString) (s : PowerShellState ι) : Prop where
  holder : ∀ i, s.commandLock = some i ↔ s.phase i = .draining ∨ s.phase i = .reading
  /-- A call that has not written its command has no part in the pipes. -/
  unwritten : ∀ i, s.phase i = .idle ∨ s.phase i = .waiting →
    i ∉ s.stdin ∧ s.read i = [] ∧ ∀ printed ∈ s.stdout, ¬ PrintedBy i printed
  idle : s.stdin = [] → s.printedObject = false
  marked : ∀ printed ∈ s.stdout, ∀ i, Closes hex i printed → PrintedBy i printed
  frame : ∀ i, s.commandLock = some i →
    FrameOf loads hex i s.stdin s.printedObject (s.read i ++ s.stdout)
  returned : ∀ i output, s.phase i = .ended (.ok output) → ReadFrame loads hex i (s.read i) output

namespace OwnOutput

theorem initial [DecidableEq ι] :
    OwnOutput loads hex (PowerShellState.initial : PowerShellState ι) where
  holder i := ⟨nofun, fun h => by cases h <;> contradiction⟩
  unwritten i _ := ⟨List.not_mem_nil, rfl, fun _ hp => absurd hp List.not_mem_nil⟩
  idle _ := rfl
  marked _ hp := absurd hp List.not_mem_nil
  frame _ h := nomatch h
  returned _ _ h := nomatch h

variable {s : PowerShellState ι} {i : ι}

/-! ## The steps of `pwsh` -/

theorem print (h : OwnOutput loads hex s) {later : List ι} (hstdin : s.stdin = i :: later)
    {line : PyString} (hline : Ordinary hex line) :
    OwnOutput loads hex { s with
      stdout := s.stdout ++ [⟨line, i⟩]
      printedObject := s.printedObject || isObject loads (rstrip line) } where
  holder := h.holder
  unwritten k hunwritten := by
    have ⟨habsent, hnone, hothers⟩ := h.unwritten k hunwritten
    refine ⟨habsent, hnone, fun p hp => ?_⟩
    cases List.mem_append.mp hp with
    | inl hp => exact hothers p hp
    | inr hp =>
        rw [List.mem_singleton.mp hp]
        intro hik
        exact habsent (hstdin ▸ hik ▸ List.mem_cons_self)
  idle hnil := nomatch hstdin.symm.trans hnil
  marked p hp k hcloses := by
    cases List.mem_append.mp hp with
    | inl hp => exact h.marked p hp k hcloses
    | inr hp =>
        rw [List.mem_singleton.mp hp] at hcloses
        exact absurd hcloses (hline k)
  frame k hlock := by
    have hframe := (h.frame k hlock).print hstdin hline
    rw [List.append_assoc] at hframe
    exact hframe
  returned := h.returned

theorem complete (h : OwnOutput loads hex s) (hhex : Function.Injective (markerOf hex))
    {later : List ι} (hstdin : s.stdin = i :: later) (hobject : s.printedObject = true)
    {printed : PrintedLine ι} (hcommand : printed.command = i)
    (hmarker : printed.text = markerOf hex i) :
    OwnOutput loads hex { s with
      stdout := s.stdout ++ [printed]
      stdin := later
      printedObject := false } where
  holder := h.holder
  unwritten k hunwritten := by
    have ⟨habsent, hnone, hothers⟩ := h.unwritten k hunwritten
    rw [hstdin] at habsent
    refine ⟨fun hmem => habsent (List.mem_cons_of_mem i hmem), hnone, fun p hp => ?_⟩
    cases List.mem_append.mp hp with
    | inl hp => exact hothers p hp
    | inr hp =>
        rw [List.mem_singleton.mp hp]
        intro hk
        exact absurd (hcommand.symm.trans hk ▸ List.mem_cons_self) habsent
  idle _ := rfl
  marked p hp k hcloses := by
    cases List.mem_append.mp hp with
    | inl hp => exact h.marked p hp k hcloses
    | inr hp =>
        rw [List.mem_singleton.mp hp] at hcloses ⊢
        exact hcommand.trans (hhex (hmarker.symm.trans hcloses))
  frame k hlock := by
    have hframe := (h.frame k hlock).complete hstdin hobject hcommand hmarker
    rw [List.append_assoc] at hframe
    exact hframe
  returned := h.returned

/-! ## The steps of a call -/

variable [DecidableEq ι]

/-- A call ends.  If it holds the lock it may have changed what is in the pipe; nobody else is
reading there. -/
theorem leave (h : OwnOutput loads hex s) {read : ι → List (PrintedLine ι)}
    {stdout : List (PrintedLine ι)} {executed : Except CallError (List PyString)}
    (hread : ∀ k, k ≠ i → read k = s.read k)
    (hstdout : stdout = s.stdout ∨ s.commandLock = some i ∧ ∀ printed ∈ stdout,
      (∃ old ∈ s.stdout, printed.command = old.command) ∧
        ∀ k, Closes hex k printed → PrintedBy k printed)
    (hreturned : ∀ output, executed = .ok output → ReadFrame loads hex i (read i) output) :
    OwnOutput loads hex ({ s with read := read, stdout := stdout }.leave i executed) := by
  have hphase : ∀ k, k ≠ i →
      ({ s with read := read, stdout := stdout }.leave i executed).phase k = s.phase k :=
    fun k hk => Function.update_of_ne hk _ _
  have hself : ({ s with read := read, stdout := stdout }.leave i executed).phase i =
      .ended executed := Function.update_self _ _ _
  constructor
  · intro k
    change (if s.commandLock = some i then none else s.commandLock) = some k ↔ _
    by_cases hk : k = i
    · rw [hk, hself]
      constructor
      · intro hlock
        split at hlock
        · cases hlock
        · contradiction
      · intro hinside
        cases hinside <;> contradiction
    · rw [hphase k hk, ← h.holder k]
      split
      · rename_i hlock
        rw [hlock, Option.some.injEq]
        exact ⟨nofun, fun hik => absurd hik.symm hk⟩
      · exact Iff.rfl
  · intro k hunwritten
    by_cases hk : k = i
    · rw [hk, hself] at hunwritten
      cases hunwritten <;> contradiction
    · rw [hphase k hk] at hunwritten
      have ⟨hstdin, hnone, habsent⟩ := h.unwritten k hunwritten
      refine ⟨hstdin, (hread k hk).trans hnone, fun printed hprinted => ?_⟩
      -- a call that does not hold the lock leaves the pipe as it is
      cases hstdout with
      | inl hsame => exact habsent printed (hsame ▸ hprinted)
      | inr hchanged =>
          have ⟨old, hold, hcommand⟩ := (hchanged.2 printed hprinted).1
          exact fun hmine => habsent old hold (hcommand.symm.trans hmine)
  · exact h.idle
  · intro printed hprinted
    cases hstdout with
    | inl hsame => exact h.marked printed (hsame ▸ hprinted)
    | inr hchanged => exact (hchanged.2 printed hprinted).2
  · intro k hlock
    change (if s.commandLock = some i then none else s.commandLock) = some k at hlock
    split at hlock
    · cases hlock
    · rename_i hfree
      have hk : k ≠ i := fun hki => hfree (hki ▸ hlock)
      have hframe := h.frame k hlock
      cases hstdout with
      | inl hsame =>
          change FrameOf loads hex k s.stdin s.printedObject (read k ++ stdout)
          rw [hread k hk, hsame]
          exact hframe
      | inr hchanged => exact absurd hchanged.1 hfree
  · intro k output hended
    by_cases hk : k = i
    · rw [hk, hself] at hended
      rw [hk]
      exact hreturned output (CallPhase.ended.inj hended)
    · rw [hphase k hk] at hended
      change ReadFrame loads hex k (read k) output
      rw [hread k hk]
      exact h.returned k output hended

/-- A call ends with an error and touches nothing. -/
theorem fail (h : OwnOutput loads hex s) (i : ι) (error : CallError) :
    OwnOutput loads hex (s.leave i (.error error)) :=
  h.leave (fun _ _ => rfl) (.inl rfl) fun _ herror => nomatch herror

/-- A call gets further.  It stays without a part in the pipes, or it has written its command. -/
theorem enter (h : OwnOutput loads hex s) {next : CallPhase} {commandLock : Option ι}
    {stdin : List ι} (hnext : ∀ output, next ≠ .ended (.ok output))
    (hholder : commandLock = some i ↔ next = .draining ∨ next = .reading)
    (hothers : ∀ k, k ≠ i → (commandLock = some k ↔ s.commandLock = some k))
    (hunwritten : next = .idle ∨ next = .waiting →
      (s.phase i = .idle ∨ s.phase i = .waiting) ∧ stdin = s.stdin)
    (hstdin : stdin = s.stdin ∨ stdin = s.stdin ++ [i])
    (hframe : ∀ k, commandLock = some k →
      FrameOf loads hex k stdin s.printedObject (s.read k ++ s.stdout)) :
    OwnOutput loads hex { s with
      phase := Function.update s.phase i next
      commandLock := commandLock
      stdin := stdin } where
  holder k := by
    dsimp only
    by_cases hk : k = i
    · rw [hk, Function.update_self]
      exact hholder
    · rw [Function.update_of_ne hk, ← h.holder k]
      exact hothers k hk
  unwritten k hphase := by
    dsimp only at hphase ⊢
    by_cases hk : k = i
    · rw [hk, Function.update_self] at hphase
      have ⟨hbefore, hsame⟩ := hunwritten hphase
      rw [hsame, hk]
      exact h.unwritten i hbefore
    · rw [Function.update_of_ne hk] at hphase
      have ⟨habsent, hnone, hprinted⟩ := h.unwritten k hphase
      refine ⟨fun hmem => ?_, hnone, hprinted⟩
      cases hstdin with
      | inl hsame => exact habsent (hsame ▸ hmem)
      | inr hlonger =>
          cases List.mem_append.mp (hlonger ▸ hmem) with
          | inl hmem => exact habsent hmem
          | inr hmem => exact hk (List.mem_singleton.mp hmem)
  idle hnil := by
    dsimp only at hnil
    cases hstdin with
    | inl hsame => exact h.idle (hsame.symm.trans hnil)
    | inr hlonger =>
        exact absurd (hlonger.symm.trans hnil)
          (List.append_ne_nil_of_right_ne_nil _ (List.cons_ne_nil i []))
  marked := h.marked
  frame := hframe
  returned k output hended := by
    dsimp only at hended
    by_cases hk : k = i
    · rw [hk, Function.update_self] at hended
      exact absurd hended (hnext output)
    · rw [Function.update_of_ne hk] at hended
      exact h.returned k output hended

theorem call (h : OwnOutput loads hex s) (hidle : s.phase i = .idle) :
    OwnOutput loads hex { s with phase := Function.update s.phase i .waiting } := by
  have hlock := h.holder i
  rw [hidle] at hlock
  apply h.enter
  · exact nofun
  · rw [hlock]
    simp
  · exact fun _ _ => Iff.rfl
  · exact fun _ => ⟨.inl hidle, rfl⟩
  · exact .inl rfl
  · exact h.frame

/-- The call that acquires the lock writes the last command, of which nothing is printed yet. -/
theorem acquire (h : OwnOutput loads hex s) (hwaiting : s.phase i = .waiting)
    (hfree : s.commandLock = none) :
    OwnOutput loads hex { s with
      phase := Function.update s.phase i .draining
      commandLock := some i
      stdin := s.stdin ++ [i] } := by
  have ⟨habsent, hnone, hprinted⟩ := h.unwritten i (.inr hwaiting)
  apply h.enter
  · exact nofun
  · simp
  · intro k hk
    rw [hfree, Option.some.injEq]
    exact ⟨fun hik => absurd hik.symm hk, nofun⟩
  · intro hphase
    cases hphase <;> contradiction
  · exact .inr rfl
  · intro k hlock
    have hik : i = k := Option.some.inj hlock
    rw [← hik, hnone, List.nil_append]
    exact .write habsent hprinted h.idle

theorem drain (h : OwnOutput loads hex s) (hdraining : s.phase i = .draining) :
    OwnOutput loads hex { s with phase := Function.update s.phase i .reading } := by
  apply h.enter
  · exact nofun
  · rw [h.holder i, hdraining]
    simp
  · exact fun _ _ => Iff.rfl
  · intro hphase
    cases hphase <;> contradiction
  · exact .inl rfl
  · exact h.frame

theorem line (h : OwnOutput loads hex s) (hreading : s.phase i = .reading)
    {printed : PrintedLine ι} {rest : List (PrintedLine ι)} (hstdout : s.stdout = printed :: rest) :
    OwnOutput loads hex (s.receive i printed rest) where
  holder := h.holder
  unwritten k hunwritten := by
    have ⟨hstdin, hnone, habsent⟩ := h.unwritten k hunwritten
    have hk : k ≠ i := by
      intro hki
      rw [hki] at hunwritten
      change s.phase i = .idle ∨ s.phase i = .waiting at hunwritten
      rw [hreading] at hunwritten
      cases hunwritten <;> contradiction
    refine ⟨hstdin, (Function.update_of_ne hk _ _).trans hnone, fun p hp => ?_⟩
    exact habsent p (hstdout ▸ List.mem_cons_of_mem printed hp)
  idle := h.idle
  marked p hp := h.marked p (hstdout ▸ List.mem_cons_of_mem printed hp)
  frame k hlock := by
    have hik : some i = some k := ((h.holder i).mpr (.inr hreading)).symm.trans hlock
    have hframe := h.frame k hlock
    rw [← Option.some.inj hik] at hframe ⊢
    rw [hstdout] at hframe
    -- the line goes from the pipe to what the call has read
    change FrameOf loads hex i s.stdin s.printedObject
      (Function.update s.read i (s.read i ++ [printed]) i ++ rest)
    rw [Function.update_self, List.append_assoc]
    exact hframe
  returned k output hended := by
    have hk : k ≠ i := by
      intro hki
      rw [hki] at hended
      exact nomatch hreading.symm.trans hended
    change ReadFrame loads hex k (Function.update s.read i (s.read i ++ [printed]) k) output
    rw [Function.update_of_ne hk]
    exact h.returned k output hended

/-- `_execute_internal` returns: the line it stopped at ends its own frame. -/
theorem marker (h : OwnOutput loads hex s) (hreading : s.phase i = .reading)
    {printed : PrintedLine ι} {rest : List (PrintedLine ι)} (hstdout : s.stdout = printed :: rest)
    (htext : printed.text = markerOf hex i) :
    OwnOutput loads hex
      ((s.receive i printed rest).leave i (.ok ((s.read i).map PrintedLine.text))) := by
  have hlock := (h.holder i).mpr (.inr hreading)
  have hmem : ∀ p ∈ rest, p ∈ s.stdout := fun p hp => hstdout ▸ List.mem_cons_of_mem printed hp
  have hmine := h.marked printed (hstdout ▸ List.mem_cons_self) i htext
  have hframe := h.frame i hlock
  rw [hstdout] at hframe
  have hstop := hframe.stop hmine htext
  apply h.leave
  · exact fun k hk => Function.update_of_ne hk _ _
  · exact .inr ⟨hlock, fun p hp => ⟨⟨p, hmem p hp, rfl⟩, h.marked p (hmem p hp)⟩⟩
  · intro output houtput
    rw [Function.update_self, ← Except.ok.inj houtput]
    exact ⟨s.read i, printed, rfl, rfl, hmine, htext, hstop⟩

theorem overrun (h : OwnOutput loads hex s) (hreading : s.phase i = .reading)
    {printed : PrintedLine ι} {kept rest : List (PrintedLine ι)}
    (hstdout : s.stdout = printed :: rest)
    (hkept : kept = [] ∨ ∃ tail, Ordinary hex tail ∧ kept = [⟨tail, printed.command⟩])
    (error : CallError) :
    OwnOutput loads hex ({ s with stdout := kept ++ rest }.leave i (.error error)) := by
  have hlock := (h.holder i).mpr (.inr hreading)
  apply h.leave
  · exact fun _ _ => rfl
  · refine .inr ⟨hlock, fun p hp => ?_⟩
    cases List.mem_append.mp hp with
    | inl hp =>
        cases hkept with
        | inl hnil => exact absurd (hnil ▸ hp) List.not_mem_nil
        | inr htail =>
            have ⟨tail, hordinary, hcons⟩ := htail
            have hpt : p = ⟨tail, printed.command⟩ := List.mem_singleton.mp (hcons ▸ hp)
            rw [hpt]
            exact ⟨⟨printed, hstdout ▸ List.mem_cons_self, rfl⟩,
              fun k hcloses => absurd hcloses (hordinary k)⟩
    | inr hp =>
        have hmem : p ∈ s.stdout := hstdout ▸ List.mem_cons_of_mem printed hp
        exact ⟨⟨p, hmem, rfl⟩, h.marked p hmem⟩
  · exact fun _ herror => nomatch herror

end OwnOutput

/-! ## Runs -/

theorem completeMarker_injective : Function.Injective completeMarker :=
  fun _ _ h => List.append_cancel_left (List.append_cancel_right h)

theorem text_marker (i : ι) :
    (⟨markerOf hex i ++ ['\n'], i⟩ : PrintedLine ι).text = markerOf hex i := by
  have hend : markerOf hex i = ("__INBOX_POWERSHELL_COMPLETE_".toList ++ hex i ++ ['_']) ++ ['_'] :=
    (List.append_assoc _ ['_'] ['_']).symm
  change (markerOf hex i ++ ['\n']).rdropWhile _ = _
  rw [List.rdropWhile_concat_pos _ _ _ rfl, hend, List.rdropWhile_concat_neg _ _ _ (by decide)]

variable [DecidableEq ι] {s : PowerShellState ι}

theorem OwnOutput.step (h : OwnOutput loads hex s) (hhex : Function.Injective hex)
    {s' : PowerShellState ι} (hs : PowerShellStep loads hex s s') : OwnOutput loads hex s' := by
  cases hs with
  | call idle => exact h.call idle
  | refuse _ _ => exact h.fail _ _
  | acquire waiting free => exact h.acquire waiting free
  | drain draining => exact h.drain draining
  | line reading stdout _ => exact h.line reading stdout
  | marker reading stdout text => exact h.marker reading stdout text
  | endOfFile _ _ _ => exact h.fail _ _
  | abandon _ _ => exact h.fail _ _
  | overrun reading stdout dropped => exact h.overrun reading stdout dropped _
  | print _ stdin _ _ ordinary => exact h.print stdin ordinary
  | complete stdin _ printed =>
      exact h.complete (completeMarker_injective.comp hhex) stdin printed rfl (text_marker _)
  | exit => exact ⟨h.holder, h.unwritten, h.idle, h.marked, h.frame, h.returned⟩

/-- The states that some run of calls leads to. -/
def PowerShellReaches (loads : JsonLoads) (hex : ι → PyString) (s : PowerShellState ι) : Prop :=
  Relation.ReflTransGen (PowerShellStep loads hex) PowerShellState.initial s

theorem PowerShellReaches.ownOutput (hs : PowerShellReaches loads hex s)
    (hhex : Function.Injective hex) : OwnOutput loads hex s := by
  induction hs with
  | refl => exact .initial
  | tail _ hstep ih => exact ih.step hhex hstep

end

/-! ## The result -/

theorem lastObject_ok {loads : JsonLoads} {lines : List PyString} {result : Json}
    (h : lastObject loads lines = .ok result) :
    ∃ later line earlier fields, lines = later ++ line :: earlier ∧
      result = .object fields ∧ loads line = .ok (.object fields) ∧
      ∀ other ∈ later, isObject loads other = false := by
  induction lines with
  | nil => cases h
  | cons line earlier ih =>
      have hskip : isObject loads line = false → lastObject loads earlier = .ok result →
          ∃ later line' earlier' fields, line :: earlier = later ++ line' :: earlier' ∧
            result = .object fields ∧ loads line' = .ok (.object fields) ∧
            ∀ other ∈ later, isObject loads other = false := by
        intro hline hrest
        have ⟨later, line', earlier', fields, heq, hresult, hloads, hlater⟩ := ih hrest
        refine ⟨line :: later, line', earlier', fields, by rw [heq, List.cons_append], hresult,
          hloads, fun other hother => ?_⟩
        cases List.mem_cons.mp hother with
        | inl hsame => exact hsame ▸ hline
        | inr hother => exact hlater other hother
      rw [lastObject] at h
      split at h
      · rename_i hloads
        exact hskip (by rw [isObject, hloads]) h
      · cases h
      · rename_i fields hloads
        exact ⟨[], line, earlier, fields, rfl, (Except.ok.inj h).symm, hloads,
          fun _ hother => absurd hother List.not_mem_nil⟩
      · rename_i value hno hloads
        refine hskip ?_ h
        unfold isObject
        split
        · rename_i fields hfields
          exact absurd (Except.ok.inj (hloads.symm.trans hfields)) (hno fields)
        · rfl

/-- The object that is parsed is the last one of the output. -/
theorem healthCheck_ok {loads : JsonLoads} {executed : Except CallError (List PyString)}
    {result : TenantPowerShellHealthCheck} (h : healthCheck loads executed = .ok result) :
    ∃ earlier line later fields, executed = .ok (earlier ++ line :: later) ∧
      loads line = .ok (.object fields) ∧ result = healthCheckResult (.object fields) ∧
      ∀ other ∈ later, isObject loads other = false := by
  have ⟨output, hexecuted, h⟩ := bind_eq_ok.mp h
  have ⟨value, hparse, h⟩ := bind_eq_ok.mp h
  have ⟨later, line, earlier, fields, hlines, hvalue, hloads, hlater⟩ := lastObject_ok hparse
  have houtput : output = earlier.reverse ++ line :: later.reverse := by
    rw [← List.reverse_reverse output, hlines, List.reverse_append, List.reverse_cons,
      List.append_assoc, List.singleton_append]
  refine ⟨earlier.reverse, line, later.reverse, fields, houtput ▸ hexecuted, hloads, ?_,
    fun other hother => hlater other (List.mem_reverse.mp hother)⟩
  rw [← hvalue]
  exact (Except.ok.inj h).symm

/-- In every run, a call that got its output had read its own marker, and a result of `health_check`
is what a line of its own command says. -/
theorem own_health_check {ι : Type} [DecidableEq ι] {loads : JsonLoads} {hex : ι → PyString}
    (hhex : Function.Injective hex) {s : PowerShellState ι} (hs : PowerShellReaches loads hex s)
    (i : ι) :
    (∀ output, s.phase i = .ended (.ok output) →
      ∃ front last, s.read i = front ++ [last] ∧ last.command = i ∧
        last.text = markerOf hex i ∧ output = front.map PrintedLine.text) ∧
    ∀ executed result, s.phase i = .ended executed → healthCheck loads executed = .ok result →
      ∃ front printed rest fields, s.read i = front ++ printed :: rest ∧ printed.command = i ∧
        loads printed.text = .ok (.object fields) ∧
        result = healthCheckResult (.object fields) := by
  have hinv := hs.ownOutput hhex
  constructor
  · intro output hended
    have ⟨front, last, hread, houtput, hmine, hcloses, _⟩ := hinv.returned i output hended
    exact ⟨front, last, hread, hmine, hcloses, houtput⟩
  · intro executed result hended hresult
    have ⟨earlier, line, later, fields, hexecuted, hloads, hsays, hlater⟩ := healthCheck_ok hresult
    rw [hexecuted] at hended
    have ⟨front, last, hread, houtput, _, _, hframe, object, hobject, hmine, _, his⟩ :=
      hinv.returned i _ hended
    -- the line that was decoded, among the lines that were read
    have ⟨before, after, hfront, _, hafter⟩ := List.map_eq_append_iff.mp houtput.symm
    have ⟨printed, rest, hafter', htext, hrest⟩ := List.map_eq_cons_iff.mp hafter
    rw [hfront, hafter'] at hframe hobject hread
    have hlast : ∀ p ∈ rest, ¬ isObject loads p.text = true := by
      intro p hp htrue
      have hmem : p.text ∈ later := hrest ▸ List.mem_map_of_mem hp
      exact Bool.false_ne_true ((hlater _ hmem).symm.trans htrue)
    have hown := hframe.mine_of_last ⟨object, hobject, hmine, his⟩ hlast
    refine ⟨before, printed, rest ++ [last], fields, ?_, hown, htext ▸ hloads, hsays⟩
    rw [hread, List.append_assoc, List.cons_append]

/-! ## A sample run -/

namespace AbandonedSample

def loads : JsonLoads := fun text =>
  match Encoding.parse text with
  | some value => .ok value
  | none => .error .jsonDecodeError

/-- The first call is `false`, the second `true`. -/
def hex : Bool → PyString
  | false => "0c6e7a51d2f84b0d9a3c5e1f7b2d4a68".toList
  | true => "5f1d3b7998e24c06a1b0c2d3e4f50617".toList

theorem hex_injective : Function.Injective hex := by
  intro i j h
  cases i <;> cases j <;> first | rfl | exact absurd h (by decide)

def report (tenant : PyString) : PyString :=
  "\x7b\"graphConnected\":true,\"exchangeConnected\":true,\"microsoftTenantId\":\"".toList ++
    tenant ++ "\",\"userPrincipalName\":\"admin@contoso.com\"\x7d\n".toList

def firstTenant : PyString := "tenant-1".toList

def secondTenant : PyString := "tenant-2".toList

def result : TenantPowerShellHealthCheck :=
  ⟨true, true, some secondTenant, some "admin@contoso.com".toList⟩

/-- A report starts with a brace, a marker does not. -/
theorem ordinary_report (tenant : PyString) : Ordinary hex (report tenant) := by
  intro j h
  have hprefix : markerOf hex j <+: report tenant := h ▸ List.rdropWhile_prefix _ _
  have ⟨rest, hrest⟩ := hprefix
  have hhead : some '_' = some '\x7b' := congrArg List.head? hrest
  exact absurd hhead (by decide)

/-- What the second call reads in front of its marker. -/
def lines : List (PrintedLine Bool) :=
  [⟨report firstTenant, false⟩, ⟨markerOf hex false ++ ['\n'], false⟩, ⟨report secondTenant, true⟩]

theorem healthCheck_lines :
    healthCheck loads (.ok (lines.map PrintedLine.text)) = .ok result := by
  decide +kernel

/-- The first call times out before its output comes; the second reads all of it, and then its
own. -/
theorem reaches : ∃ s : PowerShellState Bool, PowerShellReaches loads hex s ∧
    s.phase false =
      .ended (.error (.powerShellProcessError "PowerShell command timed out")) ∧
    s.phase true = .ended (.ok (lines.map PrintedLine.text)) := by
  have hother : (⟨markerOf hex false ++ ['\n'], false⟩ : PrintedLine Bool).text ≠
      markerOf hex true := by
    rw [text_marker]
    exact fun h => Bool.false_ne_true (hex_injective (completeMarker_injective h))
  have hrun : PowerShellReaches loads hex _ :=
    Relation.ReflTransGen.refl
      |>.tail (.call (i := false) rfl)
      |>.tail (.acquire (i := false) rfl rfl)
      |>.tail (.drain (i := false) rfl)
      |>.tail (.abandon (i := false) (.powerShellProcessError "PowerShell command timed out")
        (.inr (.inr rfl)))
      |>.tail (.call (i := true) rfl)
      |>.tail (.acquire (i := true) rfl rfl)
      |>.tail (.print (report firstTenant) rfl rfl nofun (ordinary_report _))
      |>.tail (.complete rfl rfl (by decide +kernel))
      |>.tail (.drain (i := true) rfl)
      |>.tail (.line (i := true) rfl rfl (ordinary_report _ true))
      |>.tail (.print (report secondTenant) rfl rfl nofun (ordinary_report _))
      |>.tail (.complete rfl rfl (by decide +kernel))
      |>.tail (.line (i := true) rfl rfl hother)
      |>.tail (.line (i := true) rfl rfl (ordinary_report _ true))
      |>.tail (.marker (i := true) rfl rfl (text_marker true))
  exact ⟨_, hrun, rfl, rfl⟩

end AbandonedSample

open AbandonedSample in
theorem own_health_check_abandoned :
    ∃ (s : PowerShellState Bool) (front : List (PrintedLine Bool)) (printed : PrintedLine Bool)
      (rest : List (PrintedLine Bool)) (fields : List (List UInt16 × Json)),
      s.read true = front ++ printed :: rest ∧ printed.command = true ∧
        loads printed.text = .ok (.object fields) ∧
        result = healthCheckResult (.object fields) := by
  have ⟨s, hs, _, hended⟩ := reaches
  exact ⟨s, (own_health_check hex_injective hs true).2 _ result hended healthCheck_lines⟩

end InboxSaas.Provisioner
