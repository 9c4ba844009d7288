import InboxSaas.Provisioner.DeviceCodeSignIn

/-!
# A sign-in that succeeds is its own

A sign-in returns only when its own Microsoft command succeeded and a device code was entered for
it.  The code comes from the first line that announces one, whichever command printed it: a sign-in
that was abandoned can leave its announcement in the pipe.  It is the call's own once every call
that held the lock before has read its last marker.
-/

namespace InboxSaas.Provisioner

/-! ## What is said of a call -/

/-- The call has read the marker that ends its command. -/
def SignInPhase.done : SignInPhase → Bool
  | .ended (.ok ()) => true
  | .ended (.error .powerShellAuthenticationError) => true
  | _ => false

namespace SignInSetup

variable {ι : Type} (S : SignInSetup ι)

/-- The call gives such a line to nobody. -/
def Skips (i : ι) (text : PyString) : Prop :=
  text = S.marker .success i ∨ text = S.marker .failure i ∨ deviceCodeFrom S.isalnum text = none

/-- The call gave its completer the code of one line it read, the first that announces one. -/
def Announced (i : ι) (call : SignInCall ι) (printed : PrintedLine ι) : Prop :=
  ∃ code front back, call.read = front ++ printed :: back ∧ call.deviceCodes = [code] ∧
    deviceCodeFrom S.isalnum printed.text = some code ∧
    ∀ earlier ∈ front, S.Skips i earlier.text

/-- No line so far announces a code. -/
def Unannounced (i : ι) (call : SignInCall ι) : Prop :=
  call.deviceCodes = [] ∧ ∀ printed ∈ call.read, S.Skips i printed.text

/-- A marker was printed by the command it belongs to, and one of success says what happened. -/
def Sound (connected : ι → Option Bool) (printed : PrintedLine ι) : Prop :=
  ∀ kind i, printed.text = S.marker kind i →
    printed.command = i ∧ (kind = .success → connected i = some true)

end SignInSetup

namespace SignInPhase

def deviceCodeSeen : SignInPhase → Option Bool
  | .draining => some false
  | .reading deviceCodeSeen _ => some deviceCodeSeen
  | .completing _ _ => some true
  | .ended (.ok ()) => some true
  | _ => none

def succeeded : SignInPhase → Bool
  | .reading _ succeeded => succeeded
  | .completing _ succeeded => succeeded
  | .ended (.ok ()) => true
  | _ => false

end SignInPhase

namespace SignInState

variable {ι : Type} [DecidableEq ι]

/-- The calls that held the lock before `i` left nothing in the pipes. -/
def DoneBefore (s : SignInState ι) (i : ι) : Prop :=
  ∀ j ∈ s.entered.takeWhile (· ≠ i), (s.calls j).phase.done = true

instance (s : SignInState ι) (i : ι) : Decidable (s.DoneBefore i) :=
  inferInstanceAs (Decidable (∀ j ∈ s.entered.takeWhile (· ≠ i), (s.calls j).phase.done = true))

end SignInState

section

variable {ι : Type} {S : SignInSetup ι}

/-! ## Markers -/

theorem framed_inj {α : Type} {front middle back word word' hex hex' : List α}
    (h : front ++ word ++ middle ++ hex ++ back = front ++ word' ++ middle ++ hex' ++ back) :
    word ++ (middle ++ hex) = word' ++ (middle ++ hex') := by
  replace h := List.append_cancel_right h
  simp only [List.append_assoc] at h
  exact List.append_cancel_left h

theorem markerText_inj {kind kind' : MarkerKind} {hex hex' : PyString}
    (h : markerText kind hex = markerText kind' hex') : kind = kind' ∧ hex = hex' := by
  have hword := framed_inj h
  -- the words differ in their first letter
  have hkind : kind = kind' := by
    have hhead : kind.word.head? = kind'.word.head? := by
      have hsome : ∀ kind : MarkerKind, kind.word.head?.isSome = true :=
        fun kind => by cases kind <;> rfl
      have hhead := congrArg List.head? hword
      rwa [List.head?_append, Option.or_of_isSome (hsome kind), List.head?_append,
        Option.or_of_isSome (hsome kind')] at hhead
    cases kind <;> cases kind' <;> first | rfl | exact absurd hhead (by decide)
  subst hkind
  exact ⟨rfl, List.append_cancel_left (List.append_cancel_left hword)⟩

theorem marker_inj (hhex : ∀ kind, Function.Injective (S.hex kind)) {kind kind' : MarkerKind}
    {i j : ι} (h : S.marker kind i = S.marker kind' j) : kind = kind' ∧ i = j := by
  have ⟨hkind, heq⟩ := markerText_inj h
  subst hkind
  exact ⟨rfl, hhex kind heq⟩

theorem text_markerText (kind : MarkerKind) (hex : PyString) (i : ι) :
    (⟨markerText kind hex ++ ['\n'], i⟩ : PrintedLine ι).text = markerText kind hex := by
  have hend : markerText kind hex =
      ("__INBOX_POWERSHELL_".toList ++ kind.word ++ "_".toList ++ hex ++ ['_']) ++ ['_'] :=
    (List.append_assoc _ ['_'] ['_']).symm
  change (markerText kind hex ++ ['\n']).rdropWhile _ = _
  rw [List.rdropWhile_concat_pos _ _ _ rfl, hend, List.rdropWhile_concat_neg _ _ _ (by decide)]

theorem sound_of_ordinary {line : PyString} (hline : S.Ordinary line) (connected : ι → Option Bool)
    (i : ι) : S.Sound connected ⟨line, i⟩ :=
  fun kind j htext => absurd htext (hline kind j)

theorem next_complete {i : ι} {text : PyString} (htext : text = S.marker .complete i)
    (deviceCodeSeen succeeded : Bool) :
    ∃ outcome, S.next i deviceCodeSeen succeeded text = .ended outcome := by
  unfold SignInSetup.next
  rw [if_pos htext]
  cases S.kind i with
  | healthCheck => exact ⟨_, rfl⟩
  | signIn =>
      dsimp only
      split
      · exact ⟨_, rfl⟩
      · exact ⟨_, rfl⟩

theorem next_inside {i : ι} {text : PyString} (htext : text ≠ S.marker .complete i)
    (deviceCodeSeen succeeded : Bool) :
    (S.next i deviceCodeSeen succeeded text).inside = true := by
  unfold SignInSetup.next
  rw [if_neg htext]
  cases S.kind i with
  | healthCheck => rfl
  | signIn =>
      dsimp only
      split
      · rfl
      · split
        · rfl
        · split
          · rfl
          · split
            · rfl
            · rfl

/-! ## What the lines of a call have said -/

/-- What a sign-in knows, is so. -/
structure Scanned (S : SignInSetup ι) (connected : ι → Option Bool) (i : ι)
    (call : SignInCall ι) : Prop where
  unseen : call.phase.deviceCodeSeen = some false → S.Unannounced i call
  seen : call.phase.deviceCodeSeen = some true → ∃ printed, S.Announced i call printed
  succeeded : call.phase.succeeded = true → connected i = some true

namespace Scanned

variable {connected : ι → Option Bool} {i : ι} {call : SignInCall ι}

/-- A call that ended with an error, or has not the lock, knows nothing. -/
theorem of_unknowing (hseen : call.phase.deviceCodeSeen = none)
    (hsucceeded : call.phase.succeeded = false) : Scanned S connected i call where
  unseen h := nomatch hseen.symm.trans h
  seen h := nomatch hseen.symm.trans h
  succeeded h := nomatch hsucceeded.symm.trans h

theorem mono (h : Scanned S connected i call) {connected' : ι → Option Bool}
    (hconnected : connected i = some true → connected' i = some true) :
    Scanned S connected' i call where
  unseen := h.unseen
  seen := h.seen
  succeeded hs := hconnected (h.succeeded hs)

/-- The call goes on with what it has read, and knows what it knew. -/
theorem goOn (h : Scanned S connected i call) {phase : SignInPhase}
    (hseen : phase.deviceCodeSeen = call.phase.deviceCodeSeen)
    (hsucceeded : phase.succeeded = call.phase.succeeded) :
    Scanned S connected i { call with phase := phase } where
  unseen h' := h.unseen (hseen.symm.trans h')
  seen h' := h.seen (hseen.symm.trans h')
  succeeded h' := h.succeeded (hsucceeded.symm.trans h')

theorem unannounced_snoc (h : S.Unannounced i call) {printed : PrintedLine ι}
    (hskips : S.Skips i printed.text) (phase : SignInPhase) :
    S.Unannounced i ⟨phase, call.read ++ [printed], call.deviceCodes⟩ := by
  refine ⟨h.1, fun p hp => ?_⟩
  cases List.mem_append.mp hp with
  | inl hp => exact h.2 p hp
  | inr hp => exact List.mem_singleton.mp hp ▸ hskips

theorem announced_snoc {printed : PrintedLine ι} (h : S.Announced i call printed)
    (next : PrintedLine ι) (phase : SignInPhase) :
    S.Announced i ⟨phase, call.read ++ [next], call.deviceCodes⟩ printed := by
  have ⟨code, front, back, hread, hcodes, hcode, hfront⟩ := h
  refine ⟨code, front, back ++ [next], ?_, hcodes, hcode, hfront⟩
  rw [hread, List.append_assoc, List.cons_append]

/-- A line that says nothing about the code. -/
theorem skip (h : Scanned S connected i call) {printed : PrintedLine ι} {phase : SignInPhase}
    (hseen : phase.deviceCodeSeen = call.phase.deviceCodeSeen)
    (hskips : phase.deviceCodeSeen = some false → S.Skips i printed.text)
    (hsucceeded : phase.succeeded = true → connected i = some true) :
    Scanned S connected i ⟨phase, call.read ++ [printed], call.deviceCodes⟩ where
  unseen h' := unannounced_snoc (h.unseen (hseen.symm.trans h')) (hskips h') phase
  seen h' := by
    have ⟨first, hfirst⟩ := h.seen (hseen.symm.trans h')
    exact ⟨first, announced_snoc hfirst printed phase⟩
  succeeded := hsucceeded

/-- The first line that announces a code. -/
theorem announce (h : Scanned S connected i call)
    (hunseen : call.phase.deviceCodeSeen = some false) {printed : PrintedLine ι} {code : PyString}
    (hcode : deviceCodeFrom S.isalnum printed.text = some code) {succeeded : Bool}
    (hsucceeded : succeeded = true → connected i = some true) :
    Scanned S connected i
      ⟨.completing code succeeded, call.read ++ [printed], call.deviceCodes ++ [code]⟩ where
  unseen := nofun
  seen _ := by
    have ⟨hcodes, hread⟩ := h.unseen hunseen
    exact ⟨printed, code, call.read, [], rfl, by rw [hcodes, List.nil_append], hcode, hread⟩
  succeeded := hsucceeded

theorem take (h : Scanned S connected i call) (hkind : S.kind i = .signIn)
    {deviceCodeSeen succeeded : Bool} (hphase : call.phase = .reading deviceCodeSeen succeeded)
    {printed : PrintedLine ι} (hsound : S.Sound connected printed) :
    Scanned S connected i (call.take S i deviceCodeSeen succeeded printed) := by
  have hseen : call.phase.deviceCodeSeen = some deviceCodeSeen := by rw [hphase]; rfl
  have hsucceeded : succeeded = true → connected i = some true := by
    intro htrue
    refine h.succeeded ?_
    rw [hphase]
    exact htrue
  unfold SignInCall.take SignInSetup.next
  simp only [hkind]
  -- the tests on a line, in the order of the source
  by_cases hcomplete : printed.text = S.marker .complete i
  · rw [if_pos hcomplete]
    by_cases hfails : (!deviceCodeSeen || !succeeded) = true
    · rw [if_pos hfails]
      exact of_unknowing rfl rfl
    · rw [if_neg hfails]
      rw [Bool.not_eq_true, Bool.or_eq_false_iff, Bool.not_eq_false', Bool.not_eq_false'] at hfails
      exact h.skip (hfails.1 ▸ hseen).symm nofun fun _ => hsucceeded hfails.2
  · rw [if_neg hcomplete]
    by_cases hsuccess : printed.text = S.marker .success i
    · rw [if_pos hsuccess]
      exact h.skip hseen.symm (fun _ => .inl hsuccess) fun _ => (hsound _ _ hsuccess).2 rfl
    · rw [if_neg hsuccess]
      by_cases hfailure : printed.text = S.marker .failure i
      · rw [if_pos hfailure]
        exact h.skip hseen.symm (fun _ => .inr (.inl hfailure)) hsucceeded
      · rw [if_neg hfailure]
        cases deviceCodeSeen with
        | true => exact h.skip hseen.symm nofun hsucceeded
        | false =>
            cases hcode : deviceCodeFrom S.isalnum printed.text with
            | none => exact h.skip hseen.symm (fun _ => .inr (.inr hcode)) hsucceeded
            | some code => exact h.announce hseen hcode hsucceeded

end Scanned

/-! ## The pipes of a call that nobody left anything to -/

/-- Nothing is in the pipes but what the command of the call printed. -/
inductive Tidy (S : SignInSetup ι) (i : ι) : List ι → List (PrintedLine ι) → Prop where
  | running {stdout : List (PrintedLine ι)}
      (own : ∀ printed ∈ stdout, printed.command = i ∧ printed.text ≠ S.marker .complete i) :
      Tidy S i [i] stdout
  | finished {front : List (PrintedLine ι)} {last : PrintedLine ι}
      (own : ∀ printed ∈ front, printed.command = i ∧ printed.text ≠ S.marker .complete i)
      (command : last.command = i) (text : last.text = S.marker .complete i) :
      Tidy S i [] (front ++ [last])

namespace Tidy

variable {i j : ι} {stdin later : List ι} {stdout rest : List (PrintedLine ι)}
  {printed : PrintedLine ι}

theorem snoc (h : Tidy S i stdin stdout) (hstdin : stdin = j :: later)
    (hcommand : printed.command = j) (htext : ∀ k, printed.text ≠ S.marker .complete k) :
    Tidy S i stdin (stdout ++ [printed]) := by
  cases h with
  | running hown =>
      refine .running fun p hp => ?_
      cases List.mem_append.mp hp with
      | inl hp => exact hown p hp
      | inr hp =>
          rw [List.mem_singleton.mp hp]
          exact ⟨hcommand.trans (List.cons.inj hstdin).1.symm, htext i⟩
  | finished _ _ _ => cases hstdin

theorem complete (h : Tidy S i stdin stdout) (hstdin : stdin = j :: later)
    (hcommand : printed.command = j) (htext : printed.text = S.marker .complete j) :
    Tidy S i later (stdout ++ [printed]) := by
  cases h with
  | running hown =>
      have ⟨hij, hlater⟩ := List.cons.inj hstdin
      subst hij hlater
      exact .finished hown hcommand htext
  | finished _ _ _ => cases hstdin

/-- The line that the call reads next is its own, and behind its last marker nothing comes. -/
theorem read (h : Tidy S i stdin (printed :: rest)) :
    printed.command = i ∧ (printed.text = S.marker .complete i → stdin = [] ∧ rest = []) ∧
      (printed.text ≠ S.marker .complete i → Tidy S i stdin rest) := by
  generalize hstdout : printed :: rest = stdout at h
  cases h with
  | running hown =>
      have hfirst := hown printed (hstdout ▸ List.mem_cons_self)
      exact ⟨hfirst.1, fun heq => absurd heq hfirst.2,
        fun _ => .running fun p hp => hown p (hstdout ▸ List.mem_cons_of_mem printed hp)⟩
  | @finished front last hown hcommand htext =>
      cases front with
      | nil =>
          have ⟨hlast, hrest⟩ := List.cons.inj hstdout
          subst hlast hrest
          exact ⟨hcommand, fun _ => ⟨rfl, rfl⟩, fun hne => absurd htext hne⟩
      | cons first front =>
          have ⟨hprinted, hrest⟩ := List.cons.inj hstdout
          subst hprinted hrest
          have hfirst := hown printed List.mem_cons_self
          exact ⟨hfirst.1, fun heq => absurd heq hfirst.2,
            fun _ => .finished (fun p hp => hown p (List.mem_cons_of_mem printed hp)) hcommand
              htext⟩

end Tidy

/-! ## The invariant -/

variable [DecidableEq ι]

structure OwnSignIn (S : SignInSetup ι) (s : SignInState ι) : Prop where
  holder : ∀ i, s.commandLock = some i ↔ (s.calls i).phase.inside = true
  nodup : s.entered.Nodup
  last : ∀ i, s.commandLock = some i → ∃ front, s.entered = front ++ [i]
  outside : ∀ i, (s.calls i).phase = .idle ∨ (s.calls i).phase = .waiting → i ∉ s.entered
  unentered : ∀ i, i ∉ s.entered → (s.calls i).read = [] ∧ (s.calls i).deviceCodes = []
  sound : ∀ printed ∈ s.stdout, S.Sound s.connected printed
  scanned : ∀ i, S.kind i = .signIn → Scanned S s.connected i (s.calls i)
  quiet : s.commandLock = none → (∀ j ∈ s.entered, (s.calls j).phase.done = true) →
    s.stdin = [] ∧ s.stdout = []
  tidy : ∀ i, s.commandLock = some i → s.DoneBefore i → Tidy S i s.stdin s.stdout
  own : ∀ i, s.DoneBefore i → ∀ printed ∈ (s.calls i).read, printed.command = i

/-- The calls before another one are not the last. -/
theorem not_mem_takeWhile_of_last {front : List ι} {i k : ι} (hi : i ∉ front)
    (hk : k ∈ front ++ [i]) : i ∉ (front ++ [i]).takeWhile (· ≠ k) := by
  induction front with
  | nil =>
      rw [List.mem_singleton.mp hk]
      simp
  | cons a front ih =>
      rw [List.mem_cons, not_or] at hi
      rw [List.cons_append, List.takeWhile_cons]
      by_cases hak : a = k
      · simp [hak]
      · rw [if_pos (decide_eq_true hak), List.mem_cons, not_or]
        exact ⟨hi.1, ih hi.2 ((List.mem_cons.mp hk).resolve_left (Ne.symm hak))⟩

theorem SignInState.DoneBefore.of_calls {s s' : SignInState ι} {k : ι} (h : s'.DoneBefore k)
    (hcalls : ∀ j ∈ s.entered.takeWhile (· ≠ k),
      j ∈ s'.entered.takeWhile (· ≠ k) ∧ s'.calls j = s.calls j) :
    s.DoneBefore k := by
  intro j hj
  have ⟨hj', hsame⟩ := hcalls j hj
  exact hsame ▸ h j hj'

namespace OwnSignIn

theorem initial : OwnSignIn S (SignInState.initial : SignInState ι) where
  holder _ := ⟨nofun, nofun⟩
  nodup := List.nodup_nil
  last _ h := nomatch h
  outside _ _ := List.not_mem_nil
  unentered _ _ := ⟨rfl, rfl⟩
  sound _ h := absurd h List.not_mem_nil
  scanned _ _ := .of_unknowing rfl rfl
  quiet _ _ := ⟨rfl, rfl⟩
  tidy _ h := nomatch h
  own _ _ _ h := absurd h List.not_mem_nil

variable {s : SignInState ι} {i : ι}

/-! ## The steps of `pwsh` -/

theorem pipe (h : OwnSignIn S s) {j : ι} {later : List ι} (hstdin : s.stdin = j :: later)
    {stdin : List ι} {stdout : List (PrintedLine ι)} {connected : ι → Option Bool}
    (hconnected : ∀ k, s.connected k = some true → connected k = some true)
    (hsound : ∀ printed ∈ stdout, S.Sound connected printed)
    (htidy : ∀ k, Tidy S k s.stdin s.stdout → Tidy S k stdin stdout) :
    OwnSignIn S { s with stdin := stdin, stdout := stdout, connected := connected } where
  holder := h.holder
  nodup := h.nodup
  last := h.last
  outside := h.outside
  unentered := h.unentered
  sound := hsound
  scanned k hkind := (h.scanned k hkind).mono (hconnected k)
  quiet hlock hdone := nomatch hstdin.symm.trans (h.quiet hlock hdone).1
  tidy k hlock hdone := htidy k (h.tidy k hlock hdone)
  own := h.own

theorem sound_snoc (h : OwnSignIn S s) {printed : PrintedLine ι} {connected : ι → Option Bool}
    (hconnected : ∀ k, s.connected k = some true → connected k = some true)
    (hprinted : S.Sound connected printed) :
    ∀ p ∈ s.stdout ++ [printed], S.Sound connected p := by
  intro p hp
  cases List.mem_append.mp hp with
  | inl hp =>
      intro kind k htext
      have ⟨hcommand, hso⟩ := h.sound p hp kind k htext
      exact ⟨hcommand, fun hkind => hconnected k (hso hkind)⟩
  | inr hp => exact List.mem_singleton.mp hp ▸ hprinted

theorem print (h : OwnSignIn S s) {later : List ι} (hstdin : s.stdin = i :: later)
    {line : PyString} (hline : S.Ordinary line) :
    OwnSignIn S { s with stdout := s.stdout ++ [⟨line, i⟩] } :=
  h.pipe hstdin (fun _ => id) (h.sound_snoc (fun _ => id) (sound_of_ordinary hline _ i))
    fun _ htidy => htidy.snoc hstdin rfl (hline .complete)

theorem connect (h : OwnSignIn S s) (hhex : ∀ kind, Function.Injective (S.hex kind))
    {later : List ι} (hstdin : s.stdin = i :: later) (hunknown : s.connected i = none)
    {connected : Bool} {kind : MarkerKind} (hkind : kind = .success ∧ connected = true ∨
      kind = .failure ∧ connected = false) :
    OwnSignIn S { s with
      stdout := s.stdout ++ [⟨S.marker kind i ++ ['\n'], i⟩]
      connected := Function.update s.connected i (some connected) } := by
  have hconnected : ∀ k, s.connected k = some true →
      Function.update s.connected i (some connected) k = some true := by
    intro k hk
    have hki : k ≠ i := fun hki => nomatch (hki ▸ hk).symm.trans hunknown
    rw [Function.update_of_ne hki]
    exact hk
  have htext := text_markerText kind (S.hex kind i) i
  have hmarker : ∀ kind' k, (⟨S.marker kind i ++ ['\n'], i⟩ : PrintedLine ι).text =
      S.marker kind' k → kind = kind' ∧ i = k :=
    fun _ _ heq => marker_inj hhex (htext.symm.trans heq)
  refine h.pipe hstdin hconnected (h.sound_snoc hconnected ?_) fun _ htidy => ?_
  · intro kind' k heq
    have ⟨hsame, hik⟩ := hmarker kind' k heq
    refine ⟨hik, fun hsuccess => ?_⟩
    rw [← hik, Function.update_self]
    cases hkind with
    | inl hkind => rw [hkind.2]
    | inr hkind => exact nomatch hkind.1.symm.trans (hsame.trans hsuccess)
  · refine htidy.snoc hstdin rfl fun k heq => ?_
    have hsame := (hmarker .complete k heq).1
    cases hkind with
    | inl hkind => exact nomatch hkind.1.symm.trans hsame
    | inr hkind => exact nomatch hkind.1.symm.trans hsame

theorem complete (h : OwnSignIn S s) (hhex : ∀ kind, Function.Injective (S.hex kind))
    {later : List ι} (hstdin : s.stdin = i :: later) :
    OwnSignIn S { s with
      stdout := s.stdout ++ [⟨S.marker .complete i ++ ['\n'], i⟩]
      stdin := later } := by
  have htext := text_markerText .complete (S.hex .complete i) i
  refine h.pipe hstdin (fun _ => id) (h.sound_snoc (fun _ => id) ?_)
    fun _ htidy => htidy.complete hstdin rfl htext
  intro kind k heq
  have ⟨hkind, hik⟩ := marker_inj hhex (htext.symm.trans heq)
  exact ⟨hik, fun hsuccess => nomatch hkind.trans hsuccess⟩

/-! ## The steps of a call -/

theorem approach (h : OwnSignIn S s)
    (hbefore : (s.calls i).phase = .idle ∨ (s.calls i).phase = .waiting) {phase : SignInPhase}
    (hinside : phase.inside = false) (hseen : phase.deviceCodeSeen = none)
    (hsucceeded : phase.succeeded = false) :
    OwnSignIn S (s.approach i phase) := by
  have hnot := h.outside i hbefore
  have hself : (s.approach i phase).calls i = { s.calls i with phase := phase } :=
    Function.update_self ..
  have hother : ∀ k, k ≠ i → (s.approach i phase).calls k = s.calls k :=
    fun k hk => Function.update_of_ne hk _ _
  have hentered : ∀ k ∈ s.entered, (s.approach i phase).calls k = s.calls k :=
    fun k hk => hother k fun hki => hnot (hki ▸ hk)
  have hdoneBefore : ∀ k, (s.approach i phase).DoneBefore k → s.DoneBefore k := fun k hdone =>
    hdone.of_calls fun j hj => ⟨hj, hentered j (List.takeWhile_subset _ hj)⟩
  constructor
  case holder =>
    intro k
    by_cases hk : k = i
    · subst hk
      rw [hself]
      have hout : (s.calls k).phase.inside = false := by cases hbefore with | _ h => rw [h]; rfl
      refine ⟨fun hlock => ?_, fun htrue => nomatch hinside.symm.trans htrue⟩
      exact nomatch hout.symm.trans ((h.holder k).mp hlock)
    · rw [hother k hk]
      exact h.holder k
  case nodup => exact h.nodup
  case last => exact h.last
  case outside =>
    intro k hk
    by_cases hki : k = i
    · exact hki ▸ hnot
    · exact h.outside k (hother k hki ▸ hk)
  case unentered =>
    intro k hk
    by_cases hki : k = i
    · subst hki
      rw [hself]
      exact h.unentered k hk
    · rw [hother k hki]
      exact h.unentered k hk
  case sound => exact h.sound
  case scanned =>
    intro k hkind
    by_cases hki : k = i
    · subst hki
      rw [hself]
      exact .of_unknowing hseen hsucceeded
    · rw [hother k hki]
      exact h.scanned k hkind
  case quiet => exact fun hlock hdone => h.quiet hlock fun j hj => hentered j hj ▸ hdone j hj
  case tidy => exact fun k hlock hdone => h.tidy k hlock (hdoneBefore k hdone)
  case own =>
    intro k hdone
    by_cases hki : k = i
    · subst hki
      rw [hself, (h.unentered k hnot).1]
      exact fun _ hp => absurd hp List.not_mem_nil
    · rw [hother k hki]
      exact h.own k (hdoneBefore k hdone)

theorem acquire (h : OwnSignIn S s) (hwaiting : (s.calls i).phase = .waiting)
    (hfree : s.commandLock = none) :
    OwnSignIn S { s.move i { s.calls i with phase := .draining } s.stdout with
      entered := s.entered ++ [i]
      stdin := s.stdin ++ [i] } := by
  have hnot := h.outside i (.inr hwaiting)
  have ⟨hread, hcodes⟩ := h.unentered i hnot
  constructor
  case holder =>
    intro k
    change some i = some k ↔ (Function.update s.calls i _ k).phase.inside = true
    by_cases hk : k = i
    · subst hk
      rw [Function.update_self]
      exact ⟨fun _ => rfl, fun _ => rfl⟩
    · rw [Function.update_of_ne hk, ← h.holder k, hfree, Option.some.injEq]
      exact ⟨fun hik => absurd hik.symm hk, nofun⟩
  case nodup => exact List.concat_eq_append ▸ h.nodup.concat hnot
  case last =>
    intro k hk
    exact ⟨s.entered, by rw [Option.some.inj hk]⟩
  case outside =>
    intro k hk hmem
    change (Function.update s.calls i _ k).phase = _ ∨ (Function.update s.calls i _ k).phase = _
      at hk
    by_cases hki : k = i
    · subst hki
      rw [Function.update_self] at hk
      cases hk <;> contradiction
    · rw [Function.update_of_ne hki] at hk
      cases List.mem_append.mp hmem with
      | inl hmem => exact h.outside k hk hmem
      | inr hmem => exact hki (List.mem_singleton.mp hmem)
  case unentered =>
    intro k hk
    rw [List.mem_append, List.mem_singleton, not_or] at hk
    change (Function.update s.calls i _ k).read = _ ∧ (Function.update s.calls i _ k).deviceCodes = _
    rw [Function.update_of_ne hk.2]
    exact h.unentered k hk.1
  case sound => exact h.sound
  case scanned =>
    intro k hkind
    change Scanned S s.connected k (Function.update s.calls i _ k)
    by_cases hki : k = i
    · subst hki
      rw [Function.update_self]
      exact ⟨fun _ => ⟨hcodes, fun _ hp => absurd (hread ▸ hp) List.not_mem_nil⟩, nofun, nofun⟩
    · rw [Function.update_of_ne hki]
      exact h.scanned k hkind
  case quiet => exact fun hlock => nomatch hlock
  case tidy =>
    intro k hk hdone
    cases Option.some.inj hk
    -- every call before it left the pipes empty
    have hbefore : (s.entered ++ [i]).takeWhile (· ≠ i) = s.entered := by
      rw [List.takeWhile_append_of_pos]
      · simp
      · exact fun j hj => decide_eq_true fun hji => hnot (hji ▸ hj)
    have ⟨hstdin, hstdout⟩ := h.quiet hfree fun j hj => by
      have hji : j ≠ i := fun hji => hnot (hji ▸ hj)
      have hj' := hdone j (hbefore.symm ▸ hj)
      change (Function.update s.calls i _ j).phase.done = true at hj'
      rwa [Function.update_of_ne hji] at hj'
    change Tidy S i (s.stdin ++ [i]) s.stdout
    rw [hstdin, hstdout]
    exact .running fun _ hp => absurd hp List.not_mem_nil
  case own =>
    intro k hdone
    change ∀ p ∈ (Function.update s.calls i _ k).read, _
    by_cases hki : k = i
    · subst hki
      rw [Function.update_self]
      exact fun _ hp => absurd (hread ▸ hp) List.not_mem_nil
    · rw [Function.update_of_ne hki]
      refine h.own k (hdone.of_calls fun j hj => ?_)
      have hmem : j ∈ s.entered := List.takeWhile_subset _ hj
      have hji : j ≠ i := fun hji => hnot (hji ▸ hmem)
      refine ⟨?_, Function.update_of_ne hji _ _⟩
      change j ∈ (s.entered ++ [i]).takeWhile (· ≠ k)
      rw [List.takeWhile_append]
      split
      · exact List.mem_append_left _ hmem
      · exact hj

theorem move (h : OwnSignIn S s) (hinside : (s.calls i).phase.inside = true)
    {call : SignInCall ι} {stdout : List (PrintedLine ι)}
    (hphase : call.phase.inside = true ∨ ∃ outcome, call.phase = .ended outcome)
    (hsound : ∀ printed ∈ stdout, S.Sound s.connected printed)
    (hscanned : S.kind i = .signIn → Scanned S s.connected i call)
    (htidy : call.phase.inside = true → s.DoneBefore i → Tidy S i s.stdin stdout)
    (hquiet : call.phase.done = true → s.DoneBefore i → s.stdin = [] ∧ stdout = [])
    (hown : s.DoneBefore i → ∀ printed ∈ call.read, printed.command = i) :
    OwnSignIn S (s.move i call stdout) := by
  have hlock := (h.holder i).mpr hinside
  have ⟨front, hfront⟩ := h.last i hlock
  have hnot : i ∉ front := by
    have hnodup := hfront ▸ h.nodup
    exact fun hmem => (List.nodup_append.mp hnodup).2.2 i hmem i List.mem_cons_self rfl
  have hmem : i ∈ s.entered := hfront ▸ List.mem_append_right front List.mem_cons_self
  have hself : (s.move i call stdout).calls i = call := Function.update_self ..
  have hother : ∀ k, k ≠ i → (s.move i call stdout).calls k = s.calls k :=
    fun k hk => Function.update_of_ne hk _ _
  -- what the last call does is not seen by the calls before it
  have hdoneBefore : ∀ k ∈ s.entered, (s.move i call stdout).DoneBefore k → s.DoneBefore k := by
    intro k hk hdone
    refine hdone.of_calls fun j hj => ⟨hj, hother j fun hji => ?_⟩
    rw [hfront] at hj hk
    exact not_mem_takeWhile_of_last hnot hk (hji ▸ hj)
  have hone : ∀ k, k ≠ i → (s.calls k).phase.inside = false := by
    intro k hk
    rw [← Bool.not_eq_true, ← h.holder k, hlock, Option.some.injEq]
    exact hk.symm
  constructor
  case holder =>
    intro k
    change (if call.phase.inside then some i else none) = some k ↔ _
    by_cases hk : k = i
    · subst hk
      rw [hself]
      cases call.phase.inside <;> simp
    · rw [hother k hk, hone k hk]
      cases call.phase.inside <;> simp [Ne.symm hk]
  case nodup => exact h.nodup
  case last =>
    intro k hk
    change (if call.phase.inside then some i else none) = some k at hk
    split at hk
    · exact ⟨front, by rw [← Option.some.inj hk]; exact hfront⟩
    · exact nomatch hk
  case outside =>
    intro k hk
    by_cases hki : k = i
    · subst hki
      rw [hself] at hk
      rcases hphase with hin | ⟨outcome, hended⟩
      · cases hk with | _ hk => rw [hk] at hin; exact nomatch hin
      · cases hk with | _ hk => exact nomatch hk.symm.trans hended
    · exact h.outside k (hother k hki ▸ hk)
  case unentered =>
    intro k hk
    rw [hother k fun hki => hk (hki ▸ hmem)]
    exact h.unentered k hk
  case sound => exact hsound
  case scanned =>
    intro k hkind
    by_cases hki : k = i
    · subst hki
      rw [hself]
      exact hscanned hkind
    · rw [hother k hki]
      exact h.scanned k hkind
  case quiet =>
    intro _ hdone
    refine hquiet (hself ▸ hdone i hmem) fun j hj => ?_
    have hji : j ≠ i := by simpa using List.mem_takeWhile_imp hj
    exact hother j hji ▸ hdone j (List.takeWhile_subset _ hj)
  case tidy =>
    intro k hk hdone
    change (if call.phase.inside then some i else none) = some k at hk
    split at hk
    · rename_i hin
      cases Option.some.inj hk
      exact htidy hin (hdoneBefore i hmem hdone)
    · exact nomatch hk
  case own =>
    intro k hdone
    by_cases hki : k = i
    · subst hki
      rw [hself]
      exact hown (hdoneBefore k hmem hdone)
    · rw [hother k hki]
      by_cases hk : k ∈ s.entered
      · exact h.own k (hdoneBefore k hk hdone)
      · rw [(h.unentered k hk).1]
        exact fun _ hp => absurd hp List.not_mem_nil

/-- A call that goes on without reading. -/
theorem goOn (h : OwnSignIn S s) (hinside : (s.calls i).phase.inside = true) {phase : SignInPhase}
    (hphase : phase.inside = true) (hdone : phase.done = false)
    (hseen : phase.deviceCodeSeen = (s.calls i).phase.deviceCodeSeen)
    (hsucceeded : phase.succeeded = (s.calls i).phase.succeeded) :
    OwnSignIn S (s.move i { s.calls i with phase := phase } s.stdout) := by
  apply h.move hinside (.inl hphase) h.sound
  · exact fun hkind => (h.scanned i hkind).goOn hseen hsucceeded
  · exact fun _ => h.tidy i ((h.holder i).mpr hinside)
  · exact fun htrue => nomatch hdone.symm.trans htrue
  · exact h.own i

/-- A call that ends early. -/
theorem fail (h : OwnSignIn S s) (hinside : (s.calls i).phase.inside = true)
    (error : SignInError) (herror : error ≠ .powerShellAuthenticationError)
    {stdout : List (PrintedLine ι)} (hsound : ∀ printed ∈ stdout, S.Sound s.connected printed) :
    OwnSignIn S (s.move i { s.calls i with phase := .ended (.error error) } stdout) := by
  apply h.move hinside (.inr ⟨_, rfl⟩) hsound
  · exact fun _ => .of_unknowing rfl rfl
  · exact nofun
  · intro hdone
    cases error with
    | powerShellAuthenticationError => exact absurd rfl herror
    | _ => exact nomatch hdone
  · exact h.own i

theorem readline (h : OwnSignIn S s) {deviceCodeSeen succeeded : Bool}
    (hreading : (s.calls i).phase = .reading deviceCodeSeen succeeded) {printed : PrintedLine ι}
    {rest : List (PrintedLine ι)} (hstdout : s.stdout = printed :: rest) :
    OwnSignIn S (s.move i ((s.calls i).take S i deviceCodeSeen succeeded printed) rest) := by
  have hinside : (s.calls i).phase.inside = true := by rw [hreading]; rfl
  have hprinted : S.Sound s.connected printed := h.sound printed (hstdout ▸ List.mem_cons_self)
  have htidy : s.DoneBefore i → Tidy S i s.stdin (printed :: rest) := fun hdone =>
    hstdout ▸ h.tidy i ((h.holder i).mpr hinside) hdone
  have hended : printed.text = S.marker .complete i →
      ((s.calls i).take S i deviceCodeSeen succeeded printed).phase.inside = false := by
    intro htext
    have ⟨outcome, houtcome⟩ := next_complete htext deviceCodeSeen succeeded
    change (S.next i deviceCodeSeen succeeded printed.text).inside = false
    rw [houtcome]
    rfl
  have hdone : ((s.calls i).take S i deviceCodeSeen succeeded printed).phase.inside = true →
      ((s.calls i).take S i deviceCodeSeen succeeded printed).phase.done ≠ true := by
    intro hin
    generalize ((s.calls i).take S i deviceCodeSeen succeeded printed).phase = phase at hin
    cases phase with
    | ended => exact nomatch hin
    | _ => exact nofun
  apply h.move hinside
  · by_cases htext : printed.text = S.marker .complete i
    · exact .inr (next_complete htext _ _)
    · exact .inl (next_inside htext _ _)
  · exact fun p hp => h.sound p (hstdout ▸ List.mem_cons_of_mem printed hp)
  · exact fun hkind => (h.scanned i hkind).take hkind hreading hprinted
  · intro hin hbefore
    refine (htidy hbefore).read.2.2 fun htext => ?_
    exact nomatch (hended htext).symm.trans hin
  · intro htrue hbefore
    refine (htidy hbefore).read.2.1 (by_contra fun htext => ?_)
    exact hdone (next_inside htext _ _) htrue
  · intro hbefore p hp
    cases List.mem_append.mp hp with
    | inl hp => exact h.own i hbefore p hp
    | inr hp => exact List.mem_singleton.mp hp ▸ (htidy hbefore).read.1

theorem overrun (h : OwnSignIn S s) {deviceCodeSeen succeeded : Bool}
    (hreading : (s.calls i).phase = .reading deviceCodeSeen succeeded) {printed : PrintedLine ι}
    {kept rest : List (PrintedLine ι)} (hstdout : s.stdout = printed :: rest)
    (hkept : kept = [] ∨ ∃ tail, S.Ordinary tail ∧ kept = [⟨tail, printed.command⟩])
    (error : PyError) :
    OwnSignIn S (s.move i { s.calls i with phase := .ended (.error (.raised error)) }
      (kept ++ rest)) := by
  refine h.fail (by rw [hreading]; rfl) (.raised error) nofun fun p hp => ?_
  cases List.mem_append.mp hp with
  | inl hp =>
      cases hkept with
      | inl hnil => exact absurd (hnil ▸ hp) List.not_mem_nil
      | inr htail =>
          have ⟨tail, hordinary, hcons⟩ := htail
          have hpt : p = ⟨tail, printed.command⟩ := List.mem_singleton.mp (hcons ▸ hp)
          exact hpt ▸ sound_of_ordinary hordinary _ _
  | inr hp => exact h.sound p (hstdout ▸ List.mem_cons_of_mem printed hp)

/-! ## Runs -/

theorem step (h : OwnSignIn S s) (hhex : ∀ kind, Function.Injective (S.hex kind))
    {s' : SignInState ι} (hs : SignInStep S s s') : OwnSignIn S s' := by
  cases hs with
  | call idle => exact h.approach (.inl idle) rfl rfl rfl
  | refuse idle _ => exact h.approach (.inl idle) rfl rfl rfl
  | giveUp _ waiting => exact h.approach (.inr waiting) rfl rfl rfl
  | acquire waiting free => exact h.acquire waiting free
  | drain draining =>
      refine h.goOn ?_ rfl rfl ?_ ?_
      all_goals rw [draining]; rfl
  | readline reading stdout => exact h.readline reading stdout
  | completed completing =>
      refine h.goOn ?_ rfl rfl ?_ ?_
      all_goals rw [completing]; rfl
  | endOfFile reading _ _ =>
      exact h.fail (by rw [reading]; rfl) (.powerShellProcessError _) nofun h.sound
  | abandon _ inside other => exact h.fail inside _ other h.sound
  | overrun error reading stdout dropped => exact h.overrun reading stdout dropped error
  | print _ stdin _ _ ordinary => exact h.print stdin ordinary
  | connect connected stdin _ _ unknown =>
      refine h.connect hhex stdin unknown ?_
      cases connected with
      | true => exact .inl ⟨rfl, rfl⟩
      | false => exact .inr ⟨rfl, rfl⟩
  | complete stdin _ => exact h.complete hhex stdin
  | exit =>
      exact ⟨h.holder, h.nodup, h.last, h.outside, h.unentered, h.sound, h.scanned, h.quiet,
        h.tidy, h.own⟩

end OwnSignIn

theorem SignInReaches.ownSignIn {s : SignInState ι} (hs : SignInReaches S s)
    (hhex : ∀ kind, Function.Injective (S.hex kind)) : OwnSignIn S s := by
  induction hs with
  | refl => exact .initial
  | tail _ hstep ih => exact ih.step hhex hstep

end

/-- In every run, a sign-in that returned had its own Microsoft command succeed, and the completer
was given exactly one code: the one in the first line it read that announces any.  Where every call
before it has read its last marker, that line is its own. -/
theorem own_sign_in {ι : Type} [DecidableEq ι] {S : SignInSetup ι}
    (hhex : ∀ kind, Function.Injective (S.hex kind)) {s : SignInState ι} (hs : SignInReaches S s)
    {i : ι} (hkind : S.kind i = .signIn) (hended : (s.calls i).phase = .ended (.ok ())) :
    s.connected i = some true ∧
      ∃ printed, S.Announced i (s.calls i) printed ∧ (s.DoneBefore i → printed.command = i) := by
  have hinv := hs.ownSignIn hhex
  have hscanned := hinv.scanned i hkind
  have ⟨printed, hannounced⟩ := hscanned.seen (by rw [hended]; rfl)
  refine ⟨hscanned.succeeded (by rw [hended]; rfl), printed, hannounced, fun hdone => ?_⟩
  have ⟨code, front, back, hread, _⟩ := hannounced
  exact hinv.own i hdone printed (hread ▸ List.mem_append_right front List.mem_cons_self)

/-! ## A sample run -/

namespace SignInSample

/-- `false` is a health check, `true` a sign-in. -/
def setup : SignInSetup Bool where
  kind
    | false => .healthCheck
    | true => .signIn
  hex
    | _, false => "0c6e7a51d2f84b0d9a3c5e1f7b2d4a68".toList
    | _, true => "5f1d3b7998e24c06a1b0c2d3e4f50617".toList
  isalnum := Char.isAlphanum

theorem hex_injective (kind : MarkerKind) : Function.Injective (setup.hex kind) := by
  intro i j h
  cases kind <;> cases i <;> cases j <;> first | rfl | exact absurd h (by decide)

def report : PyString := "\x7b\"graphConnected\":false,\"exchangeConnected\":false\x7d\n".toList

def announcement : PyString :=
  "To sign in, open https://login.microsoft.com/device and enter the code C7K2M9QXD\n".toList

/-- A marker starts with an underscore. -/
theorem ordinary_of_head? {line : PyString} (h : line.head? ≠ some '_') : setup.Ordinary line := by
  intro kind j heq
  have hprefix : setup.marker kind j <+: line := heq ▸ List.rdropWhile_prefix _ _
  have ⟨rest, hrest⟩ := hprefix
  exact h (congrArg List.head? hrest.symm)

theorem reaches : ∃ s : SignInState Bool, SignInReaches setup s ∧
    (s.calls true).phase = .ended (.ok ()) ∧ s.DoneBefore true := by
  have hrun : SignInReaches setup _ :=
    @Relation.ReflTransGen.refl _ (SignInStep setup) .initial
      |>.tail (.call (i := false) rfl)
      |>.tail (.acquire (i := false) rfl rfl)
      |>.tail (.call (i := true) rfl)
      |>.tail (.drain (i := false) rfl)
      |>.tail (.print report rfl rfl nofun (ordinary_of_head? (by decide)))
      |>.tail (.complete rfl rfl)
      |>.tail (@SignInStep.readline _ _ setup _ false false false _ _ (by decide +kernel) rfl)
      |>.tail (@SignInStep.readline _ _ setup _ false false false _ _ (by decide +kernel) rfl)
      |>.tail (@SignInStep.acquire _ _ setup _ true (by decide +kernel) (by decide +kernel))
      |>.tail (.drain (i := true) (by decide +kernel))
      |>.tail (@SignInStep.print _ _ setup _ true announcement [] (by decide +kernel) rfl nofun
        (ordinary_of_head? (by decide)))
      |>.tail (@SignInStep.readline _ _ setup _ true false false _ _ (by decide +kernel) rfl)
      |>.tail (@SignInStep.completed _ _ setup _ true "C7K2M9QXD".toList false (by decide +kernel))
      |>.tail (@SignInStep.connect _ _ setup _ true true [] (by decide +kernel) rfl rfl
        (by decide +kernel))
      |>.tail (@SignInStep.complete _ _ setup _ true [] (by decide +kernel) rfl)
      |>.tail (@SignInStep.readline _ _ setup _ true true false _ _ (by decide +kernel) rfl)
      |>.tail (@SignInStep.readline _ _ setup _ true true true _ _ (by decide +kernel) rfl)
  exact ⟨_, hrun, by decide +kernel, by decide +kernel⟩

end SignInSample

open SignInSample in
theorem own_sign_in_after_health_check :
    ∃ (s : SignInState Bool) (printed : PrintedLine Bool), s.connected true = some true ∧
      setup.Announced true (s.calls true) printed ∧ printed.command = true := by
  have ⟨s, hs, hended, hdone⟩ := reaches
  have ⟨hconnected, printed, hannounced, hown⟩ := own_sign_in hex_injective hs rfl hended
  exact ⟨s, printed, hconnected, hannounced, hown hdone⟩

end InboxSaas.Provisioner
