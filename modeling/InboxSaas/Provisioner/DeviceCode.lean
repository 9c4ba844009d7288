import InboxSaas.Reasoning.Pattern
import InboxSaas.Provisioner.RequestAuth

/-!
# The device code in a line

`_device_code_from` searches a line of PowerShell's output for the code that Microsoft asks for.
What it finds is the code of the first announcement in the line, with nothing cut off.
-/

namespace InboxSaas.Provisioner

open Reasoning

/-! ## The pattern -/

/-- `\s` of a `str` pattern -/
def isSpace (c : Char) : Bool :=
  (0x09 ≤ c.toNat && c.toNat ≤ 0x0d) || (0x1c ≤ c.toNat && c.toNat ≤ 0x20) || c.toNat = 0x85 ||
    c.toNat = 0xa0 || c.toNat = 0x1680 || (0x2000 ≤ c.toNat && c.toNat ≤ 0x200a) ||
    c.toNat = 0x2028 || c.toNat = 0x2029 || c.toNat = 0x202f || c.toNat = 0x205f || c.toNat = 0x3000

/-- `\w` of a `str` pattern; `str.isalnum` is a parameter. -/
def isWord (isalnum : Char → Bool) (c : Char) : Bool := isalnum c || c = '_'

/-- `[A-Z0-9]` -/
def isCodeChar (c : Char) : Bool := ('A' ≤ c && c ≤ 'Z') || ('0' ≤ c && c ≤ '9')

/-- `['\"]` -/
def isQuote (c : Char) : Bool := c = '\'' || c = '"'

/-- `(?:device )?code\s*(?:is|:)?\s*['\"]?` -/
def introductionPattern : Pattern Char :=
  .seq (.optional (.text "device ".toList)) <|
  .seq (.text "code".toList) <|
  .seq (.star (.unit isSpace)) <|
  .seq (.optional (.alt (.text "is".toList) (.text ":".toList))) <|
  .seq (.star (.unit isSpace)) (.optional (.unit isQuote))

/-- `-[A-Z0-9]{4,}` -/
def codeBlockPattern : Pattern Char := .seq (.text ['-']) (.atLeast 4 (.unit isCodeChar))

/-- `[A-Z0-9]{8,}(?:-[A-Z0-9]{4,})*` -/
def codePattern : Pattern Char := .seq (.atLeast 8 (.unit isCodeChar)) (.star codeBlockPattern)

/-- `\b(?:device )?code\s*(?:is|:)?\s*['\"]?([A-Z0-9]{8,}(?:-[A-Z0-9]{4,})*)` -/
def deviceCodePattern (isalnum : Char → Bool) : Pattern Char :=
  .seq (.boundary (isWord isalnum)) (.seq introductionPattern (.group 1 codePattern))

/-- `_device_code_from` -/
def deviceCodeFrom (isalnum : Char → Bool) (output : PyString) : Option PyString :=
  ((deviceCodePattern isalnum).search output).bind (Cursor.group 1)

/-! ## What it finds -/

def introductions : Language Char :=
  ({"device ".toList} + 1) * ({"code".toList} * (Pattern.anyOf isSpace *
    (({"is".toList} + {":".toList} + 1) * (Pattern.anyOf isSpace * (Pattern.oneOf isQuote + 1)))))

def codeBlocks : Language Char := {['-']} * Pattern.orMore 4 isCodeChar

def deviceCodes : Language Char := Pattern.orMore 8 isCodeChar * KStar.kstar codeBlocks

/-- The line announces the code behind `before`. -/
structure Announces (isalnum : Char → Bool) (line before code rest : PyString) : Prop where
  introduced : ∃ introduction ∈ introductions, line = before ++ introduction ++ code ++ rest ∧
    before.getLast?.any (isWord isalnum) ≠ introduction.head?.any (isWord isalnum)
  code : code ∈ deviceCodes

/-- The code goes on behind what was taken. -/
def GoesOn (rest : PyString) : Prop :=
  (∃ c ∈ rest.head?, isCodeChar c = true) ∨ ∃ block ∈ codeBlocks, block <+: rest

theorem reads_introduction : introductionPattern.Reads introductions :=
  (Pattern.reads_text _).optional.seq <| (Pattern.reads_text _).seq <|
  Pattern.reads_star_unit.seq <| ((Pattern.reads_text _).alt (Pattern.reads_text _)).optional.seq <|
  Pattern.reads_star_unit.seq Pattern.reads_unit.optional

theorem reads_codeBlock : codeBlockPattern.Reads codeBlocks :=
  (Pattern.reads_text _).seq Pattern.reads_atLeast_unit

theorem reads_code : codePattern.Reads deviceCodes :=
  Pattern.reads_atLeast_unit.seq reads_codeBlock.star

theorem introduction_ne_nil {introduction : PyString} (h : introduction ∈ introductions) :
    introduction ≠ [] := by
  obtain ⟨_, _, _, hcode, rfl⟩ := Language.mem_mul.mp h
  obtain ⟨_, rfl, _, _, rfl⟩ := Language.mem_mul.mp hcode
  simp

variable {isalnum : Char → Bool}

/-- Where the pattern matches, a code is announced. -/
theorem matches_deviceCode {before after : PyString} {d : Cursor Char} :
    Pattern.Matches (deviceCodePattern isalnum) ⟨before.reverse, after, []⟩ d ↔
      ∃ introduction ∈ introductions, ∃ code ∈ deviceCodes, ∃ rest,
        after = introduction ++ (code ++ rest) ∧
        before.getLast?.any (isWord isalnum) ≠ introduction.head?.any (isWord isalnum) ∧
        d = ⟨code.reverse ++ (introduction.reverse ++ before.reverse), rest, [(1, code)]⟩ := by
  have hboundary : ∀ introduction ∈ introductions, ∀ rest,
      Cursor.atBoundary (isWord isalnum) ⟨before.reverse, introduction ++ rest, []⟩ = true ↔
        before.getLast?.any (isWord isalnum) ≠ introduction.head?.any (isWord isalnum) := by
    intro introduction hmem rest
    have hhead : (introduction ++ rest).head? = introduction.head? :=
      List.head?_append_of_ne_nil _ (introduction_ne_nil hmem)
    rw [Cursor.atBoundary, List.head?_reverse, hhead, bne_iff_ne]
  rw [deviceCodePattern, Pattern.matches_seq]
  constructor
  · rintro ⟨e, hstart, h⟩
    cases hstart with
    | boundary hat =>
        obtain ⟨e, hintroduction, hcode⟩ := Pattern.matches_seq.mp h
        obtain ⟨introduction, hmem, rest, hafter, rfl⟩ := (reads_introduction _ _).mp hintroduction
        obtain ⟨code, hmem', rest', hafter', rfl⟩ := reads_code.matches_group.mp hcode
        rw [Pattern.after_advance hafter] at hafter'
        change after = introduction ++ rest at hafter
        subst hafter'
        refine ⟨introduction, hmem, code, hmem', rest', hafter, ?_, ?_⟩
        · exact (hboundary _ hmem _).mp (hafter ▸ hat)
        · simp [Cursor.advance, hafter]
  · rintro ⟨introduction, hmem, code, hcode, rest, rfl, hat, rfl⟩
    refine ⟨_, .boundary ((hboundary _ hmem _).mpr hat), Pattern.matches_seq.mpr ⟨_,
      (reads_introduction _ _).mpr ⟨introduction, hmem, _, rfl, rfl⟩, ?_⟩⟩
    refine reads_code.matches_group.mpr ⟨code, hcode, rest, ?_, ?_⟩
    · exact Pattern.after_advance rfl
    · simp [Cursor.advance]

theorem announces_iff {line before code rest : PyString} :
    Announces isalnum line before code rest ↔ ∃ after d, line = before ++ after ∧
      Pattern.Matches (deviceCodePattern isalnum) ⟨before.reverse, after, []⟩ d ∧
      d.group 1 = some code ∧ d.after = rest := by
  simp only [matches_deviceCode]
  constructor
  · rintro ⟨⟨introduction, hmem, rfl, hat⟩, hcode⟩
    refine ⟨introduction ++ (code ++ rest), _, ?_, ⟨introduction, hmem, code, hcode, rest, rfl, hat,
      rfl⟩, rfl, rfl⟩
    simp
  · rintro ⟨after, d, rfl, ⟨introduction, hmem, code', hcode, rest', rfl, hat, rfl⟩, hgroup, hrest⟩
    cases hgroup
    cases hrest
    exact ⟨⟨introduction, hmem, by simp, hat⟩, hcode⟩

theorem deviceCodeFrom_eq_none {line : PyString} : deviceCodeFrom isalnum line = none ↔
    ∀ before code rest, ¬ Announces isalnum line before code rest := by
  rw [deviceCodeFrom]
  constructor
  · intro h before code rest hannounces
    obtain ⟨after, d, hline, hmatches, -, -⟩ := announces_iff.mp hannounces
    cases hsearch : (deviceCodePattern isalnum).search line with
    | none => exact Pattern.search_eq_none.mp hsearch before after hline d hmatches
    | some d' =>
        obtain ⟨before', after', -, hfirst, -⟩ := Pattern.search_eq_some hsearch
        have hmatch := Pattern.mem_run.mp (List.mem_of_head? hfirst)
        obtain ⟨_, -, code', -, _, -, -, rfl⟩ := matches_deviceCode.mp hmatch
        rw [hsearch] at h
        cases h
  · intro h
    have hnone : (deviceCodePattern isalnum).search line = none := by
      rw [Pattern.search_eq_none]
      intro before after hline d hmatches
      obtain ⟨_, _, code, _, rest, _, _, rfl⟩ := matches_deviceCode.mp hmatches
      exact h before code rest (announces_iff.mpr ⟨after, _, hline, hmatches, rfl, rfl⟩)
    rw [hnone]
    rfl

/-- A block of the code moves on. -/
theorem codeBlock_moves {c d : Cursor Char} (h : codeBlockPattern.Matches c d) :
    d.after.length < c.after.length := by
  obtain ⟨_, hmem, rest, hafter, rfl⟩ := (reads_codeBlock _ _).mp h
  obtain ⟨_, rfl, _, _, rfl⟩ := Language.mem_mul.mp hmem
  exact (Cursor.passes_advance hafter).length_lt_iff.mpr (List.cons_ne_nil _ _)

/-- The first match of the code ends where no further character of it comes. -/
theorem stuck_of_head?_code {c d : Cursor Char} (h : (codePattern.run c).head? = some d) :
    (Pattern.unit isCodeChar).Stuck d := by
  rw [codePattern, Pattern.head?_run_seq fun _ _ => Pattern.run_star_ne_nil] at h
  obtain ⟨e, hfirst, hblocks⟩ := Option.bind_eq_some_iff.mp h
  rcases (Pattern.stuck_of_head?_star hblocks).2 with rfl | ⟨e', hlast⟩
  · exact Pattern.stuck_of_head?_seq_star hfirst
  · have hall : ((codeBlockPattern.run e').filter fun d => d.after.length < e'.after.length) =
        codeBlockPattern.run e' := by
      rw [List.filter_eq_self]
      exact fun d hd => decide_eq_true (codeBlock_moves (Pattern.mem_run.mp hd))
    rw [hall, codeBlockPattern, Pattern.atLeast, Pattern.run_seq_assoc] at hlast
    exact Pattern.stuck_of_head?_seq_star hlast

theorem not_goesOn {c d : Cursor Char} (h : (codePattern.run c).head? = some d) :
    ¬ GoesOn d.after := by
  rintro (⟨a, ha, hcode⟩ | ⟨block, hmem, rest, hrest⟩)
  · obtain ⟨rest, hrest⟩ := List.head?_eq_some_iff.mp (Option.mem_def.mp ha)
    have hunit : (Pattern.unit isCodeChar).Matches d (d.advance [a]) :=
      Pattern.matches_unit.mpr ⟨a, rest, hrest, hcode, rfl⟩
    apply stuck_of_head?_code h _ hunit
    have hpasses : d.Passes [a] (d.advance [a]) := Cursor.passes_advance hrest
    exact hpasses.length_lt_iff.mpr (List.cons_ne_nil a [])
  · have hblock : codeBlockPattern.Matches d (d.advance block) :=
      (reads_codeBlock _ _).mpr ⟨block, hmem, rest, hrest.symm, rfl⟩
    exact Pattern.stuck_of_head?_seq_star h _ hblock (codeBlock_moves hblock)

theorem deviceCodeFrom_eq_some {line code : PyString} (h : deviceCodeFrom isalnum line = some code) :
    ∃ before rest, Announces isalnum line before code rest ∧ ¬ GoesOn rest ∧
      ∀ before' code' rest', Announces isalnum line before' code' rest' →
        before.length ≤ before'.length := by
  obtain ⟨d, hsearch, hgroup⟩ := Option.bind_eq_some_iff.mp h
  obtain ⟨before, after, hline, hfirst, hleft⟩ := Pattern.search_eq_some hsearch
  have hmatches := Pattern.mem_run.mp (List.mem_of_head? hfirst)
  refine ⟨before, d.after, announces_iff.mpr ⟨after, d, hline, hmatches, hgroup, rfl⟩, ?_, ?_⟩
  · obtain ⟨e, -, he⟩ := Pattern.head?_of_seq hfirst
    obtain ⟨e', -, hgroup'⟩ := Pattern.head?_of_seq he
    rw [Pattern.run, List.head?_map] at hgroup'
    obtain ⟨d', hd', rfl⟩ := Option.map_eq_some_iff.mp hgroup'
    exact not_goesOn (d := d') hd'
  · intro before' code' rest' hannounces
    obtain ⟨after', d', hline', hmatches', -, -⟩ := announces_iff.mp hannounces
    rcases List.append_eq_append_iff.mp (hline.symm.trans hline') with
      ⟨more, rfl, -⟩ | ⟨more, hbefore, hafter⟩
    · rw [List.length_append]
      exact Nat.le_add_right _ _
    · cases more with
      | nil => rw [hbefore, List.append_nil]
      | cons a between =>
          -- what matches further to the left would have been found first
          rw [hafter] at hmatches'
          exact absurd hmatches' (hleft before' a between hbefore d')

/-- The code in a line is the whole code of the first announcement, and there is none only if the
line announces none. -/
theorem device_code_exact (isalnum : Char → Bool) (line : PyString) :
    (deviceCodeFrom isalnum line = none ↔
      ∀ before code rest, ¬ Announces isalnum line before code rest) ∧
    ∀ code, deviceCodeFrom isalnum line = some code →
      ∃ before rest, Announces isalnum line before code rest ∧ ¬ GoesOn rest ∧
        ∀ before' code' rest', Announces isalnum line before' code' rest' →
          before.length ≤ before'.length :=
  ⟨deviceCodeFrom_eq_none, fun _ => deviceCodeFrom_eq_some⟩

example : deviceCodeFrom Char.isAlphanum
    "To sign in, open the page and enter the code AB12CD34-EF56 to authenticate.".toList =
      some "AB12CD34-EF56".toList := by decide +kernel

end InboxSaas.Provisioner
