import ScriptPool.Proofs.Directive.LineByLine

namespace ScriptPool

open ScriptPool.Text

/-- The same error some lines further down. -/
def DirectiveError.shift (e : DirectiveError) (lines : Nat) : DirectiveError :=
  { e with line := e.line + lines }

/-- The same lines and error, counted on from some line. -/
def LinesOutcome.shift (r : LinesOutcome) (lines : Nat) : LinesOutcome :=
  ⟨r.outputs, r.lineMap.map fun entry => entry.map (· + lines), r.error?.map (·.shift lines)⟩

/-- The script ends before the `PARALLEL` in the line of the error has seen anything but blank
lines. -/
def DirectiveError.EndsWaiting (e : DirectiveError) (lines : List String) : Prop :=
  e.fault = .missingCall ∧ ∀ line ∈ lines.drop e.line, IsBlankLine line

namespace ScriptSettings

variable {s : ScriptSettings} {line : String} {lines a b : List String}
  {outputs : List OutputLine} {lineMap : List (Option Nat)} {output : OutputLine}
  {asked? asked?' : Option Nat} {number : Nat} {e : DirectiveError}

theorem instrumentCall_shift (s : ScriptSettings) (asked number k : Nat) (line : List Char) :
    s.instrumentCall (asked + k) (number + k) line =
      (s.instrumentCall asked number line).mapError (·.shift k) := by
  unfold instrumentCall
  dsimp only
  split
  · rfl
  · rfl
  · split
    · rfl
    · rfl

theorem instrumentLine_shift (s : ScriptSettings) (asked? : Option Nat) (number k : Nat)
    (line : String) : s.instrumentLine (asked?.map (· + k)) (number + k) line =
      ((s.instrumentLine asked? number line).map fun step => (step.1, step.2.map (· + k))).mapError
        (·.shift k) := by
  cases asked? with
  | some asked =>
      simp only [instrumentLine, Option.map_some, instrumentCall_shift]
      split
      · rfl
      · cases s.instrumentCall asked number line.toList with
        | error | ok => rfl
  | none =>
      simp only [instrumentLine, Option.map_none]
      split
      · rfl
      · split
        · rfl
        · rfl
        · rfl

theorem instrumentLines_shift (s : ScriptSettings) (asked? : Option Nat) (number k : Nat)
    (lines : List String) : s.instrumentLines (asked?.map (· + k)) (number + k) lines =
      (s.instrumentLines asked? number lines).shift k := by
  induction lines generalizing asked? number with
  | nil =>
      cases asked? with
      | none | some => rfl
  | cons line lines ih =>
      rw [instrumentLines, instrumentLines, instrumentLine_shift]
      cases s.instrumentLine asked? number line with
      | error e => rfl
      | ok step =>
          have hrest := ih step.2 (number + 1)
          rw [Nat.add_right_comm] at hrest
          simp only [Except.map, Except.mapError, hrest]
          rfl

theorem instrumentLines_append (h : s.instrumentLines asked? number a = ⟨outputs, lineMap, none⟩)
    (b : List String) : s.instrumentLines asked? number (a ++ b) =
      ⟨outputs ++ (s.instrumentLines none (number + a.length) b).outputs,
        lineMap ++ (s.instrumentLines none (number + a.length) b).lineMap,
        (s.instrumentLines none (number + a.length) b).error?⟩ := by
  induction a generalizing asked? number outputs lineMap with
  | nil =>
      cases asked? with
      | none =>
          cases h
          rfl
      | some asked => cases h
  | cons line a ih =>
      rcases instrumentLines_cons_cases h with
        ⟨e, -, -, ⟨⟩⟩ | ⟨output, asked?', outputs', lineMap', hline, hrest, rfl, rfl⟩
      rw [List.cons_append, instrumentLines, hline]
      simp only [ih hrest, List.length_cons, List.cons_append, Nat.add_assoc, Nat.add_comm 1]

theorem line_of_instrumentLine (h : s.instrumentLine asked? number line = .error e) :
    asked? = some e.line ∨ e.line = number := by
  cases asked? with
  | some asked =>
      simp only [instrumentLine, instrumentCall] at h
      split at h
      · cases h
      · split at h
        · cases h
          exact .inr rfl
        · cases h
          exact .inl rfl
        · split at h
          · cases h
            exact .inr rfl
          · cases h
  | none =>
      simp only [instrumentLine] at h
      split at h
      · cases h
      · split at h
        · cases h
          exact .inr rfl
        · cases h
        · cases h

theorem LineStep.waiting {asked : Nat} (h : s.LineStep number line asked? output (some asked)) :
    asked? = some asked ∧ IsBlankLine line ∨ asked = number := by
  cases h with
  | waits _ hblank => exact .inl ⟨rfl, hblank⟩
  | asks _ => exact .inr rfl

theorem line_of_instrumentLines (h : s.instrumentLines asked? number lines = ⟨outputs, lineMap, some e⟩) :
    asked? = some e.line ∨ number ≤ e.line ∧ e.line < number + lines.length := by
  induction lines generalizing asked? number outputs lineMap with
  | nil =>
      cases asked? with
      | none => cases h
      | some asked =>
          cases h
          exact .inl rfl
  | cons line lines ih =>
      rw [List.length_cons]
      rcases instrumentLines_cons_cases h with
        ⟨e, hline, -, ⟨⟩⟩ | ⟨output, asked?', outputs', lineMap', hline, hrest, -, -⟩
      · exact (line_of_instrumentLine hline).imp_right fun heq => by omega
      · rcases ih hrest with hasked | hlater
        · rw [hasked] at hline
          exact (instrumentLine_goes hline).step.waiting.imp And.left fun heq => by omega
        · exact .inr (by omega)

theorem instrumentLines_append_error
    (h : s.instrumentLines asked? number a = ⟨outputs, lineMap, some e⟩)
    (hwaiting : ¬ (e.fault = .missingCall ∧
      ∀ line ∈ a.drop (e.line + 1 - number), IsBlankLine line))
    (hasked : ∀ asked, asked? = some asked → asked < number) (b : List String) :
    (s.instrumentLines asked? number (a ++ b)).error? = some e := by
  induction a generalizing asked? number outputs lineMap with
  | nil =>
      cases asked? with
      | none => cases h
      | some asked =>
          cases h
          exact absurd ⟨rfl, by simp⟩ hwaiting
  | cons line a ih =>
      rw [List.cons_append, instrumentLines]
      rcases instrumentLines_cons_cases h with
        ⟨e, hline, -, ⟨⟩⟩ | ⟨output, asked?', outputs', lineMap', hline, hrest, -, -⟩
      · rw [hline]
      · have hstep := (instrumentLine_goes hline).step
        have hnext : ∀ asked, asked?' = some asked → asked < number + 1 := by
          rintro asked rfl
          rcases hstep.waiting with ⟨hbefore, -⟩ | rfl
          · exact Nat.lt_succ_of_lt (hasked asked hbefore)
          · exact Nat.lt_succ_self asked
        rw [hline]
        refine ih hrest ?_ hnext
        rintro ⟨hmissing, hblank⟩
        refine hwaiting ⟨hmissing, ?_⟩
        -- The lines behind the one of the error are the same, and if that one came before this
        -- line, this line is blank as well.
        rcases line_of_instrumentLines hrest with hsome | ⟨hlater, -⟩
        · subst hsome
          rcases hstep.waiting with ⟨hbefore, hthis⟩ | hhere
          · have hlt := hasked _ hbefore
            rw [Nat.sub_eq_zero_of_le (by omega), List.drop_zero] at hblank ⊢
            exact List.forall_mem_cons.mpr ⟨hthis, hblank⟩
          · rw [hhere, Nat.add_sub_cancel_left, List.drop_one]
            rw [hhere, Nat.sub_self, List.drop_zero] at hblank
            exact hblank
        · rw [Nat.succ_sub (by omega), List.drop_succ_cons]
          rwa [Nat.add_sub_add_right] at hblank

end ScriptSettings

namespace Instrumented

variable {s : ScriptSettings} {lines a b : List String} {script : Instrumented}
  {e : DirectiveError}

theorem ofLines_eq_ok_iff : ofLines s lines = .ok script ↔ ∃ lineMap,
    s.instrumentLines none 1 lines = ⟨script.lines, lineMap, none⟩ ∧
      script = ⟨s.headerLine, script.lines, none :: lineMap⟩ := by
  unfold ofLines
  constructor
  · intro h
    split at h
    · next outputs lineMap houtputs =>
        cases h
        exact ⟨lineMap, houtputs, rfl⟩
    · cases h
  · rintro ⟨lineMap, houtputs, hscript⟩
    rw [houtputs, hscript]

theorem ofLines_eq_error_iff : ofLines s lines = .error e ↔
    ∃ outputs lineMap, s.instrumentLines none 1 lines = ⟨outputs, lineMap, some e⟩ := by
  unfold ofLines
  constructor
  · intro h
    split at h
    · cases h
    · next outputs lineMap e houtputs =>
        cases h
        exact ⟨outputs, lineMap, houtputs⟩
  · rintro ⟨outputs, lineMap, houtputs⟩
    rw [houtputs]

theorem instrumentLines_rest (s : ScriptSettings) (k : Nat) (lines : List String) :
    s.instrumentLines none (1 + k) lines = (s.instrumentLines none 1 lines).shift k :=
  s.instrumentLines_shift none 1 k lines

/-- A script in two parts is instrumented part by part. If the first part has no error, the second
one is instrumented as if it stood alone, and an error in it counts the lines of the first part. An
error in the first part stays the error of the script, unless this part ends while its last
`PARALLEL` waits for a call. Every error is in one of the lines. -/
theorem instrumented_in_parts (s : ScriptSettings) (a b : List String) :
    (∀ first, ofLines s a = .ok first →
      (∀ second, ofLines s b = .ok second → ∃ script, ofLines s (a ++ b) = .ok script ∧
        script.texts = first.texts ++ second.texts.tail ∧
        script.directives = first.directives + second.directives) ∧
      ∀ e, ofLines s b = .error e → ofLines s (a ++ b) = .error (e.shift a.length)) ∧
    (∀ e, ofLines s a = .error e → ¬ e.EndsWaiting a → ofLines s (a ++ b) = .error e) ∧
    ∀ e, ofLines s a = .error e → 1 ≤ e.line ∧ e.line ≤ a.length := by
  refine ⟨fun first hfirst => ?_, fun e he hends => ?_, fun e he => ?_⟩
  · obtain ⟨lineMap, houtputs, hheader⟩ := ofLines_eq_ok_iff.mp hfirst
    have happend := ScriptSettings.instrumentLines_append houtputs b
    rw [instrumentLines_rest] at happend
    constructor
    · intro second hsecond
      obtain ⟨lineMap', hrest, -⟩ := ofLines_eq_ok_iff.mp hsecond
      rw [hrest] at happend
      refine ⟨⟨s.headerLine, first.lines ++ second.lines, _⟩,
        ofLines_eq_ok_iff.mpr ⟨_, happend, rfl⟩, ?_, ?_⟩
      · rw [hheader]
        simp [texts]
      · simp [directives]
    · intro e he
      obtain ⟨outputs, lineMap', hrest⟩ := ofLines_eq_error_iff.mp he
      rw [hrest] at happend
      exact ofLines_eq_error_iff.mpr ⟨_, _, happend⟩
  · obtain ⟨outputs, lineMap, ha⟩ := ofLines_eq_error_iff.mp he
    have hsame := ScriptSettings.instrumentLines_append_error ha hends (by simp) b
    exact ofLines_eq_error_iff.mpr ⟨(s.instrumentLines none 1 (a ++ b)).outputs,
      (s.instrumentLines none 1 (a ++ b)).lineMap, by rw [← hsame]⟩
  · obtain ⟨outputs, lineMap, ha⟩ := ofLines_eq_error_iff.mp he
    rcases ScriptSettings.line_of_instrumentLines ha with hnone | hline
    · cases hnone
    · omega

/-- A `PARALLEL` at the end of the first part waits for its call, which may be in the second one. -/
example : (ofLines .standard ["--# PARALLEL"]).isOk = false ∧
    (ofLines .standard (["--# PARALLEL"] ++ ["r = f()"])).isOk = true := by
  decide +kernel

end Instrumented

end ScriptPool
