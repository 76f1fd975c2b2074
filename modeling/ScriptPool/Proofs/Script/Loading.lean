import ScriptPool.Proofs.Script.Adjustment
import ScriptPool.Proofs.Script.ChunkGrammar

namespace ScriptPool

open ScriptPool.Text

/-- The statements on lines, in order; lines without a statement are left out. -/
def statementsOf (lines : List (List Char)) : List Statement :=
  lines.filterMap fun line => (Statement.ofLine? line).toOption.join

section Runs

variable {σ : Type} (library : Library) (runtimes : Runtimes σ) (c : ContextId)

/-- Statements are carried out one after another. -/
inductive Statement.RunAll : List Statement → Engine × σ → Engine × σ → Prop where
  | nil (s : Engine × σ) : RunAll [] s s
  | cons {statement : Statement} {statements : List Statement} {s s₁ s' : Engine × σ}
      (hfirst : statement.Runs library runtimes c s s₁) (hrest : RunAll statements s₁ s') :
      RunAll (statement :: statements) s s'

/-- The lines before one of them are carried out, and the statement on this line fails. -/
inductive StopsAt (lines : List (List Char)) (s : Engine × σ) (k : Nat) (failure : Failure)
    (s' : Engine × σ) : Prop where
  | intro {line : List Char} {statement : Statement} {s₁ : Engine × σ}
      (hline : lines[k]? = some line) (hreads : Statement.OnLine line (some statement))
      (hbefore : Statement.RunAll library runtimes c (statementsOf (lines.take k)) s s₁)
      (hfails : statement.Fails library runtimes c s₁ failure s') : StopsAt lines s k failure s'

end Runs

variable {σ : Type} {library : Library} {runtimes : Runtimes σ} {c : ContextId}
  {s s₁ s' : Engine × σ} {lines lines' : List (List Char)} {line : List Char}
  {statement : Statement} {failure : Failure} {name : String} {number : Nat}

theorem statementsOf_cons_none (h : Statement.OnLine line none) (lines : List (List Char)) :
    statementsOf (line :: lines) = statementsOf lines := by
  rw [← Statement.ofLine?_eq_ok_iff] at h
  rw [statementsOf, List.filterMap_cons_none (by rw [h]; rfl), statementsOf]

theorem statementsOf_cons_some (h : Statement.OnLine line (some statement))
    (lines : List (List Char)) :
    statementsOf (line :: lines) = statement :: statementsOf lines := by
  rw [← Statement.ofLine?_eq_ok_iff] at h
  rw [statementsOf, List.filterMap_cons_some (by rw [h]; rfl), statementsOf]

theorem Statement.runAll_append_iff {statements statements' : List Statement} :
    Statement.RunAll library runtimes c (statements ++ statements') s s' ↔
      ∃ s₁, Statement.RunAll library runtimes c statements s s₁ ∧
        Statement.RunAll library runtimes c statements' s₁ s' := by
  induction statements generalizing s with
  | nil =>
      constructor
      · intro h
        exact ⟨s, .nil s, h⟩
      · rintro ⟨_, ⟨⟩, h⟩
        exact h
  | cons statement statements ih =>
      constructor
      · rintro (_ | ⟨hfirst, hrest⟩)
        obtain ⟨s₁, h, h'⟩ := ih.mp hrest
        exact ⟨s₁, .cons hfirst h, h'⟩
      · rintro ⟨s₁, _ | ⟨hfirst, hrest⟩, h'⟩
        exact .cons hfirst (ih.mpr ⟨s₁, hrest, h'⟩)

theorem StopsAt.cons_none (hline : Statement.OnLine line none) {k : Nat} :
    StopsAt library runtimes c (line :: lines) s (k + 1) failure s' ↔
      StopsAt library runtimes c lines s k failure s' := by
  constructor
  · rintro ⟨hget, hreads, hbefore, hfails⟩
    rw [List.take_succ_cons, statementsOf_cons_none hline] at hbefore
    exact ⟨hget, hreads, hbefore, hfails⟩
  · rintro ⟨hget, hreads, hbefore, hfails⟩
    rw [← statementsOf_cons_none hline, ← List.take_succ_cons] at hbefore
    exact ⟨hget, hreads, hbefore, hfails⟩

theorem StopsAt.cons_some (hline : Statement.OnLine line (some statement)) {k : Nat} :
    StopsAt library runtimes c (line :: lines) s (k + 1) failure s' ↔
      ∃ s₁, statement.Runs library runtimes c s s₁ ∧
        StopsAt library runtimes c lines s₁ k failure s' := by
  constructor
  · rintro ⟨hget, hreads, hbefore, hfails⟩
    rw [List.take_succ_cons, statementsOf_cons_some hline] at hbefore
    cases hbefore with
    | cons hfirst hbefore => exact ⟨_, hfirst, hget, hreads, hbefore, hfails⟩
  · rintro ⟨s₁, hfirst, hget, hreads, hbefore, hfails⟩
    have hbefore := Statement.RunAll.cons hfirst hbefore
    rw [← statementsOf_cons_some hline, ← List.take_succ_cons] at hbefore
    exact ⟨hget, hreads, hbefore, hfails⟩

theorem StopsAt.not_zero (hline : Statement.OnLine line none) :
    ¬ StopsAt library runtimes c (line :: lines) s 0 failure s' := by
  rintro ⟨hget, hreads, -, -⟩
  cases hget
  cases hline.unique hreads

theorem StopsAt.zero_iff (hline : Statement.OnLine line (some statement)) :
    StopsAt library runtimes c (line :: lines) s 0 failure s' ↔
      statement.Fails library runtimes c s failure s' := by
  constructor
  · rintro ⟨hget, hreads, hbefore, hfails⟩
    cases hget
    cases hline.unique hreads
    cases hbefore
    exact hfails
  · intro hfails
    exact ⟨rfl, hline, .nil s, hfails⟩

theorem comes_runLines_cons_iff {chunk : String} {lines : List (Nat × Statement)}
    {outcome : Except Failure Unit} :
    Comes library runtimes c (Chunk.runLines chunk ((number, statement) :: lines)) s outcome s' ↔
      (∃ s₁, statement.Runs library runtimes c s s₁ ∧
        Comes library runtimes c (Chunk.runLines chunk lines) s₁ outcome s') ∨
      ∃ failure, statement.Fails library runtimes c s failure s' ∧
        outcome = .error (failure.mapError fun e => .load chunk number e.message) := by
  rw [Chunk.runLines, Program.bind_eq, comes_bind_iff]
  constructor
  · rintro (⟨⟨⟩, s₁, h, hrest⟩ | ⟨failure, rfl, h⟩)
    · obtain ⟨inner, h, heq⟩ := comes_mapError_iff.mp h
      rcases statement.comes_program_iff.mp h with ⟨rfl, hruns⟩ | ⟨_, rfl, -⟩
      · exact .inl ⟨s₁, hruns, hrest⟩
      · cases heq
    · obtain ⟨inner, h, heq⟩ := comes_mapError_iff.mp h
      rcases statement.comes_program_iff.mp h with ⟨rfl, -⟩ | ⟨failure', rfl, hfails⟩
      · cases heq
      · cases heq
        exact .inr ⟨failure', hfails, rfl⟩
  · rintro (⟨s₁, hruns, hrest⟩ | ⟨failure, hfails, rfl⟩)
    · exact .inl ⟨(), s₁, comes_mapError_iff.mpr
        ⟨_, statement.comes_program_iff.mpr (.inl ⟨rfl, hruns⟩), rfl⟩, hrest⟩
    · exact .inr ⟨_, rfl, comes_mapError_iff.mpr
        ⟨_, statement.comes_program_iff.mpr (.inr ⟨failure, rfl, hfails⟩), rfl⟩⟩

/-- Reading all lines leaves the statements on them to be run; they are run to the end or up to the
first that fails. -/
theorem comes_runLines_iff {found : List (Nat × Statement)}
    (hread : Chunk.readLines name number lines = .ok found) {outcome : Except Failure Unit} :
    Comes library runtimes c (Chunk.runLines name found) s outcome s' ↔
      (outcome = .ok () ∧ Statement.RunAll library runtimes c (statementsOf lines) s s') ∨
      ∃ k failure, StopsAt library runtimes c lines s k failure s' ∧
        outcome = .error (failure.mapError fun e => .load name (number + k) e.message) := by
  induction lines generalizing number found s with
  | nil =>
      cases hread
      constructor
      · rintro ⟨⟩
        exact .inl ⟨rfl, .nil _⟩
      · rintro (⟨rfl, ⟨⟩⟩ | ⟨k, failure, ⟨⟨⟩⟩, -⟩)
        exact .done () _
  | cons line lines ih =>
      rw [Chunk.readLines] at hread
      split at hread
      · cases hread
      next found' hline =>
      rw [Statement.ofLine?_eq_ok_iff] at hline
      split at hread
      · cases hread
      next more hmore =>
      -- A line without a statement is counted like any other, so places move on by one either way.
      have hshift (k : Nat) : number + 1 + k = number + (k + 1) := by omega
      cases found' with
      | none =>
          cases hread
          rw [ih hmore, statementsOf_cons_none hline]
          refine or_congr_right ⟨?_, ?_⟩
          · rintro ⟨k, failure, hstops, rfl⟩
            exact ⟨k + 1, failure, (StopsAt.cons_none hline).mpr hstops, by rw [hshift]⟩
          · rintro ⟨k, failure, hstops, rfl⟩
            cases k with
            | zero => exact (StopsAt.not_zero hline hstops).elim
            | succ k => exact ⟨k, failure, (StopsAt.cons_none hline).mp hstops, by rw [hshift]⟩
      | some statement =>
          cases hread
          rw [comes_runLines_cons_iff, statementsOf_cons_some hline]
          constructor
          · rintro (⟨s₁, hruns, hrest⟩ | ⟨failure, hfails, rfl⟩)
            · rcases (ih hmore).mp hrest with ⟨rfl, hall⟩ | ⟨k, failure, hstops, rfl⟩
              · exact .inl ⟨rfl, .cons hruns hall⟩
              · exact .inr ⟨k + 1, failure, (StopsAt.cons_some hline).mpr ⟨s₁, hruns, hstops⟩,
                  by rw [hshift]⟩
            · exact .inr ⟨0, failure, (StopsAt.zero_iff hline).mpr hfails, rfl⟩
          · rintro (⟨rfl, _ | ⟨hruns, hall⟩⟩ | ⟨k, failure, hstops, rfl⟩)
            · exact .inl ⟨_, hruns, (ih hmore).mpr (.inl ⟨rfl, hall⟩)⟩
            · cases k with
              | zero => exact .inr ⟨failure, (StopsAt.zero_iff hline).mp hstops, rfl⟩
              | succ k =>
                  obtain ⟨s₁, hruns, hstops⟩ := (StopsAt.cons_some hline).mp hstops
                  exact .inl ⟨s₁, hruns, (ih hmore).mpr (.inr ⟨k, failure, hstops, by rw [hshift]⟩)⟩

theorem Statement.accepts_iff :
    Statement.accepts line = true ↔ ∃ found, Statement.OnLine line found := by
  simp only [← Statement.ofLine?_eq_ok_iff]
  rw [Statement.accepts]
  cases Statement.ofLine? line with
  | ok found => exact iff_of_true rfl ⟨found, rfl⟩
  | error fault =>
      refine iff_of_false Bool.false_ne_true ?_
      rintro ⟨found, heq⟩
      cases heq

theorem Chunk.readLines_of_readable (h : ∀ line ∈ lines, ∃ found, Statement.OnLine line found)
    (name : String) (number : Nat) : ∃ found, Chunk.readLines name number lines = .ok found := by
  have hcases := Chunk.readLines_cases name number lines
  cases hread : Chunk.readLines name number lines with
  | ok found => exact ⟨found, rfl⟩
  | error e =>
      rw [hread] at hcases
      obtain ⟨before, line, message, hfails, -⟩ := hcases
      obtain ⟨after, rfl⟩ := hfails.split
      obtain ⟨found, hfound⟩ := h line (by simp)
      exact absurd hfound (hfails.fails found)

theorem Chunk.exists_failsFirst (h : ∃ line ∈ lines, ∀ found, ¬ Statement.OnLine line found) :
    ∃ before line, Chunk.FailsFirst lines before line := by
  obtain ⟨line, hmem, hfails⟩ := h
  have hcases := Chunk.readLines_cases "" 1 lines
  cases hread : Chunk.readLines "" 1 lines with
  | ok found =>
      rw [hread] at hcases
      obtain ⟨found, hfound⟩ := hcases.readable line hmem
      exact absurd hfound (hfails found)
  | error e =>
      rw [hread] at hcases
      obtain ⟨before, line, message, hfails, -⟩ := hcases
      exact ⟨before, line, hfails⟩

theorem Chunk.FailsFirst.readLines {before : List (List Char)}
    (h : Chunk.FailsFirst lines before line) (name : String) (number : Nat) :
    ∃ fault, Statement.ofLine? line = .error fault ∧ Chunk.readLines name number lines =
      .error (.load name (number + before.length) fault.message) := by
  obtain ⟨⟨after, rfl⟩, hreadable, hfails⟩ := h
  cases hline : Statement.ofLine? line with
  | ok found => exact absurd (Statement.ofLine?_eq_ok_iff.mp hline) (hfails found)
  | error fault =>
      refine ⟨fault, rfl, ?_⟩
      induction before generalizing number with
      | nil =>
          rw [List.nil_append, Chunk.readLines, hline]
          rfl
      | cons first before ih =>
          rw [List.forall_mem_cons] at hreadable
          obtain ⟨found, hfound⟩ := hreadable.1
          rw [← Statement.ofLine?_eq_ok_iff] at hfound
          have hnumber : number + 1 + before.length = number + (before.length + 1) := by omega
          rw [List.cons_append, Chunk.readLines, hfound]
          dsimp only
          rw [ih (number + 1) hreadable.2, List.length_cons, hnumber]

theorem Statement.Fails.kinds (h : statement.Fails library runtimes c s failure s') :
    (∃ e, failure = .script e) ∨ ∃ text, failure = .panic text := by
  have hcomes := (statement.comes_program_iff).mpr (.inr ⟨failure, rfl, h⟩)
  rcases hcomes.failsWith statement.program_scripted with ⟨e, rfl, -⟩ | hpanic
  · exact .inl ⟨e, rfl⟩
  · exact .inr hpanic

theorem Execution.loadCode_of_readLines {chunk source : String} {found : List (Nat × Statement)}
    (hread : Chunk.readLines chunk 1 (Text.lines source.toList) = .ok found) :
    Execution.loadCode chunk source = (Chunk.runLines chunk found).bind fun _ => .done [] := by
  rw [Execution.loadCode, Chunk.parse, hread]
  rfl

theorem Execution.comesTo_load_iff {chunk source : String} {result : Except Failure (List Value)}
    (h : ∀ line ∈ Text.lines source.toList, ∃ found, Statement.OnLine line found) :
    (Execution.load c chunk source).ComesTo library runtimes s result s' ↔
      (result = .ok [] ∧ Statement.RunAll library runtimes c
        (statementsOf (Text.lines source.toList)) s s') ∨
      ∃ k failure, StopsAt library runtimes c (Text.lines source.toList) s k failure s' ∧
        ((∃ e, failure = .script e ∧ result = .error (.script (.load chunk (k + 1) e.message))) ∨
          ∃ text, failure = .panic text ∧ result = .error (.panic text)) := by
  obtain ⟨found, hread⟩ := Chunk.readLines_of_readable h chunk 1
  rw [Execution.load, Execution.loadCode_of_readLines hread, Execution.comesTo_iff]
  simp only [comes_bind_iff]
  constructor
  · rintro ⟨outcome, ⟨⟨⟩, s₁, hrun, hdone⟩ | ⟨failure, rfl, hrun⟩, rfl⟩
    · rcases (comes_runLines_iff hread).mp hrun with ⟨-, hall⟩ | ⟨_, _, -, heq⟩
      · cases hdone
        exact .inl ⟨rfl, hall⟩
      · cases heq
    · rcases (comes_runLines_iff hread).mp hrun with ⟨heq, -⟩ | ⟨k, failure', hstops, heq⟩
      · cases heq
      · cases heq
        rw [Nat.add_comm 1 k]
        refine .inr ⟨k, failure', hstops, ?_⟩
        rcases hstops with ⟨-, -, -, hfails⟩
        rcases hfails.kinds with ⟨e, rfl⟩ | ⟨text, rfl⟩
        · exact .inl ⟨e, rfl, rfl⟩
        · exact .inr ⟨text, rfl, rfl⟩
  · rintro (⟨rfl, hall⟩ | ⟨k, failure, hstops, hresult⟩)
    · have hrun := (comes_runLines_iff hread).mpr (.inl ⟨rfl, hall⟩)
      exact ⟨.ok [], .inl ⟨(), s', hrun, .done [] s'⟩, rfl⟩
    · have hrun := (comes_runLines_iff hread).mpr (.inr ⟨k, failure, hstops, rfl⟩)
      refine ⟨_, .inr ⟨_, rfl, hrun⟩, ?_⟩
      rw [Nat.add_comm 1 k]
      rcases hresult with ⟨e, rfl, rfl⟩ | ⟨text, rfl, rfl⟩
      · rfl
      · rfl

theorem Execution.step_load_of_failsFirst {chunk source : String} {before : List (List Char)}
    (h : Chunk.FailsFirst (Text.lines source.toList) before line) :
    ∃ fault, Statement.ofLine? line = .error fault ∧ ∀ e,
      (Execution.load c chunk source).step library e =
        .ends (.returned (.errored (.load chunk (before.length + 1) fault.message))) := by
  obtain ⟨fault, hfault, hread⟩ := h.readLines chunk 1
  refine ⟨fault, hfault, fun e => ?_⟩
  rw [Execution.load, Execution.loadCode, Chunk.parse, hread, Nat.add_comm]
  rfl

/-- A text is loaded without an error if its lines can be read and their statements are carried
out. -/
theorem Execution.comesTo_load_ok_iff {chunk source : String} :
    (Execution.load c chunk source).ComesTo library runtimes s (.ok []) s' ↔
      (∀ line ∈ Text.lines source.toList, ∃ found, Statement.OnLine line found) ∧
        Statement.RunAll library runtimes c (statementsOf (Text.lines source.toList)) s s' := by
  -- A text with a line that cannot be read is over at once, and with an error.
  by_cases h : ∀ line ∈ Text.lines source.toList, ∃ found, Statement.OnLine line found
  · rw [Execution.comesTo_load_iff h]
    constructor
    · rintro (⟨-, hall⟩ | ⟨_, _, -, ⟨_, -, heq⟩ | ⟨_, -, heq⟩⟩)
      · exact ⟨h, hall⟩
      · cases heq
      · cases heq
    · rintro ⟨-, hall⟩
      exact .inl ⟨rfl, hall⟩
  · refine iff_of_false ?_ fun hall => h hall.1
    push Not at h
    obtain ⟨before, line, hfails⟩ := Chunk.exists_failsFirst h
    obtain ⟨fault, -, hstep⟩ := Execution.step_load_of_failsFirst hfails
    rw [Execution.comesTo_iff_of_ends (hstep s.1)]
    rintro ⟨heq, -⟩
    cases heq

theorem Text.dropReturn_append_return (cs : List Char) : dropReturn (cs ++ ['\r']) = cs := by
  simp [dropReturn]

/-- Lines that end in a carriage return and a line feed are those of what they make up, carriage
returns at their own ends included. -/
theorem Text.lines_flatMap_return {texts : List (List Char)} (h : ∀ text ∈ texts, '\n' ∉ text) :
    Text.lines (texts.flatMap (· ++ ['\r', '\n'])) = texts := by
  induction texts with
  | nil => rfl
  | cons text texts ih =>
      rw [List.forall_mem_cons] at h
      have hbreak : '\n' ∉ text ++ ['\r'] := by simp [h.1]
      have hcut : (text :: texts).flatMap (· ++ ['\r', '\n']) =
          (text ++ ['\r']) ++ '\n' :: texts.flatMap (· ++ ['\r', '\n']) := by simp
      rw [hcut, Text.lines_append hbreak, Text.dropReturn_append_return, ih h.2]

theorem Text.not_mem_of_mem_lines {cs line : List Char} (h : line ∈ Text.lines cs) :
    '\n' ∉ line := by
  obtain ⟨piece, hpiece, hsub⟩ := Text.mem_finishLines h
  exact fun hmem => (Text.mem_of_mem_pieces hpiece).2 (hsub hmem)

theorem Text.exists_lines_eq {lines : List (List Char)} (h : ∀ line ∈ lines, '\n' ∉ line) :
    ∃ source : String, Text.lines source.toList = lines := by
  refine ⟨String.ofList (lines.flatMap (· ++ ['\r', '\n'])), ?_⟩
  rw [String.toList_ofList]
  exact Text.lines_flatMap_return h

theorem Text.exists_lines_take (source : String) (k : Nat) :
    ∃ head : String, Text.lines head.toList = (Text.lines source.toList).take k :=
  Text.exists_lines_eq fun _ hmem => Text.not_mem_of_mem_lines (List.mem_of_mem_take hmem)

theorem Text.exists_lines_append (a b : String) :
    ∃ both : String, Text.lines both.toList = Text.lines a.toList ++ Text.lines b.toList :=
  Text.exists_lines_eq fun _ hmem =>
    (List.mem_append.mp hmem).elim Text.not_mem_of_mem_lines Text.not_mem_of_mem_lines

section Parts

variable (library runtimes c)

/-- The lines of a text before one of them are loaded, and the statement on this line fails. -/
inductive LoadStopsAt (source : String) (s : Engine × σ) (k : Nat) (failure : Failure)
    (s' : Engine × σ) : Prop where
  | intro {line : List Char} {statement : Statement} {s₁ : Engine × σ}
      (hline : (Text.lines source.toList)[k]? = some line)
      (hreads : Statement.OnLine line (some statement))
      (hbefore : ∀ chunk head : String,
        Text.lines head.toList = (Text.lines source.toList).take k →
        (Execution.load c chunk head).ComesTo library runtimes s (.ok []) s₁)
      (hfails : statement.Fails library runtimes c s₁ failure s') :
      LoadStopsAt source s k failure s'

end Parts

theorem loadStopsAt_iff {source : String} {k : Nat}
    (h : ∀ line ∈ Text.lines source.toList, ∃ found, Statement.OnLine line found) :
    LoadStopsAt library runtimes c source s k failure s' ↔
      StopsAt library runtimes c (Text.lines source.toList) s k failure s' := by
  constructor
  · rintro ⟨hline, hreads, hbefore, hfails⟩
    obtain ⟨head, hhead⟩ := Text.exists_lines_take source k
    have hload := Execution.comesTo_load_ok_iff.mp (hbefore "" head hhead)
    rw [hhead] at hload
    exact ⟨hline, hreads, hload.2, hfails⟩
  · rintro ⟨hline, hreads, hbefore, hfails⟩
    refine ⟨hline, hreads, fun chunk head hhead => ?_, hfails⟩
    rw [Execution.comesTo_load_ok_iff, hhead]
    exact ⟨fun line hmem => h line (List.mem_of_mem_take hmem), hbefore⟩

theorem Execution.comesTo_load_append_iff {both a b : String}
    (h : Text.lines both.toList = Text.lines a.toList ++ Text.lines b.toList)
    (chunk chunk₁ chunk₂ : String) :
    (Execution.load c chunk both).ComesTo library runtimes s (.ok []) s' ↔
      ∃ s₁, (Execution.load c chunk₁ a).ComesTo library runtimes s (.ok []) s₁ ∧
        (Execution.load c chunk₂ b).ComesTo library runtimes s₁ (.ok []) s' := by
  simp only [Execution.comesTo_load_ok_iff]
  rw [h, statementsOf, List.filterMap_append, Statement.runAll_append_iff, List.forall_mem_append]
  constructor
  · rintro ⟨⟨ha, hb⟩, s₁, hfirst, hrest⟩
    exact ⟨s₁, ⟨ha, hfirst⟩, hb, hrest⟩
  · rintro ⟨s₁, ⟨ha, hfirst⟩, hb, hrest⟩
    exact ⟨⟨ha, hb⟩, s₁, hfirst, hrest⟩

/-- The expressions of a statement. -/
def Statement.exprs : Statement → List Expr
  | .assign _ exprs => exprs
  | .call expr => [expr]

theorem Statement.Fails.callSteps (h : statement.Fails library runtimes c s failure s') :
    Relation.ReflTransGen (Expr.CallStep library runtimes c statement.exprs) s s' := by
  cases statement with
  | assign targets exprs => exact Expr.EvaluatesAll.callSteps h
  | call expr => exact Expr.EvaluatesAll.callSteps (.first h)

/-- Loading a text fails cleanly. If a line cannot be read, the error is that of the first such
line, and loading is over before anything is done. Otherwise the statements are carried out up to
the first that fails; its line is in the error, the lines before it have been loaded, it has done
nothing but the calls in its expressions, and nothing follows. A text that fails nowhere is loaded
like its parts, one after another. -/
theorem loading_fails_cleanly {σ : Type} (library : Library) (runtimes : Runtimes σ) (c : ContextId)
    (chunk source : String) :
    ((∃ line ∈ Text.lines source.toList, ∀ found, ¬ Statement.OnLine line found) →
      ∃ before line fault, Chunk.FailsFirst (Text.lines source.toList) before line ∧
        Statement.ofLine? line = .error fault ∧
        (∀ e, (Execution.load c chunk source).step library e =
          .ends (.returned (.errored (.load chunk (before.length + 1) fault.message)))) ∧
        ∀ s result s', (Execution.load c chunk source).ComesTo library runtimes s result s' ↔
          result = .error (.script (.load chunk (before.length + 1) fault.message)) ∧ s' = s) ∧
    ((∀ line ∈ Text.lines source.toList, ∃ found, Statement.OnLine line found) →
      ∀ s result s', (Execution.load c chunk source).ComesTo library runtimes s result s' ↔
        (result = .ok [] ∧ Statement.RunAll library runtimes c
          (statementsOf (Text.lines source.toList)) s s') ∨
        ∃ k failure, LoadStopsAt library runtimes c source s k failure s' ∧
          ((∃ e, failure = .script e ∧ result = .error (.script (.load chunk (k + 1) e.message))) ∨
            ∃ text, failure = .panic text ∧ result = .error (.panic text))) ∧
    (∀ k, ∃ head : String, Text.lines head.toList = (Text.lines source.toList).take k) ∧
    (∀ (statement : Statement) s failure s', statement.Fails library runtimes c s failure s' →
      Relation.ReflTransGen (Expr.CallStep library runtimes c statement.exprs) s s') ∧
    (∀ a b : String, ∃ both : String,
      Text.lines both.toList = Text.lines a.toList ++ Text.lines b.toList) ∧
    ∀ a b chunk₁ chunk₂ : String,
      Text.lines source.toList = Text.lines a.toList ++ Text.lines b.toList →
      ∀ s s', (Execution.load c chunk source).ComesTo library runtimes s (.ok []) s' ↔
        ∃ s₁, (Execution.load c chunk₁ a).ComesTo library runtimes s (.ok []) s₁ ∧
          (Execution.load c chunk₂ b).ComesTo library runtimes s₁ (.ok []) s' := by
  refine ⟨fun h => ?_, fun h s result s' => ?_, Text.exists_lines_take source,
    fun statement s failure s' hfails => hfails.callSteps, Text.exists_lines_append, ?_⟩
  · obtain ⟨before, line, hfails⟩ := Chunk.exists_failsFirst h
    obtain ⟨fault, hfault, hstep⟩ := Execution.step_load_of_failsFirst hfails
    exact ⟨before, line, fault, hfails, hfault, hstep,
      fun s result s' => Execution.comesTo_iff_of_ends (hstep s.1)⟩
  · simp only [loadStopsAt_iff h]
    exact Execution.comesTo_load_iff h
  · intro a b chunk₁ chunk₂ h s s'
    exact Execution.comesTo_load_append_iff h chunk chunk₁ chunk₂

/-- A comment, a statement, one that fails in its second expression, and one behind it. -/
def stoppingSource : String :=
  "-- one\nx = 'a'\nx, y = same(x, true), missing()\nx = nil\n"

/-- The error that an execution hands to its caller. -/
def Ending.error? (ending : Ending) : Option ScriptError :=
  match ending.result with
  | .error (.script e) => some e
  | _ => none

theorem Ending.result_of_error? {ending : Ending} {e : ScriptError} (h : ending.error? = some e) :
    ending.result = .error (.script e) := by
  unfold Ending.error? at h
  split at h
  · next heq =>
      cases h
      exact heq
  · cases h

/-- It stops on the third line, with the second run and neither target of the third written, and
the lines before the third are loaded without an error. -/
theorem loading_fails_cleanly_stopping : ∃ s',
    (Execution.load 0 "c" stoppingSource).ComesTo plainLibrary
      (.ofFunction fun _ _ (s : Unit) => (.ok 0, s))
      ((Engine.initial "plain" none).createContext.2, ())
      (.error (.script (.load "c" 3 "Function not found: missing"))) s' ∧
    ((s'.1.globals 0).get "x").asString? = some "a" ∧ (s'.1.globals 0).names = ["x"] ∧
    ∃ failure, LoadStopsAt plainLibrary (.ofFunction fun _ _ (s : Unit) => (.ok 0, s)) 0
      stoppingSource ((Engine.initial "plain" none).createContext.2, ()) 2 failure s' := by
  have hcomputed : (Execution.run plainLibrary (fun _ _ (s : Unit) => (.ok 0, s)) 20
      (Execution.load 0 "c" stoppingSource) (Engine.initial "plain" none).createContext.2 ()).any
        (fun (ending, e, _) =>
          ending.error? = some (.load "c" 3 "Function not found: missing") ∧
            ((e.globals 0).get "x").asString? = some "a" ∧ (e.globals 0).names = ["x"]) := by
    decide +kernel
  have hreadable : ∀ line ∈ Text.lines stoppingSource.toList,
      ∃ found, Statement.OnLine line found := by
    simp only [← Statement.accepts_iff]
    decide +kernel
  cases hrun : Execution.run plainLibrary (fun _ _ (s : Unit) => (.ok 0, s)) 20
      (Execution.load 0 "c" stoppingSource) (Engine.initial "plain" none).createContext.2 () with
  | none =>
      rw [hrun] at hcomputed
      cases hcomputed
  | some outcome =>
      obtain ⟨ending, e, s⟩ := outcome
      rw [hrun] at hcomputed
      obtain ⟨herror, hx, hnames⟩ := of_decide_eq_true hcomputed
      have hcomes : (Execution.load 0 "c" stoppingSource).ComesTo plainLibrary
          (.ofFunction fun _ _ (s : Unit) => (.ok 0, s))
          ((Engine.initial "plain" none).createContext.2, ())
          (.error (.script (.load "c" 3 "Function not found: missing"))) (e, s) :=
        ⟨ending, Execution.run_iff_runs.mp ⟨20, hrun⟩, Ending.result_of_error? herror⟩
      refine ⟨(e, s), hcomes, hx, hnames, ?_⟩
      obtain ⟨-, hiff, -⟩ := loading_fails_cleanly plainLibrary
        (.ofFunction fun _ _ (s : Unit) => (.ok 0, s)) 0 "c" stoppingSource
      rcases (hiff hreadable _ _ _).mp hcomes with
        ⟨heq, -⟩ | ⟨k, failure, hstops, ⟨_, -, heq⟩ | ⟨_, -, heq⟩⟩
      · cases heq
      · obtain rfl : 2 = k := by injections
        exact ⟨failure, hstops⟩
      · cases heq

end ScriptPool
