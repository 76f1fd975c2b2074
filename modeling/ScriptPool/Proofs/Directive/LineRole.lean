import Mathlib.Data.List.Forall2
import ScriptPool.Directive.Instrumented
import ScriptPool.Proofs.Script.MethodLine

namespace ScriptPool

open ScriptPool.Text

/-- What a line of a script is to the instrumenting. -/
inductive LineRole where
  /-- Nothing, or a `PARALLEL` by itself. -/
  | kept (line : String)
  /-- The call after a `PARALLEL`, without the blanks around it. -/
  | call (text : String)
  /-- Another directive. -/
  | directive (d : Directive)

theorem Directive.command_cases {d : Directive} {command : Command}
    (h : d.command = .ok command) :
    (d.keyword = "PARALLEL" ∧ command = .deferNext) ∨
    (d.keyword = "JOINALL" ∧ command = .method "joinall" "") ∨
    (d.keyword = "JOIN" ∧ ∃ function, d.functionName = .ok function ∧
      command = .method "join" (quote function)) ∨
    (d.keyword = "ACQUIRE" ∧ ∃ id, d.sectionId = .ok id ∧ command = .method "acquire" id) ∨
    (d.keyword = "RELEASE" ∧ ∃ id, d.sectionId = .ok id ∧ command = .method "release" id) ∨
    (d.keyword = "NP" ∧ ∃ count, d.workerCount = .ok count ∧
      command = .method "np" (toString count)) := by
  have hmap {α : Type} {f : α → Command} {read : Except DirectiveFault α}
      (h : read.map f = .ok command) : ∃ a, read = .ok a ∧ command = f a := by
    cases read with
    | error fault => cases h
    | ok a => exact ⟨a, rfl, (Except.ok.inj h).symm⟩
  unfold Directive.command at h
  split_ifs at h with hparallel hbare hjoinAll hbare hjoin hacquire hrelease hresize
  · exact .inl ⟨hparallel, (Except.ok.inj h).symm⟩
  · exact .inr (.inl ⟨hjoinAll, (Except.ok.inj h).symm⟩)
  · exact .inr (.inr (.inl ⟨hjoin, hmap h⟩))
  · exact .inr (.inr (.inr (.inl ⟨hacquire, hmap h⟩)))
  · exact .inr (.inr (.inr (.inr (.inl ⟨hrelease, hmap h⟩))))
  · exact .inr (.inr (.inr (.inr (.inr ⟨hresize, hmap h⟩))))

theorem Directive.command_parallel {d : Directive} {command : Command}
    (h : d.command = .ok command) :
    (d.keyword = "PARALLEL" ∧ command = .deferNext) ∨
      (d.keyword ≠ "PARALLEL" ∧ ∃ name arguments, command = .method name arguments) := by
  have hne {keyword : String} (hkeyword : d.keyword = keyword)
      (hother : keyword ≠ "PARALLEL") : d.keyword ≠ "PARALLEL" := hkeyword ▸ hother
  rcases Directive.command_cases h with hparallel | ⟨hd, hcommand⟩ | ⟨hd, _, -, hcommand⟩ |
    ⟨hd, _, -, hcommand⟩ | ⟨hd, _, -, hcommand⟩ | ⟨hd, _, -, hcommand⟩
  · exact .inl hparallel
  all_goals exact .inr ⟨hne hd (by decide), _, _, hcommand⟩

namespace ScriptSettings

/-- The part of a line, and whether a `PARALLEL` waits for its call after it; `waiting` says the same
before the line. -/
def role (s : ScriptSettings) (waiting : Bool) (line : String) : LineRole × Bool :=
  if waiting then
    if (trim line.toList).isEmpty then (.kept line, true)
    else (.call (String.ofList (trim line.toList)), false)
  else
    match Directive.ofLine? s.marker.toList line.toList with
    | none => (.kept line, false)
    | some d => if d.keyword = "PARALLEL" then (.kept line, true) else (.directive d, false)

/-- The parts of the lines of a script. -/
def roles (s : ScriptSettings) : (waiting : Bool) → List String → List LineRole
  | _, [] => []
  | waiting, line :: rest => (s.role waiting line).1 :: s.roles (s.role waiting line).2 rest

/-- What is written for a line that plays this part. -/
inductive Writes (s : ScriptSettings) : LineRole → OutputLine → Prop where
  | kept (line : String) : Writes s (.kept line) ⟨line, .kept⟩
  | call {text : String} {call : Call} {indent : List Char}
      (hindent : ∀ c ∈ indent, isBlank c = true) (hparse : Call.parse text = .ok call) :
      Writes s (.call text)
        ⟨String.ofList (indent ++ callText s.receiver "parallel" (quote text)), .call text⟩
  | directive {d : Directive} {name arguments : String} {indent : List Char}
      (hindent : ∀ c ∈ indent, isBlank c = true)
      (hcommand : d.command = .ok (.method name arguments)) :
      Writes s (.directive d)
        ⟨String.ofList (indent ++ callText s.receiver name arguments), .directive d.keyword⟩

variable {s : ScriptSettings} {asked? asked?' : Option Nat} {number : Nat} {line : String}
  {output : OutputLine}

theorem methodCall_eq (s : ScriptSettings) (indent : List Char) (name arguments : String) :
    s.methodCall indent name arguments =
      String.ofList (indent ++ callText s.receiver name arguments) := by
  apply String.toList_inj.mp
  simp [methodCall, callText]

theorem isBlank_of_mem_indentOf {cs : List Char} : ∀ c ∈ indentOf cs, isBlank c = true :=
  fun _ hc => List.mem_takeWhile_imp hc

/-- How instrumenting goes on at a line. The options are the line of a `PARALLEL` that waits for its
call, before and after. -/
inductive LineGoes (s : ScriptSettings) (number : Nat) (line : String) :
    Option Nat → OutputLine → Option Nat → Prop where
  | waits {asked : Nat} (hblank : (trim line.toList).isEmpty = true) :
      LineGoes s number line (some asked) ⟨line, .kept⟩ (some asked)
  | call {asked : Nat} {call : Call} (hblank : ¬ (trim line.toList).isEmpty = true)
      (hparse : Call.parse (String.ofList (trim line.toList)) = .ok call) :
      LineGoes s number line (some asked)
        ⟨s.methodCall (indentOf line.toList) "parallel" (quote (String.ofList (trim line.toList))),
          .call (String.ofList (trim line.toList))⟩ none
  | plain (hline : Directive.ofLine? s.marker.toList line.toList = none) :
      LineGoes s number line none ⟨line, .kept⟩ none
  | asks {d : Directive} (hline : Directive.ofLine? s.marker.toList line.toList = some d)
      (hcommand : d.command = .ok .deferNext) :
      LineGoes s number line none ⟨line, .kept⟩ (some number)
  | directive {d : Directive} {name arguments : String}
      (hline : Directive.ofLine? s.marker.toList line.toList = some d)
      (hcommand : d.command = .ok (.method name arguments)) :
      LineGoes s number line none ⟨s.methodCall d.indent name arguments, .directive d.keyword⟩ none

theorem instrumentLine_goes (h : s.instrumentLine asked? number line = .ok (output, asked?')) :
    s.LineGoes number line asked? output asked?' := by
  cases asked? with
  | some asked =>
      simp only [instrumentLine, instrumentCall] at h
      split at h
      · next hblank =>
          cases h
          exact .waits hblank
      · next hblank =>
          split at h
          · cases h
          · cases h
          · split at h
            · cases h
            · next hparse =>
                cases h
                exact .call hblank hparse
  | none =>
      simp only [instrumentLine] at h
      split at h
      · next hline =>
          cases h
          exact .plain hline
      · next hline =>
          split at h
          · cases h
          · cases h
            next hcommand => exact .asks hline hcommand
          · cases h
            next hcommand => exact .directive hline hcommand

theorem instrumentLines_cons_cases {lines : List String} {outputs : List OutputLine}
    {lineMap : List (Option Nat)} {error? : Option DirectiveError}
    (h : s.instrumentLines asked? number (line :: lines) = ⟨outputs, lineMap, error?⟩) :
    (∃ e, s.instrumentLine asked? number line = .error e ∧ outputs = [] ∧ error? = some e) ∨
      ∃ output asked?' outputs' lineMap', s.instrumentLine asked? number line = .ok (output, asked?') ∧
        s.instrumentLines asked?' (number + 1) lines = ⟨outputs', lineMap', error?⟩ ∧
        outputs = output :: outputs' ∧ lineMap = some number :: lineMap' := by
  rw [instrumentLines] at h
  split at h
  · next e hline =>
      cases h
      exact .inl ⟨e, hline, rfl, rfl⟩
  · next output asked?' hline =>
      cases h
      exact .inr ⟨output, asked?', _, _, hline, rfl, rfl, rfl⟩

theorem LineGoes.writes (h : s.LineGoes number line asked? output asked?') :
    Writes s (s.role asked?.isSome line).1 output ∧
      (s.role asked?.isSome line).2 = asked?'.isSome := by
  cases h with
  | waits hblank =>
      rw [role, Option.isSome_some, if_pos rfl, if_pos hblank]
      exact ⟨.kept line, rfl⟩
  | call hblank hparse =>
      rw [role, Option.isSome_some, if_pos rfl, if_neg hblank, methodCall_eq]
      exact ⟨.call isBlank_of_mem_indentOf hparse, rfl⟩
  | plain hline =>
      rw [role, Option.isSome_none, if_neg (by decide), hline]
      exact ⟨.kept line, rfl⟩
  | asks hline hcommand =>
      rw [role, Option.isSome_none, if_neg (by decide), hline]
      rcases Directive.command_parallel hcommand with ⟨hkeyword, -⟩ | ⟨-, name, arguments, ⟨⟩⟩
      dsimp only
      rw [if_pos hkeyword]
      exact ⟨.kept line, rfl⟩
  | directive hline hcommand =>
      rw [role, Option.isSome_none, if_neg (by decide), hline]
      rcases Directive.command_parallel hcommand with ⟨-, ⟨⟩⟩ | ⟨hkeyword, -⟩
      dsimp only
      rw [if_neg hkeyword, methodCall_eq]
      refine ⟨.directive ?_ hcommand, rfl⟩
      obtain ⟨rest, -, rfl⟩ := Option.map_eq_some_iff.mp hline
      exact isBlank_of_mem_indentOf

theorem instrumentLines_writes {lines : List String} {outputs : List OutputLine}
    {lineMap : List (Option Nat)}
    (h : s.instrumentLines asked? number lines = ⟨outputs, lineMap, none⟩) :
    List.Forall₂ (Writes s) (s.roles asked?.isSome lines) outputs := by
  induction lines generalizing asked? number outputs lineMap with
  | nil =>
      cases asked? with
      | none =>
          cases h
          exact .nil
      | some asked => cases h
  | cons line lines ih =>
      rcases instrumentLines_cons_cases h with
        ⟨e, -, -, ⟨⟩⟩ | ⟨output, asked?', outputs', lineMap', hline, hrest, rfl, rfl⟩
      obtain ⟨hwrites, hwaiting⟩ := (instrumentLine_goes hline).writes
      rw [roles, hwaiting]
      exact .cons hwrites (ih hrest)

end ScriptSettings

theorem Instrumented.ofLines_writes {s : ScriptSettings} {lines : List String}
    {script : Instrumented} (h : Instrumented.ofLines s lines = .ok script) :
    List.Forall₂ s.Writes (s.roles false lines) script.lines := by
  unfold Instrumented.ofLines at h
  split at h
  · next outputs lineMap houtputs =>
      cases h
      exact ScriptSettings.instrumentLines_writes houtputs
  · cases h

/-- The lines of a script that can be instrumented. -/
def Instrumented.lineTexts? (s : ScriptSettings) (lines : List String) : Option (List String) :=
  (Instrumented.ofLines s lines).toOption.map fun script => script.lines.map (·.text)

theorem Instrumented.exists_of_lineTexts? {s : ScriptSettings} {lines texts : List String}
    (h : Instrumented.lineTexts? s lines = some texts) :
    ∃ script, Instrumented.ofLines s lines = .ok script ∧ script.lines.map (·.text) = texts := by
  unfold lineTexts? at h
  cases hscript : Instrumented.ofLines s lines with
  | error e =>
      rw [hscript] at h
      cases h
  | ok script =>
      rw [hscript] at h
      exact ⟨script, rfl, Option.some.inj h⟩

end ScriptPool
