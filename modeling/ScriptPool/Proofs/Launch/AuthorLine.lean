import ScriptPool.Launch.Script
import ScriptPool.Proofs.Directive.LineByLine
import ScriptPool.Proofs.Directive.OutputText
import ScriptPool.Proofs.Pool.HostFailure
import ScriptPool.Proofs.Pool.JoinBarrier
import ScriptPool.Proofs.Script.LoadError

namespace ScriptPool

open ScriptPool.Text

namespace Instrumented

variable {s : ScriptSettings} {source : String} {script : Instrumented}

/-- The lines of the text, each with the line of the script that it was written for. Those of the
header were written for none. -/
def labelled (script : Instrumented) : List (Option Nat × List Char) :=
  script.headerLines.map (fun text => (none, text)) ++
    script.lines.mapIdx fun i output => (some (i + 1), output.text.toList)

theorem labelled_texts (h : ∀ output ∈ script.lines, Unbroken output.text.toList) :
    script.labelled.map Prod.snd = Text.lines script.toSource.toList := by
  have houtputs : script.lines.zipIdx.map (fun x => x.1.text.toList) =
      script.lines.map (·.text.toList) := by
    conv_rhs => rw [← List.zipIdx_map_fst 0 script.lines, List.map_map]
    rfl
  rw [lines_toSource h, labelled, ← houtputs]
  simp [List.mapIdx_eq_zipIdx_map, Function.comp_def]

theorem headerLines_pos (script : Instrumented) : 0 < script.headerLines.length := by
  rw [headerLines, List.length_map, List.length_pos_iff]
  exact pieces_ne_nil _

theorem sourceLine?_eq_iff (hscript : Instrumented.ofSource s source = .ok script) {line : Nat}
    {label? : Option Nat} {text : List Char}
    (h : script.labelled[line - 1]? = some (label?, text)) (hline : 1 ≤ line) :
    script.sourceLine? line = label? ↔ script.headerLines.length = 1 ∨ line = 1 ∨
      script.lines.length + 1 < line ∧ line ≤ script.headerLines.length := by
  have hpos := script.headerLines_pos
  have hsource := sourceLine?_eq hscript line
  rw [← (ofLines_steps hscript).2.1] at hsource
  rw [labelled] at h
  -- A line of the header is meant for no line; any other is counted from the end of the header.
  by_cases hheader : line - 1 < script.headerLines.length
  · have hlabel : label? = none := by
      rw [List.getElem?_append_left (by simpa using hheader), List.getElem?_map,
        Option.map_eq_some_iff] at h
      obtain ⟨text', -, heq⟩ := h
      exact (congrArg Prod.fst heq).symm
    subst hlabel
    simp only [hsource, ite_eq_right_iff, reduceCtorEq, imp_false]
    omega
  · have hlabel : label? = some (line - script.headerLines.length) ∧
        line - 1 - script.headerLines.length < script.lines.length := by
      rw [List.getElem?_append_right (by simpa using hheader), List.length_map,
        List.getElem?_mapIdx, Option.map_eq_some_iff] at h
      obtain ⟨output, houtput, heq⟩ := h
      refine ⟨?_, (List.getElem?_eq_some_iff.mp houtput).1⟩
      have hnumber : line - 1 - script.headerLines.length + 1 =
          line - script.headerLines.length := by omega
      exact hnumber ▸ (congrArg Prod.fst heq).symm
    obtain ⟨rfl, hlt⟩ := hlabel
    rw [hsource]
    split
    · rw [Option.some.injEq]
      omega
    · simp only [reduceCtorEq, false_iff]
      omega

theorem headerLines_single_iff (hreceiver : isName s.receiver = true)
    (h : Instrumented.ofSource s source = .ok script) :
    script.headerLines.length = 1 ↔ ∀ header, s.header? = some header → '\n' ∉ header.toList := by
  rw [headerLines, List.length_map, length_pieces, ofSource_header h, Nat.add_eq_right,
    List.count_eq_zero]
  cases hheader : s.header? with
  | none =>
      exact iff_of_true (ScriptSettings.headerLine_unbroken hreceiver hheader).1
        (by rintro header ⟨⟩)
  | some header =>
      rw [ScriptSettings.headerLine, hheader]
      simp

/-- A line of the text at which loading fails, and the line of the script that is reported for it. The
line that was meant is reported exactly if the header is a single line, or where both the report and
the header say that there is none. -/
def ReportsAt (script : Instrumented) (line : Nat) (reported? : Option Nat) : Prop :=
  1 ≤ line ∧ ∃ label? text, script.labelled[line - 1]? = some (label?, text) ∧
    (Text.lines script.toSource.toList)[line - 1]? = some text ∧
    (reported? = label? ↔ script.headerLines.length = 1 ∨ line = 1 ∨
      script.lines.length + 1 < line ∧ line ≤ script.headerLines.length)

theorem reportsAt_of_failsAt (hreceiver : isName s.receiver = true)
    (h : Instrumented.ofSource s source = .ok script) {chunk : String} {e : ScriptError}
    (he : Chunk.FailsAt chunk (Text.lines script.toSource.toList).length e) (output : String) :
    ∃ line message, Launch.loadError output script e =
      .load output line (script.sourceLine? line) message ∧
        script.ReportsAt line (script.sourceLine? line) := by
  obtain ⟨line, message, rfl, hline, hlast⟩ := he
  refine ⟨line, message, rfl, hline, ?_⟩
  have htexts := labelled_texts (ofSource_unbroken hreceiver h)
  rw [← htexts, List.length_map] at hlast
  have hlabelled := List.getElem?_eq_getElem (show line - 1 < script.labelled.length by omega)
  refine ⟨_, _, hlabelled, ?_, sourceLine?_eq_iff h hlabelled hline⟩
  rw [← htexts, List.getElem?_map, hlabelled]
  rfl

end Instrumented

section Loading

variable {library : Library} {w w' : World} {host : Nat} {c : ContextId} {chunk source : String}
  {e : ScriptError}

theorem World.failsWith_begin :
    (w.begin library host (.load c chunk source)).FailsWith host
      (Chunk.FailsAt chunk (Text.lines source.toList).length) :=
  .placeHost (Chunk.loadCode_failsWith chunk source)

theorem World.FailsWith.result {R : ScriptError → Prop} (h : w.FailsWith host R)
    (hresult : w.result? host = some (.ended (.returned (.errored e)))) : R e := by
  unfold World.result? World.host? at hresult
  split at hresult
  · next last? hplace =>
      subst hresult
      exact h _ hplace
  · cases hresult

theorem Run.load_failsAt {moves : List Move}
    (h : Run library (w.begin library host (.load c chunk source)) moves w')
    (hbegin : ∀ call, .begin host call ∉ moves)
    (hresult : w'.result? host = some (.ended (.returned (.errored e)))) :
    Chunk.FailsAt chunk (Text.lines source.toList).length e :=
  (World.failsWith_begin.run hbegin h).result hresult

theorem Session.perform_failsAt {s : Session}
    (h : (s.perform (.load c chunk source)).2 = some (.returned (.errored e))) :
    Chunk.FailsAt chunk (Text.lines source.toList).length e := by
  unfold Session.perform Session.call at h
  split at h
  · next s' ending hcall =>
      split at hcall
      · cases h
        obtain ⟨-, hresult⟩ := Prod.mk.inj hcall
        have hkept : (s.world.carryOut s.library Session.host (.load c chunk source)).FailsWith
            Session.host (Chunk.FailsAt chunk (Text.lines source.toList).length) :=
          World.finishCall_keeps
            (P := (·.FailsWith Session.host (Chunk.FailsAt chunk (Text.lines source.toList).length)))
            (fun hw hstep => hw.advance hstep) World.failsWith_begin World.patience
        exact hkept.result hresult
      · cases hcall
  · cases h

end Loading

theorem Launch.load_failed {disk : Disk} {s : Session} {path output : String}
    {script : Instrumented} {error : LaunchError}
    (h : (Launch.load disk s path output script).ending = .failed error) :
    ∃ chunk e, Chunk.FailsAt chunk (Text.lines script.toSource.toList).length e ∧
      error = Launch.loadError output script e := by
  unfold Launch.load at h
  dsimp only at h
  split at h
  · next s' e hperform =>
      cases h
      exact ⟨_, e, Session.perform_failsAt (congrArg Prod.snd hperform), rfl⟩
  · cases h
  · cases h

theorem Launch.run_failed {library : Library} {engine : Engine} {processors : Nat}
    {settings : Settings} {disk : Disk} {path output : String} {line : Nat} {reported? : Option Nat}
    {message : String} (h : (Launch.run library engine processors settings disk path).ending =
      .failed (.load output line reported? message)) :
    ∃ source script, disk.read? path = some source ∧
      Instrumented.ofSource settings.script source = .ok script ∧
      ∃ chunk e, Chunk.FailsAt chunk (Text.lines script.toSource.toList).length e ∧
        ∃ output', .load output line reported? message = Launch.loadError output' script e := by
  unfold Launch.run at h
  split at h
  · cases h
  · dsimp only at h
    cases hread : disk.read? path with
    | none =>
        simp only [instrumentFile, hread] at h
        cases h
    | some source =>
        cases hscript : Instrumented.ofSource settings.script source with
        | error e =>
            simp only [instrumentFile, hread, hscript] at h
            cases h
        | ok script =>
            refine ⟨source, script, rfl, hscript, ?_⟩
            cases hwrite : disk.write? (settings.script.outputPath path) script.toSource with
            | none =>
                simp only [instrumentFile, hread, hscript, hwrite] at h
                cases h
            | some disk' =>
                simp only [instrumentFile, hread, hscript, hwrite] at h
                split at h
                · cases h
                · obtain ⟨chunk, e, hfails, herror⟩ := Launch.load_failed h
                  exact ⟨chunk, e, hfails, _, herror⟩

/-- Where a script fails to load, the line of the author's script that is reported is the one whose
line of the instrumented text fails, if the header is a single line. A header of the author's with a
line feed in it can stand anywhere; then the report is right at the first line, and at those lines of
the header that lie behind the count of the script. This is so for a launch, and for each load of the
script while other threads go on. -/
theorem load_error_line (library : Library) (settings : Settings)
    (hsettings : settings.script.fault? = none) :
    (∀ source script, Instrumented.ofSource settings.script source = .ok script →
      List.Forall₂ settings.script.Writes
        (settings.script.roles false (Instrumented.sourceLines source)) script.lines ∧
      (script.headerLines.length = 1 ↔
        ∀ header, settings.script.header? = some header → '\n' ∉ header.toList)) ∧
    (∀ engine processors disk path output line reported? message,
      (Launch.run library engine processors settings disk path).ending =
        .failed (.load output line reported? message) →
      ∃ source script, disk.read? path = some source ∧
        Instrumented.ofSource settings.script source = .ok script ∧
        script.ReportsAt line reported?) ∧
    ∀ source script, Instrumented.ofSource settings.script source = .ok script →
      ∀ (w w' : World) (host : Nat) (c : ContextId) (chunk output : String) (moves : List Move)
        (e : ScriptError),
      Run library (w.begin library host (.load c chunk script.toSource)) moves w' →
      (∀ call, .begin host call ∉ moves) →
      w'.result? host = some (.ended (.returned (.errored e))) →
      ∃ line message, Launch.loadError output script e =
        .load output line (script.sourceLine? line) message ∧
          script.ReportsAt line (script.sourceLine? line) := by
  have hreceiver := ScriptSettings.isName_receiver hsettings
  refine ⟨fun source script h => ⟨Instrumented.ofLines_writes h,
    Instrumented.headerLines_single_iff hreceiver h⟩, ?_, ?_⟩
  · intro engine processors disk path output line reported? message h
    obtain ⟨source, script, hread, hscript, chunk, e, hfails, output', herror⟩ := Launch.run_failed h
    refine ⟨source, script, hread, hscript, ?_⟩
    obtain ⟨line', message', hload, hreports⟩ :=
      Instrumented.reportsAt_of_failsAt hreceiver hscript hfails output'
    rw [hload] at herror
    cases herror
    exact hreports
  · intro source script hscript w w' host c chunk output moves e hrun hbegin hresult
    have hfails := hrun.load_failsAt hbegin hresult
    exact Instrumented.reportsAt_of_failsAt hreceiver hscript hfails output

/-- A function that fails. -/
def failingLibrary : Library := ⟨[("fail", fun _ _ => .fail (.message "no"))]⟩

/-- The second line fails. -/
def failingSource : String := "x = 1\nfail('no')\ny = 2\n"

/-- Settings with a header of two lines. -/
def shiftedSettings : Settings :=
  { Settings.standard with
    script := { ScriptSettings.standard with header? := some "limit = 1\nceiling = 2" } }

/-- The line of the error that a thread of the host got. -/
def World.errorLine? (w : World) (host : Nat) : Option Nat :=
  match w.result? host with
  | some (.ended (.returned (.errored e))) => e.line?
  | _ => none

/-- Behind a header of two lines the second line of a script is the fourth of the text, and it is
reported as the third. -/
theorem load_error_line_shifted : ∃ (script : Instrumented) (w w' : World) (e : ScriptError)
      (message : String),
    Instrumented.ofSource shiftedSettings.script failingSource = .ok script ∧
    Run failingLibrary (w.begin failingLibrary 0 (.load 0 "run" script.toSource))
      (List.replicate 6 (.step 0 (.host 0))) w' ∧
    w'.result? 0 = some (.ended (.returned (.errored e))) ∧
    Launch.loadError "run" script e = .load "run" 4 (some 3) message ∧
    (script.labelled[3]?).map Prod.fst = some (some 2) := by
  have hcheck : ((Instrumented.ofSource shiftedSettings.script failingSource).toOption.any
      fun script => script.sourceLine? 4 = some 3 &&
        (script.labelled[3]?).map Prod.fst = some (some 2) &&
        (soloStart.follow failingLibrary (List.replicate 4 (.step 0 (.host 0)))).any fun w =>
          ((w.begin failingLibrary 0 (.load 0 "run" script.toSource)).follow failingLibrary
            (List.replicate 6 (.step 0 (.host 0)))).any fun w' => w'.errorLine? 0 = some 4) =
      true := by
    decide +kernel
  obtain ⟨script, hscript, hcheck⟩ := (Option.any_eq_true _ _).mp hcheck
  simp only [Bool.and_eq_true, decide_eq_true_eq] at hcheck
  obtain ⟨⟨hsource, hlabel⟩, hruns⟩ := hcheck
  obtain ⟨w, -, hruns⟩ := (Option.any_eq_true _ _).mp hruns
  obtain ⟨w', hrun, hline⟩ := (Option.any_eq_true _ _).mp hruns
  replace hrun := run_iff_follow.mpr hrun
  replace hline := of_decide_eq_true hline
  replace hscript : Instrumented.ofSource shiftedSettings.script failingSource = .ok script := by
    cases hread : Instrumented.ofSource shiftedSettings.script failingSource with
    | error e =>
        rw [hread] at hscript
        cases hscript
    | ok script' =>
        rw [hread] at hscript
        exact congrArg _ (Option.some.inj hscript)
  unfold World.errorLine? at hline
  split at hline
  · next e hresult =>
      obtain ⟨line, message, hload, -⟩ := (load_error_line failingLibrary shiftedSettings rfl).2.2
        failingSource script hscript w w' 0 0 "run" "run" _ e hrun
        (fun call hmem => by cases List.eq_of_mem_replicate hmem) hresult
      refine ⟨script, w, w', e, message, hscript, hrun, hresult, ?_, hlabel⟩
      cases e with
      | load chunk line' message' =>
          cases hline
          cases hload
          rw [← hsource]
          rfl
      | _ => cases hline
  · cases hline

end ScriptPool
