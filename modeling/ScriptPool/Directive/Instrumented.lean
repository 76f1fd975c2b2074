import ScriptPool.Directive.Basic
import ScriptPool.Report.Event

/-!
Instrumented scripts: scripts whose directives have been turned into method calls.

Every line of a script becomes one line, behind a single header line. Lines that are no directives
and no deferred calls stay as they are, and so do the `PARALLEL` lines themselves.
-/

namespace ScriptPool

open ScriptPool.Text

/-- How a line came about. -/
inductive LineOrigin where
  /-- It is the line of the script. -/
  | kept
  /-- It stands for a directive with this keyword. -/
  | directive (keyword : String)
  /-- It stands for a deferred call with this text. -/
  | call (text : String)

/-- Whether a line differs from the line of the script. -/
def LineOrigin.isReplaced : LineOrigin → Bool
  | .kept => false
  | _ => true

/-- A line of an instrumented script. -/
structure OutputLine where
  text : String
  origin : LineOrigin

/-- What the instrumenting of a line makes known about it. -/
def OutputLine.event? (number : Nat) (line : OutputLine) : Option Event :=
  match line.origin with
  | .kept => none
  | .directive keyword => some (.directiveReplaced number keyword)
  | .call text => some (.callReplaced number text)

/-- What instrumenting lines comes to. -/
structure LinesOutcome where
  outputs : List OutputLine
  /-- For each line that is written, the line of the script that it stands for. -/
  lineMap : List (Option Nat)
  /-- The error behind these lines, if there is one. -/
  error? : Option DirectiveError

namespace ScriptSettings

/-- A method call of the coordinator with the indentation of the line that it replaces. -/
def methodCall (s : ScriptSettings) (indent : List Char) (name arguments : String) : String :=
  String.ofList indent ++ s.receiver ++ ":" ++ name ++ "(" ++ arguments ++ ")"

/-- Turns the call line that belongs to a `PARALLEL` on line `asked` into a method call. -/
def instrumentCall (s : ScriptSettings) (asked number : Nat) (line : List Char) :
    Except DirectiveError OutputLine :=
  let call := String.ofList (trim line)
  match tokens call with
  | .error e => .error ⟨number, .malformedCall e.message⟩
  | .ok [] => .error ⟨asked, .missingCall⟩
  | .ok _ =>
    match Call.parse call with
    | .error e => .error ⟨number, .malformedCall e.message⟩
    | .ok _ => .ok ⟨s.methodCall (indentOf line) "parallel" (quote call), .call call⟩

/-- Instruments a line. `asked?` is the line of a `PARALLEL` that waits for its call, before and
after. -/
def instrumentLine (s : ScriptSettings) (asked? : Option Nat) (number : Nat) (line : String) :
    Except DirectiveError (OutputLine × Option Nat) :=
  match asked? with
  | some asked =>
    if (trim line.toList).isEmpty then .ok (⟨line, .kept⟩, some asked)
    else (s.instrumentCall asked number line.toList).map fun output => (output, none)
  | none =>
    match Directive.ofLine? s.marker.toList line.toList with
    | none => .ok (⟨line, .kept⟩, none)
    | some d =>
      match d.command with
      | .error fault => .error ⟨number, fault⟩
      | .ok .deferNext => .ok (⟨line, .kept⟩, some number)
      | .ok (.method name arguments) =>
        .ok (⟨s.methodCall d.indent name arguments, .directive d.keyword⟩, none)

/-- Instruments lines, numbered from `number` on, up to the first error. -/
def instrumentLines (s : ScriptSettings) :
    (asked? : Option Nat) → (number : Nat) → List String → LinesOutcome
  | some asked, _, [] => ⟨[], [], some ⟨asked, .missingCall⟩⟩
  | none, _, [] => ⟨[], [], none⟩
  | asked?, number, line :: rest =>
    match s.instrumentLine asked? number line with
    | .error e => ⟨[], [], some e⟩
    | .ok (output, asked?) =>
      let after := s.instrumentLines asked? (number + 1) rest
      ⟨output :: after.outputs, some number :: after.lineMap, after.error?⟩

end ScriptSettings

/-- A script whose directives have been turned into method calls. -/
structure Instrumented where
  header : String
  lines : List OutputLine
  /-- For each line, that of the header included, the line of the script behind it. -/
  lineMap : List (Option Nat)

namespace Instrumented

/-- Instruments a script given as lines. -/
def ofLines (s : ScriptSettings) (lines : List String) : Except DirectiveError Instrumented :=
  match s.instrumentLines none 1 lines with
  | ⟨outputs, lineMap, none⟩ => .ok ⟨s.headerLine, outputs, none :: lineMap⟩
  | ⟨_, _, some e⟩ => .error e

/-- The lines of a script. Every kind of line break ends one. -/
def sourceLines (source : String) : List String :=
  (Text.lines (unifyBreaks source.toList)).map String.ofList

def ofSource (s : ScriptSettings) (source : String) : Except DirectiveError Instrumented :=
  ofLines s (sourceLines source)

/-- What instrumenting lines makes known, also when it fails at one of them. -/
def eventsOfLines (s : ScriptSettings) (lines : List String) : List Event :=
  (s.instrumentLines none 1 lines).outputs.zipIdx.filterMap fun (line, i) => line.event? (i + 1)

/-- All lines with the header. -/
def texts (script : Instrumented) : List String :=
  script.header :: script.lines.map (·.text)

/-- How many directives and deferred calls were replaced. -/
def directives (script : Instrumented) : Nat :=
  script.lines.countP (·.origin.isReplaced)

/-- The line of the script behind a line, both counted from one. -/
def sourceLine? (script : Instrumented) : (line : Nat) → Option Nat
  | 0 => none
  | index + 1 => script.lineMap[index]?.join

/-- The whole text. -/
def toSource (script : Instrumented) : String :=
  "\n".intercalate script.texts ++ "\n"

end Instrumented

end ScriptPool
