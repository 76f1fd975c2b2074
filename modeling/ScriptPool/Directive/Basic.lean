import ScriptPool.Bag.Call
import ScriptPool.Settings.Basic

/-!
Directives: comment lines that ask for parallel execution.

A directive line starts with a marker, after which come a keyword and an argument. `PARALLEL` says
that the next line with text on it is a call to be deferred; each of the other keywords stands for
one method call of the coordinator.
-/

namespace ScriptPool

open ScriptPool.Text

inductive DirectiveFault where
  /-- No call follows a `PARALLEL`. -/
  | missingCall
  | malformedCall (reason : String)
  | missingArgument (directive : String)
  | invalidArgument (directive argument reason : String)
  | unknown (keyword : String)
  deriving DecidableEq

/-- A fault and the line of the script where it is. -/
structure DirectiveError where
  line : Nat
  fault : DirectiveFault
  deriving DecidableEq

def DirectiveFault.message : DirectiveFault → String
  | .missingCall => "PARALLEL must be followed by a call expression"
  | .malformedCall reason => "malformed call after PARALLEL: " ++ reason
  | .missingArgument directive => directive ++ " requires an argument"
  | .invalidArgument directive argument reason =>
    "invalid argument `" ++ argument ++ "` for " ++ directive ++ ": " ++ reason
  | .unknown keyword => "unknown directive `" ++ keyword ++ "`"

def DirectiveError.message (e : DirectiveError) : String :=
  "line " ++ toString e.line ++ ": " ++ e.fault.message

/-- A directive line, cut up. -/
structure Directive where
  indent : List Char
  keyword : String
  argument : String

namespace Directive

/-- The rest of a text after a marker that it must start with. -/
def dropMarker? : (marker : List Char) → List Char → Option (List Char)
  | [], rest => some rest
  | _ :: _, [] => none
  | m :: marker, c :: rest => if m = c then dropMarker? marker rest else none

/-- Cuts up a line, unless it does not start with the marker. -/
def ofLine? (marker line : List Char) : Option Directive :=
  (dropMarker? marker (trimStart line)).map fun rest =>
    let body := trim rest
    ⟨indentOf line, String.ofList (body.takeWhile fun c => !isBlank c),
      String.ofList (trim (body.dropWhile fun c => !isBlank c))⟩

/-- Whether a directive has no argument; a comment counts as none. -/
def lacksArgument (d : Directive) : Bool :=
  match d.argument.toList with
  | [] => true
  | '-' :: '-' :: _ => true
  | _ => false

/-- The fault of a directive with a bad argument. -/
def invalid (d : Directive) (reason : String) : DirectiveFault :=
  .invalidArgument d.keyword d.argument reason

def argumentToken (d : Directive) : Except DirectiveFault Token :=
  if d.argument.isEmpty then .error (.missingArgument d.keyword)
  else
    match tokens d.argument with
    | .error e => .error (d.invalid e.message)
    | .ok [] => .error (.missingArgument d.keyword)
    | .ok [t] => .ok t
    | .ok _ => .error (d.invalid "expected a single value")

/-- The function that a directive names, as a name or as a string. -/
def functionName (d : Directive) : Except DirectiveFault String :=
  match d.argumentToken with
  | .error fault => .error fault
  | .ok (.name n) => .ok n
  | .ok (.string s) =>
    if isName s then .ok s else .error (d.invalid "expected a function name")
  | .ok _ => .error (d.invalid "expected a function name")

/-- The written form of the section id that a directive gives. -/
def sectionId (d : Directive) : Except DirectiveFault String :=
  match d.argumentToken with
  | .error fault => .error fault
  | .ok (.number n) => .ok (Token.number n).display
  | .ok (.string s) => .ok (Token.string s).display
  | .ok _ => .error (d.invalid "expected a number or a quoted string")

/-- The number of workers that a directive gives. -/
def workerCount (d : Directive) : Except DirectiveFault Nat :=
  match d.argumentToken with
  | .error fault => .error fault
  | .ok t =>
    match t.literal?.bind Value.asCount? with
    | some count => .ok count
    | none => .error (d.invalid "expected a non-negative integer")

/-- What a directive asks for. -/
inductive Command where
  /-- Defer the call on the next line with text. -/
  | deferNext
  /-- Call a method of the coordinator with written arguments. -/
  | method (name arguments : String)

/-- What a directive asks for. Keywords are written in capitals. -/
def command (d : Directive) : Except DirectiveFault Command :=
  if d.keyword = "PARALLEL" then
    if d.lacksArgument then .ok .deferNext else .error (d.invalid "takes no argument")
  else if d.keyword = "JOINALL" then
    if d.lacksArgument then .ok (.method "joinall" "")
    else .error (d.invalid "takes no argument")
  else if d.keyword = "JOIN" then d.functionName.map fun name => .method "join" (quote name)
  else if d.keyword = "ACQUIRE" then d.sectionId.map fun id => .method "acquire" id
  else if d.keyword = "RELEASE" then d.sectionId.map fun id => .method "release" id
  else if d.keyword = "NP" then d.workerCount.map fun count => .method "np" (toString count)
  else .error (.unknown d.keyword)

end Directive

end ScriptPool
