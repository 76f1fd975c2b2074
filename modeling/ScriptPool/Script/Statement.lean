import ScriptPool.Error
import ScriptPool.Text.Line
import ScriptPool.Token.Lexer

/-!
Statements, one to a line, and chunks of them.

A statement is an assignment `a, b = f(x), 2`, a declaration `local a, b`, or a call. Expressions
are literals, globals, calls of functions and calls of methods, nested to any depth. A chunk is
parsed as a whole before any of its lines runs.
-/

namespace ScriptPool

open ScriptPool.Text

inductive Expr where
  | literal (value : Value)
  | global (name : String)
  | call (function : String) (arguments : List Expr)
  | method (receiver method : String) (arguments : List Expr)

/-- Whether an expression calls a function or a method. -/
def Expr.isCall : Expr → Bool
  | .call .. | .method .. => true
  | _ => false

/-- What one line does. -/
inductive Statement where
  /-- Evaluates the values and stores them in the targets. -/
  | assign (targets : List String) (values : List Expr)
  /-- Evaluates a call and drops its results. -/
  | call (expr : Expr)

/-- Why a line is no statement. -/
inductive StatementFault where
  | lexical (e : LexError)
  | nameExpected (found : Option Token)
  | tokenExpected (wanted : Token) (found : Option Token)
  | equalsExpected
  | bareExpression
  | trailing (t : Token)

/-- The wording of a fault in a line. -/
def StatementFault.message : StatementFault → String
  | .lexical e => "syntax error at " ++ e.message
  | .nameExpected (some t) => "syntax error: expected a name near `" ++ t.display ++ "`"
  | .nameExpected none => "syntax error: expected a name at end of line"
  | .tokenExpected wanted (some t) =>
    "syntax error: expected `" ++ wanted.display ++ "` near `" ++ t.display ++ "`"
  | .tokenExpected wanted none => "syntax error: expected `" ++ wanted.display ++ "` at end of line"
  | .equalsExpected => "syntax error: expected `=`"
  | .bareExpression => "syntax error: a bare expression is not a statement"
  | .trailing t => "syntax error: unexpected `" ++ t.display ++ "`"

def expectToken (wanted : Token) : List Token → Except StatementFault (List Token)
  | t :: rest => if t = wanted then .ok rest else .error (.tokenExpected wanted (some t))
  | [] => .error (.tokenExpected wanted none)

namespace Expr

mutual

/-- Reads an expression. The bound limits the recursion; `boundFor` gives one that is always
enough. -/
def read : (bound : Nat) → List Token → Except StatementFault (Expr × List Token)
  | 0, ts => .error (.nameExpected ts.head?)
  | bound + 1, ts =>
    match ts with
    | [] => .error (.nameExpected none)
    | t :: rest =>
      match t.literal?, t with
      | some value, _ => .ok (.literal value, rest)
      | none, .name n =>
        match rest with
        | .opening :: _ =>
          match readArguments bound rest with
          | .ok (arguments, after) => .ok (.call n arguments, after)
          | .error e => .error e
        | .colon :: .name m :: rest =>
          match readArguments bound rest with
          | .ok (arguments, after) => .ok (.method n m arguments, after)
          | .error e => .error e
        | _ => .ok (.global n, rest)
      | none, t => .error (.nameExpected (some t))

def readArguments : (bound : Nat) → List Token → Except StatementFault (List Expr × List Token)
  | 0, ts => .error (.tokenExpected .opening ts.head?)
  | bound + 1, ts =>
    match expectToken .opening ts with
    | .error e => .error e
    | .ok (.closing :: rest) => .ok ([], rest)
    | .ok rest =>
      match readList bound rest with
      | .error e => .error e
      | .ok (exprs, rest) =>
        match expectToken .closing rest with
        | .ok after => .ok (exprs, after)
        | .error e => .error e

/-- Reads expressions separated by commas, at least one. -/
def readList : (bound : Nat) → List Token → Except StatementFault (List Expr × List Token)
  | 0, ts => .error (.nameExpected ts.head?)
  | bound + 1, ts =>
    match read bound ts with
    | .error e => .error e
    | .ok (expr, .comma :: rest) =>
      match readList bound rest with
      | .ok (exprs, after) => .ok (expr :: exprs, after)
      | .error e => .error e
    | .ok (expr, rest) => .ok ([expr], rest)

end

/-- A bound that lets every expression in a token list be read. -/
def boundFor (ts : List Token) : Nat :=
  3 * ts.length + 3

end Expr

namespace Statement

/-- Reads names separated by commas, at least one. -/
def readNames : List Token → Except StatementFault (List String × List Token)
  | .name n :: .comma :: rest =>
    match readNames rest with
    | .ok (names, after) => .ok (n :: names, after)
    | .error e => .error e
  | .name n :: rest => .ok ([n], rest)
  | found => .error (.nameExpected found.head?)

/-- Reads the targets and the values of an assignment. Only a declaration may lack values. -/
def readAssignment (declares : Bool) (ts : List Token) :
    Except StatementFault (Statement × List Token) :=
  match readNames ts with
  | .error e => .error e
  | .ok (targets, .equals :: rest) =>
    match Expr.readList (Expr.boundFor rest) rest with
    | .ok (values, after) => .ok (.assign targets values, after)
    | .error e => .error e
  | .ok (targets, rest) =>
    if declares then .ok (.assign targets [], rest) else .error .equalsExpected

/-- Reads a call that stands alone. -/
def readCall (ts : List Token) : Except StatementFault (Statement × List Token) :=
  match Expr.read (Expr.boundFor ts) ts with
  | .error e => .error e
  | .ok (expr, rest) => if expr.isCall then .ok (.call expr, rest) else .error .bareExpression

def readPart : List Token → Except StatementFault (Statement × List Token)
  | .name "local" :: rest => readAssignment true rest
  | ts => if .equals ∈ ts then readAssignment false ts else readCall ts

/-- Reads a whole token list as a statement. -/
def ofTokens (ts : List Token) : Except StatementFault Statement :=
  match readPart ts with
  | .error e => .error e
  | .ok (statement, []) => .ok statement
  | .ok (_, t :: _) => .error (.trailing t)

/-- Reads a line; a line without tokens holds no statement. -/
def ofLine? (line : List Char) : Except StatementFault (Option Statement) :=
  match Token.readAll 1 line with
  | .error e => .error (.lexical e)
  | .ok [] => .ok none
  | .ok ts =>
    match ofTokens ts with
    | .ok statement => .ok (some statement)
    | .error e => .error e

end Statement

/-- A parsed chunk: its name and its statements with the numbers of their lines. -/
structure Chunk where
  name : String
  lines : List (Nat × Statement)

namespace Chunk

/-- Reads lines, numbered from `number` on; the first line that is no statement is reported. -/
def readLines (name : String) :
    (number : Nat) → List (List Char) → Except ScriptError (List (Nat × Statement))
  | _, [] => .ok []
  | number, line :: rest =>
    match Statement.ofLine? line with
    | .error fault => .error (.load name number fault.message)
    | .ok found =>
      match readLines name (number + 1) rest with
      | .error e => .error e
      | .ok more =>
        match found with
        | some statement => .ok ((number, statement) :: more)
        | none => .ok more

def parse (name source : String) : Except ScriptError Chunk :=
  match readLines name 1 (Text.lines source.toList) with
  | .ok lines => .ok ⟨name, lines⟩
  | .error e => .error e

end Chunk

end ScriptPool
