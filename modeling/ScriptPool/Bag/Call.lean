import ScriptPool.Error
import ScriptPool.Text.Line
import ScriptPool.Token.Lexer

/-!
Deferred calls: the texts handed to the parallel runtime.

A call has the form `r, s = f(a, 1)`. Its arguments are globals and literals, and the names before
the equals sign, if there is one, say where the results go. A call is determined by its tokens and
keeps its text only for reports.
-/

namespace ScriptPool

open ScriptPool.Text

/-- An argument of a deferred call. -/
inductive Argument where
  /-- The value that a global has when the call is submitted. -/
  | global (name : String)
  | literal (value : Value)

namespace Argument

/-- A name stands for a global and a literal for itself. -/
def ofToken? : Token → Option Argument
  | .name n => some (.global n)
  | t => t.literal?.map .literal

def global? : Argument → Option String
  | .global name => some name
  | .literal _ => none

end Argument

structure Call where
  /-- The text without the blanks around it. -/
  text : String
  function : String
  arguments : List Argument
  /-- The globals that receive the results. -/
  returns : List String

/-- Why a text is no call. -/
inductive CallFault where
  | lexical (e : LexError)
  | nameExpected (found : Option Token)
  | functionExpected
  | tokenExpected (wanted : Token) (found : Option Token)
  | unclosedArguments
  | unexpectedArgument (t : Token)
  | trailing (t : Token)

def CallFault.message : CallFault → String
  | .lexical e => e.message
  | .nameExpected (some t) => "expected a name, found `" ++ t.display ++ "`"
  | .nameExpected none => "expected a name at end of input"
  | .functionExpected => "expected a function name"
  | .tokenExpected wanted (some t) =>
    "expected `" ++ wanted.display ++ "`, found `" ++ t.display ++ "`"
  | .tokenExpected wanted none => "expected `" ++ wanted.display ++ "` at end of input"
  | .unclosedArguments => "unclosed argument list"
  | .unexpectedArgument t => "unexpected `" ++ t.display ++ "` in argument list"
  | .trailing t => "unexpected `" ++ t.display ++ "` after the call"

namespace Call

/-- Reads names separated by commas, at least one. -/
def readNames : List Token → Except CallFault (List String × List Token)
  | .name n :: .comma :: rest =>
    match readNames rest with
    | .ok (names, after) => .ok (n :: names, after)
    | .error e => .error e
  | .name n :: rest => .ok ([n], rest)
  | found => .error (.nameExpected found.head?)

/-- Reads the names before the equals sign and the sign itself, if the call has one. -/
def readReturns (ts : List Token) : Except CallFault (List String × List Token) :=
  if .equals ∈ ts then
    match readNames ts with
    | .ok (names, .equals :: after) => .ok (names, after)
    | .ok (_, found) => .error (.tokenExpected .equals found.head?)
    | .error e => .error e
  else .ok ([], ts)

/-- Reads arguments separated by commas up to the closing parenthesis, at least one. -/
def readArguments : List Token → Except CallFault (List Argument × List Token)
  | [] => .error .unclosedArguments
  | t :: rest =>
    match Argument.ofToken? t with
    | none => .error (.unexpectedArgument t)
    | some a =>
      match rest with
      | .comma :: more =>
        match readArguments more with
        | .ok (as, after) => .ok (a :: as, after)
        | .error e => .error e
      | .closing :: more => .ok ([a], more)
      | found => .error (.tokenExpected .closing found.head?)

def readApplication : List Token → Except CallFault (String × List Argument × List Token)
  | .name f :: .opening :: .closing :: rest => .ok (f, [], rest)
  | .name f :: .opening :: rest =>
    match readArguments rest with
    | .ok (as, after) => .ok (f, as, after)
    | .error e => .error e
  | .name _ :: found => .error (.tokenExpected .opening found.head?)
  | _ => .error .functionExpected

/-- Reads a whole token list as a call with the given text. -/
def ofTokens (text : String) (ts : List Token) : Except CallFault Call :=
  match readReturns ts with
  | .error e => .error e
  | .ok (returns, rest) =>
    match readApplication rest with
    | .error e => .error e
    | .ok (function, arguments, []) => .ok ⟨text, function, arguments, returns⟩
    | .ok (_, _, t :: _) => .error (.trailing t)

/-- Reads a text as a call, or says why it is none. -/
def read (text : String) : Except CallFault Call :=
  match tokens text with
  | .error e => .error (.lexical e)
  | .ok ts => ofTokens (String.ofList (trim text.toList)) ts

def parse (text : String) : Except PoolError Call :=
  match read text with
  | .ok call => .ok call
  | .error fault => .error (.malformedCall text fault.message)

/-- The globals that a call reads, in the order of its arguments and with repeats. -/
def parameters (call : Call) : List String :=
  call.arguments.filterMap Argument.global?

end Call

end ScriptPool
