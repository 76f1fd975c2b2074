import ScriptPool.Script.Program
import ScriptPool.Script.Statement

namespace ScriptPool

/-- The first of some results, or `nil` if there is none. -/
def firstResult (results : List Value) : Value :=
  results.head?.getD .nil

/-- Calls a method of a coordinator handle. The arguments have been evaluated; the receiver, the
runtime and the argument types are checked in this order before anything is requested. -/
def callMethod (receiver method : String) (arguments : List Value) : Program (List Value) := do
  let qualified := receiver ++ ":" ++ method
  let target ← .ask (.readGlobal receiver)
  let target := target.getD .nil
  let isCoordinator := target.asHandle?.any (·.object = .coordinator)
  if !isCoordinator then
    .throw (.runtime qualified ("attempt to call a method on a " ++ target.typeName ++ " value"))
  else
    let available ← .ask .findRuntime
    if !available then
      .throw .runtimeUnavailable
    else
      let first := firstResult arguments
      match method with
      | "parallel" =>
        withText qualified first fun text => request (.parallel text)
      | "join" =>
        withText qualified first fun text => request (.join text)
      | "joinall" => request .joinAll
      | "acquire" => request (.acquire first)
      | "release" => request (.release first)
      | "np" =>
        match if first.isTruthy then first.asCount? else some 0 with
        | some count =>
          let reply ← .ask (.request (.resize count))
          match reply with
          | .ok size => pure [Value.ofCount size]
          | .error e => .throw (.parallel e)
        | none =>
          .throw (.runtime qualified
            ("expected a non-negative integer, got " ++ first.display))
      | _ => .throw (.runtime qualified ("Coordinator has no method `" ++ method ++ "`"))
where
  /-- Makes a request whose answer carries no value. -/
  request (r : Request) : Program (List Value) := do
    match ← Program.ask (.request r) with
    | .ok _ => pure []
    | .error e => .throw (.parallel e)
  /-- Goes on with an argument that must be a string. -/
  withText (qualified : String) (v : Value) (next : String → Program (List Value)) :
      Program (List Value) :=
    match v.asString? with
    | some text => next text
    | none =>
      .throw (.runtime qualified ("expected a string argument, got " ++ v.typeName))

namespace Expr

mutual

/-- Evaluates an expression to its results. -/
def program : Expr → Program (List Value)
  | .literal value => pure [value]
  | .global name => do
    let value ← .ask (.readGlobal name)
    pure [value.getD .nil]
  | .call function arguments => do
    let values ← listProgram arguments
    let answer ← .ask (.call function values)
    .ofExcept answer
  | .method receiver name arguments => do
    let values ← listProgram arguments
    callMethod receiver name values

/-- Evaluates a list of expressions to one list of results. -/
def listProgram : List Expr → Program (List Value)
  | [] => pure []
  | [last] => program last
  | expr :: rest => do
    let results ← program expr
    let values ← listProgram rest
    pure (firstResult results :: values)

end

end Expr

namespace Statement

/-- Stores values in targets from left to right; a target without a value is cleared. -/
def store : (targets : List String) → List Value → Program Unit
  | [], _ => pure ()
  | target :: rest, values => do
    .ask (.writeGlobal target (firstResult values))
    store rest values.tail

def program : Statement → Program Unit
  | .assign targets values => do
    let results ← Expr.listProgram values
    store targets results
  | .call expr => do
    let _ ← expr.program
    pure ()

end Statement

namespace Chunk

/-- Runs lines in order; an error is reported with the chunk and the line where it arose. -/
def runLines (name : String) : List (Nat × Statement) → Program Unit
  | [] => pure ()
  | (number, statement) :: rest => do
    statement.program.mapError fun e => .load name number e.message
    runLines name rest

def program (chunk : Chunk) : Program Unit :=
  runLines chunk.name chunk.lines

end Chunk

end ScriptPool
