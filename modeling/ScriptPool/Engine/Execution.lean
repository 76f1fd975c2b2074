import ScriptPool.Engine.Basic
import ScriptPool.Library.Basic
import ScriptPool.Script.Meaning

/-!
Running code one operation at a time.

An execution is the code in progress with the calls that wait for it. One step performs one
operation against the engine, enters or leaves a call, or finds that the execution has to wait: for
a gate, or for the answer to a request, which is not the engine's business.
-/

namespace ScriptPool

/-- The outcome of calling a function in a context. -/
inductive Invocation where
  | completed (results : List Value)
  /-- The function gave up control but could go on; the results are those so far. -/
  | suspended (results : List Value)
  | errored (e : ScriptError)

namespace Invocation

/-- Whether the context can still be used. -/
def isHealthy : Invocation → Bool
  | .errored _ => false
  | _ => true

/-- The label of the outcome. -/
def status : Invocation → String
  | .completed _ => "completed"
  | .suspended _ => "suspended"
  | .errored _ => "errored"

/-- The results that the call left behind. -/
def results : Invocation → List Value
  | .completed results | .suspended results => results
  | .errored _ => []

/-- The error that the call ended with. -/
def error? : Invocation → Option ScriptError
  | .errored e => some e
  | _ => none

end Invocation

/-- How an execution ends. -/
inductive Ending where
  | returned (outcome : Invocation)
  | brokeOff (text : String)

/-- Breaking off inside a task counts as an error of the called function. -/
def Ending.guarded (function : String) : Ending → Invocation
  | .returned outcome => outcome
  | .brokeOff text => .errored (.panic function text)

/-- A caller that waits for the code above it. -/
inductive Frame where
  | call (function : String)
      (next : Except ScriptError (List Value) → Program (List Value))
  | load (next : Except ScriptError Unit → Program (List Value))

namespace Frame

def resume : Frame → List Value → Program (List Value)
  | .call _ next, results => next (.ok results)
  | .load next, _ => next (.ok ())

def recover : Frame → Failure → Program (List Value)
  | .call function next, failure => next (.error (failure.asError function))
  | .load next, failure => next (.error (failure.asError ""))

end Frame

/-- Code in progress in a context. -/
structure Execution where
  context : ContextId
  /-- The function that was invoked; empty for a chunk. -/
  function : String
  code : Program (List Value)
  /-- The waiting callers, innermost first. -/
  frames : List Frame
  /-- Whether the invoked function has marked its call as suspended. -/
  suspended : Bool

/-- What one step of an execution comes to. -/
inductive Turn where
  | goesOn (x : Execution) (e : Engine)
  /-- The gate is closed. -/
  | waits
  | asks (r : Request)
  | ends (ending : Ending)

namespace Execution

/-- The code of a function under its name; an unknown function fails. -/
def codeOf (library : Library) (function : String) (arguments : List Value) :
    Program (List Value) :=
  match library.find? function with
  | some f => f function arguments
  | none => .throw (.functionNotFound function)

/-- The code of loading a chunk; a chunk that does not parse fails before anything runs. -/
def loadCode (chunk source : String) : Program (List Value) :=
  match Chunk.parse chunk source with
  | .ok parsed => parsed.program.bind fun _ => .done []
  | .error e => .throw e

def invoke (library : Library) (context : ContextId) (function : String)
    (arguments : List Value) : Execution :=
  ⟨context, function, codeOf library function arguments, [], false⟩

def load (context : ContextId) (chunk source : String) : Execution :=
  ⟨context, "", loadCode chunk source, [], false⟩

/-- The execution with other code. -/
def withCode (x : Execution) (code : Program (List Value)) : Execution :=
  { x with code := code }

/-- The execution that goes on with the answer to its request. -/
def answer (x : Execution) (reply : Reply) : Execution :=
  match x.code with
  | .perform (.request _) next => x.withCode (next reply)
  | _ => x

/-- The step after the code has returned. -/
def leave (x : Execution) (e : Engine) (results : List Value) : Turn :=
  match x.frames with
  | [] => .ends (.returned (if x.suspended then .suspended results else .completed results))
  | frame :: rest => .goesOn { x with code := frame.resume results, frames := rest } e

/-- The step after the code has failed. No caller sees code that broke off. -/
def unwind (x : Execution) (e : Engine) (failure : Failure) : Turn :=
  match failure, x.frames with
  | .panic text, _ => .ends (.brokeOff text)
  | failure, [] => .ends (.returned (.errored (failure.asError x.function)))
  | failure, frame :: rest => .goesOn { x with code := frame.recover failure, frames := rest } e

def step (library : Library) (x : Execution) (e : Engine) : Turn :=
  match x.code with
  | .done results => x.leave e results
  | .fail failure => x.unwind e failure
  | .perform (.readGlobal name) next => .goesOn (x.withCode (next (e.get? x.context name))) e
  | .perform (.writeGlobal name value) next =>
    .goesOn (x.withCode (next ())) (e.set x.context name value)
  | .perform .globalNames next => .goesOn (x.withCode (next (e.globals x.context).names)) e
  | .perform .suspend next =>
    .goesOn { x with code := next (), suspended := x.suspended || x.frames.isEmpty } e
  | .perform (.call function arguments) next =>
    match library.find? function with
    | some f =>
      .goesOn { x with code := f function arguments, frames := .call function next :: x.frames } e
    | none => .goesOn (x.withCode (next (.error (.functionNotFound function)))) e
  | .perform (.load chunk source) next =>
    .goesOn { x with code := loadCode chunk source, frames := .load next :: x.frames } e
  | .perform .findRuntime next => .goesOn (x.withCode (next (e.runtime? x.context).isSome)) e
  | .perform (.request r) _ => .asks r
  | .perform .mintHandle next =>
    let (handle, e) := e.mintHandle
    .goesOn (x.withCode (next handle)) e
  | .perform (.print line) next => .goesOn (x.withCode (next ())) (e.print line)
  | .perform (.note text) next => .goesOn (x.withCode (next ())) (e.note text)
  | .perform (.passGate gate) next =>
    if e.board.isOpen gate then .goesOn (x.withCode (next ())) e else .waits
  | .perform .readCounter next => .goesOn (x.withCode (next e.board.counter)) e
  | .perform (.writeCounter n) next => .goesOn (x.withCode (next ())) (e.setCounter n)

/-- Runs an execution to its end while requests are answered at once by `respond`. The fuel bounds
the number of steps; `none` means that it ran out or that a gate stayed closed. -/
def run {σ : Type} (library : Library)
    (respond : RuntimeId → Request → σ → Reply × σ) :
    (fuel : Nat) → Execution → Engine → σ → Option (Ending × Engine × σ)
  | 0, _, _, _ => none
  | fuel + 1, x, e, s =>
    match x.step library e with
    | .goesOn x e => run library respond fuel x e s
    | .waits => none
    | .asks r =>
      let (reply, s) := match e.runtime? x.context with
        | some runtime => respond runtime r s
        | none => (.error .shutDown, s)
      run library respond fuel (x.answer reply) e s
    | .ends ending => some (ending, e, s)

end Execution

end ScriptPool
