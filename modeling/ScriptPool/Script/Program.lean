import ScriptPool.Error
import ScriptPool.Value.Basic

/-!
What code asks of its surroundings, as data.

A program is a tree of operations: it is finished, it has failed, or it performs one operation and
goes on with the answer. Host functions and statements alike are programs, so whatever runs them,
one operation at a time, decides how threads interleave.
-/

namespace ScriptPool

/-- A request to the parallel runtime. -/
inductive Request where
  /-- Submit a call for later. -/
  | parallel (text : String)
  /-- Wait until no queued or running task calls a function. -/
  | join (function : String)
  /-- Wait until the queue is empty and every worker is idle. -/
  | joinAll
  /-- Enter the critical section that a value names. -/
  | acquire (id : Value)
  /-- Leave the critical section that a value names. -/
  | release (id : Value)
  /-- Change the number of workers; zero leaves it and asks for it. -/
  | resize (count : Nat)

/-- What a request answers: the number of workers for a resize, zero for the others. -/
abbrev Reply := Except PoolError Nat

/-- One thing that code can do besides computing. -/
inductive Operation where
  | readGlobal (name : String)
  | writeGlobal (name : String) (value : Value)
  | globalNames
  /-- Mark the call in progress as suspended. -/
  | suspend
  /-- Call a function of the same engine. -/
  | call (function : String) (arguments : List Value)
  /-- Load a chunk in the same context. -/
  | load (chunk source : String)
  /-- Look whether a parallel runtime can be reached. -/
  | findRuntime
  | request (r : Request)
  /-- Make a new handle of the coordinator. -/
  | mintHandle
  | print (line : String)
  /-- Leave a note on the board that the host shares with its functions. -/
  | note (text : String)
  /-- Wait until a gate of the host has been opened. -/
  | passGate (gate : String)
  /-- Read or write the counter that the host shares with its functions. -/
  | readCounter
  | writeCounter (n : Nat)

@[reducible] def Operation.Answer : Operation → Type
  | .readGlobal _ => Option Value
  | .globalNames => List String
  | .call .. => Except ScriptError (List Value)
  | .load .. => Except ScriptError Unit
  | .findRuntime => Bool
  | .request _ => Reply
  | .mintHandle => Handle
  | .readCounter => Nat
  | _ => Unit

/-- How code can fail. -/
inductive Failure where
  /-- With an error of the script engine, which callers see as it is. -/
  | script (e : ScriptError)
  /-- With a message of the function's own. -/
  | message (text : String)
  /-- By breaking off; nothing but a worker stops this. -/
  | panic (text : String)
  deriving DecidableEq

def Failure.asError (function : String) : Failure → ScriptError
  | .script e => e
  | .message text => .runtime function text
  | .panic text => .panic function text

/-- Code that ends with a result of type `α`. -/
inductive Program (α : Type) where
  | done (result : α)
  | fail (failure : Failure)
  | perform (operation : Operation) (next : operation.Answer → Program α)

namespace Program

variable {α β : Type}

def bind : Program α → (α → Program β) → Program β
  | .done a, f => f a
  | .fail e, _ => .fail e
  | .perform operation next, f => .perform operation fun answer => (next answer).bind f

instance : Monad Program where
  pure := .done
  bind := .bind

def ask (operation : Operation) : Program operation.Answer :=
  .perform operation .done

def throw (e : ScriptError) : Program α :=
  .fail (.script e)

/-- The answer of an operation that may have failed. -/
def ofExcept : Except ScriptError α → Program α
  | .ok a => .done a
  | .error e => throw e

/-- Changes the errors that a program ends with. -/
def mapError (f : ScriptError → ScriptError) : Program α → Program α
  | .done a => .done a
  | .fail (.script e) => .fail (.script (f e))
  | .fail failure => .fail failure
  | .perform operation next => .perform operation fun answer => (next answer).mapError f

@[simp] theorem done_bind (a : α) (f : α → Program β) : (Program.done a).bind f = f a := rfl

@[simp] theorem fail_bind (e : Failure) (f : α → Program β) :
    (Program.fail e).bind f = .fail e := rfl

@[simp] theorem perform_bind (operation : Operation) (next : operation.Answer → Program α)
    (f : α → Program β) :
    (Program.perform operation next).bind f =
      .perform operation fun answer => (next answer).bind f := rfl

@[simp] theorem pure_eq (a : α) : (pure a : Program α) = .done a := rfl

@[simp] theorem bind_eq (p : Program α) (f : α → Program β) : p >>= f = p.bind f := rfl

theorem bind_done (p : Program α) : p.bind .done = p := by
  induction p with
  | done a => rfl
  | fail e => rfl
  | perform operation next ih => simp [ih]

end Program

/-- A function of the host program: given the name it was called under and its arguments, what it
does. -/
abbrev HostFunction := (calledAs : String) → List Value → Program (List Value)

end ScriptPool
