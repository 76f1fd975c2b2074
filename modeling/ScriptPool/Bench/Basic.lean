import ScriptPool.Bag.Task
import ScriptPool.Bench.Recorder
import ScriptPool.Engine.Execution

namespace ScriptPool

/-- What keeps a context registered, or only names one. -/
structure Registration where
  context : ContextId
  /-- Whether the engine keeps the context for it. -/
  tracked : Bool

/-- An engine with recorders, registrations and tasks. -/
structure Bench where
  library : Library
  engine : Engine
  recorders : Recorders
  /-- The number of the next recorder; zero is never used. -/
  nextRecorder : RuntimeId
  /-- The registrations in the order in which they were made; a dropped one leaves its place. -/
  registrations : List (Option Registration)
  tasks : List Task
  /-- The bag of tasks, oldest first. -/
  queue : List Task

namespace Bench

def initial (library : Library) (name : String) : Bench where
  library := library
  engine := (Engine.initial name none).createContext.2
  recorders := []
  nextRecorder := 1
  registrations := []
  tasks := []
  queue := []

def modifyEngine (b : Bench) (f : Engine → Engine) : Bench :=
  { b with engine := f b.engine }

def modifyGlobals (b : Bench) (c : ContextId) (f : Globals → Globals) : Bench :=
  b.modifyEngine fun e => e.setGlobals c (f (e.globals c))

/-! ### Runtimes -/

/-- The bench whose engine reaches the recorders that are still there. -/
def withRecorders (b : Bench) (rs : Recorders) : Bench :=
  { b with recorders := rs, engine := { b.engine with liveRuntimes := rs.map (·.1) } }

/-- Binds a context to a new recorder that refuses some operations. -/
def bind (b : Bench) (c : ContextId) (refused : List String) : Bench :=
  let recorder : Recorder := ⟨refused, []⟩
  let fresh := b.withRecorders (b.recorders ++ [(b.nextRecorder, recorder)])
  { fresh with nextRecorder := b.nextRecorder + 1 }.modifyEngine (·.bind c b.nextRecorder)

/-- Binds a context to a runtime that is not there. -/
def bindNowhere (b : Bench) (c : ContextId) : Bench :=
  b.modifyEngine (·.bind c 0)

/-- Does away with all recorders. -/
def dropRecorders (b : Bench) : Bench :=
  b.withRecorders []

/-! ### Running code -/

/-- How many steps code may take. -/
def patience : Nat := 100000000

/-- Runs code to its end. There is no ending if the code waits at a closed gate. -/
def run (b : Bench) (x : Execution) : Bench × Option Ending :=
  match Execution.run b.library Recorders.respond patience x b.engine b.recorders with
  | some (ending, engine, rs) => ({ b with engine := engine, recorders := rs }, some ending)
  | none => (b, none)

def invoke (b : Bench) (c : ContextId) (function : String) (arguments : List Value) :
    Bench × Option Ending :=
  (b.modifyEngine (·.report (.invoking function))).run
    (.invoke b.library c function arguments)

def load (b : Bench) (c : ContextId) (chunk source : String) : Bench × Option Ending :=
  b.run (.load c chunk source)

/-- The globals of a context as the function `names` lists them. -/
def listGlobals (b : Bench) (c : ContextId) : Bench × List (String × Value) :=
  let b := (b.invoke c "names" []).1
  (b, (b.engine.globals c).sorted)

/-- Moves a global to another context, or to another name. -/
def transferGlobal (b : Bench) (c : ContextId) (name : String) (destination : ContextId)
    (newName : String) : Bench :=
  let (value, left) := (b.engine.globals c).takeOut name
  (b.modifyGlobals c fun _ => left).modifyGlobals destination (·.set newName value)

/-! ### Registrations -/

def register (b : Bench) (c : ContextId) : Bench :=
  { b.modifyEngine (·.register c) with
    registrations := b.registrations ++ [some ⟨c, true⟩] }

/-- Makes a registration that the engine knows nothing of. -/
def registerDetached (b : Bench) (c : ContextId) : Bench :=
  { b with registrations := b.registrations ++ [some ⟨c, false⟩] }

/-- The registration at a position, unless it was dropped. -/
def registration? (b : Bench) (i : Nat) : Option Registration :=
  (b.registrations[i]?).join

def dropRegistration (b : Bench) (i : Nat) : Bench :=
  match b.registration? i with
  | none => b
  | some r =>
    let b := { b with registrations := b.registrations.set i none }
    if r.tracked then b.modifyEngine (·.unregister r.context) else b

/-! ### Tasks -/

def capture (b : Bench) (c : ContextId) (text : String) : Bench × Except PoolError Task :=
  match Call.parse text with
  | .error e => (b, .error e)
  | .ok call =>
    let (task, globals) := Task.capture call (b.engine.globals c)
    (b.modifyGlobals c fun _ => globals, .ok task)

/-- Captures a call and keeps the task. -/
def keep (b : Bench) (c : ContextId) (text : String) : Bench × Except PoolError Task :=
  match b.capture c text with
  | (b, .ok task) => ({ b with tasks := b.tasks ++ [task] }, .ok task)
  | failed => failed

/-- Captures a call and puts the task into the bag. -/
def push (b : Bench) (c : ContextId) (text : String) : Bench × Except PoolError Task :=
  match b.capture c text with
  | (b, .ok task) => ({ b with queue := b.queue ++ [task] }, .ok task)
  | failed => failed

/-- Takes the oldest task out of the bag. -/
def pop (b : Bench) : Bench × Option Task :=
  match b.queue with
  | [] => (b, none)
  | task :: rest => ({ b with queue := rest }, some task)

/-- Takes the snapshot away from a kept task. -/
def takeSnapshot (b : Bench) (i : Nat) : Bench × Option Snapshot :=
  ({ b with tasks := b.tasks.modify i Task.withoutSnapshot },
    (b.tasks[i]?).bind (·.snapshot?))

end Bench

end ScriptPool
