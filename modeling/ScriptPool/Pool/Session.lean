import ScriptPool.Pool.Schedule
import ScriptPool.Settings.Basic

namespace ScriptPool

/-- Why a coordinator could not be started. -/
inductive StartError where
  | settings (fault : SettingsFault)
  /-- The main context could not be created. -/
  | context (e : ScriptError)
  /-- The workers could not be started. -/
  | pool (e : PoolError)

/-- The wording of an error of starting a coordinator. -/
def StartError.message : StartError → String
  | .settings fault => fault.invalidMessage
  | .context e => "Failed to create the main context: " ++ e.message
  | .pool e => "Failed to start the worker pool: " ++ e.message

/-- A coordinator with the library of its engine. -/
structure Session where
  library : Library
  world : World

/-- How many workers a pool starts with on a host with some number of processors. -/
def PoolSettings.size (s : PoolSettings) (processors : Nat) : Nat :=
  s.poolSize?.getD processors

namespace Session

/-- The only thread of the host. -/
def host : Nat := 0

def engine (s : Session) : Engine :=
  s.world.engine

def modifyEngine (s : Session) (f : Engine → Engine) : Session :=
  { s with world := { s.world with engine := f s.world.engine } }

/-- Makes a call and runs it to its end. There is no result if the call cannot be made, or if it
waits for something that nobody can bring about. -/
def call (s : Session) (c : HostCall) : Session × Option HostResult :=
  if s.world.canBegin host c then
    let w := s.world.carryOut s.library host c
    ({ s with world := w }, w.result? host)
  else (s, none)

/-- A coordinator with a main context of its own that has not been started. -/
def prepare (library : Library) (engine : Engine) (poolSize : Nat) : Session :=
  let (main, engine) := engine.createContext
  let engine := { engine with liveRuntimes := [coordinatorRuntime] }.bind main coordinatorRuntime
  ⟨library, .initial engine main poolSize 0⟩

def start (library : Library) (engine : Engine) (settings : PoolSettings) (processors : Nat) :
    Session × Option StartError :=
  let s := prepare library engine (settings.size processors)
  match settings.fault? with
  | some fault => (s, some (.settings fault))
  | none =>
    let s := { s with world := s.world.finishCall library host World.patience }
    match s.world.result? host with
    | some (.opened (.error e)) => (s, some (.pool e))
    | _ => (s, none)

/-- Adds another context of the host's that reaches the coordinator. -/
def addContext (s : Session) : Session × ContextId :=
  let (w, c) := s.world.addContext
  ({ s with world := w }, c)

def ask (s : Session) (source : ContextId) (r : Request) : Session × Option Reply :=
  match s.call (.ask source r) with
  | (s, some (.replied reply)) => (s, some reply)
  | (s, _) => (s, none)

/-- Calls a function, or loads a chunk, in a context of the host's. -/
def perform (s : Session) (c : HostCall) : Session × Option Ending :=
  match s.call c with
  | (s, some (.ended ending)) => (s, some ending)
  | (s, _) => (s, none)

/-- Lets the workers go on until each of them sleeps or waits at a gate. -/
def settle (s : Session) : Session :=
  { s with world := s.world.settle s.library World.patience }

/-- Lets the workers go on until there are some number of notes. -/
def awaitNotes (s : Session) (count : Nat) : Session :=
  let enough (w : World) : Bool := count ≤ w.engine.board.notes.length
  { s with world := s.world.settleUntil s.library enough World.patience }

/-- Collects the metrics without waiting for the workers. -/
def measure (s : Session) : Session × Option Metrics :=
  match s.call .measure with
  | (s, some (.measured found)) => (s, some found)
  | (s, _) => (s, none)

/-- Opens a gate and lets the workers go on. -/
def openGate (s : Session) (gate : String) : Session :=
  (s.modifyEngine (·.openGate gate)).settle

/-- Opens all gates and lets the workers go on. -/
def release (s : Session) : Session :=
  (s.modifyEngine Engine.openAllGates).settle

def shutDown (s : Session) : Session :=
  (s.call .shutDown).1

/-- Waits for all tasks and shuts the coordinator down, unless that has happened before. -/
def finish (s : Session) : Session × Option Reply :=
  match s.ask s.world.main .joinAll with
  | (s, some (.ok n)) => (s.shutDown, some (.ok n))
  | (s, reply?) => (s.shutDown, reply?)

/-- The globals of a context as the function `names` lists them. -/
def listGlobals (s : Session) (c : ContextId) : Session × List (String × Value) :=
  let s := (s.perform (.invoke c "names" [])).1
  (s, (s.engine.globals c).sorted)

end Session

end ScriptPool
