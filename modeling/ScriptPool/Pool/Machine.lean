import ScriptPool.Pool.WorkerLoop

/-!
The coordinator as a machine of threads.

Host threads and workers share a world. `World.advance` is one step of one thread. A run is any
sequence of moves that are possible one after another, so the reachable worlds are those of every
interleaving.
-/

namespace ScriptPool

/-- One step of shutting the coordinator down. Only the first call does anything. -/
def shutdownStep (me : ThreadId) (w : World) :
    ShutdownPlace → Option (World × Stage ShutdownPlace Unit)
  | .swapping =>
    if w.shutDown then some (w, .over ())
    else some ({ w with shutDown := true }, .going (.dismissing .locking))
  | .dismissing place =>
    (dismissStep me w place).map fun (w, stage) =>
      match stage with
      | .going place => (w, .going (.dismissing place))
      | .over count => (w, .going (.notifying count))
  | .notifying count => some (w.notify, .going (.surveying count))
  | .surveying count => w.onQueue <|
    let w := if w.queue.isEmpty then w else w.report (.tasksAbandoned w.queue.length)
    ((w.report (.workersStopped count)).report .coordinatorStopped, .over ())

/-- One step of starting the coordinator: it hires its workers, and if one cannot be started it
shuts down again. -/
def openStep (me : ThreadId) (w : World) :
    OpenPlace → Option (World × Stage OpenPlace (Except PoolError Unit))
  | .hiring place =>
    (hireStep me w place).map fun (w, stage) =>
      match stage with
      | .going place => (w, .going (.hiring place))
      | .over (.ok ()) => (w.report (.coordinatorStarted w.engine.name w.poolSize), .over (.ok ()))
      | .over (.error e) => (w, .going (.closing e .swapping))
  | .closing e place =>
    (shutdownStep me w place).map fun (w, stage) =>
      match stage with
      | .going place => (w, .going (.closing e place))
      | .over () => (w, .over (.error e))

/-- Metrics with nothing filled in. -/
def Metrics.blank : Metrics := ⟨0, 0, 0, [], 0, 0, 0, 0, false⟩

def measureStep (me : ThreadId) (w : World) :
    MeasurePlace → Option (World × Stage MeasurePlace Metrics)
  | .locking => (w.lockPool me).map fun w => (w, .going (.counting w.pool 0))
  | .counting [] busy =>
    some (w, .going (.naming w.pool { Metrics.blank with
      poolSize := w.pool.length, busyWorkers := busy }))
  | .counting (serial :: rest) busy =>
    some (w, .going (.counting rest (if w.isRunning serial then busy + 1 else busy)))
  | .naming [] found => some (w, .going (.unlocking found))
  | .naming (serial :: rest) found =>
    let name? := w.workers[serial]?.bind (·.current?)
    some (w, .going (.naming rest { found with executing := found.executing ++ name?.toList }))
  | .unlocking found => some (w.unlockPool, .going (.queue found))
  | .queue found => w.onQueue
    (w, .going (.sections { found with queueLength := w.queue.length }))
  | .sections found =>
    some (w, .going (.submitted { found with criticalSections := w.sections.size }))
  | .submitted found => some (w, .going (.completed { found with submitted := w.submitted }))
  | .completed found => some (w, .going (.failed { found with completed := w.completed }))
  | .failed found => some (w, .going (.flag { found with failed := w.failed }))
  | .flag found => some (w, .over { found with shutDown := w.shutDown })

/-! ### Threads of the host -/

/-- What a thread of the host can do with a coordinator that has been started. -/
inductive HostCall where
  /-- Make a request from a context. -/
  | ask (source : ContextId) (r : Request)
  | shutDown
  | measure
  /-- Call a function in a context. -/
  | invoke (context : ContextId) (function : String) (arguments : List Value)
  /-- Load a chunk in a context. -/
  | load (context : ContextId) (chunk source : String)

namespace HostCall

def context? : HostCall → Option ContextId
  | .ask c _ | .invoke c _ _ | .load c _ _ => some c
  | .shutDown | .measure => none

def place (library : Library) : HostCall → HostPlace
  | .ask source r => .asking (r.begin source)
  | .shutDown => .closing .swapping
  | .measure => .measuring .locking
  | .invoke context function arguments =>
    .running ⟨.invoke library context function arguments, none⟩
  | .load context chunk source => .running ⟨.load context chunk source, none⟩

def reports : HostCall → List Event
  | .invoke _ function _ => [.invoking function]
  | _ => []

end HostCall

/-- One step of a thread of the host, or `none` while it has to wait or has nothing to do. -/
def hostStep (library : Library) (pick : Nat) (host : Nat) (place : HostPlace) (w : World) :
    Option World :=
  let me := ThreadId.host host
  match place with
  | .free _ => none
  | .opening place =>
    (openStep me w place).map fun (w, stage) => w.placeHost host <|
      match stage with
      | .going place => .opening place
      | .over result => .free (some (.opened result))
  | .asking asking =>
    (askingStep pick me w asking).map fun (w, stage) => w.placeHost host <|
      match stage with
      | .going asking => .asking asking
      | .over reply => .free (some (.replied reply))
  | .closing place =>
    (shutdownStep me w place).map fun (w, stage) => w.placeHost host <|
      match stage with
      | .going place => .closing place
      | .over () => .free (some .closed)
  | .measuring place =>
    (measureStep me w place).map fun (w, stage) => w.placeHost host <|
      match stage with
      | .going place => .measuring place
      | .over found => .free (some (.measured found))
  | .running activity =>
    (activityStep library pick me w activity).map fun (w, stage) => w.placeHost host <|
      match stage with
      | .going activity => .running activity
      | .over ending => .free (some (.ended ending))

namespace World

def host? (w : World) (host : Nat) : Option HostPlace :=
  w.hosts[host]?

/-- Whether a thread of the host has no call in progress. -/
def isFree (w : World) (host : Nat) : Bool :=
  (w.host? host).any fun place => place matches .free _

/-- Whether the coordinator is still being started. -/
def isOpening (w : World) : Bool :=
  w.hosts.any fun place => place matches .opening _

/-- Whether a thread of the host can begin a call: it has no other call in progress, the coordinator
has been started, and the context of the call is one of the host's. -/
def canBegin (w : World) (host : Nat) (call : HostCall) : Bool :=
  w.isFree host && !w.isOpening && call.context?.all (w.hostContexts.contains ·)

def begin (library : Library) (host : Nat) (call : HostCall) (w : World) : World :=
  { w with engine := call.reports.foldl Engine.report w.engine }.placeHost host
    (call.place library)

/-- One step of a thread, or `none` if the thread has to wait. `pick` settles which sleeper a
release wakes. -/
def advance (library : Library) (pick : Nat) (w : World) : ThreadId → Option World
  | .host host => (w.host? host).bind fun place => hostStep library pick host place w
  | .worker serial =>
    w.workers[serial]?.bind fun worker => workerStep library pick serial worker w

theorem advance_host_iff {library : Library} {pick host : Nat} {w w' : World} :
    w.advance library pick (.host host) = some w' ↔
      ∃ place, w.hosts[host]? = some place ∧ hostStep library pick host place w = some w' :=
  Option.bind_eq_some_iff

theorem advance_worker_iff {library : Library} {pick serial : Nat} {w w' : World} :
    w.advance library pick (.worker serial) = some w' ↔
      ∃ worker, w.workers[serial]? = some worker ∧
        workerStep library pick serial worker w = some w' :=
  Option.bind_eq_some_iff

/-- Adds another context of the host's that reaches the coordinator. -/
def addContext (w : World) : World × ContextId :=
  let (c, engine) := w.engine.createContext
  ({ w with
    engine := engine.bind c coordinatorRuntime
    hostContexts := w.hostContexts ++ [c] }, c)

end World

/-! ### Runs -/

/-- One thing that happens: a step of a thread, the beginning of a call of the host, or something
that the host does by itself. -/
inductive Move where
  | step (pick : Nat) (thread : ThreadId)
  | begin (host : Nat) (call : HostCall)
  | addContext
  | setGlobal (context : ContextId) (name : String) (value : Value)
  | openGate (gate : String)
  | openAllGates
  | setBudget (budget? : Option Nat)

/-- The world after a move, or `none` if the move is not possible. -/
def World.move? (library : Library) (w : World) : Move → Option World
  | .step pick thread => w.advance library pick thread
  | .begin host call => if w.canBegin host call then some (w.begin library host call) else none
  | .addContext => some w.addContext.1
  | .setGlobal context name value =>
    if context ∈ w.hostContexts then some { w with engine := w.engine.set context name value }
    else none
  | .openGate gate => some { w with engine := w.engine.openGate gate }
  | .openAllGates => some { w with engine := w.engine.openAllGates }
  | .setBudget budget? => some { w with engine := { w.engine with spawnBudget? := budget? } }

theorem World.move?_begin_iff {library : Library} {host : Nat} {call : HostCall} {w w' : World} :
    w.move? library (.begin host call) = some w' ↔
      w.canBegin host call = true ∧ w' = w.begin library host call := by
  rw [World.move?, Option.ite_none_right_eq_some, Option.some_inj, eq_comm (a := w')]

theorem World.move?_setGlobal_iff {library : Library} {context : ContextId} {name : String}
    {value : Value} {w w' : World} :
    w.move? library (.setGlobal context name value) = some w' ↔
      context ∈ w.hostContexts ∧
        w' = { w with engine := w.engine.set context name value } := by
  rw [World.move?, Option.ite_none_right_eq_some, Option.some_inj, eq_comm (a := w')]

/-- Some moves lead from one world to another. -/
inductive Run (library : Library) (start : World) : List Move → World → Prop where
  | start : Run library start [] start
  | move {moves : List Move} {w w' : World} (h : Run library start moves w) (m : Move)
      (hm : w.move? library m = some w') : Run library start (moves ++ [m]) w'

/-- Some interleaving leads from one world to another. -/
def Reachable (library : Library) (start w : World) : Prop :=
  ∃ moves, Run library start moves w

theorem Run.trans {library : Library} {u v w : World} {moves moves' : List Move}
    (huv : Run library u moves v) (hvw : Run library v moves' w) :
    Run library u (moves ++ moves') w := by
  induction hvw with
  | start => simpa using huv
  | move _ m hm ih =>
      rw [← List.append_assoc]
      exact ih.move m hm

theorem Reachable.refl {library : Library} (w : World) : Reachable library w w :=
  ⟨[], .start⟩

theorem Reachable.trans {library : Library} {u v w : World} (huv : Reachable library u v)
    (hvw : Reachable library v w) : Reachable library u w := by
  obtain ⟨moves, huv⟩ := huv
  obtain ⟨moves', hvw⟩ := hvw
  exact ⟨moves ++ moves', huv.trans hvw⟩

theorem reachable_of_move {library : Library} {w w' : World} {m : Move}
    (h : w.move? library m = some w') : Reachable library w w' :=
  ⟨[m], Run.start.move m h⟩

end ScriptPool
