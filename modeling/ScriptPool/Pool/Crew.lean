import ScriptPool.Pool.World

/-!
Procedures on the workers of the pool: starting idle ones, looking at the others, dismissing all of
them and hiring new ones.

A thread that looks at the workers or starts them holds the lock of the pool, so nobody else starts
a worker meanwhile; the workers themselves go on. A worker never counts among the others of its own
thread.
-/

namespace ScriptPool

def coordinatorRuntime : RuntimeId := 0

namespace World

/-- Locks the pool, if it is free. -/
def lockPool (w : World) (me : ThreadId) : Option World :=
  if w.poolHolder?.isNone then some { w with poolHolder? := some me } else none

theorem lockPool_eq_some_iff {w w' : World} {me : ThreadId} :
    w.lockPool me = some w' ↔ w.poolHolder? = none ∧ w' = { w with poolHolder? := some me } := by
  unfold lockPool
  cases w.poolHolder? with
  | none => simp only [Option.isNone_none, if_true, Option.some.injEq, true_and, eq_comm]
  | some holder => simp

/-- Gives the lock of the pool back. -/
def unlockPool (w : World) : World :=
  { w with poolHolder? := none }

/-- Locks the main context, if it is free. -/
def lockMain (w : World) (me : ThreadId) : Option World :=
  if w.mainHolder?.isNone then some { w with mainHolder? := some me } else none

theorem lockMain_eq_some_iff {w w' : World} {me : ThreadId} :
    w.lockMain me = some w' ↔ w.mainHolder? = none ∧ w' = { w with mainHolder? := some me } := by
  unfold lockMain
  cases w.mainHolder? with
  | none => simp only [Option.isNone_none, if_true, Option.some.injEq, true_and, eq_comm]
  | some holder => simp

/-- Gives the lock of the main context back. -/
def unlockMain (w : World) : World :=
  { w with mainHolder? := none }

/-- One operation on the queue, which has to wait while another thread has it locked. -/
def onQueue {α : Type} (w : World) (result : α) : Option α :=
  if w.queueHolder?.isNone then some result else none

theorem onQueue_eq_some_iff {α : Type} {w : World} {a b : α} :
    w.onQueue a = some b ↔ w.queueHolder? = none ∧ a = b := by
  unfold onQueue
  split
  · next hfree =>
      rw [Option.isNone_iff_eq_none] at hfree
      simp [hfree]
  · next hheld =>
      rw [Option.isNone_iff_eq_none] at hheld
      simp [hheld]

/-- The world with a task added at the end of the queue. -/
def push (w : World) (task : Task) : World :=
  { w with queue := w.queue ++ [⟨w.tickets, task⟩], tickets := w.tickets + 1 }

def send (w : World) (serial : Nat) (command : Command) : World :=
  w.modifyWorker serial fun worker => { worker with mailbox := worker.mailbox ++ [command] }

def isRunning (w : World) (serial : Nat) : Bool :=
  w.workers[serial]?.any (·.running)

/-- Whether a worker executes a task that calls a function. -/
def isExecuting (w : World) (serial : Nat) (function : String) : Bool :=
  w.workers[serial]?.any fun worker => worker.current? = some function

/-- Whether the thread of a worker has ended. -/
def isGone (w : World) (serial : Nat) : Bool :=
  w.workers[serial]?.any fun worker => worker.place matches .gone

/-- Makes a context for a worker: spawned, bound to the coordinator and registered. -/
def privateContext (w : World) : Except ScriptError ContextId × World :=
  match w.engine.spawnContext with
  | (.ok c, engine) =>
    (.ok c, { w with engine := (engine.bind c coordinatorRuntime).register c })
  | (.error e, engine) => (.error e, { w with engine := engine })

/-- Adds a worker that is about to begin. -/
def addWorker (w : World) (id : Nat) (context : ContextId) : World :=
  { w with
    workers := w.workers ++ [{
      id, running := false, current? := none, mailbox := [], completed := 0, failed := 0,
      context, place := .beginning }] }

end World

/-- One step of starting idle workers; the result is how many were started. -/
def startStep (me : ThreadId) (w : World) : StartPlace → Option (World × Stage StartPlace Nat)
  | .locking limit =>
    (w.lockPool me).map fun w => (w, .going (.trying w.pool limit 0))
  | .trying [] _ started => some (w, .going (.unlocking started))
  | .trying (serial :: rest) limit started =>
    if started = limit then some (w, .going (.unlocking started))
    else if me = .worker serial ∨ w.isRunning serial then
      some (w, .going (.trying rest limit started))
    else
      some (w.modifyWorker serial fun worker => { worker with running := true },
        .going (.sending serial rest limit started))
  | .sending serial rest limit started =>
    some ((w.send serial .run).report .runRequested, .going (.trying rest limit (started + 1)))
  | .unlocking started => some (w.unlockPool, .over started)

/-- What a question says about one worker. -/
def Question.holds (w : World) (serial : Nat) : Question → Bool
  | .executing function => w.isExecuting serial function
  | .running => w.isRunning serial

/-- One step of looking at the other workers; the result is whether the question holds of one. -/
def lookStep (me : ThreadId) (question : Question) (w : World) :
    LookPlace → Option (World × Stage LookPlace Bool)
  | .locking => (w.lockPool me).map fun w => (w, .going (.looking w.pool))
  | .looking [] => some (w, .going (.unlocking false))
  | .looking (serial :: rest) =>
    if me = .worker serial then some (w, .going (.looking rest))
    else if question.holds w serial then some (w, .going (.unlocking true))
    else some (w, .going (.looking rest))
  | .unlocking found => some (w.unlockPool, .over found)

/-- One step of dismissing all workers; the result is how many there were. A worker that dismisses
itself does not wait for its own thread. -/
def dismissStep (me : ThreadId) (w : World) :
    DismissPlace → Option (World × Stage DismissPlace Nat)
  | .locking => (w.lockPool me).map fun w => (w, .going .taking)
  | .taking =>
    some ({ w with pool := [] }.unlockPool, .going (.telling w.pool w.pool.length))
  | .telling [] count => some (w, .over count)
  | .telling (serial :: rest) count =>
    let w := w.send serial .stop
    if me = .worker serial then some (w.report .workerDetached, .going (.telling rest count))
    else some (w, .going (.awaiting serial rest count))
  | .awaiting serial rest count =>
    if w.isGone serial then some (w.report .workerStopped, .going (.telling rest count)) else none

/-- One step of hiring workers. It ends at the first one that cannot be started. -/
def hireStep (me : ThreadId) (w : World) :
    HirePlace → Option (World × Stage HirePlace (Except PoolError Unit))
  | .creating id count =>
    if id < count then
      match w.privateContext with
      | (.ok context, w) =>
        let serial := w.workers.length
        some ((w.addWorker id context).report .workerStarted, .going (.locking serial id count))
      | (.error e, w) => some (w, .over (.error (.workerStart id e.message)))
    else some (w.report (.workersSpawned count), .over (.ok ()))
  | .locking serial id count =>
    (w.lockPool me).map fun w => (w, .going (.pushing serial id count))
  | .pushing serial id count =>
    some ({ w with pool := w.pool ++ [serial] }.unlockPool, .going (.creating (id + 1) count))

/-- One step of starting workers for the tasks in the queue. -/
def driveStep (me : ThreadId) (w : World) :
    DrivePlace → Option (World × Stage DrivePlace Unit)
  | .measuring => w.onQueue <|
    if w.queue.isEmpty then (w, .over ()) else (w, .going (.starting (.locking w.queue.length)))
  | .starting place =>
    (startStep me w place).map fun (w, stage) =>
      match stage with
      | .going place => (w, .going (.starting place))
      | .over _ => (w, .over ())

end ScriptPool
