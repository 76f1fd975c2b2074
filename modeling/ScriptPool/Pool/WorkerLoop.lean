import ScriptPool.Pool.Requests

/-!
The life of a worker, step by step.

A worker sleeps until a command is in its mailbox. A run takes tasks from the queue until it is
empty, or a single task if the queue was no longer than the pool when the run started. The name of a
task's function is published before the queue is unlocked, so a join never misses a task on its way
from the queue to a worker. Whatever a task does, the worker goes on: after an error it replaces its
private context and keeps the old one only if no new one can be had.
-/

namespace ScriptPool

/-- One step of code in progress: of the request it waits for, or of the code itself. -/
def activityStep (library : Library) (pick : Nat) (me : ThreadId) (w : World)
    (activity : Activity) : Option (World × Stage Activity Ending) :=
  match activity.asking? with
  | some asking =>
    (askingStep pick me w asking).map fun (w, stage) =>
      match stage with
      | .going asking => (w, .going { activity with asking? := some asking })
      | .over reply => (w, .going ⟨activity.execution.answer reply, none⟩)
  | none =>
    match activity.execution.step library w.engine with
    | .goesOn x engine => some ({ w with engine := engine }, .going ⟨x, none⟩)
    | .waits => none
    | .asks r => some (w, .going { activity with
        asking? := some (r.begin activity.execution.context) })
    | .ends ending => some (w, .over ending)

/-- Starts a task in a private context: its snapshot is loaded, its arguments are read, and its
function is invoked. -/
def startTask (library : Library) (context : ContextId) (task : Task) (w : World) :
    World × Activity :=
  let globals := task.loadSnapshot (w.engine.globals context)
  let arguments := task.argumentValues globals
  let engine := (w.engine.setGlobals context globals).report (.invoking task.function)
  ({ w with engine := engine },
    ⟨.invoke library context task.function arguments, none⟩)

/-- Writes one result: into the private context first, and from there into the main one, so a handle
in it leaves its mark behind. -/
def writeResult (context main : ContextId) (name : String) (value : Value) (e : Engine) : Engine :=
  let (copy, globals) := ((e.globals context).set name value).takeOut name
  (e.setGlobals context globals).set main name copy

/-- One step of executing a claimed task. -/
def taskStep (library : Library) (pick : Nat) (serial : Nat) (worker : Worker) (task : Task)
    (w : World) : TaskPlace → Option (World × Stage TaskPlace Unit)
  | .publishing =>
    some (w.modifyWorker serial fun worker => { worker with current? := some task.function },
      .going .unlockingQueue)
  | .unlockingQueue => some ({ w with queueHolder? := none }, .going .preparing)
  | .preparing =>
    let (w, activity) := startTask library worker.context task (w.report (.taskSpan task.function))
    some (w, .going (.running activity))
  | .running activity =>
    (activityStep library pick (.worker serial) w activity).map fun (w, stage) =>
      match stage with
      | .going activity => (w, .going (.running activity))
      | .over ending => (w, .going (.lockingMain (ending.guarded task.function)))
  | .lockingMain outcome =>
    (w.lockMain (.worker serial)).map fun w =>
      (w, .going (if outcome.isHealthy then .writing outcome task.call.returns outcome.results
        else .unlockingMain outcome))
  | .writing outcome [] _ => some (w, .going (.unlockingMain outcome))
  | .writing outcome (name :: names) results =>
    let engine := writeResult worker.context w.main name (firstResult results) w.engine
    some ({ w with engine := engine },
      .going (.writing outcome names results.tail))
  | .unlockingMain outcome => some (w.unlockMain, .going (.counting outcome))
  | .counting outcome =>
    some (w.modifyWorker serial fun worker =>
        if outcome.isHealthy then { worker with completed := worker.completed + 1 }
        else { worker with failed := worker.failed + 1 },
      .going (.countingTotal outcome))
  | .countingTotal (.errored e) =>
    some ({ w with failed := w.failed + 1 }.report
        (.taskFailed task.function task.call.text e.message),
      .going .replacing)
  | .countingTotal outcome =>
    some ({ w with completed := w.completed + 1 }.report
        (.taskFinished task.function outcome.status),
      .going .clearing)
  | .replacing =>
    match w.privateContext with
    | (.ok fresh, w) =>
      let w := w.report .contextReplaced
      let w := { w with engine := w.engine.unregister worker.context }
      some (w.modifyWorker serial fun worker => { worker with context := fresh }, .going .clearing)
    | (.error e, w) => some (w.report (.replacementFailed e.message), .going .clearing)
  | .clearing =>
    some (w.modifyWorker serial fun worker => { worker with current? := none }, .going .notifying)
  | .notifying => some (w.notify, .over ())

/-- The place of a worker after it has read its next command. -/
def Worker.receive (worker : Worker) : Worker :=
  match worker.mailbox with
  | [] => worker
  | .run :: rest => { worker with mailbox := rest, place := .measuring }
  | .stop :: rest => { worker with mailbox := rest, place := .exiting }

theorem Worker.receive_context (worker : Worker) : worker.receive.context = worker.context := by
  unfold receive
  split
  · rfl
  · rfl
  · rfl

theorem Worker.receive_place {worker : Worker} (h : worker.place = .receiving) :
    worker.receive.place = .receiving ∨ worker.receive.place = .measuring ∨
      worker.receive.place = .exiting := by
  unfold receive
  split
  · exact .inl h
  · exact .inr (.inl rfl)
  · exact .inr (.inr rfl)

/-- One step of a worker, or `none` while it has to wait. -/
def workerStep (library : Library) (pick : Nat) (serial : Nat) (worker : Worker) (w : World) :
    Option World :=
  match worker.place with
  | .beginning => some ((w.report (.workerSpan worker.id)).placeWorker serial .receiving)
  | .receiving =>
    if worker.mailbox.isEmpty then none else some (w.modifyWorker serial Worker.receive)
  | .measuring => w.onQueue (w.placeWorker serial (.comparing w.queue.length))
  | .comparing pending => some (w.placeWorker serial (.checking (pending ≤ w.poolSize)))
  | .checking once => w.onQueue <|
    w.placeWorker serial (if w.queue.isEmpty then .resting else .popping once)
  | .popping once => w.onQueue <|
    match w.queue with
    | [] => w.placeWorker serial .resting
    | submission :: rest =>
      { w with queue := rest, queueHolder? := some (.worker serial) }.placeWorker serial
        (.executing once submission .publishing)
  | .executing once submission place =>
    (taskStep library pick serial worker submission.task w place).map fun (w, stage) =>
      w.placeWorker serial <|
        match stage with
        | .going place => .executing once submission place
        | .over () => if once then .resting else .checking once
  | .resting =>
    some (w.modifyWorker serial fun worker =>
      { worker with running := false, place := .announcing })
  | .announcing => some (w.notify.placeWorker serial .receiving)
  | .exiting =>
    let w := w.report .loopFinished
    some ({ w with engine := w.engine.unregister worker.context }.placeWorker serial .gone)
  | .gone => none

end ScriptPool
