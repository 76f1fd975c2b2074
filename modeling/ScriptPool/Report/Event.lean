namespace ScriptPool

/-- How important an event is. -/
inductive Level where
  | error
  | warn
  | info
  | debug
  | trace
  deriving DecidableEq

def Level.name : Level → String
  | .error => "ERROR"
  | .warn => "WARN"
  | .info => "INFO"
  | .debug => "DEBUG"
  | .trace => "TRACE"

/-- A fact worth reporting. -/
inductive Event where
  -- running scripts
  | invoking (function : String)
  | contextSpawned
  | printed (line : String)
  -- preparing and loading scripts
  | directiveReplaced (line : Nat) (keyword : String)
  | callReplaced (line : Nat) (call : String)
  | scriptWritten (source output : String) (directives : Nat)
  | scriptLoaded (script : String) (directives : Nat)
  | scriptFailed (error script : String)
  -- critical sections
  | sectionCreated (name : String)
  | sectionNotHeld (name : String)
  | sectionUnknown (name : String)
  -- the coordinator
  | coordinatorStarted (engine : String) (poolSize : Nat)
  | workersSpawned (count : Nat)
  | workersStopped (count : Nat)
  | taskEnqueued (function call : String)
  | joining (function : String)
  | joiningAll
  | joiningFromOnlyWorker
  | tasksAbandoned (pending : Nat)
  | coordinatorStopped
  | resizeIncomplete (requested started : Nat) (error : String)
  | resized (before after : Nat)
  | noIdleWorker
  -- the workers
  | workerSpan (id : Nat)
  | taskSpan (function : String)
  | workerStarted
  | runRequested
  | workerDetached
  | workerStopped
  | loopFinished
  | taskFailed (function call error : String)
  | contextReplaced
  | replacementFailed (error : String)
  | taskFinished (function status : String)
  deriving DecidableEq

namespace Event

def level : Event → Level
  | .invoking _ | .contextSpawned | .noIdleWorker | .runRequested | .loopFinished => .trace
  | .directiveReplaced .. | .callReplaced .. | .sectionCreated _ | .taskEnqueued .. | .joining _
  | .joiningAll | .taskSpan _ | .workerStarted | .workerDetached | .workerStopped
  | .contextReplaced | .taskFinished .. => .debug
  | .printed _ | .scriptWritten .. | .scriptLoaded .. | .coordinatorStarted .. | .workersSpawned _
  | .workersStopped _ | .coordinatorStopped | .resized .. | .workerSpan _ => .info
  | .sectionNotHeld _ | .sectionUnknown _ | .joiningFromOnlyWorker | .tasksAbandoned _
  | .resizeIncomplete .. => .warn
  | .scriptFailed .. | .taskFailed .. | .replacementFailed _ => .error

/-- The name of the span that an event opens, if it opens one. -/
def span? : Event → Option String
  | .workerSpan _ => some "worker"
  | .taskSpan _ => some "task"
  | _ => none

def message? : Event → Option String
  | .invoking _ => some "Invoking"
  | .contextSpawned => some "Spawned context"
  | .printed line => some line
  | .directiveReplaced .. => some "Rewrote directive"
  | .callReplaced .. => some "Rewrote PARALLEL call"
  | .scriptWritten .. => some "Wrote instrumented script"
  | .scriptLoaded .. => some "Script loaded"
  | .scriptFailed .. => none
  | .sectionCreated _ => some "Creating critical section"
  | .sectionNotHeld _ => some "Released a critical section that was not held"
  | .sectionUnknown _ => some "Released a critical section that was never acquired"
  | .coordinatorStarted .. => some "Coordinator started"
  | .workersSpawned _ => some "Worker pool spawned"
  | .workersStopped _ => some "Worker pool stopped"
  | .taskEnqueued .. => some "Task enqueued"
  | .joining _ => some "Joining tasks"
  | .joiningAll => some "Joining all tasks"
  | .joiningFromOnlyWorker =>
    some "joinall called from the only worker; queued tasks cannot run until it returns"
  | .tasksAbandoned _ => some "Coordinator shut down with tasks still queued"
  | .coordinatorStopped => some "Coordinator shut down"
  | .resizeIncomplete .. => some "Worker pool resize incomplete"
  | .resized .. => some "Worker pool resized"
  | .noIdleWorker => some "No idle worker to start; task stays queued"
  | .workerSpan _ | .taskSpan _ => none
  | .workerStarted => some "Worker started"
  | .runRequested => some "Worker run requested"
  | .workerDetached => some "Worker detached from its own thread"
  | .workerStopped => some "Worker stopped"
  | .loopFinished => some "Worker command loop finished"
  | .taskFailed .. => some "Task failed; replacing worker context"
  | .contextReplaced => some "Worker context replaced"
  | .replacementFailed _ => some "Failed to spawn a replacement context; keeping the old one"
  | .taskFinished .. => some "Task finished"

/-- The named fields of an event, as text. -/
def fields : Event → List (String × String)
  | .invoking function => [("function", function)]
  | .directiveReplaced line keyword => [("line", toString line), ("directive", keyword)]
  | .callReplaced line call => [("line", toString line), ("call", call)]
  | .scriptWritten source output directives =>
    [("source", source), ("output", output), ("directives", toString directives)]
  | .scriptLoaded script directives => [("script", script), ("directives", toString directives)]
  | .scriptFailed error script => [("error", error), ("script", script)]
  | .sectionCreated name | .sectionNotHeld name | .sectionUnknown name => [("section", name)]
  | .coordinatorStarted engine poolSize =>
    [("engine", engine), ("pool_size", toString poolSize)]
  | .workersSpawned count => [("event", "spawned"), ("workers", toString count)]
  | .workersStopped count => [("event", "stopped"), ("workers", toString count)]
  | .taskEnqueued function call => [("function", function), ("call", call)]
  | .joining function => [("function", function)]
  | .tasksAbandoned pending => [("pending", toString pending)]
  | .resizeIncomplete requested started error =>
    [("requested", toString requested), ("started", toString started), ("error", error)]
  | .resized before after => [("from", toString before), ("to", toString after)]
  | .workerSpan id => [("id", toString id)]
  | .taskSpan function => [("function", function)]
  | .taskFailed function call error =>
    [("function", function), ("call", call), ("error", error)]
  | .replacementFailed error => [("error", error)]
  | .taskFinished function status => [("function", function), ("status", status)]
  | _ => []

/-- Whether an event belongs into the log of warnings and errors. -/
def isAlarm (e : Event) : Bool :=
  e.level = .warn || e.level = .error

end Event

end ScriptPool
