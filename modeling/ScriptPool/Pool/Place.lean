import ScriptPool.Bag.Task
import ScriptPool.Engine.Execution
import ScriptPool.Section.Registry

/-!
Where threads can stand in the procedures of the pool.

Every procedure is cut at its single operations on shared state: taking and giving back a lock,
one operation on the queue, one flag, one mailbox, one counter. A place says which operation comes
next and what the thread remembers.
-/

namespace ScriptPool

/-- A task that has been submitted, with the number of its submission. -/
structure Submission where
  ticket : Nat
  task : Task

def Submission.function (s : Submission) : String :=
  s.task.function

/-! ### Procedures on the workers of the pool -/

/-- Starting idle workers, in the order of the pool and with the pool locked. -/
inductive StartPlace where
  | locking (limit : Nat)
  /-- Before the running flag of the next worker is tried. -/
  | trying (rest : List Nat) (limit started : Nat)
  /-- The flag of a worker is raised; the command is still to be sent. -/
  | sending (serial : Nat) (rest : List Nat) (limit started : Nat)
  | unlocking (started : Nat)

/-- What a look at the workers asks. -/
inductive Question where
  /-- Whether some other worker executes a task that calls a function. -/
  | executing (function : String)
  /-- Whether some other worker is running. -/
  | running

/-- Looking at the other workers one by one, with the pool locked. -/
inductive LookPlace where
  | locking
  | looking (rest : List Nat)
  | unlocking (found : Bool)

/-- Taking all workers out of the pool and stopping them. -/
inductive DismissPlace where
  | locking
  | taking
  /-- Before a worker is told to stop. -/
  | telling (rest : List Nat) (count : Nat)
  /-- Before the thread of a worker is awaited. -/
  | awaiting (serial : Nat) (rest : List Nat) (count : Nat)

/-- Starting new workers with the numbers from `id` up to `count`. -/
inductive HirePlace where
  | creating (id count : Nat)
  | locking (serial id count : Nat)
  | pushing (serial id count : Nat)

/-- Starting workers for the tasks in the queue. -/
inductive DrivePlace where
  | measuring
  | starting (place : StartPlace)

/-! ### Requests -/

inductive SubmitPlace where
  | checking (text : String)
  | locking (call : Call)
  /-- Before the next global is read; the earlier ones are captured. -/
  | reading (call : Call) (names : List String) (captured : Snapshot)
  /-- Before the tagged remainder of a global with handles is written back. -/
  | tagging (call : Call) (name : String) (left : Value) (names : List String)
      (captured : Snapshot)
  | unlocking (task : Task)
  | pushing (task : Task)
  | counting
  | notifying
  | starting (place : StartPlace)

/-- Waiting for the tasks that call a function. The generation of activity that was seen first
tells whether anything happened while looking. -/
inductive JoinPlace where
  | checking
  | sampling
  | searching (seen : Nat)
  | looking (seen : Nat) (pending : Bool) (place : LookPlace)
  | confirming (seen : Nat)
  | driving (seen : Nat) (place : DrivePlace)
  | rechecking (seen : Nat)
  | waiting (seen : Nat)

/-- Waiting for all tasks. -/
inductive JoinAllPlace where
  | checking
  | locking
  | noticing
  | sampling
  | driving (seen : Nat) (place : DrivePlace)
  | looking (seen : Nat) (place : LookPlace)
  | searching (seen : Nat)
  | confirming (seen : Nat)
  | rechecking (seen : Nat)
  | waiting (seen : Nat)

/-- Changing the number of workers. -/
inductive ResizePlace where
  | checking
  | reading
  | locking (size : Nat)
  | placing (size : Nat)
  | joining (size : Nat) (place : JoinAllPlace)
  | dismissing (size : Nat) (place : DismissPlace)
  | hiring (size : Nat) (place : HirePlace)
  | storing (size : Nat)
  | driving (size : Nat) (place : DrivePlace)
  /-- A worker could not be started: the pool is locked and counted. -/
  | failing (e : PoolError)
  | surveying (e : PoolError)
  | keeping (e : PoolError) (started : Nat)
  | drivingOn (e : PoolError) (place : DrivePlace)

/-- A request in progress. -/
inductive Asking where
  | submit (source : ContextId) (place : SubmitPlace)
  | join (function : String) (place : JoinPlace)
  | joinAll (place : JoinAllPlace)
  | acquire (name : String) (place : AcquirePlace)
  | release (name : String) (place : ReleasePlace)
  | resize (count : Nat) (place : ResizePlace)
  /-- The id of a section was refused. -/
  | refused (e : PoolError)

/-- The first place of a request made from a context. -/
def Request.begin (source : ContextId) : Request → Asking
  | .parallel text => .submit source (.checking text)
  | .join function => .join function .checking
  | .joinAll => .joinAll .checking
  | .acquire id =>
    match sectionName id with
    | .ok name => .acquire name .entering
    | .error e => .refused e
  | .release id =>
    match sectionName id with
    | .ok name => .release name .looking
    | .error e => .refused e
  | .resize count => .resize count .checking

/-- Code in progress, with the request that it waits for if there is one. -/
structure Activity where
  execution : Execution
  asking? : Option Asking

/-! ### Workers -/

/-- A command in the mailbox of a worker. -/
inductive Command where
  | run
  | stop
  deriving DecidableEq

/-- Where a worker stands in the execution of a task that it has claimed. -/
inductive TaskPlace where
  /-- The name of the function is to be published; the queue is still locked. -/
  | publishing
  /-- The queue is to be unlocked. -/
  | unlockingQueue
  | preparing
  | running (activity : Activity)
  | lockingMain (outcome : Invocation)
  /-- The main context is locked; the results of these names are still to be written. -/
  | writing (outcome : Invocation) (names : List String) (results : List Value)
  | unlockingMain (outcome : Invocation)
  | counting (outcome : Invocation)
  | countingTotal (outcome : Invocation)
  | replacing
  | clearing
  | notifying

/-- Where a worker stands. `once` says that the run ends after one task. -/
inductive WorkerPlace where
  | beginning
  | receiving
  | measuring
  | comparing (pending : Nat)
  | checking (once : Bool)
  | popping (once : Bool)
  | executing (once : Bool) (submission : Submission) (place : TaskPlace)
  | resting
  | announcing
  | exiting
  | gone

/-- A worker: what its thread shares with the pool and where the thread stands. -/
structure Worker where
  /-- The number of the worker in its pool. -/
  id : Nat
  running : Bool
  /-- The function of the task that the worker executes. -/
  current? : Option String
  mailbox : List Command
  completed : Nat
  failed : Nat
  /-- The private context, which no other thread touches. -/
  context : ContextId
  place : WorkerPlace

/-! ### Threads of the host -/

/-- What a coordinator reports about itself. -/
structure Metrics where
  poolSize : Nat
  queueLength : Nat
  busyWorkers : Nat
  executing : List String
  criticalSections : Nat
  submitted : Nat
  completed : Nat
  failed : Nat
  shutDown : Bool

/-- Shutting the coordinator down. -/
inductive ShutdownPlace where
  | swapping
  | dismissing (place : DismissPlace)
  | notifying (count : Nat)
  | surveying (count : Nat)

/-- Starting the coordinator. -/
inductive OpenPlace where
  | hiring (place : HirePlace)
  | closing (e : PoolError) (place : ShutdownPlace)

/-- Collecting the metrics, one reading at a time. The workers are read in two passes with the
pool locked. -/
inductive MeasurePlace where
  | locking
  | counting (rest : List Nat) (busy : Nat)
  | naming (rest : List Nat) (found : Metrics)
  | unlocking (found : Metrics)
  | queue (found : Metrics)
  | sections (found : Metrics)
  | submitted (found : Metrics)
  | completed (found : Metrics)
  | failed (found : Metrics)
  | flag (found : Metrics)

/-- What a thread of the host got from its last call. -/
inductive HostResult where
  | opened (result : Except PoolError Unit)
  | replied (reply : Reply)
  | closed
  | measured (found : Metrics)
  | ended (ending : Ending)

/-- Where a thread of the host stands. -/
inductive HostPlace where
  | free (last? : Option HostResult)
  | opening (place : OpenPlace)
  | asking (asking : Asking)
  | closing (place : ShutdownPlace)
  | measuring (place : MeasurePlace)
  | running (activity : Activity)

end ScriptPool
