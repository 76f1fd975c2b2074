import ScriptPool.Pool.Crew

/-!
The requests that hosts and tasks make of a coordinator, step by step.

A join looks at the queue before it looks at the workers, because a task is published by its worker
before it leaves the queue; a join of all tasks looks at the workers first, because once all of
them are idle only the joining thread can still submit. Both look again if anything was announced
in between.
-/

namespace ScriptPool

/-- What is captured of a global: the copy for the task, and the remainder if it must be written
back. -/
def captureGlobal (value? : Option Value) : Value × Option Value :=
  match value? with
  | none => (.nil, none)
  | some value =>
    let (copy, left) := value.transfer
    (copy, if left.containsHandles then some left else none)

/-- The task of a call whose globals are captured. -/
def Task.ofCaptured (call : Call) (captured : Snapshot) : Task :=
  ⟨call, if call.parameters.isEmpty then none else some captured⟩

/-- One step of submitting a call from the globals of `source`. -/
def submitStep (source : ContextId) (me : ThreadId) (w : World) :
    SubmitPlace → Option (World × Stage SubmitPlace Reply)
  | .checking text =>
    if w.shutDown then some (w, .over (.error .shutDown))
    else
      match Call.parse text with
      | .error e => some (w, .over (.error e))
      | .ok call =>
        if source = w.main then some (w, .going (.locking call))
        else some (w, .going (.reading call call.parameters []))
  | .locking call =>
    (w.lockMain me).map fun w => (w, .going (.reading call call.parameters []))
  | .reading call [] captured =>
    let task := Task.ofCaptured call captured
    if source = w.main then some (w, .going (.unlocking task))
    else some (w, .going (.pushing task))
  | .reading call (name :: names) captured =>
    if (captured.get? name).isSome then some (w, .going (.reading call names captured))
    else
      let (copy, left?) := captureGlobal (w.engine.get? source name)
      let captured := captured ++ [(name, copy)]
      match left? with
      | some left => some (w, .going (.tagging call name left names captured))
      | none => some (w, .going (.reading call names captured))
  | .tagging call name left names captured =>
    some ({ w with engine := w.engine.set source name left },
      .going (.reading call names captured))
  | .unlocking task => some (w.unlockMain, .going (.pushing task))
  | .pushing task => w.onQueue <|
    ((w.push task).report (.taskEnqueued task.function task.call.text), .going .counting)
  | .counting => some ({ w with submitted := w.submitted + 1 }, .going .notifying)
  | .notifying => some (w.notify, .going (.starting (.locking 1)))
  | .starting place =>
    (startStep me w place).map fun (w, stage) =>
      match stage with
      | .going place => (w, .going (.starting place))
      | .over started => (if started = 0 then w.report .noIdleWorker else w, .over (.ok 0))

/-- One step of waiting for the tasks that call a function. -/
def joinStep (function : String) (me : ThreadId) (w : World) :
    JoinPlace → Option (World × Stage JoinPlace Reply)
  | .checking =>
    if w.shutDown then some (w, .over (.error .shutDown))
    else some (w.report (.joining function), .going .sampling)
  | .sampling => some (w, .going (.searching w.generation))
  | .searching seen => w.onQueue
    (w, .going (.looking seen (w.queue.any fun s => s.function = function) .locking))
  | .looking seen pending place =>
    (lookStep me (.executing function) w place).map fun (w, stage) =>
      match stage with
      | .going place => (w, .going (.looking seen pending place))
      | .over executing =>
        (w, .going (if pending then .driving seen .measuring
          else if executing then .rechecking seen else .confirming seen))
  | .confirming seen =>
    if w.generation = seen then some (w, .over (.ok 0)) else some (w, .going (.rechecking seen))
  | .driving seen place =>
    (driveStep me w place).map fun (w, stage) =>
      match stage with
      | .going place => (w, .going (.driving seen place))
      | .over _ => (w, .going (.rechecking seen))
  | .rechecking seen =>
    if w.shutDown then some (w, .over (.error .shutDown)) else some (w, .going (.waiting seen))
  | .waiting _ => some (w, .going .sampling)

/-- One step of waiting for all tasks. -/
def joinAllStep (me : ThreadId) (w : World) :
    JoinAllPlace → Option (World × Stage JoinAllPlace Reply)
  | .checking =>
    if w.shutDown then some (w, .over (.error .shutDown))
    else some (w.report .joiningAll, .going .locking)
  | .locking => (w.lockPool me).map fun w => (w, .going .noticing)
  | .noticing =>
    let alone := w.isPoolThread me && w.pool.length = 1
    some ((if alone then w.report .joiningFromOnlyWorker else w).unlockPool, .going .sampling)
  | .sampling => some (w, .going (.driving w.generation .measuring))
  | .driving seen place =>
    (driveStep me w place).map fun (w, stage) =>
      match stage with
      | .going place => (w, .going (.driving seen place))
      | .over _ => (w, .going (.looking seen .locking))
  | .looking seen place =>
    (lookStep me .running w place).map fun (w, stage) =>
      match stage with
      | .going place => (w, .going (.looking seen place))
      | .over busy => (w, .going (if busy then .rechecking seen else .searching seen))
  | .searching seen => w.onQueue
    (w, .going (if w.queue.isEmpty then .confirming seen else .rechecking seen))
  | .confirming seen =>
    if w.generation = seen then some (w, .over (.ok 0)) else some (w, .going (.rechecking seen))
  | .rechecking seen =>
    if w.shutDown then some (w, .over (.error .shutDown)) else some (w, .going (.waiting seen))
  | .waiting _ => some (w, .going .sampling)

/-- One step of changing the number of workers to `count`. -/
def resizeStep (count : Nat) (me : ThreadId) (w : World) :
    ResizePlace → Option (World × Stage ResizePlace Reply)
  | .checking =>
    if w.shutDown then some (w, .over (.error .shutDown)) else some (w, .going .reading)
  | .reading =>
    if count = 0 ∨ count = w.poolSize then some (w, .over (.ok w.poolSize))
    else some (w, .going (.locking w.poolSize))
  | .locking size => (w.lockPool me).map fun w => (w, .going (.placing size))
  | .placing size =>
    if w.isPoolThread me then some (w.unlockPool, .over (.error .resizeFromTask))
    else some (w.unlockPool, .going (.joining size .checking))
  | .joining size place =>
    (joinAllStep me w place).map fun (w, stage) =>
      match stage with
      | .going place => (w, .going (.joining size place))
      | .over (.ok _) => (w, .going (.dismissing size .locking))
      | .over (.error e) => (w, .over (.error e))
  | .dismissing size place =>
    (dismissStep me w place).map fun (w, stage) =>
      match stage with
      | .going place => (w, .going (.dismissing size place))
      | .over _ => (w, .going (.hiring size (.creating 0 count)))
  | .hiring size place =>
    (hireStep me w place).map fun (w, stage) =>
      match stage with
      | .going place => (w, .going (.hiring size place))
      | .over (.ok _) => (w, .going (.storing size))
      | .over (.error e) => (w, .going (.failing e))
  | .storing size => some ({ w with poolSize := count }, .going (.driving size .measuring))
  | .driving size place =>
    (driveStep me w place).map fun (w, stage) =>
      match stage with
      | .going place => (w, .going (.driving size place))
      | .over _ => (w.report (.resized size count), .over (.ok count))
  | .failing e => (w.lockPool me).map fun w => (w, .going (.surveying e))
  | .surveying e => some (w.unlockPool, .going (.keeping e w.pool.length))
  | .keeping e started =>
    some ({ w with poolSize := started }.report (.resizeIncomplete count started e.message),
      .going (.drivingOn e .measuring))
  | .drivingOn e place =>
    (driveStep me w place).map fun (w, stage) =>
      match stage with
      | .going place => (w, .going (.drivingOn e place))
      | .over _ => (w, .over (.error e))

/-- The world after a step on the sections that reported some events. -/
def World.withSections (w : World) (sections : Registry) (events : List Event) : World :=
  { w with sections, engine := events.foldl Engine.report w.engine }

/-- One step of a request. `pick` settles what the step leaves open. -/
def askingStep (pick : Nat) (me : ThreadId) (w : World) :
    Asking → Option (World × Stage Asking Reply)
  | .submit source place =>
    (submitStep source me w place).map fun (w, stage) =>
      match stage with
      | .going place => (w, .going (.submit source place))
      | .over reply => (w, .over reply)
  | .join function place =>
    (joinStep function me w place).map fun (w, stage) =>
      match stage with
      | .going place => (w, .going (.join function place))
      | .over reply => (w, .over reply)
  | .joinAll place =>
    (joinAllStep me w place).map fun (w, stage) =>
      match stage with
      | .going place => (w, .going (.joinAll place))
      | .over reply => (w, .over reply)
  | .acquire name place =>
    let (sections, events, stage) := acquireStep name me w.sections place
    let w := w.withSections sections events
    match stage with
    | .going place => some (w, .going (.acquire name place))
    | .over _ => some (w, .over (.ok 0))
  | .release name place =>
    let (sections, events, stage) := releaseStep name pick w.sections place
    let w := w.withSections sections events
    match stage with
    | .going place => some (w, .going (.release name place))
    | .over _ => some (w, .over (.ok 0))
  | .resize count place =>
    (resizeStep count me w place).map fun (w, stage) =>
      match stage with
      | .going place => (w, .going (.resize count place))
      | .over reply => (w, .over reply)
  | .refused e => some (w, .over (.error e))

end ScriptPool
