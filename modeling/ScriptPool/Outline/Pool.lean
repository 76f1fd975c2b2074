import ScriptPool.Outline.Value
import ScriptPool.Pool.Machine

namespace ScriptPool

namespace Engine

def contextIdentity (c : ContextId) : Identity :=
  ⟨.context, c⟩

def contextOutline (e : Engine) (c : ContextId) : Outline :=
  .record "NativeContext"
    [("id", (contextIdentity c).outline), ("globals", .number (e.globals c).size),
      ("runtime_bound", .boolean (e.contexts[c]?.any fun context => context.binding?.isSome))]

end Engine

def Library.outline (l : Library) : Outline :=
  .record "FunctionLibrary" [("functions", .sequence (l.names.map .text))]

def Engine.outline (e : Engine) (library : Library) : Outline :=
  .record "NativeEngine"
    [("library", library.outline), ("registered", .number e.registered.length)]

def Task.outline (t : Task) : Outline :=
  .record "TaskDescriptor"
    [("call", .text t.call.text), ("function", .text t.call.function),
      ("returns", .sequence (t.call.returns.map .text)),
      ("snapshot_len", .option (t.snapshot?.map fun s => .number s.length))]

def queueOutline (length : Nat) : Outline :=
  .record "TaskQueue" [("len", .number length)]

def Registry.outline (r : Registry) : Outline :=
  .record "CriticalSections" [("sections", .number r.size)]

/-- The outline of the announcements of progress. -/
def generationOutline (generation : Nat) : Outline :=
  .record "Activity" [("generation", .number generation)]

def Worker.outline (worker : Worker) : Outline :=
  .record "WorkerUnit"
    [("id", .number worker.id), ("status", .word (if worker.running then "Running" else "Idle")),
      ("current", .option (worker.current?.map .text))]

namespace World

/-- The workers of the pool, in order. -/
def poolWorkers (w : World) : List Worker :=
  w.pool.filterMap fun serial => w.workers[serial]?

def poolOutline (w : World) : Outline :=
  .record "WorkerPool" [("workers", .sequence (w.poolWorkers.map Worker.outline))]

def tallyOutline (w : World) : Outline :=
  .record "PoolMetrics"
    [("pool_size", .number w.pool.length), ("busy_workers", .number w.busyWorkers),
      ("executing", .sequence ((w.poolWorkers.filterMap (·.current?)).map .text)),
      ("tasks_completed", .number (w.poolWorkers.foldl (fun n worker => n + worker.completed) 0)),
      ("tasks_failed", .number (w.poolWorkers.foldl (fun n worker => n + worker.failed) 0))]

def outline (w : World) : Outline :=
  .record "Coordinator"
    [("core", .record "Core"
      [("id", (⟨.coordinator, 0⟩ : Identity).outline), ("engine", .text w.engine.name),
        ("main", (Engine.contextIdentity w.main).outline), ("pool_size", .number w.poolSize),
        ("queue", queueOutline w.queue.length), ("sections", w.sections.outline)])]

end World

end ScriptPool
