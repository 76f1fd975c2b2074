import ScriptPool.Pool.Place

namespace ScriptPool

/-- Everything that threads can see of each other, and where each of them stands. -/
structure World where
  engine : Engine
  /-- The main context, whose globals receive the results of tasks. -/
  main : ContextId
  /-- The contexts that the host has made, the main one among them. No worker holds one of them. -/
  hostContexts : List ContextId
  /-- The bag of tasks, oldest first. -/
  queue : List Submission
  queueHolder? : Option ThreadId
  sections : Registry
  /-- The thread that captures from the main context or writes results into it. -/
  mainHolder? : Option ThreadId
  /-- The serial numbers of the workers in the pool. -/
  pool : List Nat
  poolHolder? : Option ThreadId
  /-- The desired number of workers. -/
  poolSize : Nat
  /-- How often progress was announced. -/
  generation : Nat
  shutDown : Bool
  submitted : Nat
  completed : Nat
  failed : Nat
  /-- How many tasks were pushed. -/
  tickets : Nat
  /-- All workers ever started; the serial number of a worker is its place here. -/
  workers : List Worker
  hosts : List HostPlace

namespace World

/-- A coordinator around a main context that the first thread of the host is about to start. There
are some other threads of the host. -/
def initial (engine : Engine) (main : ContextId) (poolSize others : Nat) : World where
  engine := engine
  main := main
  hostContexts := [main]
  queue := []
  queueHolder? := none
  sections := .empty
  mainHolder? := none
  pool := []
  poolHolder? := none
  poolSize := poolSize
  generation := 0
  shutDown := false
  submitted := 0
  completed := 0
  failed := 0
  tickets := 0
  workers := []
  hosts := .opening (.hiring (.creating 0 poolSize)) :: List.replicate others (.free none)

def report (w : World) (event : Event) : World :=
  { w with engine := w.engine.report event }

def modifyWorker (w : World) (serial : Nat) (f : Worker → Worker) : World :=
  { w with workers := w.workers.modify serial f }

/-- Moves a worker to another place. -/
def placeWorker (w : World) (serial : Nat) (place : WorkerPlace) : World :=
  w.modifyWorker serial fun worker => { worker with place := place }

/-- Moves a thread of the host to another place. -/
def placeHost (w : World) (host : Nat) (place : HostPlace) : World :=
  { w with hosts := w.hosts.set host place }

/-- Announces progress. -/
def notify (w : World) : World :=
  { w with generation := w.generation + 1 }

def anyInPool (w : World) (p : Worker → Bool) : Bool :=
  w.pool.any fun serial => w.workers[serial]?.any p

/-- Whether a thread belongs to a worker of the pool. -/
def isPoolThread (w : World) : ThreadId → Bool
  | .host _ => false
  | .worker serial => serial ∈ w.pool

def busyWorkers (w : World) : Nat :=
  w.pool.countP fun serial => w.workers[serial]?.any (·.running)

end World

end ScriptPool
