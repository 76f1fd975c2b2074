import ScriptPool.Proofs.Pool.Asking
import ScriptPool.Proofs.Pool.OwnSteps

namespace ScriptPool

namespace HostPlace

def withActivity (activity : Activity) : HostPlace → HostPlace
  | .running _ => .running activity
  | place => place

/-- The code that a thread of the host runs. -/
def activity? : HostPlace → Option Activity
  | .running activity => some activity
  | _ => none

end HostPlace

namespace WorkerPlace

/-- The place of a worker after a step of the request of its task. -/
def afterAsking (stage : Stage Asking Reply) : WorkerPlace → WorkerPlace
  | .executing once s (.running activity) =>
    .executing once s (.running (activity.afterAsking stage))
  | place => place

def withActivity (activity : Activity) : WorkerPlace → WorkerPlace
  | .executing once s (.running _) => .executing once s (.running activity)
  | place => place

/-- The code of the task that a worker executes. -/
def activity? : WorkerPlace → Option Activity
  | .executing _ _ (.running activity) => some activity
  | _ => none

end WorkerPlace

namespace World

/-- The world in which one thread stands elsewhere. -/
def moveThread (w : World) (f : HostPlace → HostPlace) (g : WorkerPlace → WorkerPlace) :
    ThreadId → World
  | .host host => { w with hosts := w.hosts.modify host f }
  | .worker serial => w.modifyWorker serial fun worker => { worker with place := g worker.place }

/-- The world in which a step of the request of a thread has moved the thread and nothing else. -/
def afterAsking (w : World) (me : ThreadId) (stage : Stage Asking Reply) : World :=
  w.moveThread (·.afterAsking stage) (·.afterAsking stage) me

/-- The world in which a thread runs other code. -/
def withActivity (w : World) (me : ThreadId) (activity : Activity) : World :=
  w.moveThread (·.withActivity activity) (·.withActivity activity) me

/-- The code that a thread runs. -/
def activity? (w : World) : ThreadId → Option Activity
  | .host host => (w.host? host).bind HostPlace.activity?
  | .worker serial => w.workers[serial]?.bind (·.place.activity?)

end World

/-- What a worker was told: whether to run, and the commands that it has not read. -/
def Worker.orders (worker : Worker) : Bool × List Command :=
  (worker.running, worker.mailbox)

namespace World

/-- Nothing that threads share was changed: the engine with the globals of all contexts, the queue,
the counters, the sections, the pool and its size, and no worker was made, woken or sent a
command. -/
structure Untouched (w w' : World) : Prop where
  engine : w'.engine = w.engine
  queue : w'.queue = w.queue
  submitted : w'.submitted = w.submitted
  completed : w'.completed = w.completed
  failed : w'.failed = w.failed
  sections : w'.sections = w.sections
  pool : w'.pool = w.pool
  poolSize : w'.poolSize = w.poolSize
  workers : w'.workers.map Worker.orders = w.workers.map Worker.orders

variable {library : Library} {pick : Nat} {me : ThreadId} {w v w' : World} {a a' : Asking}
  {stage : Stage Asking Reply} {f f' : HostPlace → HostPlace} {g g' : WorkerPlace → WorkerPlace}

theorem moveThread_untouched (w : World) (f : HostPlace → HostPlace)
    (g : WorkerPlace → WorkerPlace) (me : ThreadId) : w.Untouched (w.moveThread f g me) := by
  cases me with
  | host host => exact ⟨rfl, rfl, rfl, rfl, rfl, rfl, rfl, rfl, rfl⟩
  | worker serial =>
      refine ⟨rfl, rfl, rfl, rfl, rfl, rfl, rfl, rfl, ?_⟩
      have horders : ∀ worker : Worker,
          Worker.orders { worker with place := g worker.place } = id worker.orders := fun _ => rfl
      have hmap := map_modify_of_comm horders w.workers serial
      rw [List.modify_id] at hmap
      exact hmap

theorem moveThread_moveThread (w : World) (f f' : HostPlace → HostPlace)
    (g g' : WorkerPlace → WorkerPlace) (me : ThreadId) :
    (w.moveThread f g me).moveThread f' g' me = w.moveThread (f' ∘ f) (g' ∘ g) me := by
  cases me with
  | host host => simp [moveThread, List.modify_modify_eq]
  | worker serial =>
      simp only [moveThread, modifyWorker, List.modify_modify_eq]
      rfl

theorem moveThread_host {host : Nat} {place : HostPlace} (hplace : w.hosts[host]? = some place) :
    w.moveThread f g (.host host) = w.placeHost host (f place) := by
  rw [moveThread, placeHost, modify_eq_set_of_getElem? hplace]

theorem moveThread_worker {serial : Nat} {worker : Worker}
    (hworker : w.workers[serial]? = some worker) :
    w.moveThread f g (.worker serial) = w.placeWorker serial (g worker.place) := by
  rw [moveThread, placeWorker, modifyWorker, modifyWorker, modify_eq_set_of_getElem? hworker,
    modify_eq_set_of_getElem? hworker]

theorem withActivity_eq_afterAsking {activity : Activity} (hx : w.activity? me = some activity)
    (stage : Stage Asking Reply) :
    w.withActivity me (activity.afterAsking stage) = w.afterAsking me stage := by
  cases me with
  | host host =>
      obtain ⟨place, hplace, hx⟩ := Option.bind_eq_some_iff.mp hx
      rw [withActivity, afterAsking, moveThread_host hplace, moveThread_host hplace]
      cases place with
      | running activity => cases hx; rfl
      | _ => cases hx
  | worker serial =>
      obtain ⟨worker, hworker, hx⟩ := Option.bind_eq_some_iff.mp hx
      rw [withActivity, afterAsking, moveThread_worker hworker, moveThread_worker hworker]
      generalize worker.place = place at hx
      cases place with
      | executing once s p =>
          cases p with
          | running activity => cases hx; rfl
          | _ => cases hx
      | _ => cases hx

theorem advance_of_activityStep {activity activity' : Activity}
    (hx : w.activity? me = some activity)
    (hs : activityStep library pick me w activity = some (v, .going activity')) :
    w.advance library pick me = some (v.withActivity me activity') := by
  have hcrew := activityStep_crew hs
  cases me with
  | host host =>
      obtain ⟨place, hplace, hx⟩ := Option.bind_eq_some_iff.mp hx
      have hplace' : v.hosts[host]? = some place := by
        rw [show v.hosts = w.hosts from hcrew.hosts_eq]
        exact hplace
      rw [advance, hplace, Option.bind_some, withActivity, moveThread_host hplace']
      cases place with
      | running activity =>
          cases hx
          simp only [hostStep, hs, Option.map_some]
          rfl
      | _ => cases hx
  | worker serial =>
      obtain ⟨worker, hworker, hx⟩ := Option.bind_eq_some_iff.mp hx
      obtain ⟨worker', hworker', hplace'⟩ := hcrew.worker_eq hworker
      rw [advance, hworker, Option.bind_some, withActivity, moveThread_worker hworker', hplace']
      unfold workerStep
      generalize worker.place = place at hx
      cases place with
      | executing once s p =>
          cases p with
          | running activity =>
              cases hx
              simp only [taskStep, hs, Option.map_some]
              rfl
          | _ => cases hx
      | _ => cases hx

theorem advance_of_goesOn {x x' : Execution} {engine : Engine}
    (hx : w.activity? me = some ⟨x, none⟩) (hstep : x.step library w.engine = .goesOn x' engine) :
    w.advance library pick me =
      some ({ w with engine := engine }.withActivity me ⟨x', none⟩) := by
  apply advance_of_activityStep hx
  rw [activityStep, hstep]

theorem advance_of_asks {x : Execution} {r : Request} (hx : w.activity? me = some ⟨x, none⟩)
    (hstep : x.step library w.engine = .asks r) :
    w.advance library pick me = some (w.afterAsking me (.going (r.begin x.context))) := by
  rw [← withActivity_eq_afterAsking hx]
  apply advance_of_activityStep hx
  rw [activityStep, hstep]
  rfl

theorem activity?_of_asking (ha : w.asking? me = some a) :
    (∃ x, w.activity? me = some ⟨x, some a⟩) ∨
      ∃ host, me = .host host ∧ w.hosts[host]? = some (.asking a) := by
  cases awaits_iff.mpr ha with
  | call h => exact .inr ⟨_, rfl, h⟩
  | @code host x h =>
      refine .inl ⟨x, ?_⟩
      rw [activity?, host?, h]
      rfl
  | @task i worker once s x hworker hplace =>
      refine .inl ⟨x, ?_⟩
      rw [activity?, hworker, Option.bind_some, hplace]
      rfl

theorem advance_of_askingStep (ha : w.asking? me = some a)
    (hs : askingStep pick me w a = some (v, stage)) :
    w.advance library pick me = some (v.afterAsking me stage) := by
  have hcrew := askingStep_crew hs
  obtain ⟨settle, hsteps, hserves⟩ := (awaits_iff.mpr ha).advance library pick
  rw [hsteps, hs, Option.map_some, Option.some.injEq]
  have hsettle := hserves v stage
  dsimp only
  generalize settle v stage = w' at hsettle ⊢
  have hhosts : v.hosts = w.hosts := hcrew.hosts_eq
  cases hsettle with
  | call h =>
      rw [← hhosts] at h
      rw [afterAsking, moveThread_host h]
  | code h =>
      rw [← hhosts] at h
      rw [afterAsking, moveThread_host h]
      rfl
  | task hworker hplace =>
      obtain ⟨worker', hworker', hplace'⟩ := hcrew.worker_eq hworker
      rw [afterAsking, moveThread_worker hworker', hplace', hplace]
      rfl

/-- Whether a thread stands where it can wait for a request. -/
def CanAsk (w : World) : ThreadId → Prop
  | .host host => host < w.hosts.length
  | .worker serial => (w.activity? (.worker serial)).isSome = true

theorem canAsk_of_activity {activity : Activity} (hx : w.activity? me = some activity) :
    w.CanAsk me := by
  cases me with
  | host host =>
      obtain ⟨place, hplace, -⟩ := Option.bind_eq_some_iff.mp hx
      exact (List.getElem?_eq_some_iff.mp hplace).1
  | worker serial =>
      rw [CanAsk, hx]
      rfl

theorem canAsk_of_asking (ha : w.asking? me = some a) : w.CanAsk me := by
  obtain ⟨x, hx⟩ | ⟨host, rfl, hplace⟩ := activity?_of_asking ha
  · exact canAsk_of_activity hx
  · exact (List.getElem?_eq_some_iff.mp hplace).1

theorem asking?_afterAsking (h : w.CanAsk me) (stage : Stage Asking Reply) :
    (w.afterAsking me stage).asking? me = stage.asking? := by
  rw [asking?_eq_view]
  cases me with
  | host host =>
      have hplace : w.hosts[host]? = some w.hosts[host] := List.getElem?_eq_getElem h
      rw [afterAsking, moveThread_host hplace, view_placeHost h]
      generalize w.hosts[host] = place
      cases place with
      | free | opening | asking | closing | measuring | running =>
          cases stage with
          | going | «over» => rfl
  | worker serial =>
      obtain ⟨activity, hx⟩ := Option.isSome_iff_exists.mp h
      obtain ⟨worker, hworker, hx⟩ := Option.bind_eq_some_iff.mp hx
      rw [afterAsking, moveThread_worker hworker, placeWorker, view_modifyWorker hworker]
      generalize worker.place = place at hx
      cases place with
      | executing once s p =>
          cases p with
          | running activity =>
              cases stage with
              | going | «over» => rfl
          | _ => cases hx
      | _ => cases hx

theorem activity?_withActivity {activity : Activity} (hx : w.activity? me = some activity)
    (activity' : Activity) : (w.withActivity me activity').activity? me = some activity' := by
  cases me with
  | host host =>
      obtain ⟨place, hplace, hx⟩ := Option.bind_eq_some_iff.mp hx
      have hlt := (List.getElem?_eq_some_iff.mp hplace).1
      rw [withActivity, moveThread_host hplace, activity?, host?, placeHost,
        List.getElem?_set_self hlt]
      cases place with
      | running activity => rfl
      | _ => cases hx
  | worker serial =>
      obtain ⟨worker, hworker, hx⟩ := Option.bind_eq_some_iff.mp hx
      rw [withActivity, moveThread_worker hworker, activity?, getElem?_placeWorker hworker]
      generalize worker.place = place at hx
      cases place with
      | executing once s p =>
          cases p with
          | running activity => rfl
          | _ => cases hx
      | _ => cases hx

theorem withActivity_self {activity : Activity} (hx : w.activity? me = some activity) :
    w.withActivity me activity = w := by
  cases me with
  | host host =>
      obtain ⟨place, hplace, hx⟩ := Option.bind_eq_some_iff.mp hx
      have hset : w.hosts.set host place = w.hosts := by
        obtain ⟨hlt, rfl⟩ := List.getElem?_eq_some_iff.mp hplace
        exact List.set_getElem_self hlt
      rw [withActivity, moveThread_host hplace, placeHost]
      cases place with
      | running activity => cases hx; rw [HostPlace.withActivity, hset]
      | _ => cases hx
  | worker serial =>
      obtain ⟨worker, hworker, hx⟩ := Option.bind_eq_some_iff.mp hx
      have hplace : worker.place.withActivity activity = worker.place := by
        generalize worker.place = place at hx
        cases place with
        | executing once s p =>
            cases p with
            | running activity => cases hx; rfl
            | _ => cases hx
        | _ => cases hx
      rw [withActivity, moveThread_worker hworker, hplace, placeWorker, modifyWorker,
        modify_eq_set_of_getElem? hworker]
      exact setWorker_self hworker

theorem afterAsking_afterAsking (w : World) (me : ThreadId) (a : Asking)
    (stage : Stage Asking Reply) :
    (w.afterAsking me (.going a)).afterAsking me stage = w.afterAsking me stage := by
  have hhost (place : HostPlace) : (place.afterAsking (.going a)).afterAsking stage =
      place.afterAsking stage := by
    cases place with
    | free | opening | asking | closing | measuring | running =>
        cases stage with
        | going | «over» => rfl
  have hworker (place : WorkerPlace) : (place.afterAsking (.going a)).afterAsking stage =
      place.afterAsking stage := by
    cases place with
    | executing once s p =>
        cases p with
        | publishing | unlockingQueue | preparing | running | lockingMain | writing
        | unlockingMain | counting | countingTotal | replacing | clearing | notifying =>
            cases stage with
            | going | «over» => rfl
    | _ => rfl
  rw [afterAsking, afterAsking, moveThread_moveThread, afterAsking]
  exact congrArg₂ (w.moveThread · · me) (funext hhost) (funext hworker)

theorem withActivity_withActivity (w : World) (me : ThreadId) (activity activity' : Activity) :
    (w.withActivity me activity).withActivity me activity' = w.withActivity me activity' := by
  have hhost (place : HostPlace) : (place.withActivity activity).withActivity activity' =
      place.withActivity activity' := by
    cases place with
    | free | opening | asking | closing | measuring | running => rfl
  have hworker (place : WorkerPlace) : (place.withActivity activity).withActivity activity' =
      place.withActivity activity' := by
    cases place with
    | executing once s p =>
        cases p with
        | publishing | unlockingQueue | preparing | running | lockingMain | writing
        | unlockingMain | counting | countingTotal | replacing | clearing | notifying => rfl
    | _ => rfl
  rw [withActivity, withActivity, moveThread_moveThread, withActivity]
  exact congrArg₂ (w.moveThread · · me) (funext hhost) (funext hworker)

end World

end ScriptPool
