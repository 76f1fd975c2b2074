import ScriptPool.Proofs.Pool.Procedures
import ScriptPool.Proofs.Pool.Stride

namespace ScriptPool

/-- The private context of a worker and the place where it stands. -/
def Worker.station (worker : Worker) : ContextId × WorkerPlace :=
  (worker.context, worker.place)

def World.stations (w : World) : List (ContextId × WorkerPlace) :=
  w.workers.map Worker.station

/-- The contexts, the queue and the stations of the workers are as they were. -/
structure Still (w w' : World) : Prop where
  contexts : w'.engine.contexts = w.engine.contexts
  main : w'.main = w.main
  queue : w'.queue = w.queue
  tickets : w'.tickets = w.tickets
  stations : w'.stations = w.stations

/-- The pool is as it was, too, and the coordinator was not shut down. -/
structure Calm (w w' : World) : Prop extends Still w w' where
  pool : w'.pool = w.pool
  shutDown : w'.shutDown = w.shutDown

variable {me : ThreadId} {w v w' : World}

theorem Still.refl (w : World) : Still w w :=
  ⟨rfl, rfl, rfl, rfl, rfl⟩

theorem Calm.refl (w : World) : Calm w w :=
  ⟨.refl w, rfl, rfl⟩

theorem Still.trans (h : Still w v) (h' : Still v w') : Still w w' where
  contexts := h'.contexts.trans h.contexts
  main := h'.main.trans h.main
  queue := h'.queue.trans h.queue
  tickets := h'.tickets.trans h.tickets
  stations := h'.stations.trans h.stations

theorem Calm.trans (h : Calm w v) (h' : Calm v w') : Calm w w' :=
  ⟨h.toStill.trans h'.toStill, h'.pool.trans h.pool, h'.shutDown.trans h.shutDown⟩

theorem Calm.report (h : Calm w w') (event : Event) : Calm w (w'.report event) :=
  ⟨⟨h.contexts, h.main, h.queue, h.tickets, h.stations⟩, h.pool, h.shutDown⟩

theorem World.report_still (w : World) (event : Event) : Still w (w.report event) :=
  ((Calm.refl w).report event).toStill

theorem World.stations_getElem? {i : Nat} {worker : Worker} (hworker : w.workers[i]? = some worker) :
    w.stations[i]? = some (worker.context, worker.place) := by
  rw [World.stations, List.getElem?_map, hworker]
  rfl

theorem World.stations_modify {i : Nat} {worker : Worker} (hworker : w.workers[i]? = some worker)
    (f : Worker → Worker) :
    (w.modifyWorker i f).stations = w.stations.set i (f worker).station := by
  rw [World.stations, World.modifyWorker, modify_eq_set_of_getElem? hworker, List.map_set,
    World.stations]

theorem World.stations_placeWorker {i : Nat} {c : ContextId} {place place' : WorkerPlace}
    (hi : w.stations[i]? = some (c, place)) :
    (w.placeWorker i place').stations = w.stations.set i (c, place') := by
  rw [World.stations, List.getElem?_map, Option.map_eq_some_iff] at hi
  obtain ⟨worker, hworker, hstation⟩ := hi
  have hcontext : worker.context = c := congrArg Prod.fst hstation
  rw [World.placeWorker, World.stations_modify hworker, ← hcontext]
  rfl

theorem World.stations_modifyWorker {f : Worker → Worker}
    (h : ∀ worker, (f worker).station = worker.station) (w : World) (serial : Nat) :
    (w.modifyWorker serial f).stations = w.stations := by
  have hmap : (w.modifyWorker serial f).stations = w.stations.modify serial id :=
    map_modify_of_comm h _ _
  rw [hmap, List.modify_id]

theorem World.modifyWorker_calm {f : Worker → Worker}
    (h : ∀ worker, (f worker).station = worker.station) (w : World) (serial : Nat) :
    Calm w (w.modifyWorker serial f) :=
  ⟨⟨rfl, rfl, rfl, rfl, World.stations_modifyWorker h w serial⟩, rfl, rfl⟩

theorem World.send_calm (w : World) (serial : Nat) (command : Command) :
    Calm w (w.send serial command) := by
  apply World.modifyWorker_calm
  intro worker
  rfl

theorem World.lockPool_calm (h : w.lockPool me = some w') : Calm w w' := by
  obtain ⟨-, rfl⟩ := World.lockPool_eq_some_iff.mp h
  exact ⟨⟨rfl, rfl, rfl, rfl, rfl⟩, rfl, rfl⟩

theorem World.unlockPool_calm (w : World) : Calm w w.unlockPool :=
  ⟨⟨rfl, rfl, rfl, rfl, rfl⟩, rfl, rfl⟩

theorem World.raise_calm (w : World) (serial : Nat) :
    Calm w (w.modifyWorker serial fun worker => { worker with running := true }) := by
  apply World.modifyWorker_calm
  intro worker
  rfl

theorem Oversees.calm (h : Oversees me w w') : Calm w w' := by
  induction h with
  | refl => exact .refl w
  | lock _ hlock ih => exact ih.trans (World.lockPool_calm hlock)
  | @unlock v _ ih => exact ih.trans v.unlockPool_calm
  | @raise v _ serial ih => exact ih.trans (v.raise_calm serial)
  | @send v _ serial ih => exact ih.trans (v.send_calm serial .run)
  | report _ event ih => exact ih.report event

theorem Manages.still (h : Manages me w w') : Still w w' := by
  induction h with
  | refl => exact .refl w
  | oversees _ hv ih => exact ih.trans hv.calm.toStill
  | dismiss _ serial ih => exact ih.trans (World.send_calm _ serial .stop).toStill
  | regroup _ _ ih | close _ ih | notify _ ih | size _ _ ih =>
      exact ih.trans ⟨rfl, rfl, rfl, rfl, rfl⟩

theorem World.withSections_calm (w : World) (sections : Registry) (events : List Event) :
    Calm w (w.withSections sections events) := by
  have hcontexts : ∀ e : Engine, (events.foldl Engine.report e).contexts = e.contexts := by
    intro e
    induction events generalizing e with
    | nil => rfl
    | cons event events ih => exact ih (e.report event)
  exact ⟨⟨hcontexts w.engine, rfl, rfl, rfl, rfl⟩, rfl, rfl⟩

/-- Whether a request of a worker submits nothing and leaves the pool as it is. A worker that wants
to change the pool is refused before it has done so. -/
def Asking.isCalm : Asking → Bool
  | .submit .. => false
  | .resize _ place =>
    match place with
    | .checking | .reading | .locking _ | .placing _ => true
    | _ => false
  | .join .. | .joinAll _ | .acquire .. | .release .. | .refused _ => true

def Stage.isCalm : Stage Asking Reply → Bool
  | .going asking => asking.isCalm
  | .over _ => true

theorem askingStep_calm {pick : Nat} {asking : Asking} {stage : Stage Asking Reply}
    (hme : w.isPoolThread me = true) (hcalm : asking.isCalm = true)
    (h : askingStep pick me w asking = some (w', stage)) : Calm w w' ∧ stage.isCalm = true := by
  cases askingStep_goes h with
  | submits | submitted => cases hcalm
  | joins hs | joined hs => exact ⟨(joinStep_oversees hs).calm, rfl⟩
  | joinsAll hs | joinedAll hs => exact ⟨(joinAllStep_oversees hs).calm, rfl⟩
  | acquires | acquired | releases | released => exact ⟨World.withSections_calm _ _ _, rfl⟩
  | refused => exact ⟨.refl w, rfl⟩
  | resizes hs =>
      cases resizeStep_goes hs with
      | checked | read => exact ⟨.refl w, rfl⟩
      | locked size hfree =>
          exact ⟨World.lockPool_calm (World.lockPool_eq_some_iff.mpr ⟨hfree, rfl⟩), rfl⟩
      | placed size hout =>
          rw [hme] at hout
          cases hout
      | _ => cases hcalm
  | resized hs =>
      cases resizeStep_replies hs with
      | refused | same => exact ⟨.refl w, rfl⟩
      | inPool => exact ⟨w.unlockPool_calm, rfl⟩
      | _ => cases hcalm

end ScriptPool
