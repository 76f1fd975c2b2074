import ScriptPool.Pool.Machine

namespace ScriptPool

variable {library : Library} {pick i host : Nat} {worker : Worker} {task : Task} {w w' v : World}

/-- A step of code in progress, and how the code goes on. Code that waits for a request takes the steps
of the request. -/
inductive Activity.Goes (library : Library) (pick : Nat) (me : ThreadId) (w : World) :
    Activity → World → Stage Activity Ending → Prop where
  | asks {x : Execution} {a a' : Asking} {v : World}
      (h : askingStep pick me w a = some (v, .going a')) :
      Goes library pick me w ⟨x, some a⟩ v (.going ⟨x, some a'⟩)
  | replied {x : Execution} {a : Asking} {reply : Reply} {v : World}
      (h : askingStep pick me w a = some (v, .over reply)) :
      Goes library pick me w ⟨x, some a⟩ v (.going ⟨x.answer reply, none⟩)
  | went {x x' : Execution} {e : Engine} (h : x.step library w.engine = .goesOn x' e) :
      Goes library pick me w ⟨x, none⟩ { w with engine := e } (.going ⟨x', none⟩)
  | asked {x : Execution} {r : Request} (h : x.step library w.engine = .asks r) :
      Goes library pick me w ⟨x, none⟩ w (.going ⟨x, some (r.begin x.context)⟩)
  | ended {x : Execution} {ending : Ending} (h : x.step library w.engine = .ends ending) :
      Goes library pick me w ⟨x, none⟩ w (.over ending)

theorem activityStep_goes {me : ThreadId} {activity : Activity} {stage : Stage Activity Ending}
    (h : activityStep library pick me w activity = some (v, stage)) :
    activity.Goes library pick me w v stage := by
  obtain ⟨x, a?⟩ := activity
  cases a? with
  | some a =>
      obtain ⟨⟨u, stage'⟩, hs, heq⟩ := Option.map_eq_some_iff.mp h
      cases stage' with
      | going =>
          cases heq
          exact .asks hs
      | «over» =>
          cases heq
          exact .replied hs
  | none =>
      simp only [activityStep] at h
      split at h
      · cases h
        next hstep => exact .went hstep
      · cases h
      · cases h
        next hstep => exact .asked hstep
      · cases h
        next hstep => exact .ended hstep

theorem activityStep_over {me : ThreadId} {activity : Activity} {ending : Ending}
    (h : activityStep library pick me w activity = some (v, .over ending)) :
    v = w ∧ activity.asking? = none := by
  cases activityStep_goes h with
  | ended => exact ⟨rfl, rfl⟩

/-- A step from one place of a task to another. Errors have no results, and only they make the worker
replace its context. -/
inductive TaskPlace.Goes (library : Library) (pick i : Nat) (worker : Worker) (task : Task)
    (w : World) : TaskPlace → World → TaskPlace → Prop where
  | published :
      Goes library pick i worker task w .publishing
        (w.modifyWorker i fun worker => { worker with current? := some task.function })
        .unlockingQueue
  | unlockedQueue :
      Goes library pick i worker task w .unlockingQueue { w with queueHolder? := none } .preparing
  | prepared :
      Goes library pick i worker task w .preparing
        (startTask library worker.context task (w.report (.taskSpan task.function))).1
        (.running (startTask library worker.context task (w.report (.taskSpan task.function))).2)
  | ran {activity activity' : Activity} {v : World}
      (h : activityStep library pick (.worker i) w activity = some (v, .going activity')) :
      Goes library pick i worker task w (.running activity) v (.running activity')
  | ended {activity : Activity} {ending : Ending} (hcode : activity.asking? = none)
      (h : activityStep library pick (.worker i) w activity = some (w, .over ending)) :
      Goes library pick i worker task w (.running activity) w
        (.lockingMain (ending.guarded task.function))
  | locked {outcome : Invocation} (hfree : w.mainHolder? = none)
      (hhealthy : outcome.isHealthy = true) :
      Goes library pick i worker task w (.lockingMain outcome)
        { w with mainHolder? := some (.worker i) }
        (.writing outcome task.call.returns outcome.results)
  | lockedErrored {outcome : Invocation} (hfree : w.mainHolder? = none)
      (herrored : outcome.isHealthy = false) :
      Goes library pick i worker task w (.lockingMain outcome)
        { w with mainHolder? := some (.worker i) } (.unlockingMain outcome)
  | written (outcome : Invocation) (results : List Value) :
      Goes library pick i worker task w (.writing outcome [] results) w (.unlockingMain outcome)
  | wrote (outcome : Invocation) (name : String) (names : List String) (results : List Value) :
      Goes library pick i worker task w (.writing outcome (name :: names) results)
        { w with engine := writeResult worker.context w.main name (firstResult results) w.engine }
        (.writing outcome names results.tail)
  | unlocked (outcome : Invocation) :
      Goes library pick i worker task w (.unlockingMain outcome) w.unlockMain (.counting outcome)
  | counted (outcome : Invocation) :
      Goes library pick i worker task w (.counting outcome)
        (w.modifyWorker i fun worker =>
          if outcome.isHealthy then { worker with completed := worker.completed + 1 }
          else { worker with failed := worker.failed + 1 })
        (.countingTotal outcome)
  | failed (e : ScriptError) :
      Goes library pick i worker task w (.countingTotal (.errored e))
        ({ w with failed := w.failed + 1 }.report
          (.taskFailed task.function task.call.text e.message)) .replacing
  | completed {outcome : Invocation} (h : ∀ e, outcome ≠ .errored e) :
      Goes library pick i worker task w (.countingTotal outcome)
        ({ w with completed := w.completed + 1 }.report
          (.taskFinished task.function outcome.status)) .clearing
  | replaced {c : ContextId} {v : World} (h : w.privateContext = (.ok c, v)) :
      Goes library pick i worker task w .replacing
        ({ v.report .contextReplaced with
            engine := (v.report .contextReplaced).engine.unregister worker.context }.modifyWorker i
          fun worker => { worker with context := c })
        .clearing
  | notReplaced {e : ScriptError} {v : World} (h : w.privateContext = (.error e, v)) :
      Goes library pick i worker task w .replacing (v.report (.replacementFailed e.message)) .clearing
  | cleared :
      Goes library pick i worker task w .clearing
        (w.modifyWorker i fun worker => { worker with current? := none }) .notifying

theorem taskStep_goes {place place' : TaskPlace}
    (h : taskStep library pick i worker task w place = some (v, .going place')) :
    place.Goes library pick i worker task w v place' := by
  cases place with
  | publishing =>
      cases h
      exact .published
  | unlockingQueue =>
      cases h
      exact .unlockedQueue
  | preparing =>
      cases h
      exact .prepared
  | running activity =>
      simp only [taskStep, Option.map_eq_some_iff] at h
      obtain ⟨⟨u, stage⟩, hs, h⟩ := h
      cases stage with
      | going =>
          cases h
          exact .ran hs
      | «over» =>
          cases h
          obtain ⟨rfl, hcode⟩ := activityStep_over hs
          exact .ended hcode hs
  | lockingMain outcome =>
      simp only [taskStep, Option.map_eq_some_iff, World.lockMain_eq_some_iff] at h
      obtain ⟨u, ⟨hfree, rfl⟩, h⟩ := h
      split at h
      · cases h
        next hhealthy => exact .locked hfree hhealthy
      · cases h
        next herrored => exact .lockedErrored hfree (by simpa using herrored)
  | writing outcome names results =>
      cases names with
      | nil =>
          cases h
          exact .written outcome results
      | cons name names =>
          cases h
          exact .wrote outcome name names results
  | unlockingMain outcome =>
      cases h
      exact .unlocked outcome
  | counting outcome =>
      cases h
      exact .counted outcome
  | countingTotal outcome =>
      cases outcome with
      | errored e =>
          cases h
          exact .failed e
      | _ =>
          cases h
          exact .completed nofun
  | replacing =>
      simp only [taskStep] at h
      split at h
      · cases h
        next hcontext => exact .replaced hcontext
      · cases h
        next hcontext => exact .notReplaced hcontext
  | clearing =>
      cases h
      exact .cleared
  | notifying => cases h

theorem taskStep_over {place : TaskPlace}
    (h : taskStep library pick i worker task w place = some (v, .over ())) :
    place = .notifying ∧ v = w.notify := by
  cases place with
  | notifying =>
      cases h
      exact ⟨rfl, rfl⟩
  | running activity =>
      simp only [taskStep, Option.map_eq_some_iff] at h
      obtain ⟨⟨u, stage⟩, -, h⟩ := h
      cases stage with
      | going | «over» => cases h
  | lockingMain outcome =>
      simp only [taskStep, Option.map_eq_some_iff] at h
      obtain ⟨u, -, h⟩ := h
      cases h
  | writing outcome names results =>
      cases names with
      | nil | cons => cases h
  | countingTotal outcome =>
      cases outcome with
      | completed | suspended | errored => cases h
  | replacing =>
      simp only [taskStep] at h
      split at h
      · cases h
      · cases h
  | publishing | unlockingQueue | preparing | unlockingMain | counting | clearing => cases h

/-- What a step of a worker can do at a place of its loop. -/
inductive WorkerPlace.Goes (library : Library) (pick i : Nat) (worker : Worker) (w : World) :
    WorkerPlace → World → Prop where
  | began :
      Goes library pick i worker w .beginning
        ((w.report (.workerSpan worker.id)).placeWorker i .receiving)
  | received (hmail : worker.mailbox ≠ []) :
      Goes library pick i worker w .receiving (w.modifyWorker i Worker.receive)
  | measured (hfree : w.queueHolder? = none) :
      Goes library pick i worker w .measuring (w.placeWorker i (.comparing w.queue.length))
  | compared (pending : Nat) :
      Goes library pick i worker w (.comparing pending)
        (w.placeWorker i (.checking (pending ≤ w.poolSize)))
  | checkedEmpty (once : Bool) (hfree : w.queueHolder? = none) (hqueue : w.queue = []) :
      Goes library pick i worker w (.checking once) (w.placeWorker i .resting)
  | checked (once : Bool) (hfree : w.queueHolder? = none) (hqueue : w.queue ≠ []) :
      Goes library pick i worker w (.checking once) (w.placeWorker i (.popping once))
  | missed (once : Bool) (hfree : w.queueHolder? = none) (hqueue : w.queue = []) :
      Goes library pick i worker w (.popping once) (w.placeWorker i .resting)
  | popped (once : Bool) {s : Submission} {rest : List Submission} (hfree : w.queueHolder? = none)
      (hqueue : w.queue = s :: rest) :
      Goes library pick i worker w (.popping once)
        ({ w with queue := rest, queueHolder? := some (.worker i) }.placeWorker i
          (.executing once s .publishing))
  | went (once : Bool) {s : Submission} {place place' : TaskPlace} {v : World}
      (h : place.Goes library pick i worker s.task w v place') :
      Goes library pick i worker w (.executing once s place)
        (v.placeWorker i (.executing once s place'))
  | finished (once : Bool) (s : Submission) :
      Goes library pick i worker w (.executing once s .notifying)
        (w.notify.placeWorker i (if once then .resting else .checking once))
  | rested :
      Goes library pick i worker w .resting
        (w.modifyWorker i fun worker => { worker with running := false, place := .announcing })
  | announced : Goes library pick i worker w .announcing (w.notify.placeWorker i .receiving)
  | exited :
      Goes library pick i worker w .exiting
        ({ w.report .loopFinished with
            engine := (w.report .loopFinished).engine.unregister worker.context }.placeWorker i .gone)

theorem workerStep_goes (h : workerStep library pick i worker w = some v) :
    ∃ place, worker.place = place ∧ place.Goes library pick i worker w v := by
  refine ⟨worker.place, rfl, ?_⟩
  cases hplace : worker.place with
  | beginning =>
      simp only [workerStep, hplace, Option.some.injEq] at h
      subst h
      exact .began
  | receiving =>
      simp only [workerStep, hplace] at h
      split at h
      · cases h
      · cases h
        next hmail => exact .received fun hnil => hmail (hnil ▸ rfl)
  | measuring =>
      simp only [workerStep, hplace, World.onQueue_eq_some_iff] at h
      obtain ⟨hfree, rfl⟩ := h
      exact .measured hfree
  | comparing pending =>
      simp only [workerStep, hplace, Option.some.injEq] at h
      subst h
      exact .compared pending
  | checking once =>
      simp only [workerStep, hplace, World.onQueue_eq_some_iff] at h
      obtain ⟨hfree, rfl⟩ := h
      split
      · next hqueue => exact .checkedEmpty once hfree (List.isEmpty_iff.mp hqueue)
      · next hqueue => exact .checked once hfree (mt List.isEmpty_iff.mpr hqueue)
  | popping once =>
      simp only [workerStep, hplace, World.onQueue_eq_some_iff] at h
      obtain ⟨hfree, rfl⟩ := h
      split
      · next hqueue => exact .missed once hfree hqueue
      · next hqueue => exact .popped once hfree hqueue
  | executing once s place =>
      simp only [workerStep, hplace, Option.map_eq_some_iff] at h
      obtain ⟨⟨u, stage⟩, hs, rfl⟩ := h
      cases stage with
      | going place' => exact .went once (taskStep_goes hs)
      | «over» result =>
          obtain ⟨rfl, rfl⟩ := taskStep_over hs
          exact .finished once s
  | resting =>
      simp only [workerStep, hplace, Option.some.injEq] at h
      subst h
      exact .rested
  | announcing =>
      simp only [workerStep, hplace, Option.some.injEq] at h
      subst h
      exact .announced
  | exiting =>
      simp only [workerStep, hplace, Option.some.injEq] at h
      subst h
      exact .exited
  | gone => simp [workerStep, hplace] at h

/-- A step of the call that a thread of the host has in progress, and where it leaves the thread. -/
inductive HostPlace.Goes (library : Library) (pick host : Nat) (w : World) :
    HostPlace → World → HostPlace → Prop where
  | opens {place place' : OpenPlace} {v : World}
      (h : openStep (.host host) w place = some (v, .going place')) :
      Goes library pick host w (.opening place) v (.opening place')
  | opened {place : OpenPlace} {result : Except PoolError Unit} {v : World}
      (h : openStep (.host host) w place = some (v, .over result)) :
      Goes library pick host w (.opening place) v (.free (some (.opened result)))
  | asks {a a' : Asking} {v : World}
      (h : askingStep pick (.host host) w a = some (v, .going a')) :
      Goes library pick host w (.asking a) v (.asking a')
  | replied {a : Asking} {reply : Reply} {v : World}
      (h : askingStep pick (.host host) w a = some (v, .over reply)) :
      Goes library pick host w (.asking a) v (.free (some (.replied reply)))
  | closes {place place' : ShutdownPlace} {v : World}
      (h : shutdownStep (.host host) w place = some (v, .going place')) :
      Goes library pick host w (.closing place) v (.closing place')
  | closed {place : ShutdownPlace} {v : World}
      (h : shutdownStep (.host host) w place = some (v, .over ())) :
      Goes library pick host w (.closing place) v (.free (some .closed))
  | measures {place place' : MeasurePlace} {v : World}
      (h : measureStep (.host host) w place = some (v, .going place')) :
      Goes library pick host w (.measuring place) v (.measuring place')
  | measured {place : MeasurePlace} {found : Metrics} {v : World}
      (h : measureStep (.host host) w place = some (v, .over found)) :
      Goes library pick host w (.measuring place) v (.free (some (.measured found)))
  | runs {activity activity' : Activity} {v : World}
      (h : activityStep library pick (.host host) w activity = some (v, .going activity')) :
      Goes library pick host w (.running activity) v (.running activity')
  | ended {activity : Activity} {ending : Ending} {v : World}
      (h : activityStep library pick (.host host) w activity = some (v, .over ending)) :
      Goes library pick host w (.running activity) v (.free (some (.ended ending)))

theorem hostStep_goes {place : HostPlace} (h : hostStep library pick host place w = some w') :
    ∃ v place', w' = v.placeHost host place' ∧ place.Goes library pick host w v place' := by
  cases place with
  | free last? => cases h
  | opening place =>
      obtain ⟨⟨v, stage⟩, hs, rfl⟩ := Option.map_eq_some_iff.mp h
      cases stage with
      | going place' => exact ⟨v, _, rfl, .opens hs⟩
      | «over» result => exact ⟨v, _, rfl, .opened hs⟩
  | asking a =>
      obtain ⟨⟨v, stage⟩, hs, rfl⟩ := Option.map_eq_some_iff.mp h
      cases stage with
      | going a' => exact ⟨v, _, rfl, .asks hs⟩
      | «over» reply => exact ⟨v, _, rfl, .replied hs⟩
  | closing place =>
      obtain ⟨⟨v, stage⟩, hs, rfl⟩ := Option.map_eq_some_iff.mp h
      cases stage with
      | going place' => exact ⟨v, _, rfl, .closes hs⟩
      | «over» => exact ⟨v, _, rfl, .closed hs⟩
  | measuring place =>
      obtain ⟨⟨v, stage⟩, hs, rfl⟩ := Option.map_eq_some_iff.mp h
      cases stage with
      | going place' => exact ⟨v, _, rfl, .measures hs⟩
      | «over» found => exact ⟨v, _, rfl, .measured hs⟩
  | running activity =>
      obtain ⟨⟨v, stage⟩, hs, rfl⟩ := Option.map_eq_some_iff.mp h
      cases stage with
      | going activity' => exact ⟨v, _, rfl, .runs hs⟩
      | «over» ending => exact ⟨v, _, rfl, .ended hs⟩

end ScriptPool
