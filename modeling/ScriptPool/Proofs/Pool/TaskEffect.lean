import ScriptPool.Proofs.Pool.Enactment

namespace ScriptPool

/-- How a worker starts a task: the queue is unlocked, the function is published, the snapshot is
loaded into the worker's context, and the function is called. -/
structure World.Starts (library : Library) (w : World) (i : Nat) (worker : Worker) (once : Bool)
    (s : Submission) (w' : World) : Prop where
  own : Globals.Assigned ((s.task.snapshot?.getD []).map Prod.fst)
    (fun k => ((s.task.snapshot?.getD []).map Prod.snd).getD k .nil)
    (w.engine.globals worker.context) (w'.engine.globals worker.context)
  rest : w' = { w with
    queueHolder? := none
    engine := ((w.engine.report (.taskSpan s.function)).setGlobals worker.context
      (w'.engine.globals worker.context)).report (.invoking s.function) }.setWorker i
        { worker with
          current? := some s.function
          place := .executing once s (.running ⟨.invoke library worker.context s.function
            (s.task.argumentValues (w'.engine.globals worker.context)), none⟩) }

section Loading

variable {library : Library} {i : Nat} {w : World} {worker : Worker} {once : Bool} {s : Submission}

theorem Task.loadSnapshot_eq_setAll (task : Task) (g : Globals) :
    task.loadSnapshot g = g.setAll (task.snapshot?.getD []) := by
  rw [Task.loadSnapshot, Globals.setAll]
  congr 1
  funext g entry
  exact g.putIn_eq entry.1 entry.2

/-- The world once a task is loaded into a context, but for the worker. -/
def World.loaded (w : World) (c : ContextId) (s : Submission) : World :=
  { w with
    queueHolder? := none
    engine := ((w.engine.report (.taskSpan s.function)).setGlobals c
      (s.task.loadSnapshot (w.engine.globals c))).report (.invoking s.function) }

theorem World.ownSteps_start (library : Library) (hworker : w.workers[i]? = some worker)
    (hplace : worker.place = .executing once s .publishing) :
    World.OwnSteps library i 3 w ((w.loaded worker.context s).setWorker i
      { worker with
        current? := some s.function
        place := .executing once s (.running ⟨.invoke library worker.context s.function
          (s.task.argumentValues (s.task.loadSnapshot (w.engine.globals worker.context))),
            none⟩) }) := by
  have hi := (List.getElem?_eq_some_iff.mp hworker).1
  refine World.OwnSteps.of_setWorker hworker ?_
  refine .executing (v := w) hi hplace (fun _ => by
    rw [taskStep, World.modifyWorker_setWorker]) ?_
  refine .executing (v := { w with queueHolder? := none }) hi rfl (fun _ => rfl) ?_
  refine .executing (v := w.loaded worker.context s) hi rfl (fun _ => rfl) ?_
  exact .refl library i _

theorem World.starts (library : Library) (hworker : w.workers[i]? = some worker)
    (hplace : worker.place = .executing once s .publishing)
    (hknown : worker.context < w.engine.contexts.length) :
    ∃ w', World.OwnSteps library i 3 w w' ∧ w.Starts library i worker once s w' := by
  refine ⟨_, World.ownSteps_start library hworker hplace, ?_⟩
  have hloaded : (w.loaded worker.context s).engine.globals worker.context =
      s.task.loadSnapshot (w.engine.globals worker.context) :=
    Engine.globals_setGlobals_self _ _ hknown
  constructor
  · have h := Globals.assigned_setAll (s.task.snapshot?.getD []) (w.engine.globals worker.context)
    rw [← Task.loadSnapshot_eq_setAll, ← hloaded] at h
    exact h
  · have hsame : w.loaded worker.context s = { w with
        queueHolder? := none
        engine := ((w.engine.report (.taskSpan s.function)).setGlobals worker.context
          ((w.loaded worker.context s).engine.globals worker.context)).report
            (.invoking s.function) } := by
      rw [hloaded]
      rfl
    rw [← hloaded]
    exact congrArg (World.setWorker · i _) hsame

end Loading

/-- The context and the engine with which a worker goes on after an error: a fresh context without
globals that is bound to the coordinator and registered in place of the old one, or the old context
if no other can be spawned. -/
inductive Engine.Renews (e : Engine) (c : ContextId) : ContextId → Engine → Prop where
  | fresh (hroom : e.spawnBudget? ≠ some 0) : Renews e c e.contexts.length { e with
      contexts := e.contexts ++ [⟨.empty, some coordinatorRuntime⟩]
      registered := e.contexts.length ::
        e.registered.filter fun d => d != c && d != e.contexts.length
      spawnBudget? := e.spawnBudget?.map (· - 1)
      reports := .contextReplaced :: .contextSpawned :: e.reports }
  | kept (hnone : e.spawnBudget? = some 0) :
      Renews e c c (e.report (.replacementFailed Engine.budgetExhausted.message))

/-- What becomes of a task whose call completed or was suspended. -/
structure World.Completes (w : World) (i : Nat) (worker : Worker) (once : Bool) (s : Submission)
    (outcome : Invocation) (w' : World) : Prop where
  main : Globals.Assigned s.task.call.returns (fun k => outcome.results.getD k .nil)
    (w.engine.globals w.main) (w'.engine.globals w.main)
  own : Globals.Assigned s.task.call.returns (fun k => (outcome.results.getD k .nil).relinquished)
    (w.engine.globals worker.context) (w'.engine.globals worker.context)
  rest : w' = { w with
    engine := ((w.engine.setGlobals worker.context (w'.engine.globals worker.context)).setGlobals
      w.main (w'.engine.globals w.main)).report (.taskFinished s.function outcome.status)
    completed := w.completed + 1
    generation := w.generation + 1 }.setWorker i { worker with
      current? := none
      completed := worker.completed + 1
      place := if once then .resting else .checking once }

/-- What becomes of a task whose call ended with an error. -/
structure World.Fails (w : World) (i : Nat) (worker : Worker) (once : Bool) (s : Submission)
    (e : ScriptError) (w' : World) : Prop where
  globals : ∀ c < w.engine.contexts.length, w'.engine.globals c = w.engine.globals c
  rest : ∃ c engine,
    Engine.Renews (w.engine.report (.taskFailed s.function s.task.call.text e.message))
      worker.context c engine ∧
    w' = { w with
      engine := engine
      failed := w.failed + 1
      generation := w.generation + 1 }.setWorker i { worker with
        current? := none
        failed := worker.failed + 1
        context := c
        place := if once then .resting else .checking once }

section Settling

variable {library : Library} {i : Nat} {w : World} {worker : Worker} {once : Bool} {s : Submission}
  {outcome : Invocation} {names : List String} {results : List Value}

theorem World.ownSteps_write (library : Library) (w : World) (worker : Worker)
    (hi : i < w.workers.length) (hne : worker.context ≠ w.main)
    (hown : worker.context < w.engine.contexts.length) (hmain : w.main < w.engine.contexts.length)
    (hplace : worker.place = .executing once s (.writing outcome names results)) :
    World.OwnSteps library i names.length (w.setWorker i worker)
      ({ w with engine := w.engine.writeBack worker.context w.main names results }.setWorker i
        { worker with
          place := .executing once s (.writing outcome [] (results.drop names.length)) }) := by
  induction names generalizing w worker results with
  | nil =>
      rw [Engine.writeBack_nil, List.length_nil, List.drop_zero, ← hplace]
      exact .refl library i _
  | cons name names ih =>
      refine .executing (v := { w with
        engine := writeResult worker.context w.main name (firstResult results) w.engine })
          hi hplace (fun _ => rfl) ?_
      rw [Engine.writeBack_cons hne hown hmain]
      have hlength : (writeResult worker.context w.main name (firstResult results)
          w.engine).contexts.length = w.engine.contexts.length := by
        rw [writeResult_eq_set hne, Engine.length_setGlobals, Engine.length_setGlobals]
      have hrest := ih
        { w with engine := writeResult worker.context w.main name (firstResult results) w.engine }
        { worker with place := .executing once s (.writing outcome names results.tail) }
          hi hne (hlength.symm ▸ hown) (hlength.symm ▸ hmain) rfl
      rw [List.drop_tail] at hrest
      exact hrest

theorem taskStep_countingTotal {pick : Nat} {task : Task} (hhealthy : outcome.isHealthy = true) :
    taskStep library pick i worker task w (.countingTotal outcome) =
      some ({ w with completed := w.completed + 1 }.report
        (.taskFinished task.function outcome.status), .going .clearing) := by
  cases outcome with
  | errored => cases hhealthy
  | completed | suspended => rfl

theorem World.ownSteps_complete (library : Library) (hi : i < w.workers.length)
    (hplace : worker.place = .executing once s (.unlockingMain outcome))
    (hhealthy : outcome.isHealthy = true) :
    World.OwnSteps library i 5 (w.setWorker i worker)
      ({ w with
        mainHolder? := none
        engine := w.engine.report (.taskFinished s.function outcome.status)
        completed := w.completed + 1
        generation := w.generation + 1 }.setWorker i { worker with
          current? := none
          completed := worker.completed + 1
          place := if once then .resting else .checking once }) := by
  refine .executing (v := w.unlockMain) hi hplace (fun _ => rfl) ?_
  refine .executing (v := w.unlockMain) hi rfl (fun _ => by
    simp only [taskStep, World.modifyWorker_setWorker, if_pos hhealthy]
    rfl) ?_
  refine .executing (v := { w.unlockMain with
    engine := w.engine.report (.taskFinished s.function outcome.status)
    completed := w.completed + 1 }) hi rfl
      (fun _ => taskStep_countingTotal hhealthy) ?_
  refine .executing (v := { w.unlockMain with
    engine := w.engine.report (.taskFinished s.function outcome.status)
    completed := w.completed + 1 }) hi rfl (fun _ => by
      rw [taskStep, World.modifyWorker_setWorker]) ?_
  refine .executing (v := { w with
    mainHolder? := none
    engine := w.engine.report (.taskFinished s.function outcome.status)
    completed := w.completed + 1
    generation := w.generation + 1 }) hi rfl (fun _ => rfl) ?_
  exact .refl library i _

/-- Writing the results of a call and counting it is all that a worker does after the call went
well. -/
theorem World.completes (library : Library) (hworker : w.workers[i]? = some worker)
    (hplace : worker.place = .executing once s (.lockingMain outcome))
    (hhealthy : outcome.isHealthy = true) (hfree : w.mainHolder? = none)
    (hne : worker.context ≠ w.main) (hown : worker.context < w.engine.contexts.length)
    (hmain : w.main < w.engine.contexts.length) :
    ∃ w', World.OwnSteps library i (s.task.call.returns.length + 7) w w' ∧
      w.Completes i worker once s outcome w' := by
  have hi := (List.getElem?_eq_some_iff.mp hworker).1
  let written : World := { w with
    mainHolder? := some (.worker i)
    engine := w.engine.writeBack worker.context w.main s.task.call.returns outcome.results }
  let final : World := { w with
    mainHolder? := none
    engine := written.engine.report (.taskFinished s.function outcome.status)
    completed := w.completed + 1
    generation := w.generation + 1 }.setWorker i { worker with
      current? := none
      completed := worker.completed + 1
      place := if once then .resting else .checking once }
  have hpublic : final.engine.globals w.main =
      (w.engine.globals w.main).setAll (resultPairs s.task.call.returns outcome.results) :=
    Engine.globals_writeBack_main hmain _ _
  have hprivate : final.engine.globals worker.context = (w.engine.globals worker.context).setAll
      ((resultPairs s.task.call.returns outcome.results).map
        fun pair => (pair.1, pair.2.relinquished)) :=
    Engine.globals_writeBack_own hne hown _ _
  refine ⟨final, ?_, ?_, ?_, ?_⟩
  · have hlock : ∀ pick, taskStep library pick i worker s.task (w.setWorker i worker)
        (.lockingMain outcome) = some ({ w with mainHolder? := some (.worker i) }.setWorker i worker,
          .going (.writing outcome s.task.call.returns outcome.results)) := by
      intro pick
      simp only [taskStep, World.lockMain_setWorker hfree, Option.map_some, if_pos hhealthy]
    refine World.OwnSteps.of_setWorker hworker (.executing hi hplace hlock ?_)
    have hwrite := World.ownSteps_write library { w with mainHolder? := some (.worker i) }
      { worker with
        place := .executing once s (.writing outcome s.task.call.returns outcome.results) }
      hi hne hown hmain rfl
    refine hwrite.trans (n := 6) (.executing (v := written) hi rfl (fun _ => rfl) ?_)
    exact World.ownSteps_complete library (w := written) hi rfl hhealthy
  · have h := Globals.assigned_results id rfl s.task.call.returns outcome.results
      (w.engine.globals w.main)
    rw [hpublic]
    simpa using h
  · rw [hprivate]
    exact Globals.assigned_results Value.relinquished rfl _ _ _
  · rw [hpublic, hprivate]
    simp only [final, hfree]
    rfl

theorem taskStep_replacing (library : Library) (i : Nat) (task : Task) (w : World)
    (worker : Worker) (hne : worker.context ≠ w.engine.contexts.length) :
    ∃ c engine, Engine.Renews w.engine worker.context c engine ∧
      ∀ pick, taskStep library pick i worker task (w.setWorker i worker) .replacing =
        some ({ w with engine := engine }.setWorker i { worker with context := c },
          .going .clearing) := by
  by_cases hbudget : w.engine.spawnBudget? = some 0
  · refine ⟨_, _, .kept hbudget, fun pick => ?_⟩
    have hrefused : (w.setWorker i worker).privateContext =
        (.error Engine.budgetExhausted, w.setWorker i worker) := by
      simp only [World.privateContext, World.setWorker, Engine.spawnContext, hbudget]
    simp only [taskStep, hrefused]
    rfl
  · refine ⟨_, _, .fresh hbudget, fun pick => ?_⟩
    have hspawned := World.privateContext_of_room (w := w.setWorker i worker) hbudget
    have hregistered : (w.engine.contexts.length ::
        w.engine.registered.filter (· != w.engine.contexts.length)).filter (· != worker.context) =
          w.engine.contexts.length :: w.engine.registered.filter fun d =>
            d != worker.context && d != w.engine.contexts.length := by
      rw [List.filter_cons_of_pos (by simpa using hne.symm), List.filter_filter]
    have hmodify := World.modifyWorker_setWorker { w with engine := { w.engine with
      contexts := w.engine.contexts ++ [⟨.empty, some coordinatorRuntime⟩]
      registered := (w.engine.contexts.length ::
        w.engine.registered.filter (· != w.engine.contexts.length)).filter (· != worker.context)
      spawnBudget? := w.engine.spawnBudget?.map (· - 1)
      reports := .contextReplaced :: .contextSpawned :: w.engine.reports } } i worker
        fun worker => { worker with context := w.engine.contexts.length }
    simp only [taskStep, hspawned]
    rw [← hregistered]
    exact congrArg (fun v : World => some (v, Stage.going TaskPlace.clearing)) hmodify

theorem Engine.Renews.globals {e e' : Engine} {c c' : ContextId} (h : Engine.Renews e c c' e')
    {d : ContextId} (hd : d < e.contexts.length) : e'.globals d = e.globals d := by
  cases h with
  | fresh => simp [Engine.globals, List.getElem?_append_left hd]
  | kept => rfl

/-- Counting the error and getting another context is all that a worker does after the call ended
with an error. -/
theorem World.fails (library : Library) {e : ScriptError} (hworker : w.workers[i]? = some worker)
    (hplace : worker.place = .executing once s (.lockingMain (.errored e)))
    (hfree : w.mainHolder? = none) (hknown : worker.context < w.engine.contexts.length) :
    ∃ w', World.OwnSteps library i 7 w w' ∧ w.Fails i worker once s e w' := by
  have hi := (List.getElem?_eq_some_iff.mp hworker).1
  let counted : World := { w with
    mainHolder? := none
    engine := w.engine.report (.taskFailed s.function s.task.call.text e.message)
    failed := w.failed + 1 }
  obtain ⟨c, engine, hrenews, hreplace⟩ := taskStep_replacing library i s.task counted
    { worker with failed := worker.failed + 1, place := .executing once s .replacing } hknown.ne
  refine ⟨{ counted with engine := engine, generation := w.generation + 1 }.setWorker i
    { worker with
      current? := none
      failed := worker.failed + 1
      context := c
      place := if once then .resting else .checking once }, ?_, ?_, ?_⟩
  · have hlock : ∀ pick, taskStep library pick i worker s.task (w.setWorker i worker)
        (.lockingMain (.errored e)) = some ({ w with mainHolder? := some (.worker i) }.setWorker i
          worker, .going (.unlockingMain (.errored e))) := by
      intro pick
      simp only [taskStep, World.lockMain_setWorker hfree, Option.map_some]
      rfl
    refine World.OwnSteps.of_setWorker hworker (.executing hi hplace hlock ?_)
    refine .executing (v := { w with mainHolder? := none }) hi rfl (fun _ => rfl) ?_
    refine .executing (v := { w with mainHolder? := none }) hi rfl (fun _ => by
      rw [taskStep, World.modifyWorker_setWorker]) ?_
    refine .executing (v := counted) hi rfl (fun _ => rfl) ?_
    refine .executing hi rfl hreplace ?_
    refine .executing (v := { counted with engine := engine }) hi rfl (fun _ => by
      rw [taskStep, World.modifyWorker_setWorker]) ?_
    refine .executing (v := { counted with engine := engine, generation := w.generation + 1 }) hi rfl
      (fun _ => rfl) ?_
    exact .refl library i _
  · intro d hd
    exact hrenews.globals hd
  · refine ⟨c, engine, hrenews, ?_⟩
    simp only [counted, hfree]

end Settling

section Code

variable {library : Library} {pick i : Nat} {w w' : World} {worker : Worker} {once : Bool}
  {s : Submission} {activity : Activity}

theorem World.ownSteps_end (library : Library) {ending : Ending}
    (hworker : w.workers[i]? = some worker)
    (hplace : worker.place = .executing once s (.running activity)) (hidle : activity.asking? = none)
    (hends : activity.execution.step library w.engine = .ends ending) :
    World.OwnSteps library i 1 w (w.setWorker i { worker with
      place := .executing once s (.lockingMain (ending.guarded s.function)) }) := by
  have hi := (List.getElem?_eq_some_iff.mp hworker).1
  have htask : ∀ pick, taskStep library pick i worker s.task (w.setWorker i worker)
      (.running activity) =
        some (w.setWorker i worker, .going (.lockingMain (ending.guarded s.function))) := by
    intro pick
    obtain ⟨x, a?⟩ := activity
    obtain rfl : a? = none := hidle
    have hends : x.step library (w.setWorker i worker).engine = .ends ending := hends
    simp only [taskStep, activityStep, hends, Option.map_some]
    rfl
  exact .of_setWorker hworker (.executing hi hplace htask (.refl library i _))

/-- Until its code ends, a task stays in its code, and what the worker has to itself stays as it
is. -/
theorem World.advance_code (hworker : w.workers[i]? = some worker)
    (hplace : worker.place = .executing once s (.running activity))
    (h : w.advance library pick (.worker i) = some w') :
    (∃ worker' activity', w'.workers[i]? = some worker' ∧ worker'.record = worker.record ∧
      worker'.place = .executing once s (.running activity')) ∨
    activity.asking? = none ∧ ∃ ending, activity.execution.step library w.engine = .ends ending := by
  simp only [World.advance, hworker, Option.bind_some, workerStep, hplace, taskStep,
    Option.map_eq_some_iff] at h
  obtain ⟨⟨u, next⟩, ⟨⟨v, stage⟩, hcode, hnext⟩, rfl⟩ := h
  have hv : Respects (fun _ => True) w v := activityStep_respects hcode
  obtain ⟨worker', hworker', hrecord⟩ := World.exists_worker_of_records
    (hv.records i _ trivial (World.records_getElem? hworker))
  cases stage with
  | going activity' =>
      cases hnext
      exact .inl ⟨_, activity', World.getElem?_placeWorker hworker' _, hrecord, rfl⟩
  | «over» ending =>
      cases activityStep_goes hcode with
      | ended hends => exact .inr ⟨rfl, ending, hends⟩

theorem World.move?_others {m : Move} (he : w.Enclosed) (hs : w.Secluded)
    (hworker : w.workers[i]? = some worker) (hm : m.isStepOf i = false)
    (h : w.move? library m = some w') : (∃ worker', w'.workers[i]? = some worker' ∧
      worker'.record = worker.record ∧ worker'.place = worker.place) ∧
        w'.engine.globals worker.context = w.engine.globals worker.context := by
  obtain ⟨worker', hworker', hrecord⟩ := World.exists_worker_of_records
    ((World.move?_respects h).records i _ hm (World.records_getElem? hworker))
  refine ⟨⟨worker', hworker', hrecord, ?_⟩, ?_⟩
  · have hplace := World.move?_place hm h hworker'
    rwa [hworker] at hplace
  · refine he.move?_globals hs hworker h ?_
    rintro pick rfl
    simp [Move.isStepOf] at hm

end Code

/-- How many steps a worker takes to settle a task once its call has ended. -/
def Invocation.settlingSteps (s : Submission) (outcome : Invocation) : Nat :=
  if outcome.isHealthy then s.task.call.returns.length + 7 else 7

/-- What becomes of a task whose call has ended. -/
def World.Settles (w : World) (i : Nat) (worker : Worker) (once : Bool) (s : Submission)
    (outcome : Invocation) (w' : World) : Prop :=
  match outcome with
  | .errored e => w.Fails i worker once s e w'
  | outcome => w.Completes i worker once s outcome w'

/-- What a worker does with a task, from the place where it stands. -/
structure TaskEffect (library : Library) (w : World) (i : Nat) (worker : Worker) (once : Bool)
    (s : Submission) : Prop where
  starts : worker.place = .executing once s .publishing →
    ∃ w', World.OwnSteps library i 3 w w' ∧ w.Starts library i worker once s w'
  /-- The code of the task goes on until it ends; nothing that the worker has to itself changes. -/
  code : ∀ activity pick w', worker.place = .executing once s (.running activity) →
    w.advance library pick (.worker i) = some w' →
    (∃ worker' activity', w'.workers[i]? = some worker' ∧ worker'.record = worker.record ∧
      worker'.place = .executing once s (.running activity')) ∨
    activity.asking? = none ∧ ∃ ending, activity.execution.step library w.engine = .ends ending
  /-- Breaking off counts as an error of the function. -/
  ends : ∀ activity ending, worker.place = .executing once s (.running activity) →
    activity.asking? = none → activity.execution.step library w.engine = .ends ending →
    World.OwnSteps library i 1 w (w.setWorker i { worker with
      place := .executing once s (.lockingMain (ending.guarded s.function)) })
  settles : ∀ outcome, worker.place = .executing once s (.lockingMain outcome) →
    w.mainHolder? = none → ∃ w', World.OwnSteps library i (outcome.settlingSteps s) w w' ∧
      w.Settles i worker once s outcome w'

/-- How a worker and its context stand among the others. -/
structure Sheltered (library : Library) (w : World) (i : Nat) (worker : Worker) : Prop where
  apart : worker.context ≠ w.main
  main : w.main < w.engine.contexts.length
  bound : ∃ g, w.engine.contexts[worker.context]? = some ⟨g, some coordinatorRuntime⟩
  /-- Nobody else moves the worker, changes what it has to itself, or touches its context. -/
  others : ∀ m w', m.isStepOf i = false → w.move? library m = some w' →
    (∃ worker', w'.workers[i]? = some worker' ∧ worker'.record = worker.record ∧
      worker'.place = worker.place) ∧
    w'.engine.globals worker.context = w.engine.globals worker.context

/-- What executing a task does, and all that it does.

In any world in which the context of a worker and the main context are two different ones, a worker
that has claimed a task loads its parameters, runs its function and settles it. If the call completed
or was suspended, the results are assigned to the return names in the main context, with their tags,
and in the worker's context, relinquished, and one more task is counted as completed. If it ended with
an error, no globals change, one more task is counted as failed, and the worker goes on in a fresh
context, or in its own if no other can be spawned. In both cases the worker publishes no function any
more and progress is announced, and nothing else has changed. In every world that a coordinator
reaches, the two contexts differ, the worker's one is bound to the coordinator, and it is touched by
nobody else. -/
theorem task_effect (library : Library) :
    (∀ (w : World) (i : Nat) (worker : Worker) (once : Bool) (s : Submission),
      w.workers[i]? = some worker → worker.context ≠ w.main →
      worker.context < w.engine.contexts.length → w.main < w.engine.contexts.length →
      TaskEffect library w i worker once s) ∧
    ∀ (engine : Engine) (main : ContextId) (poolSize others : Nat) (moves : List Move) (w : World),
      main < engine.contexts.length →
      Run library (World.initial engine main poolSize others) moves w →
      ∀ (i : Nat) (worker : Worker), w.workers[i]? = some worker → Sheltered library w i worker := by
  constructor
  · intro w i worker once s hworker hne hknown hmain
    constructor
    case starts => exact fun hplace => World.starts library hworker hplace hknown
    case code => exact fun activity pick w' hplace hadv => World.advance_code hworker hplace hadv
    case ends =>
      exact fun activity ending hplace hidle hends =>
        World.ownSteps_end library hworker hplace hidle hends
    case settles =>
      intro outcome hplace hfree
      cases outcome with
      | errored e => exact World.fails library hworker hplace hfree hknown
      | completed results | suspended results =>
          exact World.completes library hworker hplace rfl hfree hne hknown hmain
  · intro engine main poolSize others moves w hmain h i worker hworker
    have hinitial := World.Secluded.initial hmain poolSize others
    have hsecluded := hinitial.run h
    have henclosed := (World.Enclosed.initial hmain poolSize others).run hinitial
      (.initial engine main poolSize others) h
    refine ⟨(hsecluded.worker hworker).2, hsecluded.main_known, ?_, fun m w' hm hmove =>
      World.move?_others henclosed hsecluded hworker hm hmove⟩
    have hbound := h.bound _ (List.mem_map_of_mem (List.mem_of_getElem? hworker))
    rw [Engine.bindings, List.getElem?_map, Option.map_eq_some_iff] at hbound
    obtain ⟨⟨g, _⟩, hcontext, rfl⟩ := hbound
    exact ⟨g, hcontext⟩

/-- A call is submitted, and the worker takes some steps. -/
def soloSteps (steps : Nat) : List Move :=
  soloSubmitted ++ List.replicate steps (.step 0 (.worker 0))

/-- Whether a worker has claimed a task and not yet published its function. -/
def WorkerPlace.isPublishing : WorkerPlace → Bool
  | .executing _ _ .publishing => true
  | _ => false

theorem WorkerPlace.isPublishing_iff {place : WorkerPlace} :
    place.isPublishing = true ↔ ∃ once s, place = .executing once s .publishing := by
  constructor
  · intro h
    unfold isPublishing at h
    split at h
    · exact ⟨_, _, rfl⟩
    · cases h
  · rintro ⟨once, s, rfl⟩
    rfl

/-- Whether the call of `x = f()` has returned `true` and is about to be settled. -/
def WorkerPlace.hasTruth : WorkerPlace → Bool
  | .executing _ s (.lockingMain (.completed [.boolean true])) => s.task.call.returns = ["x"]
  | _ => false

theorem WorkerPlace.hasTruth_iff {place : WorkerPlace} : place.hasTruth = true ↔
    ∃ once s, place = .executing once s (.lockingMain (.completed [.boolean true])) ∧
      s.task.call.returns = ["x"] := by
  constructor
  · intro h
    unfold hasTruth at h
    split at h
    · exact ⟨_, _, rfl, of_decide_eq_true h⟩
    · cases h
  · rintro ⟨once, s, rfl, h⟩
    exact decide_eq_true h

/-- A worker claims a call of one result and starts it; when the function has returned, the result
comes to the main context. -/
theorem task_effect_solo : ∃ u u' w w' : World, Run soloLibrary soloStart (soloSteps 6) u ∧
    World.OwnSteps soloLibrary 0 3 u u' ∧ Run soloLibrary soloStart (soloSteps 10) w ∧
    World.OwnSteps soloLibrary 0 8 w w' ∧ w'.engine.get? w.main "x" = some (.boolean true) ∧
    w'.completed = w.completed + 1 := by
  have hclaimed : (soloStart.follow soloLibrary (soloSteps 6)).any (fun u =>
      u.workers[0]?.any (·.place.isPublishing)) = true := by
    decide +kernel
  have hreturned : (soloStart.follow soloLibrary (soloSteps 10)).any (fun w =>
      w.mainHolder?.isNone && w.workers[0]?.any (·.place.hasTruth)) = true := by
    decide +kernel
  obtain ⟨u, hu, hclaimed⟩ := (Option.any_eq_true _ _).mp hclaimed
  obtain ⟨w, hw, hreturned⟩ := (Option.any_eq_true _ _).mp hreturned
  rw [Bool.and_eq_true, Option.isNone_iff_eq_none] at hreturned
  obtain ⟨hfree, hreturned⟩ := hreturned
  obtain ⟨worker, hworker, hclaimed⟩ := (Option.any_eq_true _ _).mp hclaimed
  obtain ⟨worker', hworker', hreturned⟩ := (Option.any_eq_true _ _).mp hreturned
  obtain ⟨once, s, hplace⟩ := WorkerPlace.isPublishing_iff.mp hclaimed
  obtain ⟨once', s', hplace', hreturns⟩ := WorkerPlace.hasTruth_iff.mp hreturned
  have hu := run_iff_follow.mpr hu
  have hw := run_iff_follow.mpr hw
  have hmain : 0 < (Engine.initial "solo" none).createContext.2.contexts.length := by decide
  have heffect {v : World} {moves : List Move} {worker : Worker} (once : Bool) (s : Submission)
      (hv : Run soloLibrary soloStart moves v) (hworker : v.workers[0]? = some worker) :
      TaskEffect soloLibrary v 0 worker once s := by
    obtain ⟨hne, hmain, ⟨g, hcontext⟩, -⟩ :=
      (task_effect soloLibrary).2 _ 0 1 0 moves v hmain hv 0 worker hworker
    exact (task_effect soloLibrary).1 v 0 worker once s hworker hne
      (List.getElem?_eq_some_iff.mp hcontext).1 hmain
  obtain ⟨u', hstarts, -⟩ := (heffect once s hu hworker).starts hplace
  obtain ⟨w', hsettles, hcompletes⟩ := (heffect once' s' hw hworker').settles _ hplace' hfree
  have hcompletes : w.Completes 0 worker' once' s' (.completed [.boolean true]) w' := hcompletes
  rw [Invocation.settlingSteps, hreturns] at hsettles
  have hx := hcompletes.main.last 0 "x" (by rw [hreturns]; rfl) (by rw [hreturns]; simp)
  exact ⟨u, u', w, w', hu, hstarts, hw, hsettles, hx, congrArg World.completed hcompletes.rest⟩

end ScriptPool
