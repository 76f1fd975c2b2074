import ScriptPool.Proofs.Pool.Belongings
import ScriptPool.Proofs.Pool.MainOrder
import ScriptPool.Proofs.Pool.OwnSteps
import ScriptPool.Proofs.Pool.WriteBack

namespace ScriptPool

/-- How far the call of a task has come. -/
inductive CallState where
  | running (x : Execution)
  | ended (outcome : Invocation)

/-- One step of a call: its code goes on, is told the reply to its request, or ends. Breaking off
counts as an error of the function. -/
inductive CallState.Next (library : Library) (function : String) (e : Engine) :
    CallState → CallState → Prop where
  | step {x x' : Execution} {e' : Engine} (h : x.step library e = .goesOn x' e') :
      Next library function e (.running x) (.running x')
  | answer {x : Execution} {r : Request} (h : x.step library e = .asks r) (reply : Reply) :
      Next library function e (.running x) (.running (x.answer reply))
  | ends {x : Execution} {ending : Ending} (h : x.step library e = .ends ending) :
      Next library function e (.running x) (.ended (ending.guarded function))

/-- The call of a task, in a context that has some globals before the snapshot is loaded. -/
def Submission.invocation (library : Library) (s : Submission) (c : ContextId) (g : Globals) :
    Execution :=
  .invoke library c s.function (s.task.argumentValues (s.task.loadSnapshot g))

/-- The call of a task can come so far. -/
def Submission.CanReach (library : Library) (s : Submission) (state : CallState) : Prop :=
  ∃ c g, Relation.ReflTransGen (fun before after => ∃ e, before.Next library s.function e after)
    (.running (s.invocation library c g)) state

def TaskPlace.call? : TaskPlace → Option CallState
  | .running activity => some (.running activity.execution)
  | .lockingMain outcome | .writing outcome _ _ | .unlockingMain outcome | .counting outcome
  | .countingTotal outcome => some (.ended outcome)
  | .publishing | .unlockingQueue | .preparing | .replacing | .clearing | .notifying => none

def WorkerPlace.call? : WorkerPlace → Option (Submission × CallState)
  | .executing _ s place => place.call?.map (s, ·)
  | _ => none

/-- The task whose call a worker has in progress, and how far the call has come. -/
def World.call? (w : World) (i : Nat) : Option (Submission × CallState) :=
  w.workers[i]?.bind (·.place.call?)

/-- What a deed changes from one world to the next. -/
def Deed.Occurs (library : Library) (main : ContextId) (w w' : World) : Deed → Prop
  | .pushed s => w'.queue = w.queue ++ [s]
  | .claimed i s => w.queue = s :: w'.queue ∧ w'.Executes (.worker i) s
  | .started i s => ∃ c, w.contextOf? i = some c ∧
    w'.call? i = some (s, .running (s.invocation library c (w.engine.globals c)))
  | .wrote _ name value => w'.engine.globals main = (w.engine.globals main).set name value
  | .finished i s outcome =>
    w.call? i = some (s, .ended outcome) ∧ ∀ state, w'.call? i ≠ some (s, state)

/-- Along some moves every deed occurs. A worker comes to have a call in progress only when it
starts the task, and then the call goes on step by step. -/
structure World.Enacts (library : Library) (start : World) (moves : List Move) : Prop where
  deeds : ∀ {past : List Move} {pick : Nat} {thread : ThreadId} {w w' : World} {d : Deed},
    past ++ [.step pick thread] <+: moves → Run library start past w →
    w.advance library pick thread = some w' → w.deed? thread = some d →
    d.Occurs library start.main w w'
  calls : ∀ {past : List Move} {m : Move} {w w' : World} {i : Nat} {s : Submission}
      {state : CallState}, past ++ [m] <+: moves → Run library start past w →
    w.move? library m = some w' → w'.call? i = some (s, state) →
    (∃ pick, m = .step pick (.worker i) ∧ w.deed? (.worker i) = some (.started i s)) ∨
    w.call? i = some (s, state) ∨
    ∃ before, w.call? i = some (s, before) ∧ before.Next library s.function w.engine state

variable {library : Library} {pick i : Nat} {thread : ThreadId} {w w' v : World} {m : Move}
  {moves : List Move} {worker : Worker} {s : Submission} {state : CallState} {d : Deed}
  {engine : Engine} {main : ContextId} {poolSize others : Nat}

theorem World.call?_eq (hworker : w.workers[i]? = some worker) :
    w.call? i = worker.place.call? := by
  rw [World.call?, hworker, Option.bind_some]

theorem World.call?_modifyWorker (w : World) (i : Nat) (f : Worker → Worker) :
    (w.modifyWorker i f).call? i = w.workers[i]?.bind fun worker => (f worker).place.call? := by
  rw [World.call?, World.modifyWorker, List.getElem?_modify_eq]
  exact Option.bind_map ..

theorem World.call?_placeWorker {place : WorkerPlace}
    (h : (w.placeWorker i place).call? i = some (s, state)) : place.call? = some (s, state) := by
  rw [World.placeWorker, World.call?_modifyWorker] at h
  obtain ⟨_, -, hcall⟩ := Option.bind_eq_some_iff.mp h
  exact hcall

theorem World.move?_place {worker' : Worker} (hm : m.isStepOf i = false)
    (h : w.move? library m = some w') (hworker' : w'.workers[i]? = some worker') :
    worker'.place = w.workers[i]?.elim .beginning (·.place) := by
  have hsame (hworkers : w'.workers = w.workers) :
      worker'.place = w.workers[i]?.elim .beginning (·.place) := by
    rw [← hworkers, hworker']
    rfl
  cases m with
  | step pick thread =>
      have hne : .worker i ≠ thread := by
        rintro rfl
        simp [Move.isStepOf] at hm
      exact (World.advance_stride h).place_of_ne hne hworker'
  | begin | setGlobal =>
      simp only [World.move?] at h
      split at h
      · cases h
        exact hsame rfl
      · cases h
  | addContext | openGate | openAllGates | setBudget =>
      cases h
      exact hsame rfl

theorem World.move?_call? (hm : m.isStepOf i = false) (h : w.move? library m = some w')
    (hcall : w'.call? i = some (s, state)) : w.call? i = some (s, state) := by
  obtain ⟨worker', hworker', hcall⟩ := Option.bind_eq_some_iff.mp hcall
  rw [World.move?_place hm h hworker'] at hcall
  cases hworker : w.workers[i]? with
  | none =>
      rw [hworker] at hcall
      cases hcall
  | some worker =>
      rw [hworker] at hcall
      rw [World.call?_eq hworker]
      exact hcall

theorem Execution.answer_cases (library : Library) (x : Execution) (e : Engine) (reply : Reply) :
    x.answer reply = x ∨ ∃ r, x.step library e = .asks r := by
  obtain ⟨c, function, code, frames, suspended⟩ := x
  cases code with
  | done | fail => exact .inl rfl
  | perform operation next =>
      cases operation with
      | request r => exact .inr ⟨r, rfl⟩
      | readGlobal | writeGlobal | globalNames | suspend | call | load | findRuntime | mintHandle
      | print | note | passGate | readCounter | writeCounter => exact .inl rfl

theorem Activity.Goes.call {activity : Activity} {stage : Stage Activity Ending}
    (h : activity.Goes library pick thread w v stage) (function : String) :
    (∃ activity', stage = .going activity' ∧ (activity'.execution = activity.execution ∨
      CallState.Next library function w.engine (.running activity.execution)
        (.running activity'.execution))) ∨
    ∃ ending, stage = .over ending ∧ CallState.Next library function w.engine
      (.running activity.execution) (.ended (ending.guarded function)) := by
  cases h with
  | asks | asked => exact .inl ⟨_, rfl, .inl rfl⟩
  | @replied x a reply v hs =>
      refine .inl ⟨_, rfl, ?_⟩
      rcases x.answer_cases library w.engine reply with hsame | ⟨r, hasks⟩
      · exact .inl hsame
      · exact .inr (.answer hasks reply)
  | went hstep => exact .inl ⟨_, rfl, .inr (.step hstep)⟩
  | ended hends => exact .inr ⟨_, rfl, .ends hends⟩

theorem TaskPlace.Goes.call {place place' : TaskPlace}
    (h : place.Goes library pick i worker s.task w v place') (hcall : place'.call? = some state) :
    place = .preparing ∨ place.call? = some state ∨
      ∃ before, place.call? = some before ∧ before.Next library s.function w.engine state := by
  cases h with
  | published | unlockedQueue | failed | completed | replaced | notReplaced | cleared => cases hcall
  | prepared => exact .inl rfl
  | @ran activity activity' v hstep =>
      cases hcall
      rcases (activityStep_goes hstep).call s.function with ⟨_, ⟨⟩, hsame | hnext⟩ | ⟨_, ⟨⟩, -⟩
      · refine .inr (.inl ?_)
        rw [hsame]
        rfl
      · exact .inr (.inr ⟨_, rfl, hnext⟩)
  | ended hcode hstep =>
      cases hcall
      rcases (activityStep_goes hstep).call s.function with ⟨_, ⟨⟩, -⟩ | ⟨ending, ⟨⟩, hnext⟩
      exact .inr (.inr ⟨_, rfl, hnext⟩)
  | locked | lockedErrored | written | wrote | unlocked | counted => exact .inr (.inl hcall)

theorem World.deed?_of_idle (hworker : w.workers[i]? = some worker)
    (hidle : worker.place.asking? = none) :
    w.deed? (.worker i) = worker.place.deed? w.queue i := by
  have hask : w.asking? (.worker i) = none := by
    rw [World.asking?_eq_view, World.view_worker hworker, hidle]
  simp only [World.deed?, hask, hworker, Option.bind_some]

theorem World.advance_call? (h : w.advance library pick (.worker i) = some w')
    (hcall : w'.call? i = some (s, state)) :
    w.deed? (.worker i) = some (.started i s) ∨ w.call? i = some (s, state) ∨
      ∃ before, w.call? i = some (s, before) ∧ before.Next library s.function w.engine state := by
  obtain ⟨worker, hworker, h⟩ := World.advance_worker_iff.mp h
  obtain ⟨place, hplace, hgoes⟩ := workerStep_goes h
  cases hgoes with
  | went once hstep =>
      obtain ⟨_, hcall, heq⟩ := Option.map_eq_some_iff.mp (World.call?_placeWorker hcall)
      cases heq
      rw [World.call?_eq hworker, hplace]
      rcases hstep.call hcall with rfl | hsame | ⟨before, hbefore, hnext⟩
      · left
        rw [World.deed?_of_idle hworker (by rw [hplace]; rfl), hplace]
        rfl
      · right; left
        simp only [WorkerPlace.call?, hsame, Option.map_some]
      · right; right
        exact ⟨before, by simp only [WorkerPlace.call?, hbefore, Option.map_some], hnext⟩
  | began | measured | compared | checkedEmpty | checked | missed | popped | announced | exited =>
      cases World.call?_placeWorker hcall
  | finished once s' =>
      have hcall := World.call?_placeWorker hcall
      cases once with
      | true | false => cases hcall
  | received =>
      rw [World.call?_modifyWorker, hworker] at hcall
      rcases worker.receive_place hplace with heq | heq | heq
      all_goals
        rw [Option.bind_some, heq] at hcall
        cases hcall
  | rested =>
      rw [World.call?_modifyWorker, hworker] at hcall
      cases hcall

theorem World.of_isStepOf (hm : m.isStepOf i = true) : ∃ pick, m = .step pick (.worker i) := by
  cases m with
  | step pick thread =>
      have hthread : thread = .worker i := of_decide_eq_true hm
      exact ⟨pick, by rw [hthread]⟩
  | begin | addContext | setGlobal | openGate | openAllGates | setBudget => cases hm

theorem World.move?_call?_cases (h : w.move? library m = some w')
    (hcall : w'.call? i = some (s, state)) :
    (∃ pick, m = .step pick (.worker i) ∧ w.deed? (.worker i) = some (.started i s)) ∨
      w.call? i = some (s, state) ∨
      ∃ before, w.call? i = some (s, before) ∧ before.Next library s.function w.engine state := by
  cases hm : m.isStepOf i with
  | false => exact .inr (.inl (World.move?_call? hm h hcall))
  | true =>
      obtain ⟨pick, rfl⟩ := World.of_isStepOf hm
      rcases World.advance_call? h hcall with hstarted | hgoes
      · exact .inl ⟨pick, rfl, hstarted⟩
      · exact .inr hgoes

theorem World.worker_of_deed? (hd : w.deed? thread = some d) (hpushed : ∀ s, d ≠ .pushed s) :
    ∃ i worker, thread = .worker i ∧ w.workers[i]? = some worker ∧
      worker.place.deed? w.queue i = some d := by
  unfold World.deed? at hd
  split at hd
  · cases hd
    exact absurd rfl (hpushed _)
  · cases hd
  · cases thread with
    | host host => cases hd
    | worker i =>
        obtain ⟨worker, hworker, hd⟩ := Option.bind_eq_some_iff.mp hd
        exact ⟨i, worker, rfl, hworker, hd⟩

theorem World.advance_preparing (library : Library) (pick : Nat) {worker : Worker} {once : Bool}
    (hworker : w.workers[i]? = some worker)
    (hplace : worker.place = .executing once s .preparing) :
    ∃ w' worker', w.advance library pick (.worker i) = some w' ∧ w'.workers[i]? = some worker' ∧
      worker'.place = .executing once s (.running ⟨.invoke library worker.context s.task.function
        (s.task.argumentValues (s.task.loadSnapshot (w.engine.globals worker.context))), none⟩) := by
  have hadvance : w.advance library pick (.worker i) =
      some ((startTask library worker.context s.task
        (w.report (.taskSpan s.task.function))).1.placeWorker i (.executing once s (.running
          (startTask library worker.context s.task (w.report (.taskSpan s.task.function))).2))) := by
    simp only [World.advance, hworker, Option.bind_some, workerStep, hplace, taskStep,
      Option.map_some]
  have hreport : (w.engine.report (.taskSpan s.task.function)).globals worker.context =
      w.engine.globals worker.context := rfl
  refine ⟨_, { worker with place := _ }, hadvance, ?_, rfl⟩
  simp [World.placeWorker, World.modifyWorker, startTask, World.report, hworker, hreport]

theorem writeResult_globals_main {c : ContextId} {e : Engine} (hne : c ≠ main)
    (hmain : main < e.contexts.length) (name : String) (value : Value) :
    (writeResult c main name value e).globals main = (e.globals main).set name value := by
  rw [writeResult_eq_set hne, Engine.globals_setGlobals_self]
  rwa [Engine.length_setGlobals]

theorem World.advance_occurs (hs : w.Secluded) (h : w.advance library pick thread = some w')
    (hd : w.deed? thread = some d) : d.Occurs library w.main w w' := by
  by_cases hpushed : ∃ s, d = .pushed s
  · obtain ⟨s, rfl⟩ := hpushed
    obtain ⟨source, task, hask, rfl⟩ := World.asking?_of_pushed hd
    exact congrArg Crew.queue (World.advance_push hask h)
  · obtain ⟨i, worker, rfl, hworker, hd⟩ :=
      World.worker_of_deed? hd fun s heq => hpushed ⟨s, heq⟩
    rcases WorkerPlace.deed?_cases hd with ⟨once, s, rest, hplace, hqueue, rfl⟩ |
      ⟨once, s, hplace, rfl⟩ | ⟨once, s, outcome, name, names, results, hplace, rfl⟩ |
      ⟨once, s, outcome, hplace, rfl⟩
    · simp only [World.advance, hworker, Option.bind_some, workerStep, hplace, hqueue,
        World.onQueue_eq_some_iff] at h
      obtain ⟨-, rfl⟩ := h
      refine ⟨hqueue, i, { worker with place := .executing once s .publishing }, rfl, ?_, rfl⟩
      exact World.getElem?_placeWorker hworker _
    · obtain ⟨v, worker', hadv, hworker', hplace'⟩ :=
        World.advance_preparing library pick hworker hplace
      rw [h] at hadv
      cases hadv
      refine ⟨worker.context, by rw [World.contextOf?, hworker]; rfl, ?_⟩
      rw [World.call?_eq hworker', hplace']
      rfl
    · simp only [World.advance, hworker, Option.bind_some, workerStep, hplace, taskStep,
        Option.map_some, Option.some.injEq] at h
      subst h
      exact writeResult_globals_main (hs.worker hworker).2 hs.main_known name _
    · refine ⟨by rw [World.call?_eq hworker, hplace]; rfl, fun state hcall => ?_⟩
      obtain ⟨worker', hworker', h⟩ := World.advance_worker_iff.mp h
      rw [hworker] at hworker'
      cases hworker'
      simp only [workerStep, hplace, Option.map_eq_some_iff] at h
      obtain ⟨⟨u, stage⟩, hstep, rfl⟩ := h
      have hcall := World.call?_placeWorker hcall
      cases outcome with
      | completed | suspended | errored =>
          cases hstep
          cases hcall

theorem Run.occurs (hmain : main < engine.contexts.length)
    (h : Run library (World.initial engine main poolSize others) moves w)
    (hadv : w.advance library pick thread = some w') (hd : w.deed? thread = some d) :
    d.Occurs library main w w' := by
  have hs := (World.Secluded.initial hmain poolSize others).run h
  have hsame : w.main = main := h.main_eq (MainLocked.initial engine main poolSize others)
  rw [← hsame]
  exact World.advance_occurs hs hadv hd

theorem World.enacts (library : Library) (hmain : main < engine.contexts.length)
    (poolSize others : Nat) (moves : List Move) :
    (World.initial engine main poolSize others).Enacts library moves where
  deeds _ h hadv hd := h.occurs hmain hadv hd
  calls _ _ hmove hcall := World.move?_call?_cases hmove hcall

theorem Run.canReach (hmain : main < engine.contexts.length)
    (h : Run library (World.initial engine main poolSize others) moves w)
    (hcall : w.call? i = some (s, state)) : s.CanReach library state := by
  induction h generalizing i s state with
  | start => cases hcall
  | @move moves v w h m hm ih =>
      rcases World.move?_call?_cases hm hcall with
        ⟨pick, rfl, hstarted⟩ | hsame | ⟨before, hbefore, hnext⟩
      · have hadv : v.advance library pick (.worker i) = some w := hm
        obtain ⟨c, -, hinvoked⟩ := h.occurs hmain hadv hstarted
        rw [hcall] at hinvoked
        cases hinvoked
        exact ⟨c, _, .refl⟩
      · exact ih hsame
      · obtain ⟨c, g, hreach⟩ := ih hbefore
        exact ⟨c, g, hreach.tail ⟨_, hnext⟩⟩

end ScriptPool
