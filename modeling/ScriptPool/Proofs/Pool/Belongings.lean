import ScriptPool.Proofs.Pool.Secluded

namespace ScriptPool

/-- What a worker has to itself. -/
def Worker.record (worker : Worker) : Nat × ContextId × Option String × Nat × Nat :=
  (worker.id, worker.context, worker.current?, worker.completed, worker.failed)

def World.records (w : World) : List (Nat × ContextId × Option String × Nat × Nat) :=
  w.workers.map Worker.record

theorem World.records_getElem? {w : World} {i : Nat} {worker : Worker}
    (hworker : w.workers[i]? = some worker) : w.records[i]? = some worker.record := by
  rw [World.records, List.getElem?_map, hworker]
  rfl

theorem World.exists_worker_of_records {w : World} {i : Nat}
    {r : Nat × ContextId × Option String × Nat × Nat} (h : w.records[i]? = some r) :
    ∃ worker, w.workers[i]? = some worker ∧ worker.record = r := by
  rw [World.records, List.getElem?_map, Option.map_eq_some_iff] at h
  exact h

/-- The runtimes that contexts are bound to. -/
def Engine.bindings (e : Engine) : List (Option RuntimeId) :=
  e.contexts.map (·.binding?)

/-- Some workers keep what they have to themselves, and contexts stay bound as they are. A context
may be new; then it is bound to the coordinator. -/
structure Respects (spared : Nat → Prop) (w w' : World) : Prop where
  records : ∀ i r, spared i → w.records[i]? = some r → w'.records[i]? = some r
  bindings : w'.engine.bindings = w.engine.bindings ∨
    w'.engine.bindings = w.engine.bindings ++ [some coordinatorRuntime]

variable {library : Library} {pick i : Nat} {me : ThreadId} {w v w' : World} {spared : Nat → Prop}

theorem Respects.of_eq (hrecords : w'.records = w.records)
    (hbindings : w'.engine.bindings = w.engine.bindings) : Respects spared w w' :=
  ⟨fun _ _ _ h => hrecords ▸ h, .inl hbindings⟩

theorem Respects.refl (spared : Nat → Prop) (w : World) : Respects spared w w :=
  .of_eq rfl rfl

theorem Respects.congr (h : Respects spared w v) (hrecords : w'.records = v.records)
    (hbindings : w'.engine.bindings = v.engine.bindings) : Respects spared w w' := by
  obtain ⟨hkeeps, hbound⟩ := h
  exact ⟨hrecords ▸ hkeeps, hbindings ▸ hbound⟩

theorem World.records_modifyWorker {f : Worker → Worker}
    (hf : ∀ worker, (f worker).record = worker.record) (w : World) (serial : Nat) :
    (w.modifyWorker serial f).records = w.records := by
  have hmap : (w.workers.modify serial f).map Worker.record =
      (w.workers.map Worker.record).modify serial id := map_modify_of_comm hf _ _
  rw [World.records, World.modifyWorker, hmap, List.modify_id, World.records]

theorem World.records_send (w : World) (serial : Nat) (command : Command) :
    (w.send serial command).records = w.records := by
  apply World.records_modifyWorker
  intro worker
  rfl

theorem Oversees.records (h : Oversees me w w') : w'.records = w.records := by
  induction h with
  | refl => rfl
  | lock _ hlock ih =>
      obtain ⟨-, rfl⟩ := World.lockPool_eq_some_iff.mp hlock
      exact ih
  | raise _ serial ih =>
      refine Eq.trans ?_ ih
      apply World.records_modifyWorker
      intro worker
      rfl
  | @send v _ serial ih => exact (v.records_send serial .run).trans ih
  | unlock _ ih | report _ _ ih => exact ih

theorem Manages.records (h : Manages me w w') : w'.records = w.records := by
  induction h with
  | refl => rfl
  | oversees _ hv ih => exact hv.records.trans ih
  | @dismiss v _ serial ih => exact (v.records_send serial .stop).trans ih
  | regroup _ _ ih | close _ ih | notify _ ih | size _ _ ih => exact ih

theorem Engine.bindings_setGlobals (e : Engine) (c : ContextId) (g : Globals) :
    (e.setGlobals c g).bindings = e.bindings := by
  have hmap : (e.contexts.modify c fun context => { context with globals := g }).map (·.binding?) =
      (e.contexts.map (·.binding?)).modify c id := by
    apply map_modify_of_comm
    intro context
    rfl
  rw [Engine.bindings, Engine.setGlobals, hmap, List.modify_id, Engine.bindings]

theorem Engine.bindings_set (e : Engine) (c : ContextId) (name : String) (value : Value) :
    (e.set c name value).bindings = e.bindings :=
  e.bindings_setGlobals c _

theorem Engine.bind_createContext (e : Engine) (runtime : RuntimeId) :
    e.createContext.2.bind e.contexts.length runtime =
      { e with contexts := e.contexts ++ [⟨.empty, some runtime⟩] } := by
  have hlast : (e.contexts ++ [(⟨.empty, none⟩ : Context)])[e.contexts.length]? =
      some ⟨.empty, none⟩ := by simp
  rw [Engine.bind, Engine.createContext, modify_eq_set_of_getElem? hlast,
    List.set_append_right _ _ (Nat.le_refl _), Nat.sub_self]
  rfl

theorem World.privateContext_of_room (hroom : w.engine.spawnBudget? ≠ some 0) :
    w.privateContext = (.ok w.engine.contexts.length, { w with engine := { w.engine with
      contexts := w.engine.contexts ++ [⟨.empty, some coordinatorRuntime⟩]
      registered := w.engine.contexts.length ::
        w.engine.registered.filter (· != w.engine.contexts.length)
      spawnBudget? := w.engine.spawnBudget?.map (· - 1)
      reports := .contextSpawned :: w.engine.reports } }) := by
  have hbind := Engine.bind_createContext { w.engine with
    spawnBudget? := w.engine.spawnBudget?.map (· - 1) } coordinatorRuntime
  have hspawned : w.engine.spawnContext = (.ok w.engine.contexts.length,
      (Engine.createContext { w.engine with
        spawnBudget? := w.engine.spawnBudget?.map (· - 1) }).2.report .contextSpawned) := by
    simp only [Engine.spawnContext]
    rfl
  rw [World.privateContext, hspawned]
  exact congrArg (fun e : Engine => (Except.ok w.engine.contexts.length, { w with
    engine := (e.report .contextSpawned).register w.engine.contexts.length })) hbind

theorem World.privateContext_bindings {c : ContextId} (h : w.privateContext = (.ok c, v)) :
    v.engine.bindings = w.engine.bindings ++ [some coordinatorRuntime] := by
  by_cases hroom : w.engine.spawnBudget? = some 0
  · simp [World.privateContext, Engine.spawnContext, hroom] at h
  · rw [World.privateContext_of_room hroom] at h
    cases h
    simp [Engine.bindings]

theorem Still.respects (h : Still w w') (hrecords : w'.records = w.records) : Respects spared w w' :=
  .of_eq hrecords (by rw [Engine.bindings, h.contexts, Engine.bindings])

theorem Manages.respects (h : Manages me w w') : Respects spared w w' :=
  h.still.respects h.records

theorem Hires.respects (h : Hires me w w') : Respects spared w w' := by
  cases h with
  | manages h => exact h.respects
  | @hire v u c id hcontext h =>
      obtain ⟨-, hworkers, -⟩ := World.privateContext_rehomes hcontext
      have hbindings := World.privateContext_bindings hcontext
      have hmore : (v.addWorker id c).records = w.records ++ [(id, c, none, 0, 0)] := by
        simp [World.records, World.addWorker, hworkers, Worker.record]
      have hadded : Respects spared w (v.addWorker id c) := by
        refine ⟨fun i r _ hr => ?_, .inr hbindings⟩
        rw [hmore, List.getElem?_append_left (List.getElem?_eq_some_iff.mp hr).1, hr]
      exact hadded.congr h.records (congrArg (List.map Context.binding?) h.calm.contexts)
  | fail hcontext =>
      obtain rfl := World.privateContext_fails hcontext
      exact .refl _ _

theorem submitStep_respects {source : ContextId} {place : SubmitPlace}
    {stage : Stage SubmitPlace Reply} (h : submitStep source me w place = some (w', stage)) :
    Respects spared w w' := by
  cases stage with
  | going place' =>
      cases submitStep_goes h with
      | checked | checkedApart | found | copied | moved | read | readApart => exact .refl _ w
      | locked | unlocked | pushed | counted | notified => exact .of_eq rfl rfl
      | tagged => exact .of_eq rfl (w.engine.bindings_set _ _ _)
      | start hs => exact (startStep_oversees hs).manages.respects
  | «over» reply =>
      cases submitStep_replies h with
      | refused | misread => exact .refl _ w
      | idle hs => exact ((startStep_oversees hs).report _).manages.respects
      | started _ hs => exact (startStep_oversees hs).manages.respects

theorem askingStep_respects {a : Asking} {stage : Stage Asking Reply}
    (h : askingStep pick me w a = some (w', stage)) : Respects spared w w' := by
  cases askingStep_goes h with
  | submits hs | submitted hs => exact submitStep_respects hs
  | joins hs | joined hs => exact (joinStep_oversees hs).manages.respects
  | joinsAll hs | joinedAll hs => exact (joinAllStep_oversees hs).manages.respects
  | resizes hs | resized hs => exact (resizeStep_hires hs).respects
  | acquires | acquired | releases | released =>
      exact (World.withSections_calm _ _ _).toStill.respects rfl
  | refused => exact .refl _ w

theorem Execution.step_bindings {x x' : Execution} {e e' : Engine}
    (h : x.step library e = .goesOn x' e') : e'.bindings = e.bindings := by
  rcases (Execution.step_keeps h).contexts with hsame | ⟨name, value, next, -, rfl⟩
  · rw [Engine.bindings, hsame, Engine.bindings]
  · exact e.bindings_set _ name value

theorem activityStep_respects {activity : Activity} {stage : Stage Activity Ending}
    (h : activityStep library pick me w activity = some (w', stage)) : Respects spared w w' := by
  cases activityStep_goes h with
  | asks hs | replied hs => exact askingStep_respects hs
  | went hstep => exact .of_eq rfl (Execution.step_bindings hstep)
  | asked | ended => exact .refl _ w

theorem Respects.modifyWorker (h : Respects (· ≠ i) w v) (f : Worker → Worker) :
    Respects (· ≠ i) w (v.modifyWorker i f) := by
  refine ⟨fun j r hne hr => ?_, h.bindings⟩
  have hv := h.records j r hne hr
  rw [World.records, List.getElem?_map] at hv
  rw [World.records, List.getElem?_map, World.modifyWorker, List.getElem?_modify_ne _ _ hne.symm]
  exact hv

theorem TaskPlace.Goes.respects {worker : Worker} {task : Task} {place place' : TaskPlace}
    (h : place.Goes library pick i worker task w v place') : Respects (· ≠ i) w v := by
  have hsame := Respects.refl (· ≠ i) w
  cases h with
  | published | counted | cleared => exact hsame.modifyWorker _
  | unlockedQueue | locked | lockedErrored | unlocked | failed | completed => exact .of_eq rfl rfl
  | prepared => exact .of_eq rfl (Engine.bindings_setGlobals _ _ _)
  | ran hs => exact activityStep_respects hs
  | ended | written => exact hsame
  | wrote =>
      exact .of_eq rfl ((Engine.bindings_set _ _ _ _).trans (Engine.bindings_setGlobals _ _ _))
  | replaced hcontext =>
      obtain ⟨-, hworkers, -⟩ := World.privateContext_rehomes hcontext
      have hbindings := World.privateContext_bindings hcontext
      apply Respects.modifyWorker
      refine ⟨fun j r _ hr => ?_, .inr hbindings⟩
      rw [World.records] at hr ⊢
      exact hworkers ▸ hr
  | notReplaced hcontext =>
      obtain rfl := World.privateContext_fails hcontext
      exact .of_eq rfl rfl

theorem workerStep_respects {worker : Worker} (h : workerStep library pick i worker w = some w') :
    Respects (· ≠ i) w w' := by
  obtain ⟨place, -, hgoes⟩ := workerStep_goes h
  cases hgoes with
  | began | compared | popped | finished | announced | exited =>
      apply Respects.modifyWorker
      exact .of_eq rfl rfl
  | received | measured | checkedEmpty | checked | missed | rested =>
      exact (Respects.refl _ w).modifyWorker _
  | went once hs => exact hs.respects.modifyWorker _

theorem hostStep_respects {host : Nat} {place : HostPlace}
    (h : hostStep library pick host place w = some w') : Respects spared w w' := by
  obtain ⟨v, place', rfl, hgoes⟩ := hostStep_goes h
  have hv : Respects spared w v := by
    cases hgoes with
    | opens hs | opened hs => exact (openStep_hires hs).respects
    | asks hs | replied hs => exact askingStep_respects hs
    | closes hs | closed hs => exact (shutdownStep_manages hs).respects
    | measures hs | measured hs => exact (measureStep_oversees hs).manages.respects
    | runs hs | ended hs => exact activityStep_respects hs
  exact hv.congr rfl rfl

/-- Whether a move is a step of a worker's own. -/
def Move.isStepOf (i : Nat) : Move → Bool
  | .step _ thread => thread = .worker i
  | _ => false

theorem World.move?_respects {m : Move} (h : w.move? library m = some w') :
    Respects (fun i => m.isStepOf i = false) w w' := by
  cases m with
  | step pick thread =>
      cases thread with
      | host host =>
          obtain ⟨place, -, h⟩ := World.advance_host_iff.mp h
          exact hostStep_respects h
      | worker j =>
          obtain ⟨worker, -, h⟩ := World.advance_worker_iff.mp h
          obtain ⟨hkeeps, hbound⟩ := workerStep_respects h
          refine ⟨fun i r hi hr => hkeeps i r ?_ hr, hbound⟩
          rintro rfl
          simp [Move.isStepOf] at hi
  | begin host call =>
      obtain ⟨-, rfl⟩ := World.move?_begin_iff.mp h
      refine .of_eq rfl ?_
      cases call with
      | ask | shutDown | measure | invoke | load => rfl
  | addContext =>
      cases h
      have hbind := congrArg Engine.bindings (w.engine.bind_createContext coordinatorRuntime)
      refine ⟨fun _ _ _ hr => hr, .inr (hbind.trans ?_)⟩
      simp [Engine.bindings]
  | setGlobal context name value =>
      obtain ⟨-, rfl⟩ := World.move?_setGlobal_iff.mp h
      exact .of_eq rfl (Engine.bindings_set _ _ _ _)
  | openGate | openAllGates | setBudget =>
      cases h
      exact .of_eq rfl rfl

/-- The contexts of workers are bound to the coordinator. -/
def World.Bound (w : World) : Prop :=
  ∀ c ∈ w.homes.tail, w.engine.bindings[c]? = some (some coordinatorRuntime)

theorem Rehomes.tail (h : Rehomes w w') {c : ContextId} (hc : c ∈ w'.homes.tail) :
    c ∈ w.homes.tail ∨
      c = w.engine.contexts.length ∧ w.engine.contexts.length < w'.engine.contexts.length := by
  cases h with
  | keep hhomes => exact .inl (hhomes ▸ hc)
  | hire hhomes hmade =>
      rw [hhomes, World.homes, List.cons_append, List.tail_cons, List.mem_append,
        List.mem_singleton] at hc
      exact hc.imp id fun heq => ⟨heq, hmade⟩
  | replace i hhomes hmade =>
      rw [hhomes] at hc
      cases i with
      | zero => exact .inl hc
      | succ i =>
          rw [World.homes, List.set_cons_succ, List.tail_cons] at hc
          exact (List.mem_or_eq_of_mem_set hc).imp id fun heq => ⟨heq, hmade⟩

theorem World.Bound.move {m : Move} (hb : w.Bound) (h : w.move? library m = some w') :
    w'.Bound := by
  have hlength (v : World) : v.engine.bindings.length = v.engine.contexts.length := List.length_map _
  intro c hc
  have hbound := (World.move?_respects h).bindings
  rcases (World.move?_rehomes h).tail hc with hold | ⟨rfl, hmade⟩
  · have hc := hb c hold
    rcases hbound with heq | heq
    · rw [heq, hc]
    · rw [heq, List.getElem?_append_left (List.getElem?_eq_some_iff.mp hc).1, hc]
  · rcases hbound with heq | heq
    · rw [← hlength, ← hlength, heq] at hmade
      exact absurd hmade (lt_irrefl _)
    · rw [heq, ← hlength, List.getElem?_concat_length]

theorem Run.bound {engine : Engine} {main : ContextId} {poolSize others : Nat} {moves : List Move}
    (h : Run library (World.initial engine main poolSize others) moves w) : w.Bound := by
  induction h with
  | start => exact nofun
  | move _ m hm ih => exact ih.move hm

end ScriptPool
