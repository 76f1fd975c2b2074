import ScriptPool.Proofs.Engine.Step
import ScriptPool.Proofs.Pool.BatchHost

/-!
Workers do not share their contexts.

A worker gets a context of its own when it is hired, and another one when a task has failed, and
both times the context is new. So in every world that a coordinator reaches, no two workers work in
the same context, and none of them works in the main one.
-/

namespace ScriptPool

/-- The main context and those of the workers. -/
def World.homes (w : World) : List ContextId :=
  w.main :: w.workers.map (·.context)

/-- The main context and those of the workers have been made and differ from each other. -/
structure World.Secluded (w : World) : Prop where
  distinct : w.homes.Nodup
  known : ∀ c ∈ w.homes, c < w.engine.contexts.length

/-- What a step does to the contexts: new ones may be made, and one of these may become the context
of a worker. -/
inductive Rehomes (w w' : World) : Prop where
  | keep (hhomes : w'.homes = w.homes)
      (hmade : w.engine.contexts.length ≤ w'.engine.contexts.length)
  | hire (hhomes : w'.homes = w.homes ++ [w.engine.contexts.length])
      (hmade : w.engine.contexts.length < w'.engine.contexts.length)
  | replace (i : Nat) (hhomes : w'.homes = w.homes.set i w.engine.contexts.length)
      (hmade : w.engine.contexts.length < w'.engine.contexts.length)

variable {library : Library} {pick : Nat} {me : ThreadId} {w v w' : World}

theorem World.Secluded.rehomes (hs : w.Secluded) (h : Rehomes w w') : w'.Secluded := by
  have hfresh : w.engine.contexts.length ∉ w.homes := fun hmem => (hs.known _ hmem).false
  cases h with
  | keep hhomes hmade =>
      constructor
      · rw [hhomes]
        exact hs.distinct
      · rw [hhomes]
        exact fun c hc => (hs.known c hc).trans_le hmade
  | hire hhomes hmade =>
      constructor
      · rw [hhomes, List.nodup_append]
        refine ⟨hs.distinct, List.nodup_singleton _, ?_⟩
        rintro c hc _ hlast rfl
        rw [List.mem_singleton] at hlast
        exact hfresh (hlast ▸ hc)
      · rw [hhomes]
        intro c hc
        rw [List.mem_append, List.mem_singleton] at hc
        rcases hc with hc | rfl
        · exact (hs.known c hc).trans hmade
        · exact hmade
  | replace i hhomes hmade =>
      constructor
      · rw [hhomes]
        exact hs.distinct.set hfresh
      · rw [hhomes]
        intro c hc
        rcases List.mem_or_eq_of_mem_set hc with hc | rfl
        · exact (hs.known c hc).trans hmade
        · exact hmade

theorem Rehomes.of_eq (h : Rehomes w v) (hhomes : w'.homes = v.homes)
    (hmade : w'.engine.contexts.length = v.engine.contexts.length) : Rehomes w w' := by
  cases h with
  | keep hhomes' hmade' => exact .keep (hhomes.trans hhomes') (hmade ▸ hmade')
  | hire hhomes' hmade' => exact .hire (hhomes.trans hhomes') (hmade ▸ hmade')
  | replace i hhomes' hmade' => exact .replace i (hhomes.trans hhomes') (hmade ▸ hmade')

theorem Rehomes.refl (w : World) : Rehomes w w :=
  .keep rfl (Nat.le_refl _)

theorem World.homes_modifyWorker {f : Worker → Worker}
    (h : ∀ worker, (f worker).context = worker.context) (w : World) (serial : Nat) :
    (w.modifyWorker serial f).homes = w.homes := by
  have hmap : (w.workers.modify serial f).map (·.context) =
      (w.workers.map (·.context)).modify serial id := map_modify_of_comm h _ _
  rw [World.homes, World.modifyWorker, hmap, List.modify_id, World.homes]

theorem Rehomes.modifyWorker (h : Rehomes w v) {f : Worker → Worker}
    (hf : ∀ worker, (f worker).context = worker.context) (serial : Nat) :
    Rehomes w (v.modifyWorker serial f) :=
  h.of_eq (World.homes_modifyWorker hf v serial) rfl

theorem Rehomes.placeWorker (h : Rehomes w v) (serial : Nat) (place : WorkerPlace) :
    Rehomes w (v.placeWorker serial place) := by
  apply h.modifyWorker
  intro worker
  rfl

theorem Still.homes (h : Still w w') : w'.homes = w.homes := by
  have hcontexts := congrArg (List.map Prod.fst) h.stations
  simp only [World.stations, List.map_map] at hcontexts
  rw [World.homes, World.homes, h.main]
  exact congrArg (w.main :: ·) hcontexts

theorem Still.rehomes (h : Still w w') : Rehomes w w' :=
  .keep h.homes (by rw [h.contexts])

theorem World.privateContext_rehomes {c : ContextId} (h : w.privateContext = (.ok c, v)) :
    c = w.engine.contexts.length ∧ v.workers = w.workers ∧ v.main = w.main ∧
      w.engine.contexts.length < v.engine.contexts.length := by
  rcases World.privateContext_eq h with ⟨heq, -⟩ | ⟨e, heq, rfl, hlength, -⟩
  · cases heq
  · cases heq
    exact ⟨rfl, rfl, rfl, (Nat.lt_succ_self _).trans_eq hlength.symm⟩

theorem World.privateContext_fails {e : ScriptError} (h : w.privateContext = (.error e, v)) :
    v = w := by
  rcases World.privateContext_eq h with ⟨-, rfl⟩ | ⟨_, heq, -⟩
  · rfl
  · cases heq

theorem Hires.rehomes (h : Hires me w w') : Rehomes w w' := by
  cases h with
  | manages h => exact h.still.rehomes
  | @hire v u c id hcontext h =>
      obtain ⟨rfl, hworkers, hmain, hmade⟩ := World.privateContext_rehomes hcontext
      have hhired : Rehomes w (v.addWorker id w.engine.contexts.length) := by
        refine .hire ?_ hmade
        simp [World.homes, World.addWorker, hworkers, hmain]
      have hstill := h.calm.toStill
      exact hhired.of_eq hstill.homes (by rw [hstill.contexts])
  | fail hcontext =>
      obtain rfl := World.privateContext_fails hcontext
      exact .refl _

theorem submitStep_rehomes {source : ContextId} {place : SubmitPlace}
    {stage : Stage SubmitPlace Reply} (h : submitStep source me w place = some (w', stage)) :
    Rehomes w w' := by
  cases stage with
  | going place' =>
      cases submitStep_goes h with
      | checked | checkedApart | found | copied | moved | read | readApart => exact .refl w
      | locked | unlocked | pushed | counted | notified => exact .keep rfl (Nat.le_refl _)
      | tagged => exact .keep rfl (by simp [Engine.set, Engine.setGlobals])
      | start hs => exact (startStep_oversees hs).calm.toStill.rehomes
  | «over» reply =>
      cases submitStep_replies h with
      | refused | misread => exact .refl w
      | idle hs => exact ((startStep_oversees hs).report _).calm.toStill.rehomes
      | started _ hs => exact (startStep_oversees hs).calm.toStill.rehomes

theorem askingStep_rehomes {a : Asking} {stage : Stage Asking Reply}
    (h : askingStep pick me w a = some (w', stage)) : Rehomes w w' := by
  cases askingStep_goes h with
  | submits hs | submitted hs => exact submitStep_rehomes hs
  | joins hs | joined hs => exact (joinStep_oversees hs).calm.toStill.rehomes
  | joinsAll hs | joinedAll hs => exact (joinAllStep_oversees hs).calm.toStill.rehomes
  | resizes hs | resized hs => exact (resizeStep_hires hs).rehomes
  | acquires | acquired | releases | released =>
      exact (World.withSections_calm _ _ _).toStill.rehomes
  | refused => exact .refl w

theorem Execution.step_contexts {x x' : Execution} {e e' : Engine}
    (h : x.step library e = .goesOn x' e') : e'.contexts.length = e.contexts.length := by
  rcases (Execution.step_keeps h).contexts with hsame | ⟨name, value, next, -, rfl⟩
  · rw [hsame]
  · simp [Engine.set, Engine.setGlobals]

theorem activityStep_rehomes {activity : Activity} {stage : Stage Activity Ending}
    (h : activityStep library pick me w activity = some (w', stage)) : Rehomes w w' := by
  cases activityStep_goes h with
  | asks hs | replied hs => exact askingStep_rehomes hs
  | went hstep => exact .keep rfl (Execution.step_contexts hstep).ge
  | asked | ended => exact .refl w

theorem TaskPlace.Goes.rehomes {i : Nat} {worker : Worker} {task : Task} {place place' : TaskPlace}
    (hworker : w.workers[i]? = some worker)
    (h : place.Goes library pick i worker task w v place') : Rehomes w v := by
  cases h with
  | published | cleared =>
      apply (Rehomes.refl w).modifyWorker
      intro worker
      rfl
  | counted outcome =>
      refine (Rehomes.refl w).modifyWorker (fun worker => ?_) i
      split
      · rfl
      · rfl
  | unlockedQueue | locked | lockedErrored | unlocked | failed | completed =>
      exact .keep rfl (Nat.le_refl _)
  | prepared => exact .keep rfl (by simp [startTask, World.report, Engine.report, Engine.setGlobals])
  | ran hs => exact activityStep_rehomes hs
  | ended | written => exact .refl w
  | wrote => exact .keep rfl (by simp [writeResult, Engine.set, Engine.setGlobals])
  | replaced hcontext =>
      obtain ⟨rfl, hworkers, hmain, hmade⟩ := World.privateContext_rehomes hcontext
      refine .replace (i + 1) ?_ hmade
      have hcontexts : (w.workers.modify i fun worker =>
          { worker with context := w.engine.contexts.length }).map (·.context) =
            (w.workers.map (·.context)).set i w.engine.contexts.length := by
        rw [modify_eq_set_of_getElem? hworker, List.map_set]
      simp only [World.homes, World.modifyWorker, World.report, hworkers, hmain, hcontexts,
        List.set_cons_succ]
  | notReplaced hcontext =>
      obtain rfl := World.privateContext_fails hcontext
      exact (World.report_still _ _).rehomes

theorem workerStep_rehomes {i : Nat} {worker : Worker} (hworker : w.workers[i]? = some worker)
    (h : workerStep library pick i worker w = some w') : Rehomes w w' := by
  obtain ⟨place, -, hgoes⟩ := workerStep_goes h
  cases hgoes with
  | began | compared | popped | finished | announced | exited =>
      apply Rehomes.placeWorker
      exact .keep rfl (Nat.le_refl _)
  | received => exact (Rehomes.refl w).modifyWorker Worker.receive_context i
  | measured | checkedEmpty | checked | missed => exact (Rehomes.refl w).placeWorker i _
  | went once hs => exact (hs.rehomes hworker).placeWorker i _
  | rested =>
      apply (Rehomes.refl w).modifyWorker
      intro worker
      rfl

theorem hostStep_rehomes {host : Nat} {place : HostPlace}
    (h : hostStep library pick host place w = some w') : Rehomes w w' := by
  obtain ⟨v, place', rfl, hgoes⟩ := hostStep_goes h
  have hv : Rehomes w v := by
    cases hgoes with
    | opens hs | opened hs => exact (openStep_hires hs).rehomes
    | asks hs | replied hs => exact askingStep_rehomes hs
    | closes hs | closed hs => exact (shutdownStep_manages hs).still.rehomes
    | measures hs | measured hs => exact (measureStep_oversees hs).calm.toStill.rehomes
    | runs hs | ended hs => exact activityStep_rehomes hs
  exact hv.of_eq rfl rfl

theorem World.advance_rehomes (h : w.advance library pick me = some w') : Rehomes w w' := by
  cases me with
  | host host =>
      obtain ⟨place, -, h⟩ := World.advance_host_iff.mp h
      exact hostStep_rehomes h
  | worker i =>
      obtain ⟨worker, hworker, h⟩ := World.advance_worker_iff.mp h
      exact workerStep_rehomes hworker h

theorem World.move?_rehomes {m : Move} (h : w.move? library m = some w') : Rehomes w w' := by
  cases m with
  | step pick thread => exact World.advance_rehomes h
  | begin host call =>
      obtain ⟨-, rfl⟩ := World.move?_begin_iff.mp h
      refine .keep rfl ?_
      cases call with
      | ask | shutDown | measure | invoke | load => exact Nat.le_refl _
  | addContext =>
      cases h
      exact .keep rfl (by simp [World.addContext, Engine.createContext, Engine.bind])
  | setGlobal context name value =>
      obtain ⟨-, rfl⟩ := World.move?_setGlobal_iff.mp h
      exact .keep rfl (by simp [Engine.set, Engine.setGlobals])
  | openGate | openAllGates | setBudget =>
      cases h
      exact .keep rfl (Nat.le_refl _)

theorem World.Secluded.move {m : Move} (hs : w.Secluded) (h : w.move? library m = some w') :
    w'.Secluded :=
  hs.rehomes (World.move?_rehomes h)

theorem World.Secluded.run {moves : List Move} (hs : w.Secluded) (h : Run library w moves w') :
    w'.Secluded := by
  induction h with
  | start => exact hs
  | move _ m hm ih => exact ih.move hm

theorem World.Secluded.initial {engine : Engine} {main : ContextId}
    (hmain : main < engine.contexts.length) (poolSize others : Nat) :
    (World.initial engine main poolSize others).Secluded := by
  have hhomes : (World.initial engine main poolSize others).homes = [main] := rfl
  constructor
  · rw [hhomes]
    exact List.nodup_singleton main
  · rw [hhomes]
    intro c hc
    rw [List.mem_singleton] at hc
    exact hc ▸ hmain

end ScriptPool
