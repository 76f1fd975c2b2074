import ScriptPool.Proofs.Pool.History
import ScriptPool.Proofs.Pool.Stride

namespace ScriptPool

/-- The next steps of a worker, with nothing else in between, lead from one world to another whatever
they pick. -/
def World.OwnSteps (library : Library) (i n : Nat) (w w' : World) : Prop :=
  ∀ picks : List Nat, picks.length = n →
    w.follow library (picks.map fun pick => .step pick (.worker i)) = some w'

section OwnSteps

variable {library : Library} {i m n : Nat} {u v w w' : World} {worker worker' : Worker} {once : Bool}
  {s : Submission} {place : TaskPlace} {stage : Stage TaskPlace Unit}

theorem World.OwnSteps.refl (library : Library) (i : Nat) (w : World) :
    World.OwnSteps library i 0 w w := by
  intro picks hpicks
  rw [List.length_eq_zero_iff.mp hpicks]
  rfl

theorem World.OwnSteps.cons (hadv : ∀ pick, w.advance library pick (.worker i) = some v)
    (h : World.OwnSteps library i n v w') : World.OwnSteps library i (n + 1) w w' := by
  intro picks hpicks
  cases picks with
  | nil => cases hpicks
  | cons pick picks =>
      rw [List.map_cons, World.follow, List.foldlM_cons, World.move?, hadv pick]
      exact h picks (Nat.succ.inj hpicks)

theorem World.OwnSteps.trans (h : World.OwnSteps library i m u v)
    (h' : World.OwnSteps library i n v w) : World.OwnSteps library i (m + n) u w := by
  intro picks hpicks
  have hfirst : (picks.take m).length = m := by
    rw [List.length_take]
    omega
  have hlast : (picks.drop m).length = n := by
    rw [List.length_drop]
    omega
  rw [← List.take_append_drop m picks, List.map_append, World.follow, List.foldlM_append]
  have hu := h _ hfirst
  rw [World.follow] at hu
  rw [hu]
  exact h' _ hlast

/-- The world in which a worker is as given. -/
def World.setWorker (w : World) (i : Nat) (worker : Worker) : World :=
  { w with workers := w.workers.set i worker }

theorem World.setWorker_self (hworker : w.workers[i]? = some worker) :
    w.setWorker i worker = w := by
  have hworkers : w.workers.set i worker = w.workers := by
    obtain ⟨hi, rfl⟩ := List.getElem?_eq_some_iff.mp hworker
    exact List.set_getElem_self hi
  rw [World.setWorker, hworkers]

theorem World.getElem?_setWorker (hi : i < w.workers.length) (worker : Worker) :
    (w.setWorker i worker).workers[i]? = some worker :=
  List.getElem?_set_self hi

theorem World.modifyWorker_setWorker (w : World) (i : Nat) (worker : Worker)
    (f : Worker → Worker) : (w.setWorker i worker).modifyWorker i f = w.setWorker i (f worker) := by
  have hworkers : (w.workers.set i worker).modify i f = w.workers.set i (f worker) := by
    apply List.ext_getElem?
    intro j
    rw [List.getElem?_modify, List.getElem?_set, List.getElem?_set]
    split
    · next hij =>
        subst hij
        split
        · rfl
        · rfl
    · exact id_map _
  simp only [World.modifyWorker, World.setWorker, hworkers]

theorem World.getElem?_placeWorker (hworker : w.workers[i]? = some worker) (place : WorkerPlace) :
    (w.placeWorker i place).workers[i]? = some { worker with place := place } := by
  rw [World.placeWorker, World.modifyWorker, List.getElem?_modify_eq, hworker]
  rfl

theorem World.lockMain_setWorker (hfree : w.mainHolder? = none) :
    (w.setWorker i worker).lockMain (.worker i) =
      some ({ w with mainHolder? := some (.worker i) }.setWorker i worker) := by
  rw [World.lockMain]
  simp only [World.setWorker, hfree, Option.isNone_none, if_true]

theorem World.OwnSteps.of_setWorker (hworker : w.workers[i]? = some worker)
    (h : World.OwnSteps library i n (w.setWorker i worker) w') : World.OwnSteps library i n w w' := by
  rwa [World.setWorker_self hworker] at h

theorem World.OwnSteps.executing (hi : i < w.workers.length)
    (hplace : worker.place = .executing once s place)
    (htask : ∀ pick, taskStep library pick i worker s.task (w.setWorker i worker) place =
      some (v.setWorker i worker', stage))
    (h : World.OwnSteps library i n
      (v.setWorker i { worker' with place := stage.afterTask once s }) w') :
    World.OwnSteps library i (n + 1) (w.setWorker i worker) w' := by
  refine .cons (fun pick => ?_) h
  rw [World.advance, World.getElem?_setWorker hi, Option.bind_some]
  simp only [workerStep, hplace, htask, Option.map_some, Option.some.injEq]
  exact World.modifyWorker_setWorker v i worker' _

end OwnSteps

end ScriptPool
