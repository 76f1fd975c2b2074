import ScriptPool.Proofs.Pool.Stride

namespace ScriptPool

variable {library : Library} {pick : Nat} {me : ThreadId} {w w' : World} {a : Asking}

/-- How a thread waits for a request. -/
inductive World.Awaits (w : World) (a : Asking) : ThreadId → Prop where
  | call {host : Nat} (h : w.hosts[host]? = some (.asking a)) : Awaits w a (.host host)
  | code {host : Nat} {x : Execution} (h : w.hosts[host]? = some (.running ⟨x, some a⟩)) :
      Awaits w a (.host host)
  | task {i : Nat} {worker : Worker} {once : Bool} {s : Submission} {x : Execution}
      (hworker : w.workers[i]? = some worker)
      (hplace : worker.place = .executing once s (.running ⟨x, some a⟩)) : Awaits w a (.worker i)

theorem World.awaits_iff : w.Awaits a me ↔ w.asking? me = some a := by
  constructor
  · intro h
    rw [World.asking?_eq_view]
    cases h with
    | call h | code h =>
        rw [World.view_host h]
        rfl
    | task hworker hplace =>
        rw [World.view_worker hworker, hplace]
        rfl
  · intro h
    cases me with
    | host host =>
        rw [World.asking?_eq_view] at h
        obtain ⟨place, hplace, hask⟩ := Option.bind_eq_some_iff.mp h
        cases place with
        | asking b =>
            cases hask
            exact .call hplace
        | running activity =>
            obtain ⟨x, b?⟩ := activity
            cases hask
            exact .code hplace
        | free | opening | closing | measuring => cases hask
    | worker i =>
        cases hworker : w.workers[i]? with
        | none => simp [World.asking?, hworker] at h
        | some worker =>
            rw [World.asking?_eq_view, World.view_worker hworker] at h
            cases hplace : worker.place with
            | executing once s place =>
                rw [hplace] at h
                cases place with
                | running activity =>
                    obtain ⟨x, b?⟩ := activity
                    cases h
                    exact .task hworker hplace
                | _ => cases h
            | _ =>
                rw [hplace] at h
                cases h

/-- The code in progress after a step of the request that it waits for. -/
def Activity.afterAsking (activity : Activity) : Stage Asking Reply → Activity
  | .going a => { activity with asking? := some a }
  | .over reply => ⟨activity.execution.answer reply, none⟩

/-- The place of a thread of the host after a step of its request. -/
def HostPlace.afterAsking (stage : Stage Asking Reply) : HostPlace → HostPlace
  | .running activity => .running (activity.afterAsking stage)
  | _ =>
    match stage with
    | .going a => .asking a
    | .over reply => .free (some (.replied reply))

theorem activityStep_waiting (x : Execution) :
    activityStep library pick me w ⟨x, some a⟩ =
      (askingStep pick me w a).map fun next =>
        (next.1, .going (Activity.afterAsking ⟨x, some a⟩ next.2)) := by
  simp only [activityStep]
  congr 1
  funext next
  obtain ⟨v, stage⟩ := next
  cases stage with
  | going | «over» => rfl

/-- Where a step of a request takes the thread that waits for it. -/
inductive World.Serves (w v : World) (a : Asking) (stage : Stage Asking Reply) :
    ThreadId → World → Prop where
  | call {host : Nat} (h : w.hosts[host]? = some (.asking a)) :
      Serves w v a stage (.host host) (v.placeHost host ((HostPlace.asking a).afterAsking stage))
  | code {host : Nat} {x : Execution} (h : w.hosts[host]? = some (.running ⟨x, some a⟩)) :
      Serves w v a stage (.host host)
        (v.placeHost host (.running (Activity.afterAsking ⟨x, some a⟩ stage)))
  | task {i : Nat} {worker : Worker} {once : Bool} {s : Submission} {x : Execution}
      (hworker : w.workers[i]? = some worker)
      (hplace : worker.place = .executing once s (.running ⟨x, some a⟩)) :
      Serves w v a stage (.worker i)
        (v.placeWorker i (.executing once s (.running (Activity.afterAsking ⟨x, some a⟩ stage))))

theorem World.Awaits.advance (h : w.Awaits a me) (library : Library) (pick : Nat) :
    ∃ settle : World → Stage Asking Reply → World,
      w.advance library pick me =
        (askingStep pick me w a).map (fun next => settle next.1 next.2) ∧
      ∀ v stage, World.Serves w v a stage me (settle v stage) := by
  cases h with
  | @call host h =>
      refine ⟨_, ?_, fun v stage => .call h⟩
      rw [World.advance, World.host?, h, Option.bind_some, hostStep]
      congr 1
  | @code host x h =>
      refine ⟨_, ?_, fun v stage => .code h⟩
      rw [World.advance, World.host?, h, Option.bind_some, hostStep]
      simp only [activityStep_waiting, Option.map_map]
      rfl
  | @task i worker once s x hworker hplace =>
      refine ⟨_, ?_, fun v stage => .task hworker hplace⟩
      rw [World.advance, hworker, Option.bind_some]
      simp only [workerStep, hplace, taskStep, activityStep_waiting, Option.map_map]
      rfl

theorem World.advance_serves (ha : w.asking? me = some a)
    (h : w.advance library pick me = some w') :
    ∃ v stage, askingStep pick me w a = some (v, stage) ∧ World.Serves w v a stage me w' := by
  obtain ⟨settle, hsteps, hserves⟩ := (World.awaits_iff.mpr ha).advance library pick
  rw [hsteps, Option.map_eq_some_iff] at h
  obtain ⟨⟨v, stage⟩, hs, rfl⟩ := h
  exact ⟨v, stage, hs, hserves v stage⟩

end ScriptPool
