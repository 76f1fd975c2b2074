import ScriptPool.Proofs.Pool.Enactment
import ScriptPool.Proofs.Pool.Teardown

namespace ScriptPool

variable {library : Library} {pick : Nat} {me thread : ThreadId} {u v w w' : World}

/-- A thread goes on alone, step after step. -/
inductive World.Proceeds (library : Library) (me : ThreadId) (w : World) : World → Prop where
  | refl : World.Proceeds library me w w
  | step {v w' : World} (h : World.Proceeds library me w v)
      (hv : v.advance library 0 me = some w') : World.Proceeds library me w w'

theorem World.Proceeds.run (h : World.Proceeds library me w w') :
    ∃ n, Run library w (List.replicate n (.step 0 me)) w' := by
  induction h with
  | refl => exact ⟨0, .start⟩
  | step _ hv ih =>
      obtain ⟨n, hrun⟩ := ih
      refine ⟨n + 1, ?_⟩
      rw [List.replicate_succ']
      exact hrun.move _ hv

theorem World.Proceeds.mainLocked (h : World.Proceeds library me w w') (hm : MainLocked w) :
    MainLocked w' := by
  obtain ⟨n, hrun⟩ := h.run
  exact hm.run hrun

theorem World.Proceeds.view_eq (h : World.Proceeds library me w w') {α : Type}
    (f : Option HostPlace → α) (g : WorkerPlace → α) (hne : thread ≠ me) :
    w'.crew.view f g thread = w.crew.view f g thread := by
  induction h with
  | refl => rfl
  | step _ hv ih => rw [(World.advance_stride hv).view_eq hne, ih]

/-- How many steps a request is from giving back the lock of the main context, at most. -/
def Asking.mainRank : Asking → Nat
  | .submit _ (.reading _ names _) => 2 * names.length + 2
  | .submit _ (.tagging _ _ _ names _) => 2 * names.length + 3
  | _ => 1

theorem askingStep_of_inMain (pick : Nat) (me : ThreadId) {a : Asking}
    (hin : a.inMain w.main = true) :
    ∃ v stage, askingStep pick me w a = some (v, stage) ∧ v.main = w.main ∧
      ∀ a', stage = .going a' → a'.inMain w.main = true → a'.mainRank < a.mainRank := by
  cases a with
  | join | joinAll | acquire | release | resize | refused => cases hin
  | submit source place =>
      cases place with
      | reading call names captured =>
          cases names with
          | nil =>
              have hsource : source = w.main := of_decide_eq_true hin
              refine ⟨_, _, by simp only [askingStep, submitStep, if_pos hsource]; rfl, rfl, ?_⟩
              rintro a' ⟨⟩ -
              simp [Asking.mainRank]
          | cons name names =>
              simp only [askingStep, submitStep]
              split
              · refine ⟨_, _, rfl, rfl, ?_⟩
                rintro a' ⟨⟩ -
                simp only [Asking.mainRank, List.length_cons]
                omega
              · split
                · refine ⟨_, _, rfl, rfl, ?_⟩
                  rintro a' ⟨⟩ -
                  simp only [Asking.mainRank, List.length_cons]
                  omega
                · refine ⟨_, _, rfl, rfl, ?_⟩
                  rintro a' ⟨⟩ -
                  simp only [Asking.mainRank, List.length_cons]
                  omega
      | tagging call name left names captured =>
          refine ⟨_, _, rfl, rfl, ?_⟩
          rintro a' ⟨⟩ -
          simp only [Asking.mainRank]
          omega
      | unlocking task =>
          refine ⟨_, _, rfl, rfl, ?_⟩
          rintro a' ⟨⟩ hin'
          cases hin'
      | checking | locking | pushing | counting | notifying | starting => cases hin

theorem World.inMain_of_inCode (hcode : w.scene.InCode me) :
    w.inMain me = (w.asking? me).any (·.inMain w.main) := by
  rw [World.asking?_eq_view, World.inMain]
  cases me with
  | host host =>
      simp only [Crew.view]
      cases w.crew.hosts[host]? with
      | none | some => rfl
  | worker i =>
      obtain ⟨hand, once, s, activity, hhand, hplace⟩ := hcode
      obtain ⟨worker, hworker, rfl⟩ := World.worker_of_scene_hands hhand
      have hbare : worker.place.bare = .executing once s (.running activity) := hplace
      rw [World.view_worker hworker, World.view_worker hworker]
      generalize worker.place = place at hbare
      cases place with
      | executing once' s' p =>
          cases p with
          | running => rfl
          | _ => cases hbare
      | _ => cases hbare

theorem World.inCode_of_asking {a : Asking} (ha : w.asking? me = some a)
    (h : w.advance library pick me = some w') : w.scene.InCode me ∧ w'.scene.InCode me := by
  cases World.advance_stride h with
  | own _ _ _ _ _ _ hidle =>
      rw [ha] at hidle
      cases hidle
  | errand hcode hstep =>
      refine ⟨hcode, ?_⟩
      cases me with
      | host host => trivial
      | worker i =>
          obtain ⟨hand, once, s, activity, hhand, hplace⟩ := hcode
          obtain ⟨hand', hhand', hplace'⟩ := hstep.place_eq hhand
          exact ⟨hand', once, s, activity, hhand', hplace'.trans hplace⟩

theorem World.free_of_asking {a : Asking} (hm : MainLocked w) (ha : w.asking? me = some a)
    (hin : a.inMain w.main = true) :
    ∃ w', World.Proceeds library me w w' ∧ w'.mainHolder? = none := by
  suffices h : ∀ n v b, World.Proceeds library me w v → v.asking? me = some b →
      b.inMain v.main = true → b.mainRank ≤ n →
      ∃ w', World.Proceeds library me w w' ∧ w'.mainHolder? = none from
    h _ w a .refl ha hin (Nat.le_refl _)
  intro n
  induction n with
  | zero =>
      intro v b _ _ _ hrank
      have hpos : 0 < b.mainRank := by
        unfold Asking.mainRank
        split
        · omega
        · omega
        · omega
      omega
  | succ n ih =>
      intro v b hproceeds hb hbin hrank
      obtain ⟨u, stage, hs, hmain, hless⟩ := askingStep_of_inMain 0 me hbin
      obtain ⟨w', hadv⟩ := Option.isSome_iff_exists.mp
        (World.advance_isSome hb (Option.isSome_iff_exists.mpr ⟨_, hs⟩))
      have hnext := hproceeds.step hadv
      have hv := hproceeds.mainLocked hm
      obtain ⟨hmove, -⟩ := World.advance_main (hv.apt me) hadv
      obtain ⟨u', stage', hs', -, -, hstage⟩ := World.advance_asking hb hadv
      rw [hs] at hs'
      cases hs'
      cases hfree : w'.mainHolder? with
      | none => exact ⟨w', hnext, hfree⟩
      | some holder =>
          obtain ⟨hcode, hcode'⟩ := World.inCode_of_asking hb hadv
          have hin' : w'.inMain me = true := by
            cases hmove with
            | still h hsame => rw [hsame, World.inMain_of_inCode hcode, hb, Option.any_some, hbin]
            | lock _ _ _ hafter => exact hafter
            | unlock _ _ hnone =>
                rw [hnone] at hfree
                cases hfree
          rw [World.inMain_of_inCode hcode', hstage] at hin'
          cases stage with
          | «over» => cases hin'
          | going b' =>
              have hlt := hless b' rfl (hmove.main_eq ▸ hin')
              exact ih w' b' hnext hstage hin' (by omega)

theorem World.free_of_writing {i : Nat} {worker : Worker} {once : Bool} {s : Submission}
    {outcome : Invocation} (hworker : w.workers[i]? = some worker)
    (hplace : (∃ names results, worker.place = .executing once s (.writing outcome names results)) ∨
      worker.place = .executing once s (.unlockingMain outcome)) :
    ∃ w', World.Proceeds library (.worker i) w w' ∧ w'.mainHolder? = none := by
  have hunlock {v : World} {worker' : Worker} (hv : World.Proceeds library (.worker i) w v)
      (hworker' : v.workers[i]? = some worker')
      (hplace' : worker'.place = .executing once s (.unlockingMain outcome)) :
      ∃ w', World.Proceeds library (.worker i) w w' ∧ w'.mainHolder? = none := by
    have hadv : v.advance library 0 (.worker i) =
        some (v.unlockMain.placeWorker i (.executing once s (.counting outcome))) := by
      simp only [World.advance, hworker', Option.bind_some, workerStep, hplace', taskStep,
        Option.map_some]
    exact ⟨_, hv.step hadv, rfl⟩
  rcases hplace with ⟨names, results, hplace⟩ | hplace
  · suffices h : ∀ v worker' results, World.Proceeds library (.worker i) w v →
        v.workers[i]? = some worker' →
        worker'.place = .executing once s (.writing outcome names results) →
        ∃ w', World.Proceeds library (.worker i) w w' ∧ w'.mainHolder? = none from
      h w worker results .refl hworker hplace
    clear hplace
    induction names with
    | nil =>
        intro v worker' results hv hworker' hplace'
        have hadv : v.advance library 0 (.worker i) =
            some (v.placeWorker i (.executing once s (.unlockingMain outcome))) := by
          simp only [World.advance, hworker', Option.bind_some, workerStep, hplace', taskStep,
            Option.map_some]
        have hnext : (v.placeWorker i (.executing once s (.unlockingMain outcome))).workers[i]? =
            some { worker' with place := .executing once s (.unlockingMain outcome) } := by
          simp [World.placeWorker, World.modifyWorker, hworker']
        exact hunlock (hv.step hadv) hnext rfl
    | cons name names ih =>
        intro v worker' results hv hworker' hplace'
        have hadv : v.advance library 0 (.worker i) = some (World.placeWorker { v with
            engine := writeResult worker'.context v.main name (firstResult results) v.engine } i
              (.executing once s (.writing outcome names results.tail))) := by
          simp only [World.advance, hworker', Option.bind_some, workerStep, hplace', taskStep,
            Option.map_some]
        refine ih _ { worker' with place := _ } results.tail (hv.step hadv) ?_ rfl
        simp [World.placeWorker, World.modifyWorker, hworker']
  · exact hunlock .refl hworker hplace

theorem World.free_of_holder (hm : MainLocked w) (hholder : w.mainHolder? = some me) :
    ∃ w', World.Proceeds library me w w' ∧ w'.mainHolder? = none := by
  have hin := (hm.holder me).mpr hholder
  cases me with
  | host host =>
      have hcode : w.scene.InCode (.host host) := trivial
      rw [World.inMain_of_inCode hcode, Option.any_eq_true] at hin
      obtain ⟨a, ha, hin⟩ := hin
      exact World.free_of_asking hm ha hin
  | worker i =>
      cases hworker : w.workers[i]? with
      | none => simp [World.inMain, Crew.view, World.crew, hworker, WorkerPlace.inMain,
          WorkerPlace.asking?] at hin
      | some worker =>
          rw [World.inMain, World.view_worker hworker] at hin
          have hask : w.asking? (.worker i) = worker.place.asking? := by
            rw [World.asking?_eq_view, World.view_worker hworker]
          have hwriting (once : Bool) (s : Submission) (outcome : Invocation)
              (h : (∃ names results,
                  worker.place = .executing once s (.writing outcome names results)) ∨
                worker.place = .executing once s (.unlockingMain outcome)) :
              ∃ w', World.Proceeds library (.worker i) w w' ∧ w'.mainHolder? = none :=
            World.free_of_writing hworker h
          revert hin hask hwriting
          generalize worker.place = place
          intro hin hask hwriting
          unfold WorkerPlace.inMain at hin
          split at hin
          · exact hwriting _ _ _ (.inl ⟨_, _, rfl⟩)
          · exact hwriting _ _ _ (.inr rfl)
          · obtain ⟨a, ha, hin⟩ := (Option.any_eq_true _ _).mp hin
            exact World.free_of_asking hm (hask.trans ha) hin

/-- How many steps of its own a worker is from the code of its task, or from counting it. -/
def TaskPlace.rank (s : Submission) : TaskPlace → Nat
  | .publishing => 3
  | .unlockingQueue => 2
  | .preparing => 1
  | .lockingMain _ => s.task.call.returns.length + 5
  | .writing _ names _ => names.length + 4
  | .unlockingMain _ => 3
  | .counting _ => 2
  | .countingTotal _ => 1
  | .running _ | .replacing | .clearing | .notifying => 0

/-- Whether the code of the task is in progress. -/
def TaskPlace.isRunning : TaskPlace → Bool
  | .running _ => true
  | _ => false

/-- The next place of a task on the way to its code, or from there to counting it. -/
structure TaskPlace.Nears (s : Submission) (place place' : TaskPlace) : Prop where
  isOpen : place'.isOpen = true
  code : place'.isRunning = true ∧ place.hasStarted = false ∨
    place'.isRunning = false ∧ place'.hasStarted = place.hasStarted
  rank : place'.rank s < place.rank s

theorem taskStep_nears (library : Library) (s : Submission) {i : Nat} {worker : Worker}
    {place : TaskPlace} (hworker : w.workers[i]? = some worker) (hopen : place.isOpen = true)
    (hcode : place.isRunning = false)
    (hfree : (∃ outcome, place = .lockingMain outcome) → w.mainHolder? = none) :
    ∃ v stage, taskStep library 0 i worker s.task w place = some (v, stage) ∧
      ((∃ outcome, place = .countingTotal outcome) ∨
        ∃ place', stage = .going place' ∧ v.workers[i]?.isSome = true ∧ place.Nears s place') := by
  have hsome : w.workers[i]?.isSome = true := by rw [hworker]; rfl
  cases place with
  | running => cases hcode
  | replacing | clearing | notifying => cases hopen
  | publishing =>
      refine ⟨_, _, rfl, .inr ⟨_, rfl, ?_, rfl, .inr ⟨rfl, rfl⟩, Nat.lt_succ_self _⟩⟩
      simp [World.modifyWorker, hworker]
  | unlockingQueue =>
      exact ⟨_, _, rfl, .inr ⟨_, rfl, hsome, rfl, .inr ⟨rfl, rfl⟩, Nat.lt_succ_self _⟩⟩
  | preparing =>
      exact ⟨_, _, rfl, .inr ⟨_, rfl, hsome, rfl, .inl ⟨rfl, rfl⟩, Nat.lt_succ_self _⟩⟩
  | lockingMain outcome =>
      have hlock : w.lockMain (.worker i) = some { w with mainHolder? := some (.worker i) } := by
        rw [World.lockMain, hfree ⟨outcome, rfl⟩]
        rfl
      have htask : taskStep library 0 i worker s.task w (.lockingMain outcome) =
          some ({ w with mainHolder? := some (.worker i) }, .going (if outcome.isHealthy then
            .writing outcome s.task.call.returns outcome.results else .unlockingMain outcome)) := by
        simp only [taskStep, hlock, Option.map_some]
      refine ⟨_, _, htask, .inr ⟨_, rfl, hsome, ?_⟩⟩
      cases outcome.isHealthy with
      | true => exact ⟨rfl, .inr ⟨rfl, rfl⟩, Nat.lt_succ_self _⟩
      | false =>
          refine ⟨rfl, .inr ⟨rfl, rfl⟩, ?_⟩
          show 3 < s.task.call.returns.length + 5
          omega
  | writing outcome names results =>
      cases names with
      | nil | cons =>
          exact ⟨_, _, rfl, .inr ⟨_, rfl, hsome, rfl, .inr ⟨rfl, rfl⟩, Nat.lt_succ_self _⟩⟩
  | unlockingMain outcome =>
      exact ⟨_, _, rfl, .inr ⟨_, rfl, hsome, rfl, .inr ⟨rfl, rfl⟩, Nat.lt_succ_self _⟩⟩
  | counting outcome =>
      refine ⟨_, _, rfl, .inr ⟨_, rfl, ?_, rfl, .inr ⟨rfl, rfl⟩, Nat.lt_succ_self _⟩⟩
      simp [World.modifyWorker, hworker]
  | countingTotal outcome =>
      cases outcome with
      | completed | suspended | errored => exact ⟨_, _, rfl, .inl ⟨_, rfl⟩⟩

/-- A worker outside the code of its task takes its next step, whatever commands it has been sent,
unless it has to wait for the lock of the main context. -/
theorem World.advance_task {i : Nat} {worker : Worker} {once : Bool} {s : Submission}
    {place : TaskPlace} (hworker : w.workers[i]? = some worker)
    (hplace : worker.place = .executing once s place) (hopen : place.isOpen = true)
    (hcode : place.isRunning = false)
    (hfree : (∃ outcome, place = .lockingMain outcome) → w.mainHolder? = none) :
    ∃ w', w.advance library 0 (.worker i) = some w' ∧
      ((∃ outcome, place = .countingTotal outcome) ∨
        ∃ worker' place', w'.workers[i]? = some worker' ∧
          worker'.place = .executing once s place' ∧ place.Nears s place') := by
  obtain ⟨v, stage, hstep, hnears⟩ := taskStep_nears library s hworker hopen hcode hfree
  refine ⟨v.placeWorker i (stage.afterTask once s), ?_, hnears.imp_right ?_⟩
  · simp only [World.advance, hworker, Option.bind_some, workerStep, hplace, hstep]
    rfl
  · rintro ⟨place', rfl, hsome, hnears⟩
    obtain ⟨worker', hworker'⟩ := Option.isSome_iff_exists.mp hsome
    exact ⟨_, place', World.getElem?_placeWorker hworker' _, rfl, hnears⟩

/-- A worker is in the code of a task, which has come from the call of the task's function. -/
def World.RunsCode (library : Library) (w : World) (i : Nat) (s : Submission) : Prop :=
  ∃ x, w.call? i = some (s, .running x) ∧ s.CanReach library (.running x)

theorem World.Proceeds.schedule (h : World.Proceeds library me w w') :
    ∃ threads : List ThreadId, Run library w (threads.map (.step 0)) w' := by
  obtain ⟨n, hrun⟩ := h.run
  refine ⟨List.replicate n me, ?_⟩
  rw [List.map_replicate]
  exact hrun

theorem World.counted_of_countingTotal {i : Nat} {worker : Worker} {once : Bool} {s : Submission}
    {outcome : Invocation} (hworker : w.workers[i]? = some worker)
    (hplace : worker.place = .executing once s (.countingTotal outcome)) :
    .finished i s outcome ∈ w.deeds library [.step 0 (.worker i)] := by
  have hidle : w.asking? (.worker i) = none := by
    rw [World.asking?_eq_view, World.view_worker hworker, hplace]
    rfl
  have hbare : worker.hand.bare.place = .executing once s (.countingTotal outcome) := by
    simp [Worker.hand, Hand.bare, hplace, WorkerPlace.bare]
  have hm := World.deed?_of_own hidle (World.scene_hands_getElem? hworker)
  rw [hbare] at hm
  simp [World.deeds, World.notes, Move.thread?, hm, WorkerPlace.deed?]

theorem World.Proceeds.task_eq {i : Nat} {worker : Worker} {once : Bool} {s : Submission}
    {place : TaskPlace} (h : World.Proceeds library me w w') (hne : me ≠ .worker i)
    (hworker : w.workers[i]? = some worker) (hplace : worker.place = .executing once s place) :
    ∃ worker', w'.workers[i]? = some worker' ∧ worker'.place = .executing once s place := by
  have hview := h.view_eq (fun _ => WorkerPlace.beginning) id (Ne.symm hne)
  rw [World.view_worker hworker, hplace] at hview
  simp only [Crew.view, World.crew, List.getElem?_map] at hview
  cases hworker' : w'.workers[i]? with
  | none =>
      rw [hworker'] at hview
      cases hview
  | some worker' =>
      rw [hworker'] at hview
      exact ⟨worker', rfl, hview⟩

/-- If a worker is about to lock the main context, whoever has it locked can give the lock back
first. -/
theorem World.runs_until_free (library : Library) (hm : MainLocked w) {i : Nat} {worker : Worker}
    {once : Bool} {s : Submission} {place : TaskPlace} (hworker : w.workers[i]? = some worker)
    (hplace : worker.place = .executing once s place) :
    ∃ (before : List ThreadId) (v : World), Run library w (before.map (.step 0)) v ∧
      ∃ worker', v.workers[i]? = some worker' ∧ worker'.place = .executing once s place ∧
        ((∃ outcome, place = .lockingMain outcome) → v.mainHolder? = none) := by
  cases hholder : w.mainHolder? with
  | none => exact ⟨[], w, .start, worker, hworker, hplace, fun _ => hholder⟩
  | some holder =>
      by_cases hlocking : ∃ outcome, place = .lockingMain outcome
      · obtain ⟨v, hproceeds, hnone⟩ := World.free_of_holder hm hholder
        obtain ⟨outcome, rfl⟩ := hlocking
        have hne : holder ≠ .worker i := by
          rintro rfl
          have hin := (hm.holder _).mpr hholder
          rw [World.inMain, World.view_worker hworker, hplace] at hin
          cases hin
        obtain ⟨before, hrun⟩ := hproceeds.schedule
        obtain ⟨worker', hworker', hplace'⟩ := hproceeds.task_eq hne hworker hplace
        exact ⟨before, v, hrun, worker', hworker', hplace', fun _ => hnone⟩
      · exact ⟨[], w, .start, worker, hworker, hplace, fun h => absurd h hlocking⟩

theorem World.task_goes_on (hm : MainLocked w) {i : Nat} {worker : Worker} {once : Bool}
    {s : Submission} {place : TaskPlace} (hworker : w.workers[i]? = some worker)
    (hplace : worker.place = .executing once s place) (hopen : place.isOpen = true)
    (hcode : place.isRunning = false) :
    ∃ (threads : List ThreadId) (w' : World), Run library w (threads.map (.step 0)) w' ∧
      (place.hasStarted = false → ∃ x, w'.call? i = some (s, .running x)) ∧
      (place.hasStarted = true →
        ∃ outcome, .finished i s outcome ∈ w.deeds library (threads.map (.step 0))) := by
  induction hrank : place.rank s using Nat.strong_induction_on generalizing w worker place with
  | _ n ih =>
      subst hrank
      obtain ⟨before, v, hv, worker₁, hworker₁, hplace₁, hfree⟩ :=
        World.runs_until_free library hm hworker hplace
      obtain ⟨v', hadv, hnext⟩ := World.advance_task hworker₁ hplace₁ hopen hcode hfree
      have hstep : Run library w ((before ++ [ThreadId.worker i]).map (.step 0)) v' := by
        rw [List.map_append]
        exact hv.move _ hadv
      rcases hnext with ⟨outcome, rfl⟩ |
        ⟨worker₂, place₂, hworker₂, hplace₂, hopen₂, ⟨hcode₂, hstart⟩ | ⟨hcode₂, hsame⟩, hless⟩
      · refine ⟨_, v', hstep, by rintro ⟨⟩, fun _ => ⟨outcome, ?_⟩⟩
        rw [List.map_append, World.deeds, hv.notes_append]
        exact List.mem_append_right _ (World.counted_of_countingTotal hworker₁ hplace₁)
      · obtain ⟨activity, rfl⟩ : ∃ activity, place₂ = .running activity := by
          cases place₂ with
          | running activity => exact ⟨activity, rfl⟩
          | _ => cases hcode₂
        refine ⟨_, v', hstep, fun _ => ⟨activity.execution, ?_⟩, ?_⟩
        · rw [World.call?_eq hworker₂, hplace₂]
          rfl
        intro hstarted
        cases hstart.symm.trans hstarted
      · obtain ⟨after, w', hafter, hruns, hcounted⟩ :=
          ih _ hless (hm.run hstep) hworker₂ hplace₂ hopen₂ hcode₂ rfl
        refine ⟨(before ++ [ThreadId.worker i]) ++ after, w', ?_, ?_, ?_⟩
        · rw [List.map_append]
          exact hstep.trans hafter
        · rw [← hsame]
          exact hruns
        · rw [← hsame, List.map_append, World.deeds, hstep.notes_append]
          intro hstarted
          obtain ⟨outcome, hmem⟩ := hcounted hstarted
          exact ⟨outcome, List.mem_append_right _ hmem⟩

variable {engine : Engine} {main : ContextId} {poolSize others : Nat} {moves : List Move}
  {s : Submission} {i : Nat} {log : List Deed}

theorem World.executes_iff_care :
    w.Executes thread s ↔ ∃ i started, thread = .worker i ∧ w.scene.care? i = some (s, started) := by
  constructor
  · intro h
    obtain ⟨i, worker, rfl, hworker, hheld⟩ := h
    have hholds := World.scene_holds_iff.mpr ⟨i, worker, rfl, hworker, hheld⟩
    obtain ⟨started, hcare⟩ := Crew.holds_iff_care.mp hholds
    exact ⟨i, started, rfl, hcare⟩
  · rintro ⟨i, started, rfl, hcare⟩
    exact World.scene_holds_iff.mp (Crew.holds_iff_care.mpr ⟨started, hcare⟩)

theorem Kept.whereabouts (hk : Kept w.scene log) (hs : s ∈ pushes log) :
    (s ∈ w.queue ∧ (∀ thread, ¬ w.Executes thread s) ∧ life log s = [.pushed s]) ∨
    (s ∉ w.queue ∧ ∃ i, (∀ thread, w.Executes thread s ↔ thread = .worker i) ∧
      (life log s = [.pushed s, .claimed i s] ∨
        life log s = [.pushed s, .claimed i s, .started i s])) ∨
    (s ∉ w.queue ∧ (∀ thread, ¬ w.Executes thread s) ∧ ∃ i outcome,
      life log s = [.pushed s, .claimed i s, .started i s, .finished i s outcome]) := by
  rcases hk.covered s hs with hqueue | ⟨i, started, hcare⟩ | ⟨i, outcome, hlife⟩
  · refine .inl ⟨hqueue, fun thread hthread => ?_, hk.queued s hqueue⟩
    obtain ⟨i, started, -, hcare⟩ := World.executes_iff_care.mp hthread
    exact hk.not_queued hcare s hqueue rfl
  · refine .inr (.inl ⟨fun hqueue => hk.not_queued hcare s hqueue rfl, i, fun thread => ?_, ?_⟩)
    · rw [World.executes_iff_care]
      constructor
      · rintro ⟨j, started', rfl, hcare'⟩
        rw [hk.care_unique hcare hcare' rfl]
      · rintro rfl
        exact ⟨i, started, rfl, hcare⟩
    · cases started with
      | false => exact .inl (hk.claimed hcare)
      | true => exact .inr (hk.started hcare)
  · refine .inr (.inr ⟨fun hqueue => ?_, fun thread hthread => ?_, i, outcome, hlife⟩)
    · have hqueued := hk.queued s hqueue
      rw [hlife] at hqueued
      cases hqueued
    · obtain ⟨j, started, -, hcare⟩ := World.executes_iff_care.mp hthread
      cases started with
      | false =>
          have hclaimed := hk.claimed hcare
          rw [hlife] at hclaimed
          cases hclaimed
      | true =>
          have hstarted := hk.started hcare
          rw [hlife] at hstarted
          cases hstarted

theorem Kept.started_iff {started : Bool} (hk : Kept w.scene log)
    (hcare : w.scene.care? i = some (s, started)) : .started i s ∈ log ↔ started = true := by
  have hlife : .started i s ∈ log ↔ .started i s ∈ life log s := by
    simp [life, Deed.isStageOf, Deed.submission]
  rw [hlife]
  cases started with
  | false => simp [hk.claimed hcare]
  | true => simp [hk.started hcare]

theorem World.place_of_executes (h : w.Executes (.worker i) s) :
    ∃ worker once place, w.workers[i]? = some worker ∧ worker.place = .executing once s place ∧
      place.isOpen = true := by
  obtain ⟨j, worker, heq, hworker, hheld⟩ := h
  cases heq
  cases hplace : worker.place with
  | executing once s' place =>
      rw [hplace] at hheld
      simp only [WorkerPlace.held?] at hheld
      split at hheld
      · next hopen =>
          cases hheld
          exact ⟨worker, once, place, hworker, hplace, hopen⟩
      · cases hheld
  | _ =>
      rw [hplace] at hheld
      cases hheld

theorem World.care_eq {worker : Worker} {once : Bool} {place : TaskPlace}
    (hworker : w.workers[i]? = some worker) (hplace : worker.place = .executing once s place)
    (hopen : place.isOpen = true) : w.scene.care? i = some (s, place.hasStarted) := by
  rw [Crew.care?, World.scene_hands_getElem? hworker, Option.bind_some]
  simp only [Worker.hand, Hand.bare, hplace]
  cases place with
  | replacing | clearing | notifying => cases hopen
  | publishing | unlockingQueue | preparing | running | lockingMain | writing | unlockingMain
  | counting | countingTotal => rfl

/-- No task is lost, duplicated or reordered.

In every world that a coordinator reaches: tasks are claimed in the order in which they were pushed,
and those that are not claimed yet wait in the queue in this order. Every task that was pushed waits
in the queue, or exactly one worker executes it, or it is finished. It was claimed, started and
counted once each at most, all three of them by the same worker, and as far as its place says. The
counters say how many tasks were counted as completed and as failed. To start a task is to call its
function with the arguments of the task, no other step begins a call, and what is counted is the
outcome that the call came to step by step. A worker that executes a task is in the code of the task,
or steps alone bring it there, or from there to counting the task, whatever commands the worker has
been sent. -/
theorem bag_conserves_tasks (library : Library) (engine : Engine) (main : ContextId)
    (poolSize others : Nat) (moves : List Move) (w : World) (hmain : main < engine.contexts.length)
    (h : Run library (World.initial engine main poolSize others) moves w) :
    let log := (World.initial engine main poolSize others).deeds library moves
    (pushes log).map (·.ticket) = List.range w.tickets ∧
    pushes log = claims log ++ w.queue ∧
    (∀ s ∈ pushes log,
      (s ∈ w.queue ∧ (∀ thread, ¬ w.Executes thread s) ∧ life log s = [.pushed s]) ∨
      (s ∉ w.queue ∧ ∃ i, (∀ thread, w.Executes thread s ↔ thread = .worker i) ∧
        (life log s = [.pushed s, .claimed i s] ∨
          life log s = [.pushed s, .claimed i s, .started i s])) ∨
      (s ∉ w.queue ∧ (∀ thread, ¬ w.Executes thread s) ∧ ∃ i outcome,
        life log s = [.pushed s, .claimed i s, .started i s, .finished i s outcome])) ∧
    w.completed = log.countP Deed.completes ∧ w.failed = log.countP Deed.fails ∧
    (World.initial engine main poolSize others).Enacts library moves ∧
    ∀ i s, w.Executes (.worker i) s → w.RunsCode library i s ∨
      ∃ (threads : List ThreadId) (w' : World), Run library w (threads.map (.step 0)) w' ∧
        (.started i s ∉ log → w'.RunsCode library i s) ∧
        (.started i s ∈ log →
          ∃ outcome, .finished i s outcome ∈ w.deeds library (threads.map (.step 0))) := by
  intro log
  have hk : Kept w.scene log := h.kept
  have ht : Tallied w log := h.tallied
  refine ⟨hk.tickets, hk.order, fun s hs => hk.whereabouts hs, ht.completed, ht.failed,
    World.enacts library hmain poolSize others moves, ?_⟩
  intro i s hi
  have hm := (MainLocked.initial engine main poolSize others).run h
  obtain ⟨worker, once, place, hworker, hplace, hopen⟩ := World.place_of_executes hi
  have hstarted : .started i s ∈ log ↔ place.hasStarted = true :=
    hk.started_iff (World.care_eq hworker hplace hopen)
  cases hcode : place.isRunning with
  | true =>
      cases place with
      | running activity =>
          have hcall : w.call? i = some (s, .running activity.execution) := by
            rw [World.call?_eq hworker, hplace]
            rfl
          exact .inl ⟨_, hcall, h.canReach hmain hcall⟩
      | _ => cases hcode
  | false =>
      obtain ⟨threads, w', hrun, hruns, hcounted⟩ :=
        World.task_goes_on hm hworker hplace hopen hcode
      refine .inr ⟨threads, w', hrun, fun hnot => ?_, fun hin => hcounted (hstarted.mp hin)⟩
      rw [hstarted] at hnot
      obtain ⟨x, hcall⟩ := hruns (Bool.eq_false_iff.mpr hnot)
      exact ⟨x, hcall, (h.trans hrun).canReach hmain hcall⟩

/-- A call is submitted and executed. -/
def soloExecuted : List Move :=
  soloSubmitted ++ List.replicate 20 (.step 0 (.worker 0))

def Deed.claimant? : Deed → Option Nat
  | .claimed i _ => some i
  | .pushed _ | .started .. | .wrote .. | .finished .. => none

/-- The only task of a run is claimed, started and counted once each. -/
theorem bag_conserves_tasks_solo : ∃ w s outcome, Run soloLibrary soloStart soloExecuted w ∧
    life (soloStart.deeds soloLibrary soloExecuted) s =
      [.pushed s, .claimed 0 s, .started 0 s, .finished 0 s outcome] ∧
    w.completed = (soloStart.deeds soloLibrary soloExecuted).countP Deed.completes ∧
    soloStart.Enacts soloLibrary soloExecuted := by
  have hend : (soloStart.follow soloLibrary soloExecuted).any (fun w => w.queue.isEmpty &&
      w.workers.all fun worker => worker.place.held?.isNone) = true := by
    decide +kernel
  have hpushed : (pushes (soloStart.deeds soloLibrary soloExecuted)).isEmpty = false := by
    decide +kernel
  have honly : (soloStart.deeds soloLibrary soloExecuted).all (fun deed =>
      deed.claimant?.all (· = 0)) = true := by
    decide +kernel
  obtain ⟨w, hw, hend⟩ := (Option.any_eq_true _ _).mp hend
  rw [Bool.and_eq_true, List.isEmpty_iff, List.all_eq_true] at hend
  obtain ⟨hqueue, hidle⟩ := hend
  have hrun := run_iff_follow.mpr hw
  obtain ⟨-, -, hplaces, hcompleted, -, henacts, -⟩ := bag_conserves_tasks soloLibrary
    (Engine.initial "solo" none).createContext.2 0 1 0 soloExecuted w (by decide) hrun
  obtain ⟨s, hs⟩ := List.exists_mem_of_ne_nil _ (List.isEmpty_eq_false_iff.mp hpushed)
  rcases hplaces s hs with ⟨hmem, -⟩ | ⟨-, i, hexecutes, -⟩ | ⟨-, -, i, outcome, hlife⟩
  · rw [hqueue] at hmem
    cases hmem
  · obtain ⟨_, worker, _, hworker, hheld⟩ := (hexecutes (.worker i)).mpr rfl
    have hnone := hidle worker (List.mem_of_getElem? hworker)
    rw [hheld] at hnone
    cases hnone
  · have hclaimed : .claimed i s ∈ life (soloStart.deeds soloLibrary soloExecuted) s := by
      have heq : life (soloStart.deeds soloLibrary soloExecuted) s =
        [.pushed s, .claimed i s, .started i s, .finished i s outcome] := hlife
      simp [heq]
    rw [List.all_eq_true] at honly
    have hzero : i = 0 := of_decide_eq_true (honly _ (List.mem_filter.mp hclaimed).1)
    subst hzero
    exact ⟨w, s, outcome, hrun, hlife, hcompleted, henacts⟩

end ScriptPool
