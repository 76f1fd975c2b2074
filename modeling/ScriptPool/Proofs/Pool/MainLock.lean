import ScriptPool.Proofs.Pool.Life
import ScriptPool.Proofs.Pool.Procedures

namespace ScriptPool

/-- The main context and its lock are as they were. -/
structure OffMain (w w' : World) : Prop where
  main : w'.main = w.main
  holder : w'.mainHolder? = w.mainHolder?

variable {library : Library} {pick : Nat} {me thread : ThreadId} {w w' : World}

theorem OffMain.refl (w : World) : OffMain w w :=
  ⟨rfl, rfl⟩

theorem OffMain.trans {v : World} (h : OffMain w v) (h' : OffMain v w') : OffMain w w' :=
  ⟨h'.main.trans h.main, h'.holder.trans h.holder⟩

theorem privateContext_offMain (w : World) : OffMain w w.privateContext.2 := by
  unfold World.privateContext
  split
  · exact ⟨rfl, rfl⟩
  · exact ⟨rfl, rfl⟩

theorem Oversees.offMain (h : Oversees me w w') : OffMain w w' := by
  induction h with
  | refl => exact .refl w
  | lock _ hlock ih =>
      obtain ⟨-, rfl⟩ := World.lockPool_eq_some_iff.mp hlock
      exact ⟨ih.main, ih.holder⟩
  | unlock _ ih | raise _ _ ih | send _ _ ih | report _ _ ih => exact ⟨ih.main, ih.holder⟩

theorem Manages.offMain (h : Manages me w w') : OffMain w w' := by
  induction h with
  | refl => exact .refl w
  | oversees _ hv ih => exact ih.trans hv.offMain
  | regroup _ _ ih | dismiss _ _ ih | close _ ih | notify _ ih | size _ _ ih =>
      exact ⟨ih.main, ih.holder⟩

theorem Hires.offMain (h : Hires me w w') : OffMain w w' := by
  have hprivate := privateContext_offMain w
  cases h with
  | manages h => exact h.offMain
  | @hire v u c id hcontext h =>
      rw [hcontext] at hprivate
      have hadded : OffMain w (v.addWorker id c) := ⟨hprivate.main, hprivate.holder⟩
      exact hadded.trans h.offMain
  | fail hcontext =>
      rw [hcontext] at hprivate
      exact hprivate

/-- Whether a request has the main context locked. -/
def Asking.inMain (main : ContextId) : Asking → Bool
  | .submit source (.reading ..) | .submit source (.tagging ..) => source = main
  | .submit _ (.unlocking _) => true
  | _ => false

/-- Only calls from the main context are submitted under its lock. -/
def Asking.isApt (main : ContextId) : Asking → Bool
  | .submit source (.locking _) | .submit source (.unlocking _) => source = main
  | _ => true

/-- Whether a thread of the host or its code has the main context locked. -/
def HostPlace.inMain (main : ContextId) (place : HostPlace) : Bool :=
  place.asking?.any (·.inMain main)

/-- Whether a worker or its task has the main context locked. -/
def WorkerPlace.inMain (main : ContextId) : WorkerPlace → Bool
  | .executing _ _ (.writing ..) | .executing _ _ (.unlockingMain _) => true
  | place => place.asking?.any (·.inMain main)

/-- Whether a thread has the main context locked. -/
def World.inMain (w : World) : ThreadId → Bool :=
  w.crew.view (·.any (·.inMain w.main)) (·.inMain w.main)

/-- A step takes or gives back the lock of the main context as its thread's places say. -/
inductive MainMove (me : ThreadId) (w w' : World) (before after : Bool) : Prop where
  | still (h : OffMain w w') (hsame : after = before)
  | lock (hmain : w'.main = w.main) (hfree : w.mainHolder? = none)
      (hheld : w'.mainHolder? = some me) (hafter : after = true)
  | unlock (hmain : w'.main = w.main) (hbefore : before = true) (hfree : w'.mainHolder? = none)
      (hafter : after = false)

theorem MainMove.main_eq {before after : Bool} (h : MainMove me w w' before after) :
    w'.main = w.main := by
  cases h with
  | still h => exact h.main
  | lock hmain | unlock hmain => exact hmain

theorem submitStep_main {source : ContextId} {place : SubmitPlace} {stage : Stage SubmitPlace Reply}
    (hapt : (Asking.submit source place).isApt w.main = true)
    (h : submitStep source me w place = some (w', stage)) :
    ∃ after, MainMove me w w' ((Asking.submit source place).inMain w.main) after ∧
      match stage with
      | .going place' => (Asking.submit source place').inMain w.main = after ∧
          (Asking.submit source place').isApt w.main = true
      | .over _ => after = false := by
  cases stage with
  | going place' =>
      cases submitStep_goes h with
      | checked _ _ hmain => exact ⟨false, .still ⟨rfl, rfl⟩ rfl, rfl, decide_eq_true hmain⟩
      | checkedApart _ _ hapart =>
          exact ⟨false, .still ⟨rfl, rfl⟩ rfl, decide_eq_false hapart, rfl⟩
      | locked call hfree => exact ⟨true, .lock rfl hfree rfl rfl, hapt, rfl⟩
      | found | copied | moved | tagged => exact ⟨_, .still ⟨rfl, rfl⟩ rfl, rfl, rfl⟩
      | read call captured hmain =>
          exact ⟨true, .still ⟨rfl, rfl⟩ (decide_eq_true hmain).symm, rfl, decide_eq_true hmain⟩
      | readApart call captured hapart =>
          exact ⟨false, .still ⟨rfl, rfl⟩ (decide_eq_false hapart).symm, rfl, rfl⟩
      | unlocked => exact ⟨false, .unlock rfl rfl rfl rfl, rfl, rfl⟩
      | pushed | counted | notified => exact ⟨false, .still ⟨rfl, rfl⟩ rfl, rfl, rfl⟩
      | start hs => exact ⟨false, .still (startStep_oversees hs).offMain rfl, rfl, rfl⟩
  | «over» reply =>
      cases submitStep_replies h with
      | refused | misread => exact ⟨false, .still ⟨rfl, rfl⟩ rfl, rfl⟩
      | idle hs => exact ⟨false, .still ((startStep_oversees hs).report _).offMain rfl, rfl⟩
      | started _ hs => exact ⟨false, .still (startStep_oversees hs).offMain rfl, rfl⟩

/-- Where a request stands after a step, if it is not over. -/
def Stage.inMain (main : ContextId) (stage : Stage Asking Reply) : Bool :=
  stage.asking?.any (·.inMain main)

theorem World.withSections_offMain (w : World) (sections : Registry) (events : List Event) :
    OffMain w (w.withSections sections events) :=
  ⟨rfl, rfl⟩

theorem askingStep_main {a : Asking} {stage : Stage Asking Reply} (hapt : a.isApt w.main = true)
    (h : askingStep pick me w a = some (w', stage)) :
    MainMove me w w' (a.inMain w.main) (stage.inMain w.main) ∧
      stage.asking?.all (·.isApt w.main) = true := by
  cases askingStep_goes h with
  | submits hs =>
      obtain ⟨after, hmove, rfl, hapt'⟩ := submitStep_main hapt hs
      exact ⟨hmove, hapt'⟩
  | submitted hs =>
      obtain ⟨after, hmove, rfl⟩ := submitStep_main hapt hs
      exact ⟨hmove, rfl⟩
  | joins hs | joined hs => exact ⟨.still (joinStep_oversees hs).offMain rfl, rfl⟩
  | joinsAll hs | joinedAll hs => exact ⟨.still (joinAllStep_oversees hs).offMain rfl, rfl⟩
  | resizes hs | resized hs => exact ⟨.still (resizeStep_hires hs).offMain rfl, rfl⟩
  | acquires | acquired | releases | released =>
      exact ⟨.still (World.withSections_offMain ..) rfl, rfl⟩
  | refused => exact ⟨.still ⟨rfl, rfl⟩ rfl, rfl⟩

theorem Request.begin_main (r : Request) (source main : ContextId) :
    (r.begin source).inMain main = false ∧ (r.begin source).isApt main = true := by
  cases r with
  | parallel | join | joinAll | resize => exact ⟨rfl, rfl⟩
  | acquire id | release id =>
      unfold Request.begin
      dsimp only
      split
      · exact ⟨rfl, rfl⟩
      · exact ⟨rfl, rfl⟩

/-- Whether the request that an activity waits for has the main context locked. -/
def Activity.inMain (main : ContextId) (activity : Activity) : Bool :=
  activity.asking?.any (·.inMain main)

def Stage.activityInMain (main : ContextId) : Stage Activity Ending → Bool
  | .going activity => activity.inMain main
  | .over _ => false

theorem activityStep_main {activity : Activity} {stage : Stage Activity Ending}
    (hapt : activity.asking?.all (·.isApt w.main) = true)
    (h : activityStep library pick me w activity = some (w', stage)) :
    MainMove me w w' (activity.inMain w.main) (stage.activityInMain w.main) ∧
      ∀ activity', stage = .going activity' → activity'.asking?.all (·.isApt w.main) = true := by
  cases activityStep_goes h with
  | asks hs =>
      obtain ⟨hmove, hapt'⟩ := askingStep_main hapt hs
      refine ⟨hmove, ?_⟩
      rintro _ ⟨⟩
      exact hapt'
  | replied hs =>
      refine ⟨(askingStep_main hapt hs).1, ?_⟩
      rintro _ ⟨⟩
      rfl
  | went =>
      refine ⟨.still ⟨rfl, rfl⟩ rfl, ?_⟩
      rintro _ ⟨⟩
      rfl
  | @asked x r =>
      refine ⟨.still ⟨rfl, rfl⟩ (Request.begin_main r _ _).1, ?_⟩
      rintro _ ⟨⟩
      exact (Request.begin_main r _ _).2
  | ended =>
      refine ⟨.still ⟨rfl, rfl⟩ rfl, ?_⟩
      rintro _ ⟨⟩

theorem MainMove.place {v : World} {before after after' : Bool} (h : MainMove me w v before after)
    (hmain : w'.main = v.main) (hholder : w'.mainHolder? = v.mainHolder?) (hafter : after' = after) :
    MainMove me w w' before after' := by
  subst hafter
  cases h with
  | still h hsame => exact .still ⟨hmain.trans h.main, hholder.trans h.holder⟩ hsame
  | lock hm hfree hheld hafter => exact .lock (hmain.trans hm) hfree (hholder.trans hheld) hafter
  | unlock hm hbefore hfree hafter =>
      exact .unlock (hmain.trans hm) hbefore (hholder.trans hfree) hafter

theorem hostStep_main {host : Nat} {place : HostPlace}
    (hapt : place.asking?.all (·.isApt w.main) = true)
    (h : hostStep library pick host place w = some w') :
    ∃ (v : World) (place' : HostPlace), w' = v.placeHost host place' ∧
      MainMove (.host host) w w' (place.inMain w.main) (place'.inMain w.main) ∧
      place'.asking?.all (·.isApt w.main) = true := by
  obtain ⟨v, place', rfl, hgoes⟩ := hostStep_goes h
  refine ⟨v, place', rfl, ?_⟩
  cases hgoes with
  | opens hs | opened hs =>
      have hv := (openStep_hires hs).offMain
      exact ⟨.still ⟨hv.main, hv.holder⟩ rfl, rfl⟩
  | closes hs | closed hs =>
      have hv := (shutdownStep_manages hs).offMain
      exact ⟨.still ⟨hv.main, hv.holder⟩ rfl, rfl⟩
  | measures hs | measured hs =>
      have hv := (measureStep_oversees hs).offMain
      exact ⟨.still ⟨hv.main, hv.holder⟩ rfl, rfl⟩
  | asks hs | replied hs =>
      obtain ⟨hmove, hapt'⟩ := askingStep_main hapt hs
      exact ⟨hmove.place rfl rfl rfl, hapt'⟩
  | runs hs =>
      obtain ⟨hmove, hapt'⟩ := activityStep_main hapt hs
      exact ⟨hmove.place rfl rfl rfl, hapt' _ rfl⟩
  | ended hs =>
      obtain ⟨hmove, -⟩ := activityStep_main hapt hs
      exact ⟨hmove.place rfl rfl rfl, rfl⟩

theorem TaskPlace.Goes.main {i : Nat} {worker : Worker} {once : Bool} {s : Submission}
    {place place' : TaskPlace}
    (hapt : (WorkerPlace.executing once s place).asking?.all (·.isApt w.main) = true)
    (h : place.Goes library pick i worker s.task w w' place') :
    MainMove (.worker i) w w' ((WorkerPlace.executing once s place).inMain w.main)
        ((WorkerPlace.executing once s place').inMain w.main) ∧
      (WorkerPlace.executing once s place').asking?.all (·.isApt w.main) = true := by
  cases h with
  | published | unlockedQueue | prepared | written | wrote | counted | failed | completed
  | cleared => exact ⟨.still ⟨rfl, rfl⟩ rfl, rfl⟩
  | ran hs =>
      obtain ⟨hmove, hapt'⟩ := activityStep_main hapt hs
      exact ⟨hmove, hapt' _ rfl⟩
  | ended _ hs =>
      obtain ⟨hmove, -⟩ := activityStep_main hapt hs
      exact ⟨hmove, rfl⟩
  | locked hfree | lockedErrored hfree => exact ⟨.lock rfl hfree rfl rfl, rfl⟩
  | unlocked => exact ⟨.unlock rfl rfl rfl rfl, rfl⟩
  | replaced hcontext | notReplaced hcontext =>
      have hfresh := privateContext_offMain w
      rw [hcontext] at hfresh
      exact ⟨.still ⟨hfresh.main, hfresh.holder⟩ rfl, rfl⟩

theorem Worker.receive_main (worker : Worker) (main : ContextId)
    (hplace : worker.place = .receiving) :
    worker.receive.place.inMain main = false ∧ worker.receive.place.asking? = none := by
  rcases Worker.receive_place hplace with h | h | h
  · rw [h]
    exact ⟨rfl, rfl⟩
  · rw [h]
    exact ⟨rfl, rfl⟩
  · rw [h]
    exact ⟨rfl, rfl⟩

theorem workerStep_main {i : Nat} {worker : Worker} (hworker : w.workers[i]? = some worker)
    (hapt : worker.place.asking?.all (·.isApt w.main) = true)
    (h : workerStep library pick i worker w = some w') :
    ∃ (v : World) (f : Worker → Worker), w' = v.modifyWorker i f ∧
      ∃ after, MainMove (.worker i) w w' (worker.place.inMain w.main) after ∧
        ∀ worker', v.workers[i]? = some worker' → (f worker').place.inMain w.main = after ∧
          (f worker').place.asking?.all (·.isApt w.main) = true := by
  obtain ⟨place, hplace, hgoes⟩ := workerStep_goes h
  rw [hplace] at hapt ⊢
  cases hgoes with
  | received =>
      refine ⟨w, _, rfl, false, .still ⟨rfl, rfl⟩ rfl, fun worker' hworker' => ?_⟩
      rw [hworker] at hworker'
      cases hworker'
      obtain ⟨hmain, hnone⟩ := worker.receive_main w.main hplace
      exact ⟨hmain, by rw [hnone]; rfl⟩
  | went once hs =>
      obtain ⟨hmove, hapt'⟩ := hs.main hapt
      exact ⟨_, _, rfl, _, hmove.place rfl rfl rfl, fun _ _ => ⟨rfl, hapt'⟩⟩
  | finished once s =>
      refine ⟨_, _, rfl, false, .still ⟨rfl, rfl⟩ rfl, fun _ _ => ?_⟩
      cases once with
      | false | true => exact ⟨rfl, rfl⟩
  | began | measured | compared | checkedEmpty | checked | missed | popped | rested | announced
  | exited => exact ⟨_, _, rfl, false, .still ⟨rfl, rfl⟩ rfl, fun _ _ => ⟨rfl, rfl⟩⟩

theorem World.advance_main (hapt : (w.asking? me).all (·.isApt w.main) = true)
    (h : w.advance library pick me = some w') :
    MainMove me w w' (w.inMain me) (w'.inMain me) ∧
      (w'.asking? me).all (·.isApt w'.main) = true := by
  have hstride := World.advance_stride h
  rw [World.asking?_eq_view] at hapt ⊢
  cases me with
  | host host =>
      have hlength : w'.hosts.length = w.hosts.length :=
        World.move?_hosts_length (m := .step pick (.host host)) h
      obtain ⟨place, hplace, h⟩ := World.advance_host_iff.mp h
      have hlt := (List.getElem?_eq_some_iff.mp hplace).1
      rw [World.view_host hplace] at hapt
      obtain ⟨v, place', rfl, hmove, hapt'⟩ := hostStep_main hapt h
      have hlt' : host < v.hosts.length := by
        simp only [World.placeHost, List.length_set] at hlength
        omega
      rw [World.view_placeHost hlt', hmove.main_eq, World.inMain, World.view_host hplace,
        World.inMain, World.view_placeHost hlt', hmove.main_eq]
      exact ⟨hmove, hapt'⟩
  | worker i =>
      obtain ⟨worker, hworker, h⟩ := World.advance_worker_iff.mp h
      rw [World.view_worker hworker] at hapt
      have hlt := (List.getElem?_eq_some_iff.mp hworker).1
      obtain ⟨v, f, rfl, after, hmove, hplaced⟩ := workerStep_main hworker hapt h
      have hlt' : i < v.workers.length := by
        have hlength := hstride.hands_length_le
        simp only [World.scene, World.crew, Crew.scene, World.modifyWorker, List.length_map,
          List.length_modify] at hlength
        omega
      obtain ⟨hmain, hapt'⟩ := hplaced _ (List.getElem?_eq_getElem hlt')
      have hworker' := List.getElem?_eq_getElem hlt'
      rw [World.view_modifyWorker hworker', hmove.main_eq, World.inMain, World.view_worker hworker,
        World.inMain, World.view_modifyWorker hworker', hmove.main_eq, hmain]
      exact ⟨hmove, hapt'⟩

/-- The main context is locked by the thread whose place says so, and by no other one. -/
structure MainLocked (w : World) : Prop where
  holder : ∀ thread, w.inMain thread = true ↔ w.mainHolder? = some thread
  apt : ∀ thread, (w.asking? thread).all (·.isApt w.main) = true

theorem MainLocked.advance (hm : MainLocked w) (h : w.advance library pick me = some w') :
    MainLocked w' := by
  obtain ⟨hmove, hapt⟩ := World.advance_main (hm.apt me) h
  have hstride := World.advance_stride h
  have hothers {thread : ThreadId} (hne : thread ≠ me) : w'.inMain thread = w.inMain thread := by
    unfold World.inMain
    rw [hmove.main_eq]
    exact hstride.view_eq hne _ _
  constructor
  · intro thread
    by_cases hthread : thread = me
    · subst hthread
      cases hmove with
      | still hoff hsame => rw [hsame, hoff.holder, hm.holder]
      | lock _ _ hheld hafter => simp [hheld, hafter]
      | unlock _ _ hfree hafter => simp [hfree, hafter]
    · rw [hothers hthread, hm.holder]
      cases hmove with
      | still hoff => rw [hoff.holder]
      | lock _ hfree hheld =>
          rw [hfree, hheld]
          simp [Ne.symm hthread]
      | unlock _ hbefore hfree =>
          rw [hfree, (hm.holder me).mp hbefore]
          simp [Ne.symm hthread]
  · intro thread
    by_cases hthread : thread = me
    · subst hthread
      exact hapt
    · rw [hstride.asking?_of_ne hthread, hmove.main_eq]
      exact hm.apt thread

theorem MainLocked.of_view (hm : MainLocked w) (hholder : w'.mainHolder? = w.mainHolder?)
    (hinMain : ∀ thread, w'.inMain thread = w.inMain thread)
    (hapt : ∀ thread, (w'.asking? thread).all (·.isApt w'.main) = true) : MainLocked w' := by
  constructor
  · intro thread
    rw [hinMain, hholder]
    exact hm.holder thread
  · exact hapt

theorem MainLocked.of_crew (hm : MainLocked w) (hmain : w'.main = w.main)
    (hholder : w'.mainHolder? = w.mainHolder?) (hcrew : w'.crew = w.crew) : MainLocked w' := by
  refine hm.of_view hholder (fun thread => ?_) fun thread => ?_
  · rw [World.inMain, World.inMain, hcrew, hmain]
  · rw [World.asking?_eq_view, hcrew, ← World.asking?_eq_view, hmain]
    exact hm.apt thread

theorem HostCall.place_main (library : Library) (call : HostCall) (main : ContextId) :
    (call.place library).inMain main = false ∧
      (call.place library).asking?.all (·.isApt main) = true := by
  cases call with
  | ask source r => exact Request.begin_main r source main
  | shutDown | measure | invoke | load => exact ⟨rfl, rfl⟩

theorem MainLocked.begin {host : Nat} {call : HostCall} (hm : MainLocked w)
    (h : w.canBegin host call = true) : MainLocked (w.begin library host call) := by
  obtain ⟨last?, hfree⟩ := World.free_of_canBegin h
  have hlt := (List.getElem?_eq_some_iff.mp hfree).1
  obtain ⟨hplaced, hapt⟩ := HostCall.place_main library call w.main
  have hview {α : Type} (f : Option HostPlace → α) (g : WorkerPlace → α) :
      (w.begin library host call).crew.view f g (.host host) = f (some (call.place library)) :=
    World.view_placeHost hlt _
  refine hm.of_view rfl (fun thread => ?_) fun thread => ?_
  · by_cases hthread : thread = .host host
    · subst hthread
      refine (hview _ _).trans ?_
      rw [World.inMain, World.view_host hfree]
      exact hplaced
    · exact World.view_placeHost_of_ne hthread
  · rw [World.asking?_eq_view]
    by_cases hthread : thread = .host host
    · subst hthread
      rw [hview]
      exact hapt
    · have hsame := hm.apt thread
      rw [World.asking?_eq_view] at hsame
      rw [← hsame]
      congr 1
      exact World.view_placeHost_of_ne hthread

theorem MainLocked.move {m : Move} (hm : MainLocked w) (h : w.move? library m = some w') :
    MainLocked w' := by
  cases m with
  | step pick thread => exact hm.advance h
  | begin host call =>
      obtain ⟨hbegin, rfl⟩ := World.move?_begin_iff.mp h
      exact hm.begin hbegin
  | setGlobal context name value =>
      obtain ⟨-, rfl⟩ := World.move?_setGlobal_iff.mp h
      exact hm.of_crew rfl rfl rfl
  | addContext | openGate | openAllGates | setBudget =>
      cases h
      exact hm.of_crew rfl rfl rfl

theorem MainLocked.run {w₀ : World} {moves : List Move} (hm : MainLocked w₀)
    (h : Run library w₀ moves w) : MainLocked w := by
  induction h with
  | start => exact hm
  | move _ m hmove ih => exact ih.move hmove

theorem MainLocked.initial (engine : Engine) (main : ContextId) (poolSize others : Nat) :
    MainLocked (World.initial engine main poolSize others) := by
  have hnone (thread : ThreadId) :
      (World.initial engine main poolSize others).asking? thread = none ∧
        (World.initial engine main poolSize others).inMain thread = false := by
    rw [World.asking?_eq_view]
    cases thread with
    | worker i => exact ⟨rfl, rfl⟩
    | host host =>
        cases host with
        | zero => exact ⟨rfl, rfl⟩
        | succ host =>
            simp only [World.inMain, Crew.view, World.crew, World.initial,
              List.getElem?_cons_succ, List.getElem?_replicate]
            split
            · exact ⟨rfl, rfl⟩
            · exact ⟨rfl, rfl⟩
  constructor
  · intro thread
    rw [(hnone thread).2]
    exact iff_of_false Bool.false_ne_true (by rintro ⟨⟩)
  · intro thread
    rw [(hnone thread).1]
    rfl

end ScriptPool
