import ScriptPool.Proofs.Pool.Outcome
import ScriptPool.Proofs.Pool.Standing
import ScriptPool.Proofs.Script.MethodLine

namespace ScriptPool

/-- A thread makes a request from a context: a thread of the host as a call of its own, or any
thread in the middle of code. -/
inductive World.Makes (library : Library) (w : World) :
    ThreadId → ContextId → Request → World → Prop where
  | call {host : Nat} {c : ContextId} {r : Request} (h : w.canBegin host (.ask c r) = true) :
      Makes library w (.host host) c r (w.begin library host (.ask c r))
  | code {pick : Nat} {me : ThreadId} {x : Execution} {r : Request} {v : World}
      (hx : w.activity? me = some ⟨x, none⟩) (hr : x.step library w.engine = .asks r)
      (hadv : w.advance library pick me = some v) : Makes library w me x.context r v

/-- A thread that waits for a request takes steps, and no other thread does, until it is
answered. -/
inductive World.AnswersAlone (library : Library) (me : ThreadId) :
    World → Reply → World → Prop where
  | now {pick : Nat} {w v w' : World} {a : Asking} {reply : Reply} (ha : w.asking? me = some a)
      (hs : askingStep pick me w a = some (v, .over reply))
      (hadv : w.advance library pick me = some w') : AnswersAlone library me w reply w'
  | later {pick : Nat} {w v w' : World} {reply : Reply} (ha : (w.asking? me).isSome = true)
      (hadv : w.advance library pick me = some v) (h : AnswersAlone library me v reply w') :
      AnswersAlone library me w reply w'

/-- What is wrong with a request that a thread makes. The pool has to be looked at to see whether a
task asks for another number of workers. -/
inductive Request.Refused (w : World) (me : ThreadId) : Request → PoolError → Prop where
  | parallelDown (text : String) (hdown : w.shutDown = true) :
      Refused w me (.parallel text) .shutDown
  | joinDown (function : String) (hdown : w.shutDown = true) :
      Refused w me (.join function) .shutDown
  | joinAllDown (hdown : w.shutDown = true) : Refused w me .joinAll .shutDown
  | resizeDown (n : Nat) (hdown : w.shutDown = true) : Refused w me (.resize n) .shutDown
  | malformed {text : String} {e : PoolError} (hrunning : w.shutDown = false)
      (hparse : Call.parse text = .error e) : Refused w me (.parallel text) e
  | acquired {id : Value} {e : PoolError} (hid : sectionName id = .error e) :
      Refused w me (.acquire id) e
  | released {id : Value} {e : PoolError} (hid : sectionName id = .error e) :
      Refused w me (.release id) e
  | inTask {n : Nat} (hrunning : w.shutDown = false) (hzero : n ≠ 0) (hsize : n ≠ w.poolSize)
      (hfree : w.poolHolder? = none) (hin : w.isPoolThread me = true) :
      Refused w me (.resize n) .resizeFromTask

variable {library : Library} {pick n : Nat} {me : ThreadId} {c : ContextId} {r : Request}
  {w v w' w₁ : World} {a a' : Asking} {stage : Stage Asking Reply} {reply : Reply} {e : PoolError}

theorem World.Makes.eq_afterAsking (h : w.Makes library me c r w₁) :
    w.CanAsk me ∧ w₁ = w.afterAsking me (.going (r.begin c)) := by
  cases h with
  | @call host c r h =>
      simp only [World.canBegin, Bool.and_eq_true] at h
      obtain ⟨place, hplace, hfree⟩ := (Option.any_eq_true _ _).mp h.1.1
      refine ⟨(List.getElem?_eq_some_iff.mp hplace).1, ?_⟩
      rw [World.afterAsking, World.moveThread_host hplace]
      cases place with
      | free last? => rfl
      | _ => cases hfree
  | code hx hr hadv =>
      refine ⟨World.canAsk_of_activity hx, ?_⟩
      rw [World.advance_of_asks hx hr] at hadv
      exact (Option.some.inj hadv).symm

/-- Whether the error of a failed resize is one that says that a worker is missing. -/
def ResizePlace.accepted : ResizePlace → Prop
  | .checking | .reading | .locking _ | .placing _ => False
  | .failing e | .surveying e | .keeping e _ | .drivingOn e _ => e.isRefusal = false
  | .joining .. | .dismissing .. | .hiring .. | .storing _ | .driving .. => True

/-- Whether a request has passed the checks of what it was given, and of the flag where it looks at
the flag. -/
def Asking.accepted (down : Bool) : Asking → Prop
  | .submit _ (.checking _) | .join _ .checking | .joinAll .checking | .refused _ => False
  | .submit .. | .join .. | .joinAll _ => down = false
  | .resize _ place => down = false ∧ place.accepted
  | .acquire .. | .release .. => True

/-- A request that has passed the checks goes on, or it is answered without a rejection. -/
def Stage.accepted (down : Bool) : Stage Asking Reply → Prop
  | .going a => a.accepted down
  | .over (.ok _) => True
  | .over (.error e) => e.isRefusal = false

theorem Asking.duty_ne_swapping (a : Asking) : a.duty ≠ .swapping := by
  cases a with
  | resize n place =>
      cases place with
      | dismissing size place =>
          cases place with
          | locking | taking | telling | awaiting =>
              simp [Asking.duty, ResizePlace.duty, DismissPlace.duty]
      | hiring size place =>
          cases place with
          | creating | locking | pushing => simp [Asking.duty, ResizePlace.duty, HirePlace.duty]
      | _ => simp [Asking.duty, ResizePlace.duty]
  | _ => simp [Asking.duty]

theorem askingStep_shutDown (h : askingStep pick me w a = some (v, stage)) :
    v.shutDown = w.shutDown :=
  (askingStep_staff h).shutDown_eq a.duty_ne_swapping

/-- A request for another number of workers that has been checked fails only when a worker cannot be
started. -/
theorem resizeStep_accepted {place : ResizePlace} {stage : Stage ResizePlace Reply}
    (hrunning : w.shutDown = false) (hplace : place.accepted)
    (h : resizeStep n me w place = some (v, stage)) :
    match stage with
    | .going place' => place'.accepted
    | .over reply => (Stage.over reply).accepted false := by
  cases stage with
  | going place' =>
      cases resizeStep_goes h with
      | checked | read | locked | placed => cases hplace
      | join | joined | dismiss | dismissed | hire | hired | stored | drive => trivial
      | lacking size hs =>
          obtain ⟨-, id, count, message, -, -, rfl⟩ := hireStep_staff (some n) hs
          rfl
      | failed | surveyed | kept | driveOn => exact hplace
  | «over» reply =>
      cases resizeStep_replies h with
      | refused | same | inPool => cases hplace
      | broken size hs => rw [(joinAllStep_error hs).2.2] at hrunning; cases hrunning
      | resized => trivial
      | incomplete e hs => exact hplace

theorem askingStep_accepted (ha : a.accepted w.shutDown)
    (h : askingStep pick me w a = some (v, stage)) : stage.accepted v.shutDown := by
  rw [askingStep_shutDown h]
  cases askingStep_goes h with
  | submits hs =>
      cases submitStep_goes hs with
      | checked | checkedApart => cases ha
      | _ => exact ha
  | submitted hs =>
      cases submitStep_replies hs with
      | refused | misread => cases ha
      | idle | started => trivial
  | joins hs =>
      cases joinStep_goes hs with
      | checked => cases ha
      | _ => exact ha
  | joined hs =>
      cases joinStep_replies hs with
      | refused => cases ha
      | done => trivial
      | stopped _ hdown => cases ha.symm.trans hdown
  | joinsAll hs =>
      cases joinAllStep_goes hs with
      | checked => cases ha
      | _ => exact ha
  | joinedAll hs =>
      cases joinAllStep_replies hs with
      | refused => cases ha
      | done => trivial
      | stopped _ hdown => cases ha.symm.trans hdown
  | acquires | acquired | releases | released => trivial
  | resizes hs => exact ⟨ha.1, resizeStep_accepted ha.1 ha.2 hs⟩
  | resized hs =>
      rw [ha.1]
      exact resizeStep_accepted ha.1 ha.2 hs
  | refused => cases ha

theorem World.AnswersAlone.not_refusal (h : w.AnswersAlone library me (.error e) w')
    (ha : w.asking? me = some a) (haccepted : a.accepted w.shutDown) : e.isRefusal = false := by
  generalize hreply : (Except.error e : Reply) = reply at h
  induction h generalizing a with
  | now ha' hs hadv =>
      rw [ha] at ha'
      cases ha'
      cases hreply
      exact askingStep_accepted haccepted hs
  | later _ hadv h ih =>
      obtain ⟨u, stage, hs, -, hdown, hask⟩ := World.advance_asking ha hadv
      have hstage := askingStep_accepted haccepted hs
      cases stage with
      | going a' =>
          rw [← hdown] at hstage
          exact ih hask hstage hreply
      | «over» reply' =>
          cases h with
          | now ha' => rw [hask] at ha'; cases ha'
          | later ha' => rw [hask] at ha'; cases ha'

theorem World.AnswersAlone.step (h : w.AnswersAlone library me reply w')
    (ha : w.asking? me = some a) :
    ∃ pick v stage, askingStep pick me w a = some (v, stage) ∧
      match stage with
      | .going _ => (v.afterAsking me stage).AnswersAlone library me reply w'
      | .over reply' => reply' = reply ∧ w' = v.afterAsking me (.over reply) := by
  cases h with
  | now ha' hs hadv =>
      rw [ha] at ha'
      cases ha'
      rw [World.advance_of_askingStep ha hs] at hadv
      exact ⟨_, _, _, hs, rfl, (Option.some.inj hadv).symm⟩
  | later _ hadv h =>
      obtain ⟨v, stage, hs, -, -, hask⟩ := World.advance_asking ha hadv
      rw [World.advance_of_askingStep ha hs] at hadv
      obtain rfl := Option.some.inj hadv
      refine ⟨_, v, stage, hs, ?_⟩
      cases stage with
      | going a' => exact h
      | «over» reply' =>
          cases h with
          | now ha' => rw [hask] at ha'; cases ha'
          | later ha' => rw [hask] at ha'; cases ha'

theorem World.AnswersAlone.of_over (ha : w.asking? me = some a)
    (hs : askingStep 0 me w a = some (v, .over reply)) :
    w.AnswersAlone library me reply (v.afterAsking me (.over reply)) :=
  .now ha hs (World.advance_of_askingStep ha hs)

theorem World.AnswersAlone.of_going (ha : w.asking? me = some a)
    (hs : askingStep 0 me w a = some (v, .going a'))
    (h : (v.afterAsking me (.going a')).AnswersAlone library me reply w') :
    w.AnswersAlone library me reply w' :=
  .later (by rw [ha]; rfl) (World.advance_of_askingStep ha hs) h

theorem World.CanAsk.afterAsking (h : w.CanAsk me) (a : Asking) :
    (w.afterAsking me (.going a)).CanAsk me :=
  World.canAsk_of_asking (World.asking?_afterAsking h _)

theorem World.afterAsking_shutDown (w : World) (me : ThreadId) (stage : Stage Asking Reply) :
    (w.afterAsking me stage).shutDown = w.shutDown := by
  cases me with
  | host | worker => rfl

theorem World.AnswersAlone.not_going (hcan : w.CanAsk me)
    (h : (w.afterAsking me (.going a)).AnswersAlone library me (.error e) w')
    (haccepted : a.accepted w.shutDown) (he : e.isRefusal = true) : False := by
  have hnot : e.isRefusal = false := by
    apply h.not_refusal (World.asking?_afterAsking hcan _)
    rwa [World.afterAsking_shutDown]
  rw [he] at hnot
  cases hnot

theorem World.AnswersAlone.submit_refused {source : ContextId} {text : String} (hcan : w.CanAsk me)
    (h : (w.afterAsking me (.going (.submit source (.checking text)))).AnswersAlone library me
      (.error e) w') (he : e.isRefusal = true) :
    (Request.parallel text).Refused w me e ∧ w' = w.afterAsking me (.over (.error e)) := by
  obtain ⟨pick, v, stage, hs, hstage⟩ := h.step (World.asking?_afterAsking hcan _)
  simp only [askingStep, submitStep, World.afterAsking_shutDown] at hs
  split at hs
  · next hdown =>
      cases hs
      obtain ⟨hreply, rfl⟩ := hstage
      cases hreply
      exact ⟨.parallelDown text hdown, World.afterAsking_afterAsking ..⟩
  · next hrunning =>
      have hrunning : w.shutDown = false := by simpa using hrunning
      split at hs
      · next e' hparse =>
          cases hs
          obtain ⟨hreply, rfl⟩ := hstage
          cases hreply
          exact ⟨.malformed hrunning hparse, World.afterAsking_afterAsking ..⟩
      · split at hs
        · cases hs
          rw [World.afterAsking_afterAsking] at hstage
          exact (hstage.not_going hcan hrunning he).elim
        · cases hs
          rw [World.afterAsking_afterAsking] at hstage
          exact (hstage.not_going hcan hrunning he).elim

theorem World.CanAsk.report (h : w.CanAsk me) (event : Event) : (w.report event).CanAsk me := by
  cases me with
  | host | worker => exact h

theorem World.AnswersAlone.join_refused {function : String} (hcan : w.CanAsk me)
    (h : (w.afterAsking me (.going (.join function .checking))).AnswersAlone library me
      (.error e) w')
    (he : e.isRefusal = true) :
    (Request.join function).Refused w me e ∧ w' = w.afterAsking me (.over (.error e)) := by
  obtain ⟨pick, v, stage, hs, hstage⟩ := h.step (World.asking?_afterAsking hcan _)
  simp only [askingStep, joinStep, World.afterAsking_shutDown] at hs
  split at hs
  · next hdown =>
      cases hs
      obtain ⟨hreply, rfl⟩ := hstage
      cases hreply
      exact ⟨.joinDown function hdown, World.afterAsking_afterAsking ..⟩
  · next hrunning =>
      cases hs
      have hrunning : w.shutDown = false := by simpa using hrunning
      exact (hstage.not_going ((hcan.afterAsking _).report _)
        ((World.afterAsking_shutDown ..).trans hrunning) he).elim

theorem World.AnswersAlone.joinAll_refused (hcan : w.CanAsk me)
    (h : (w.afterAsking me (.going (.joinAll .checking))).AnswersAlone library me (.error e) w')
    (he : e.isRefusal = true) :
    Request.joinAll.Refused w me e ∧ w' = w.afterAsking me (.over (.error e)) := by
  obtain ⟨pick, v, stage, hs, hstage⟩ := h.step (World.asking?_afterAsking hcan _)
  simp only [askingStep, joinAllStep, World.afterAsking_shutDown] at hs
  split at hs
  · next hdown =>
      cases hs
      obtain ⟨hreply, rfl⟩ := hstage
      cases hreply
      exact ⟨.joinAllDown hdown, World.afterAsking_afterAsking ..⟩
  · next hrunning =>
      cases hs
      have hrunning : w.shutDown = false := by simpa using hrunning
      exact (hstage.not_going ((hcan.afterAsking _).report _)
        ((World.afterAsking_shutDown ..).trans hrunning) he).elim

theorem World.afterAsking_lock (w : World) (me : ThreadId) (stage : Stage Asking Reply)
    (holder? : Option ThreadId) : { w.afterAsking me stage with poolHolder? := holder? } =
      { w with poolHolder? := holder? }.afterAsking me stage := by
  cases me with
  | host | worker => rfl

theorem World.afterAsking_shared (w : World) (me : ThreadId) (stage : Stage Asking Reply) :
    (w.afterAsking me stage).poolSize = w.poolSize ∧
      (w.afterAsking me stage).poolHolder? = w.poolHolder? ∧
      (w.afterAsking me stage).isPoolThread me = w.isPoolThread me := by
  cases me with
  | host | worker => exact ⟨rfl, rfl, rfl⟩

theorem World.CanAsk.lock (h : w.CanAsk me) (holder? : Option ThreadId) :
    { w with poolHolder? := holder? }.CanAsk me := by
  cases me with
  | host | worker => exact h

theorem World.AnswersAlone.placing_refused {size : Nat} (hcan : w.CanAsk me)
    (hfree : w.poolHolder? = none) (hrunning : w.shutDown = false)
    (h : ({ w with poolHolder? := some me }.afterAsking me
      (.going (.resize n (.placing size)))).AnswersAlone library me (.error e) w')
    (he : e.isRefusal = true) :
    w.isPoolThread me = true ∧ e = .resizeFromTask ∧ w' = w.afterAsking me (.over (.error e)) := by
  have hunlock : ({ w with poolHolder? := some me }.afterAsking me
      (.going (.resize n (.placing size)))).unlockPool =
      w.afterAsking me (.going (.resize n (.placing size))) := by
    rw [World.unlockPool, World.afterAsking_lock, ← hfree]
  obtain ⟨pick, v, stage, hs, hstage⟩ := h.step (World.asking?_afterAsking (hcan.lock _) _)
  simp only [askingStep, resizeStep, (World.afterAsking_shared ..).2.2, hunlock] at hs
  split at hs
  · next hin =>
      cases hs
      obtain ⟨hreply, rfl⟩ := hstage
      cases hreply
      refine ⟨?_, rfl, World.afterAsking_afterAsking ..⟩
      cases me with
      | host | worker => exact hin
  · next hout =>
      cases hs
      rw [World.afterAsking_afterAsking] at hstage
      exact (hstage.not_going hcan ⟨hrunning, trivial⟩ he).elim

theorem World.AnswersAlone.resize_refused (hcan : w.CanAsk me)
    (h : (w.afterAsking me (.going (.resize n .checking))).AnswersAlone library me (.error e) w')
    (he : e.isRefusal = true) :
    (Request.resize n).Refused w me e ∧ w' = w.afterAsking me (.over (.error e)) := by
  obtain ⟨pick, v, stage, hs, hstage⟩ := h.step (World.asking?_afterAsking hcan _)
  simp only [askingStep, resizeStep, World.afterAsking_shutDown] at hs
  split at hs
  · next hdown =>
      cases hs
      obtain ⟨hreply, rfl⟩ := hstage
      cases hreply
      exact ⟨.resizeDown n hdown, World.afterAsking_afterAsking ..⟩
  next hrunning =>
  have hrunning : w.shutDown = false := by simpa using hrunning
  cases hs
  rw [World.afterAsking_afterAsking] at hstage
  -- The size on record is read; the same number of workers is no error.
  obtain ⟨pick, v, stage, hs, hstage⟩ := hstage.step (World.asking?_afterAsking hcan _)
  simp only [askingStep, resizeStep, (World.afterAsking_shared ..).1] at hs
  split at hs
  · cases hs
    cases hstage.1
  next hother =>
  cases hs
  rw [World.afterAsking_afterAsking] at hstage
  -- The pool is locked.
  obtain ⟨pick, v, stage, hs, hstage⟩ := hstage.step (World.asking?_afterAsking hcan _)
  simp only [askingStep, resizeStep, Option.map_eq_some_iff, World.lockPool_eq_some_iff,
    (World.afterAsking_shared ..).2.1] at hs
  obtain ⟨_, ⟨u, ⟨hfree, rfl⟩, rfl⟩, hs⟩ := hs
  cases hs
  rw [World.afterAsking_lock, World.afterAsking_afterAsking] at hstage
  obtain ⟨hin, rfl, hw'⟩ := hstage.placing_refused hcan hfree hrunning he
  exact ⟨.inTask hrunning (not_or.mp hother).1 (not_or.mp hother).2 hfree hin, hw'⟩

theorem World.AnswersAlone.refused (hcan : w.CanAsk me)
    (h : (w.afterAsking me (.going (r.begin c))).AnswersAlone library me (.error e) w')
    (he : e.isRefusal = true) :
    r.Refused w me e ∧ w' = w.afterAsking me (.over (.error e)) := by
  have hbad {e' : PoolError}
      (h : (w.afterAsking me (.going (.refused e'))).AnswersAlone library me (.error e) w') :
      e' = e ∧ w' = w.afterAsking me (.over (.error e)) := by
    obtain ⟨pick, v, stage, hs, hstage⟩ := h.step (World.asking?_afterAsking hcan _)
    cases hs
    obtain ⟨hreply, rfl⟩ := hstage
    cases hreply
    exact ⟨rfl, World.afterAsking_afterAsking ..⟩
  cases r with
  | parallel text => exact h.submit_refused hcan he
  | join function => exact h.join_refused hcan he
  | joinAll => exact h.joinAll_refused hcan he
  | resize n => exact h.resize_refused hcan he
  | acquire id =>
      simp only [Request.begin] at h
      split at h
      · exact (h.not_going hcan trivial he).elim
      · next e' hname =>
          obtain ⟨rfl, hw'⟩ := hbad h
          exact ⟨.acquired hname, hw'⟩
  | release id =>
      simp only [Request.begin] at h
      split at h
      · exact (h.not_going hcan trivial he).elim
      · next e' hname =>
          obtain ⟨rfl, hw'⟩ := hbad h
          exact ⟨.released hname, hw'⟩

theorem Request.Refused.isRefusal (h : r.Refused w me e) : e.isRefusal = true := by
  cases h with
  | parallelDown | joinDown | joinAllDown | resizeDown | inTask => rfl
  | malformed hrunning hparse =>
      simp only [Call.parse] at hparse
      split at hparse
      · cases hparse
      · cases hparse
        rfl
  | acquired hid | released hid =>
      unfold sectionName at hid
      split at hid
      · cases hid
      · cases hid
      · cases hid
        rfl

theorem World.AnswersAlone.inTask (hcan : w.CanAsk me) (hrunning : w.shutDown = false)
    (hzero : n ≠ 0) (hsize : n ≠ w.poolSize) (hfree : w.poolHolder? = none)
    (hin : w.isPoolThread me = true) :
    (w.afterAsking me (.going (.resize n .checking))).AnswersAlone library me
      (.error .resizeFromTask)
      (w.afterAsking me (.over (.error .resizeFromTask))) := by
  have hask (a : Asking) : (w.afterAsking me (.going a)).asking? me = some a :=
    World.asking?_afterAsking hcan _
  have hsame (stage : Stage Asking Reply) := w.afterAsking_shared me stage
  apply World.AnswersAlone.of_going (hask _)
  · simp only [askingStep, resizeStep, World.afterAsking_shutDown, hrunning]
    rfl
  rw [World.afterAsking_afterAsking]
  apply World.AnswersAlone.of_going (hask _)
  · simp only [askingStep, resizeStep, (hsame _).1, hzero, hsize, or_self, if_false]
    rfl
  rw [World.afterAsking_afterAsking]
  apply World.AnswersAlone.of_going (hask _)
  · simp only [askingStep, resizeStep, World.lockPool, (hsame _).2.1, hfree]
    rfl
  rw [World.afterAsking_lock, World.afterAsking_afterAsking]
  have hlast (stage : Stage Asking Reply) :
      ({ w with poolHolder? := some me }.afterAsking me stage).unlockPool =
        w.afterAsking me stage := by
    rw [World.unlockPool, World.afterAsking_lock, ← hfree]
  have hin' (stage : Stage Asking Reply) :
      ({ w with poolHolder? := some me }.afterAsking me stage).isPoolThread me = true := by
    rw [(World.afterAsking_shared ..).2.2]
    cases me with
    | host | worker => exact hin
  rw [← World.afterAsking_afterAsking w me (.resize n (.placing w.poolSize))]
  apply World.AnswersAlone.of_over (World.asking?_afterAsking (hcan.lock _) _)
  simp only [askingStep, resizeStep, hin', hlast, if_true]
  rfl

theorem Request.Refused.answers (h : r.Refused w me e) (hcan : w.CanAsk me) :
    (w.afterAsking me (.going (r.begin c))).AnswersAlone library me (.error e)
      (w.afterAsking me (.over (.error e))) := by
  have hask (a : Asking) : (w.afterAsking me (.going a)).asking? me = some a :=
    World.asking?_afterAsking hcan _
  have hnow {a : Asking} (hs : askingStep 0 me (w.afterAsking me (.going a)) a =
      some (w.afterAsking me (.going a), .over (.error e))) :
      (w.afterAsking me (.going a)).AnswersAlone library me (.error e)
        (w.afterAsking me (.over (.error e))) := by
    have hover : (w.afterAsking me (.going a)).AnswersAlone library me (.error e)
        ((w.afterAsking me (.going a)).afterAsking me (.over (.error e))) := .of_over (hask a) hs
    rwa [World.afterAsking_afterAsking] at hover
  induction h with
  | parallelDown text hdown | joinDown function hdown | joinAllDown hdown | resizeDown n hdown =>
      apply hnow
      simp only [Request.begin, askingStep, submitStep, joinStep, joinAllStep, resizeStep,
        World.afterAsking_shutDown, hdown, if_true, Option.map_some]
  | malformed hrunning hparse =>
      apply hnow
      simp only [Request.begin, askingStep, submitStep, World.afterAsking_shutDown, hrunning,
        hparse]
      rfl
  | acquired hid | released hid =>
      simp only [Request.begin, hid]
      exact hnow rfl
  | inTask hrunning hzero hsize hfree hin => exact .inTask hcan hrunning hzero hsize hfree hin

/-- The surroundings of a program inside other code: they only go on with what it ends with. -/
inductive Program.Around {α : Type} : {β : Type} → (Program α → Program β) → Prop where
  | here : Around id
  | bind {β γ : Type} {C : Program α → Program β} (h : Around C) (next : β → Program γ) :
      Around fun p => (C p).bind next
  | mapError {β : Type} {C : Program α → Program β} (h : Around C)
      (f : ScriptError → ScriptError) : Around fun p => (C p).mapError f

theorem Program.Around.perform {α β : Type} {C : Program α → Program β} (h : Program.Around C)
    (operation : Operation) (next : operation.Answer → Program α) :
    C (.perform operation next) = .perform operation fun answer => C (next answer) := by
  induction h with
  | here => rfl
  | bind _ k ih => simp only [ih, Program.perform_bind]
  | mapError _ f ih => simp only [ih, Program.mapError]

/-- The names of the methods of a coordinator. -/
def coordinatorMethods : List String :=
  ["parallel", "join", "joinall", "acquire", "release", "np"]

/-- The value that a method is called on. -/
def Engine.target (e : Engine) (c : ContextId) (receiver : String) : Value :=
  (e.get? c receiver).getD .nil

/-- Whether a value is a handle of the coordinator. -/
def Value.isCoordinator (v : Value) : Bool :=
  v.asHandle?.any (·.object = .coordinator)

/-- What is wrong with a method call whose arguments have been evaluated. -/
inductive MethodFault (engine : Engine) (c : ContextId) (receiver method : String)
    (arguments : List Value) : ScriptError → Prop where
  | receiver (h : (engine.target c receiver).isCoordinator = false) :
      MethodFault engine c receiver method arguments
        (.runtime (receiver ++ ":" ++ method)
          ("attempt to call a method on a " ++ (engine.target c receiver).typeName ++ " value"))
  | unavailable (h : (engine.target c receiver).isCoordinator = true)
      (hnone : engine.runtime? c = none) :
      MethodFault engine c receiver method arguments .runtimeUnavailable
  | text (h : (engine.target c receiver).isCoordinator = true)
      (hsome : (engine.runtime? c).isSome = true) (hmethod : method = "parallel" ∨ method = "join")
      (htype : (firstResult arguments).asString? = none) :
      MethodFault engine c receiver method arguments
        (.runtime (receiver ++ ":" ++ method)
          ("expected a string argument, got " ++ (firstResult arguments).typeName))
  | count (h : (engine.target c receiver).isCoordinator = true)
      (hsome : (engine.runtime? c).isSome = true) (hmethod : method = "np")
      (htruthy : (firstResult arguments).isTruthy = true)
      (htype : (firstResult arguments).asCount? = none) :
      MethodFault engine c receiver method arguments
        (.runtime (receiver ++ ":" ++ method)
          ("expected a non-negative integer, got " ++ (firstResult arguments).display))
  | name (h : (engine.target c receiver).isCoordinator = true)
      (hsome : (engine.runtime? c).isSome = true) (hmethod : method ∉ coordinatorMethods) :
      MethodFault engine c receiver method arguments
        (.runtime (receiver ++ ":" ++ method) ("Coordinator has no method `" ++ method ++ "`"))

/-- The code only looks at a global and at the runtime before it comes to other code. -/
inductive LooksUpTo (e : Engine) (c : ContextId) {α : Type} : Program α → Program α → Prop where
  | here (p : Program α) : LooksUpTo e c p p
  | readGlobal {name : String} {next : Option Value → Program α} {p : Program α}
      (h : LooksUpTo e c (next (e.get? c name)) p) :
      LooksUpTo e c (.perform (.readGlobal name) next) p
  | findRuntime {next : Bool → Program α} {p : Program α}
      (h : LooksUpTo e c (next (e.runtime? c).isSome) p) :
      LooksUpTo e c (.perform .findRuntime next) p

section Method

variable {engine : Engine} {receiver method : String} {arguments : List Value} {err : ScriptError}

/-- The code of a method call once the receiver and the runtime have been looked at. -/
def methodCode (receiver method : String) (arguments : List Value) : Program (List Value) :=
  let qualified := receiver ++ ":" ++ method
  let first := firstResult arguments
  match method with
  | "parallel" =>
    callMethod.withText qualified first fun text => callMethod.request (.parallel text)
  | "join" => callMethod.withText qualified first fun text => callMethod.request (.join text)
  | "joinall" => callMethod.request .joinAll
  | "acquire" => callMethod.request (.acquire first)
  | "release" => callMethod.request (.release first)
  | "np" =>
    match if first.isTruthy then first.asCount? else some 0 with
    | some count =>
      .perform (.request (.resize count)) fun reply =>
        match reply with
        | .ok size => .done [Value.ofCount size]
        | .error e => .throw (.parallel e)
    | none =>
      .throw (.runtime qualified ("expected a non-negative integer, got " ++ first.display))
  | _ => .throw (.runtime qualified ("Coordinator has no method `" ++ method ++ "`"))

theorem callMethod_looksUpTo {p : Program (List Value)}
    (hcoordinator : (engine.target c receiver).isCoordinator = true)
    (hsome : (engine.runtime? c).isSome = true)
    (h : LooksUpTo engine c (methodCode receiver method arguments) p) :
    LooksUpTo engine c (callMethod receiver method arguments) p := by
  have htarget : ((engine.get? c receiver).getD .nil).asHandle?.any (·.object = .coordinator) =
      true := hcoordinator
  unfold callMethod
  refine .readGlobal ?_
  simp only [Program.done_bind, htarget]
  refine .findRuntime ?_
  rw [hsome]
  exact h

theorem MethodFault.looksUpTo (h : MethodFault engine c receiver method arguments err) :
    LooksUpTo engine c (callMethod receiver method arguments) (.fail (.script err)) := by
  cases h with
  | receiver h =>
      have htarget : ((engine.get? c receiver).getD .nil).asHandle?.any (·.object = .coordinator) =
          false := h
      unfold callMethod
      refine .readGlobal ?_
      simp only [Program.done_bind, htarget]
      exact .here _
  | unavailable h hnone =>
      have htarget : ((engine.get? c receiver).getD .nil).asHandle?.any (·.object = .coordinator) =
          true := h
      unfold callMethod
      refine .readGlobal ?_
      simp only [Program.done_bind, htarget]
      refine .findRuntime ?_
      rw [hnone]
      exact .here _
  | text h hsome hmethod htype =>
      apply callMethod_looksUpTo h hsome
      rcases hmethod with rfl | rfl
      · rw [methodCode, callMethod.withText, htype]
        exact .here _
      · rw [methodCode, callMethod.withText, htype]
        exact .here _
  | count h hsome hmethod htruthy htype =>
      apply callMethod_looksUpTo h hsome
      subst hmethod
      simp only [methodCode, htruthy, if_true, htype]
      exact .here _
  | name h hsome hmethod =>
      apply callMethod_looksUpTo h hsome
      simp only [coordinatorMethods, List.mem_cons, List.not_mem_nil, or_false, not_or] at hmethod
      obtain ⟨h₁, h₂, h₃, h₄, h₅, h₆⟩ := hmethod
      unfold methodCode
      split
      · exact absurd rfl h₁
      · exact absurd rfl h₂
      · exact absurd rfl h₃
      · exact absurd rfl h₄
      · exact absurd rfl h₅
      · exact absurd rfl h₆
      · exact .here _

theorem callMethod_looksUpTo_request
    (hno : ∀ err, ¬ MethodFault engine c receiver method arguments err) :
    ∃ r next, LooksUpTo engine c (callMethod receiver method arguments)
      (.perform (.request r) next) ∧ ∀ e, next (.error e) = .fail (.script (.parallel e)) := by
  have hcoordinator : (engine.target c receiver).isCoordinator = true := by
    by_contra h
    exact hno _ (.receiver (by simpa using h))
  have hsome : (engine.runtime? c).isSome = true := by
    by_contra h
    exact hno _ (.unavailable hcoordinator (by simpa using h))
  have hcode : ∃ r next, methodCode receiver method arguments = .perform (.request r) next ∧
      ∀ e, next (.error e) = .fail (.script (.parallel e)) := by
    have hrequest (r : Request) : ∃ r' next, callMethod.request r = .perform (.request r') next ∧
        ∀ e, next (.error e) = .fail (.script (.parallel e)) := ⟨r, _, rfl, fun _ => rfl⟩
    have htext (hmethod : method = "parallel" ∨ method = "join") :
        ∃ text, (firstResult arguments).asString? = some text := by
      by_contra h
      have htype : (firstResult arguments).asString? = none := by
        simpa [Option.eq_none_iff_forall_ne_some] using h
      exact hno _ (.text hcoordinator hsome hmethod htype)
    unfold methodCode
    split
    · obtain ⟨text, htext⟩ := htext (.inl rfl)
      simp only [callMethod.withText, htext]
      exact hrequest _
    · obtain ⟨text, htext⟩ := htext (.inr rfl)
      simp only [callMethod.withText, htext]
      exact hrequest _
    · exact hrequest _
    · exact hrequest _
    · exact hrequest _
    · dsimp only
      split
      · exact ⟨_, _, rfl, fun _ => rfl⟩
      · next hcount =>
          split at hcount
          · next htruthy => exact absurd (.count hcoordinator hsome rfl htruthy hcount) (hno _)
          · cases hcount
    · next h₁ h₂ h₃ h₄ h₅ h₆ =>
        have hmethod : method ∉ coordinatorMethods := by
          simp only [coordinatorMethods, List.mem_cons, List.not_mem_nil, or_false, not_or]
          exact ⟨h₁, h₂, h₃, h₄, h₅, h₆⟩
        exact absurd (.name hcoordinator hsome hmethod) (hno _)
  obtain ⟨r, next, hcode, hnext⟩ := hcode
  refine ⟨r, next, callMethod_looksUpTo hcoordinator hsome ?_, hnext⟩
  rw [hcode]
  exact .here _

end Method

/-- The next steps of a thread, with nothing else in between, lead from one world to another
whatever they pick. -/
inductive World.Unaided (library : Library) (me : ThreadId) : World → World → Prop where
  | refl (w : World) : Unaided library me w w
  | step {w v w' : World} (hadv : ∀ pick, w.advance library pick me = some v)
      (h : Unaided library me v w') : Unaided library me w w'

theorem World.withActivity_engine (w : World) (me : ThreadId) (activity : Activity) :
    (w.withActivity me activity).engine = w.engine := by
  cases me with
  | host | worker => rfl

theorem World.Unaided.look {x : Execution} {p q : Program (List Value)}
    (hx : w.activity? me = some ⟨x, none⟩)
    (hstep : x.step library w.engine = .goesOn (x.withCode p) w.engine)
    (h : (w.withActivity me ⟨x.withCode p, none⟩).Unaided library me
      ((w.withActivity me ⟨x.withCode p, none⟩).withActivity me ⟨x.withCode q, none⟩)) :
    w.Unaided library me (w.withActivity me ⟨x.withCode q, none⟩) := by
  rw [World.withActivity_withActivity] at h
  exact .step (fun pick => World.advance_of_goesOn hx hstep) h

theorem World.Unaided.of_looksUpTo {α : Type} {p q : Program α}
    {C : Program α → Program (List Value)} (hC : Program.Around C) {engine : Engine}
    (h : LooksUpTo engine c p q) {x : Execution} (hengine : w.engine = engine)
    (hcontext : x.context = c) (hx : w.activity? me = some ⟨x, none⟩) (hcode : x.code = C p) :
    w.Unaided library me (w.withActivity me ⟨x.withCode (C q), none⟩) := by
  induction h generalizing w x with
  | here p =>
      have hsame : x.withCode (C p) = x := by
        rw [Execution.withCode, ← hcode]
      rw [hsame, World.withActivity_self hx]
      exact .refl w
  | @readGlobal name next q h ih =>
      rw [hC.perform] at hcode
      apply World.Unaided.look hx (p := C (next (engine.get? c name)))
      · rw [Execution.step, hcode, hengine, hcontext]
      · exact ih (x := x.withCode (C (next (engine.get? c name))))
          ((World.withActivity_engine ..).trans hengine) hcontext
          (World.activity?_withActivity hx _) rfl
  | @findRuntime next q h ih =>
      rw [hC.perform] at hcode
      apply World.Unaided.look hx (p := C (next (engine.runtime? c).isSome))
      · rw [Execution.step, hcode, hengine, hcontext]
      · exact ih (x := x.withCode (C (next (engine.runtime? c).isSome)))
          ((World.withActivity_engine ..).trans hengine) hcontext
          (World.activity?_withActivity hx _) rfl

/-- A rejected request leaves no trace. While no other thread moves, a request that is made in any
world is answered with a rejection exactly when something is wrong with it, and then its thread has
got the answer and all else is as it was. A method call of a script that fails because of its
receiver, its argument or its name does nothing but look around; every other one makes a request,
and fails when the request does. -/
theorem rejection_leaves_no_trace (library : Library) :
    (∀ {w w₁ : World} {me : ThreadId} {c : ContextId} {r : Request},
      w.Makes library me c r w₁ → ∀ e : PoolError,
        ((e.isRefusal = true ∧ ∃ w', w₁.AnswersAlone library me (.error e) w') ↔ r.Refused w me e) ∧
        ∀ w', e.isRefusal = true → w₁.AnswersAlone library me (.error e) w' →
          w' = w.afterAsking me (.over (.error e)) ∧ w.Untouched w') ∧
    (∀ {w : World} {me : ThreadId} {x : Execution} {C : Program (List Value) → Program (List Value)}
      {receiver method : String} {arguments : List Value}, Program.Around C →
      w.activity? me = some ⟨x, none⟩ → x.code = C (callMethod receiver method arguments) →
        (∀ e, MethodFault w.engine x.context receiver method arguments e →
          w.Unaided library me (w.withActivity me ⟨x.withCode (C (.fail (.script e))), none⟩) ∧
          w.Untouched (w.withActivity me ⟨x.withCode (C (.fail (.script e))), none⟩)) ∧
        ((∀ e, ¬ MethodFault w.engine x.context receiver method arguments e) →
          ∃ r next, w.Unaided library me
              (w.withActivity me ⟨x.withCode (C (.perform (.request r) next)), none⟩) ∧
            ∀ e, next (.error e) = .fail (.script (.parallel e)))) := by
  refine ⟨fun hmakes e => ?_, fun hC hx hcode => ⟨fun e hfault => ?_, fun hno => ?_⟩⟩
  · obtain ⟨hcan, rfl⟩ := hmakes.eq_afterAsking
    refine ⟨⟨?_, fun h => ⟨h.isRefusal, _, h.answers hcan⟩⟩, fun w' he h => ?_⟩
    · rintro ⟨he, w', h⟩
      exact (h.refused hcan he).1
    · obtain ⟨-, rfl⟩ := h.refused hcan he
      exact ⟨rfl, World.moveThread_untouched ..⟩
  · exact ⟨.of_looksUpTo hC hfault.looksUpTo rfl rfl hx hcode, World.moveThread_untouched ..⟩
  · obtain ⟨r, next, hlook, hnext⟩ := callMethod_looksUpTo_request hno
    exact ⟨r, next, .of_looksUpTo hC hlook rfl rfl hx hcode, hnext⟩

/-- The surroundings of a method call that stands on a line of its own in a chunk. -/
def aroundLine (chunk : String) (number : Nat) (p : Program (List Value)) : Program (List Value) :=
  ((((p.bind fun _ => .done ()).mapError fun e => .load chunk number e.message).bind
    fun _ => .done ()).bind fun _ => .done [])

theorem around_aroundLine (chunk : String) (number : Nat) :
    Program.Around (aroundLine chunk number) :=
  (((Program.Around.here.bind _).mapError _).bind _).bind _

theorem loadCode_methodLine : Execution.loadCode "main" "h:parallel()" =
    aroundLine "main" 1 (callMethod "h" "parallel" []) := by
  have htext : "h:parallel()".toList = callText "h" "parallel" "" := by decide
  have hline : Statement.ofLine? ([] ++ callText "h" "parallel" "") =
      .ok (some (.call (.method "h" "parallel" []))) :=
    ofLine?_callText (by decide) (by decide) (by decide) .none (List.forall_mem_nil _)
  rw [List.nil_append] at hline
  have hlines : Text.lines (callText "h" "parallel" "") = [callText "h" "parallel" ""] := by decide
  have hparse : Chunk.parse "main" "h:parallel()" =
      .ok ⟨"main", [(1, .call (.method "h" "parallel" []))]⟩ := by
    rw [Chunk.parse, htext, hlines, Chunk.readLines, hline]
    rfl
  have hprogram : (Expr.method "h" "parallel" []).program = callMethod "h" "parallel" [] := by
    rw [Expr.program, Expr.listProgram]
    rfl
  rw [Execution.loadCode, hparse]
  simp only [Chunk.program, Chunk.runLines, Statement.program, hprogram]
  rfl

/-- With a task in the queue, the host asks for a call that is not closed, and it loads a method
call on a global that is not set. -/
theorem rejection_leaves_no_trace_solo : ∃ w w₁,
    Run soloLibrary soloStart soloSubmitted w ∧ w.queue.length = 1 ∧
    (w.begin soloLibrary 0 (.ask 0 (.parallel "f("))).AnswersAlone soloLibrary (.host 0)
      (.error (.malformedCall "f(" "unclosed argument list")) w₁ ∧ w.Untouched w₁ ∧
    (w.begin soloLibrary 0 (.load 0 "main" "h:parallel()")).Unaided soloLibrary (.host 0)
      ((w.begin soloLibrary 0 (.load 0 "main" "h:parallel()")).withActivity (.host 0)
        ⟨⟨0, "", .fail (.script (.load "main" 1 (ScriptError.runtime "h:parallel"
          "attempt to call a method on a nil value").message)), [], false⟩, none⟩) := by
  have hruns : (soloStart.follow soloLibrary soloSubmitted).any (fun w =>
      w.queue.length = 1 && w.canBegin 0 (.ask 0 (.parallel "f(")) && !w.shutDown &&
        (w.engine.get? 0 "h").isNone) = true := by
    decide +kernel
  obtain ⟨w, hw, hend⟩ := (Option.any_eq_true _ _).mp hruns
  simp only [Bool.and_eq_true, Bool.not_eq_true', decide_eq_true_eq] at hend
  obtain ⟨⟨⟨hqueue, hcan⟩, hrunning⟩, hnone⟩ := hend
  have hnone : w.engine.get? 0 "h" = none := by simpa using hnone
  have hparse : Call.parse "f(" = .error (.malformedCall "f(" "unclosed argument list") := by
    have herror : (Call.parse "f(").map (fun _ => ()) =
        .error (.malformedCall "f(" "unclosed argument list") := by
      decide +kernel
    cases hparse : Call.parse "f(" with
    | error e =>
        rw [hparse] at herror
        cases herror
        rfl
    | ok call =>
        rw [hparse] at herror
        cases herror
  obtain ⟨hrequests, hmethods⟩ := rejection_leaves_no_trace soloLibrary
  have hmakes : w.Makes soloLibrary (.host 0) 0 (.parallel "f(") _ := .call hcan
  obtain ⟨hanswered, hkept⟩ := hrequests hmakes (.malformedCall "f(" "unclosed argument list")
  obtain ⟨-, w₁, hanswers⟩ := hanswered.mpr (.malformed hrunning hparse)
  have hx : (w.begin soloLibrary 0 (.load 0 "main" "h:parallel()")).activity? (.host 0) =
      some ⟨.load 0 "main" "h:parallel()", none⟩ := by
    have hlt : 0 < w.hosts.length := hmakes.eq_afterAsking.1
    rw [World.begin, World.activity?, World.host?, World.placeHost, List.getElem?_set_self hlt]
    rfl
  obtain ⟨hfails, -⟩ := hmethods (around_aroundLine "main" 1) hx loadCode_methodLine
  have htarget : w.engine.target 0 "h" = .nil := by
    rw [Engine.target, hnone]
    rfl
  refine ⟨w, w₁, run_iff_follow.mpr hw, hqueue, hanswers, (hkept w₁ rfl hanswers).2, ?_⟩
  have hfault : MethodFault w.engine 0 "h" "parallel" [] (.runtime ("h" ++ ":" ++ "parallel")
      ("attempt to call a method on a " ++ (w.engine.target 0 "h").typeName ++ " value")) :=
    .receiver (by rw [htarget]; rfl)
  rw [htarget] at hfault
  exact (hfails _ hfault).1

end ScriptPool
