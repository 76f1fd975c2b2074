import ScriptPool.Proofs.Pool.Enactment
import ScriptPool.Proofs.Pool.JoinAllBarrier

namespace ScriptPool

/-- The barrier of a join, while the pool is kept: when a join returns, all tasks of its function
that were pushed before it was entered are accomplished, but for the one that the joining thread
executes itself. At no instant at which the queue is unlocked is such a task neither in the queue
nor shown by a worker before it is accomplished. What accomplishes a task is done to the world: a
result that is written becomes a global of the main context, and the outcome that is counted is the
one to which the call of the function came. -/
theorem join_barrier (library : Library) (engine : Engine) (main : ContextId)
    (poolSize others : Nat) (function : String) (hmain : main < engine.contexts.length) :
    (∀ (pool : List Nat) (before during : List Move) (w₀ w₁ : World) (me : ThreadId)
        (s : Submission),
      Run library (World.initial engine main poolSize others) before w₀ →
      Run library w₀ during w₁ →
      (World.initial engine main poolSize others).throughout library (World.keepsPool pool)
        (before ++ during) = true →
      w₀.entersJoin me function = true → w₁.returnsFromJoin me function = true →
      .pushed s ∈ (World.initial engine main poolSize others).deeds library before →
      s.function = function → ¬ w₁.Executes me s →
      Accomplished
        ((World.initial engine main poolSize others).deeds library (before ++ during)) s) ∧
    (∀ (moves : List Move) (w : World) (s : Submission),
      Run library (World.initial engine main poolSize others) moves w →
      w.queueHolder? = none →
      .pushed s ∈ (World.initial engine main poolSize others).deeds library moves →
      s.function = function →
      ¬ Accomplished ((World.initial engine main poolSize others).deeds library moves) s →
      s ∈ w.queue ∨ ∃ (i : Nat) (worker : Worker), w.workers[i]? = some worker ∧
        worker.place.held? = some s ∧ worker.current? = some function) ∧
    ∀ moves, (World.initial engine main poolSize others).Enacts library moves := by
  refine ⟨?_, ?_, World.enacts library hmain poolSize others⟩
  · intro pool before during w₀ w₁ me s h₀ h₁ hkeeps henter hreturn hs hf hme
    have h := h₀.trans h₁
    have hspared := h₀.join_spares h₁ (World.entersJoin_iff.mp henter) trivial hreturn hs hf
    have hs' : .pushed s ∈
        (World.initial engine main poolSize others).deeds library (before ++ during) := by
      rw [World.deeds, h₀.notes_append]
      exact List.mem_append_left _ hs
    exact (h.accounted.account hs').of_spared hspared hme (h.resting_of_not_mem hkeeps)
  · intro moves w s h hfree hs hf hopen
    rw [← hf]
    exact h.shown hfree hs hopen

/-- A join of the call's function is entered. -/
def soloBefore : List Move :=
  soloSubmitted ++ [.begin 0 (.ask 0 (.join "f"))]

/-- The worker executes the call, and the join looks for it. -/
def soloDuring : List Move :=
  List.replicate 20 (.step 0 (.worker 0)) ++ List.replicate 7 (.step 0 (.host 0))

/-- A join of a submitted call returns, and while it waited the call was in its place. The result
of the call has become a global of the main context. -/
theorem join_barrier_solo : ∃ w₀ w₁ s, Run soloLibrary soloStart soloBefore w₀ ∧
    Run soloLibrary w₀ soloDuring w₁ ∧
    Accomplished (soloStart.deeds soloLibrary (soloBefore ++ soloDuring)) s ∧
    soloStart.Enacts soloLibrary (soloBefore ++ soloDuring) ∧
    ((w₁.engine.globals 0).get? "x").any (·.equal (.boolean true)) = true ∧
    (s ∈ w₀.queue ∨ ∃ (i : Nat) (worker : Worker), w₀.workers[i]? = some worker ∧
      worker.place.held? = some s ∧ worker.current? = some "f") := by
  have hmid : (soloStart.follow soloLibrary soloBefore).any (fun w =>
      w.entersJoin (.host 0) "f" && w.queueHolder?.isNone &&
        (w.follow soloLibrary soloDuring).any fun v => v.returnsFromJoin (.host 0) "f" &&
          ((v.engine.globals 0).get? "x").any (·.equal (.boolean true))) = true := by
    decide +kernel
  have hdeeds : ((soloStart.deeds soloLibrary soloBefore).all fun d =>
      d.pushed?.any (·.function = "f")) = true := by
    decide +kernel
  have hkeeps : soloStart.throughout soloLibrary (World.keepsPool [0])
      (soloBefore ++ soloDuring) = true := by
    decide +kernel
  have hpushed : (soloStart.deeds soloLibrary soloBefore).any (·.pushed?.isSome) = true := by
    decide +kernel
  obtain ⟨w₀, h₀, hmid⟩ := (Option.any_eq_true _ _).mp hmid
  rw [Bool.and_eq_true, Bool.and_eq_true, Option.isNone_iff_eq_none] at hmid
  obtain ⟨⟨henter, hfree⟩, hend⟩ := hmid
  obtain ⟨w₁, h₁, hend⟩ := (Option.any_eq_true _ _).mp hend
  rw [Bool.and_eq_true] at hend
  obtain ⟨hreturn, hresult⟩ := hend
  have h₀ := run_iff_follow.mpr h₀
  have h₁ := run_iff_follow.mpr h₁
  obtain ⟨d, hd, hs⟩ := List.any_eq_true.mp hpushed
  rw [List.all_eq_true] at hdeeds
  cases d with
  | claimed | started | wrote | finished => cases hs
  | pushed s =>
      have hf : s.function = "f" := of_decide_eq_true (hdeeds _ hd)
      have hopen : ¬ Accomplished (soloStart.deeds soloLibrary soloBefore) s := by
        rintro ⟨i, outcome, hmem, -⟩
        cases hdeeds _ hmem
      obtain ⟨hbarrier, hshown, henacts⟩ :=
        join_barrier soloLibrary (Engine.initial "solo" none).createContext.2 0 1 0 "f" (by decide)
      refine ⟨w₀, w₁, s, h₀, h₁, ?_, henacts _, hresult,
        hshown soloBefore w₀ s h₀ hfree hd hf hopen⟩
      refine hbarrier [0] soloBefore soloDuring w₀ w₁ (.host 0) s h₀ h₁ hkeeps henter hreturn hd hf
        ?_
      rintro ⟨i, worker, heq, -⟩
      cases heq

/-- The barrier of a join of all tasks, while the pool is kept: when it returns, all tasks that
were pushed before it was entered are accomplished, but for the one that the joining thread executes
itself. If the joining thread is the only one of the host, then moreover the queue is empty, no
worker runs, and every submitted task is completed or failed. What accomplishes a task is done to
the world: a result that is written becomes a global of the main context, and the outcome that is
counted is the one to which the call of the function came. -/
theorem joinAll_barrier (library : Library) (engine : Engine) (main : ContextId)
    (poolSize others : Nat) (pool : List Nat) (before during : List Move) (w₀ w₁ : World)
    (me : ThreadId) (hmain : main < engine.contexts.length)
    (h₀ : Run library (World.initial engine main poolSize others) before w₀)
    (h₁ : Run library w₀ during w₁)
    (hkeeps : (World.initial engine main poolSize others).throughout library
      (World.keepsPool pool) (before ++ during) = true)
    (henter : w₀.entersJoinAll me = true) (hreturn : w₁.returnsFromJoinAll me = true) :
    (∀ s, .pushed s ∈ (World.initial engine main poolSize others).deeds library before →
      ¬ w₁.Executes me s → Accomplished
        ((World.initial engine main poolSize others).deeds library (before ++ during)) s) ∧
    (others = 0 → me = .host 0 →
      w₁.queue = [] ∧ (∀ worker ∈ w₁.workers, worker.running = false) ∧
        w₁.submitted = w₁.completed + w₁.failed) ∧
    (World.initial engine main poolSize others).Enacts library (before ++ during) := by
  have h := h₀.trans h₁
  refine ⟨?_, ?_, World.enacts library hmain poolSize others _⟩
  · intro s hs hme
    have hkept := h₀.throughout_pool (World.entersJoinAll_iff.mp henter) hkeeps
    have hspared :=
      h₀.joinAll_spares h₁ (World.entersJoinAll_iff.mp henter) trivial hreturn hkept hs
    have hs' : .pushed s ∈
        (World.initial engine main poolSize others).deeds library (before ++ during) := by
      rw [World.deeds, h₀.notes_append]
      exact List.mem_append_left _ hs
    exact (h.accounted.account hs').of_spared hspared hme (h.resting_of_not_mem hkeeps)
  · rintro rfl rfl
    obtain ⟨hquiet, hqueue⟩ := h₀.joinAll_quiet h₁ henter hreturn hkeeps
    have hask := World.confirming_of_returnsFromJoinAll hreturn
    refine ⟨hqueue, fun worker hmem => ?_, h.counters_of_quiet hquiet hqueue ?_⟩
    · obtain ⟨i, hworker⟩ := List.mem_iff_getElem?.mp hmem
      exact (hquiet (World.scene_hands_getElem? hworker)).running
    · rw [World.errand_of_asking hask]
      rfl

/-- A join of all tasks is entered after a call was submitted. -/
def soloBeforeAll : List Move :=
  soloSubmitted ++ [.begin 0 (.ask 0 .joinAll)]

/-- The worker executes the call, and the join looks at the worker and at the queue. -/
def soloDuringAll : List Move :=
  List.replicate 20 (.step 0 (.worker 0)) ++ List.replicate 10 (.step 0 (.host 0))

/-- A join of all tasks returns after a submitted call was executed and its result was written. -/
theorem joinAll_barrier_solo : ∃ w₁ s,
    Run soloLibrary soloStart (soloBeforeAll ++ soloDuringAll) w₁ ∧
    Accomplished (soloStart.deeds soloLibrary (soloBeforeAll ++ soloDuringAll)) s ∧
    ((w₁.engine.globals 0).get? "x").any (·.equal (.boolean true)) = true ∧
    w₁.queue = [] ∧ (∀ worker ∈ w₁.workers, worker.running = false) ∧
    w₁.submitted = w₁.completed + w₁.failed ∧
    soloStart.Enacts soloLibrary (soloBeforeAll ++ soloDuringAll) := by
  have hruns : (soloStart.follow soloLibrary soloBeforeAll).any (fun w =>
      w.entersJoinAll (.host 0) &&
        (w.follow soloLibrary soloDuringAll).any fun v => v.returnsFromJoinAll (.host 0) &&
          ((v.engine.globals 0).get? "x").any (·.equal (.boolean true))) = true := by
    decide +kernel
  have hkeeps : soloStart.throughout soloLibrary (World.keepsPool [0])
      (soloBeforeAll ++ soloDuringAll) = true := by
    decide +kernel
  have hpushed : (soloStart.deeds soloLibrary soloBeforeAll).any (·.pushed?.isSome) = true := by
    decide +kernel
  obtain ⟨w₀, h₀, hmid⟩ := (Option.any_eq_true _ _).mp hruns
  rw [Bool.and_eq_true] at hmid
  obtain ⟨henter, hend⟩ := hmid
  obtain ⟨w₁, h₁, hend⟩ := (Option.any_eq_true _ _).mp hend
  rw [Bool.and_eq_true] at hend
  obtain ⟨hreturn, hresult⟩ := hend
  have h₀ := run_iff_follow.mpr h₀
  have h₁ := run_iff_follow.mpr h₁
  obtain ⟨d, hd, hs⟩ := List.any_eq_true.mp hpushed
  cases d with
  | claimed | started | wrote | finished => cases hs
  | pushed s =>
      obtain ⟨hdone, hquiet, henacts⟩ := joinAll_barrier soloLibrary
        (Engine.initial "solo" none).createContext.2 0 1 0 [0] soloBeforeAll soloDuringAll w₀ w₁
        (.host 0) (by decide) h₀ h₁ hkeeps henter hreturn
      obtain ⟨hqueue, hidle, hcounters⟩ := hquiet rfl rfl
      refine ⟨w₁, s, h₀.trans h₁, hdone s hd ?_, hresult, hqueue, hidle, hcounters, henacts⟩
      rintro ⟨i, worker, heq, -⟩
      cases heq

end ScriptPool
