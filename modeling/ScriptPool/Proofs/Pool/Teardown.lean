import ScriptPool.Proofs.Pool.JoinAllBarrier

namespace ScriptPool

/-- What a thread can wait for. -/
inductive Barrier where
  | join (function : String)
  | joinAll

namespace Barrier

/-- Whether a thread at the barrier waits for a task. -/
def Awaits (s : Submission) : Barrier → Prop
  | .join function => s.function = function
  | .joinAll => True

/-- The place from which a thread at the barrier looks around. -/
def lookout : Barrier → Asking
  | .join function => .join function .sampling
  | .joinAll => .joinAll .sampling

/-- Whether a thread is about to look around. -/
def looksOut (me : ThreadId) (w : World) (b : Barrier) : Bool :=
  match b, w.asking? me with
  | .join function, some (.join f .sampling) => f = function
  | .joinAll, some (.joinAll .sampling) => true
  | _, _ => false

/-- What a thread at the barrier asks about other workers. -/
def question : Barrier → Question
  | .join function => .executing function
  | .joinAll => .running

/-- Whether the next step of a thread returns from the barrier. -/
def returns (me : ThreadId) (w : World) : Barrier → Bool
  | .join function => w.returnsFromJoin me function
  | .joinAll => w.returnsFromJoinAll me

/-- Whether a thread at the barrier finds nothing to wait for: no task in the queue, and no other
worker of the pool. -/
structure Clear (b : Barrier) (me : ThreadId) (w : World) : Prop where
  queue : ∀ s ∈ w.queue, ¬ b.Awaits s
  pool : ∀ i ∈ w.pool, me ≠ .worker i → b.question.holds w i = false

end Barrier

variable {library : Library} {engine : Engine} {main : ContextId} {poolSize others pick : Nat}
  {before during : List Move} {me : ThreadId} {w w' v w₀ w₁ : World} {a a' : Asking}
  {s : Submission} {b : Barrier}

theorem World.advance_isSome (ha : w.asking? me = some a)
    (hs : (askingStep pick me w a).isSome = true) : (w.advance library pick me).isSome = true := by
  obtain ⟨settle, hsteps, -⟩ := (World.awaits_iff.mpr ha).advance library pick
  rw [hsteps, Option.isSome_map]
  exact hs

/-- A thread goes on alone, and the pool is kept. -/
inductive World.Alone (library : Library) (me : ThreadId) (w : World) : World → Prop where
  | refl : Alone library me w w
  | step {v v' : World} (h : Alone library me w v) (hv : v.advance library 0 me = some v')
      (hpool : v'.pool = v.pool) : Alone library me w v'

theorem World.Alone.pool_eq (h : World.Alone library me w w') : w'.pool = w.pool := by
  induction h with
  | refl => rfl
  | step _ _ hpool ih => rw [hpool, ih]

theorem World.Alone.run (h : World.Alone library me w w') :
    ∃ moves, Run library w moves w' ∧
      w.throughout library (fun v => v.pool = w.pool) moves = true := by
  induction h with
  | refl => exact ⟨[], .start, by simp [World.throughout]⟩
  | @step v v' h hv hpool ih =>
      obtain ⟨moves, hrun, hkept⟩ := ih
      have hmove : v.move? library (.step 0 me) = some v' := hv
      refine ⟨moves ++ [.step 0 me], hrun.move _ hmove, ?_⟩
      apply hrun.throughout_append hkept
      simp [World.throughout, hmove, h.pool_eq, hpool]

theorem World.Alone.going (h : World.Alone library me w v) (ha : v.asking? me = some a)
    {u : World} (hs : askingStep 0 me v a = some (u, .going a')) (hpool : u.pool = v.pool) :
    ∃ v', World.Alone library me w v' ∧ v'.scene = u.scene ∧ v'.asking? me = some a' := by
  have hsome : (v.advance library 0 me).isSome = true :=
    World.advance_isSome ha (by rw [hs]; rfl)
  obtain ⟨v', hv'⟩ := Option.isSome_iff_exists.mp hsome
  obtain ⟨u', stage, hs', hscene, -, hask⟩ := World.advance_asking ha hv'
  rw [hs] at hs'
  cases hs'
  exact ⟨v', h.step hv' ((congrArg Crew.pool hscene).trans hpool), hscene, hask⟩

theorem Question.holds_congr (q : Question) (h : w'.scene.hands = w.scene.hands) (i : Nat) :
    q.holds w' i = q.holds w i := by
  have hworkers : w'.workers[i]?.map (Hand.bare ∘ Worker.hand) =
      w.workers[i]?.map (Hand.bare ∘ Worker.hand) := by
    simpa [World.scene, Crew.scene, World.crew] using congrArg (·[i]?) h
  cases q with
  | executing function =>
      have hany := congrArg (Option.any fun hand : Hand => hand.current? = some function) hworkers
      rw [Option.any_map, Option.any_map] at hany
      exact hany
  | running =>
      have hany := congrArg (Option.any Hand.running) hworkers
      rw [Option.any_map, Option.any_map] at hany
      exact hany

section Look

variable (q : Question) (wrap : LookPlace → Asking) (found : Asking)
  (hgoing : ∀ {u v : World} {place place' : LookPlace},
    lookStep me q u place = some (v, .going place') →
      askingStep 0 me u (wrap place) = some (v, .going (wrap place')))
  (hover : ∀ {u v : World} {place : LookPlace}, lookStep me q u place = some (v, .over false) →
    askingStep 0 me u (wrap place) = some (v, .going found))
include hgoing hover

theorem World.Alone.looking {rest : List Nat} (h : World.Alone library me w v)
    (ha : v.asking? me = some (wrap (.looking rest)))
    (hsilent : ∀ i ∈ rest, me ≠ .worker i → q.holds v i = false) :
    ∃ v', World.Alone library me w v' ∧ v'.scene = { v.scene with poolHolder? := none } ∧
      v'.asking? me = some found := by
  induction rest generalizing v with
  | nil =>
      obtain ⟨v₁, h₁, hscene₁, ha₁⟩ := h.going ha (hgoing rfl) rfl
      obtain ⟨v₂, h₂, hscene₂, ha₂⟩ := h₁.going ha₁ (hover rfl) rfl
      refine ⟨v₂, h₂, hscene₂.trans ?_, ha₂⟩
      show { v₁.scene with poolHolder? := none } = _
      rw [hscene₁]
  | cons serial rest ih =>
      have hstep : lookStep me q v (.looking (serial :: rest)) =
          some (v, .going (.looking rest)) := by
        by_cases hme : me = .worker serial
        · simp [lookStep, hme]
        · simp [lookStep, hme, hsilent serial List.mem_cons_self hme]
      obtain ⟨v₁, h₁, hscene₁, ha₁⟩ := h.going ha (hgoing hstep) rfl
      obtain ⟨v₂, h₂, hscene₂, ha₂⟩ := ih h₁ ha₁ fun i hi hme => by
        rw [q.holds_congr (congrArg Crew.hands hscene₁)]
        exact hsilent i (List.mem_cons_of_mem _ hi) hme
      refine ⟨v₂, h₂, ?_, ha₂⟩
      rw [hscene₂, hscene₁]

/-- If no other worker of the pool shows what is asked about, then a look at the workers ends by
itself and leaves everything as it was. -/
theorem World.Alone.look (h : World.Alone library me w v) (hscene : v.scene = w.scene)
    (ha : v.asking? me = some (wrap .locking)) (hfree : w.poolHolder? = none)
    (hsilent : ∀ i ∈ w.pool, me ≠ .worker i → q.holds w i = false) :
    ∃ v', World.Alone library me w v' ∧ v'.scene = w.scene ∧ v'.asking? me = some found := by
  have hholder : v.poolHolder? = none := (congrArg Crew.poolHolder? hscene).trans hfree
  have hpool : v.pool = w.pool := congrArg Crew.pool hscene
  have hstep : lookStep me q v .locking =
      some ({ v with poolHolder? := some me }, .going (.looking w.pool)) := by
    simp [lookStep, World.lockPool, hholder, hpool]
  obtain ⟨v₁, h₁, hscene₁, ha₁⟩ := h.going ha (hgoing hstep) rfl
  have hhands : v₁.scene.hands = w.scene.hands := by
    rw [hscene₁, ← hscene]
    rfl
  obtain ⟨v₂, h₂, hscene₂, ha₂⟩ := h₁.looking q wrap found hgoing hover ha₁ fun i hi hme => by
    rw [q.holds_congr hhands]
    exact hsilent i hi hme
  refine ⟨v₂, h₂, ?_, ha₂⟩
  have hfree' : v.scene.poolHolder? = none := hholder
  calc v₂.scene = { v₁.scene with poolHolder? := none } := hscene₂
    _ = { v.scene with poolHolder? := none } := by
      rw [hscene₁]
      rfl
    _ = v.scene := by rw [← hfree']
    _ = w.scene := hscene

end Look

theorem World.onQueue_of_free {α : Type} (hfree : w.queueHolder? = none) (result : α) :
    w.onQueue result = some result := by
  simp [World.onQueue, hfree]

theorem World.Alone.join {function : String} (ha : w.asking? me = some (.join function .sampling))
    (hqueue : w.queueHolder? = none) (hpool : w.poolHolder? = none)
    (hclear : (Barrier.join function).Clear me w) :
    ∃ w', World.Alone library me w w' ∧ w'.scene = w.scene ∧
      w'.returnsFromJoin me function = true := by
  have hstart : World.Alone library me w w := .refl
  obtain ⟨v₁, h₁, hscene₁, ha₁⟩ := hstart.going ha (u := w) rfl rfl
  have hempty : v₁.queue = w.queue := congrArg Crew.queue hscene₁
  have hnone : (w.queue.any fun s => s.function = function) = false := by
    rw [List.any_eq_false]
    intro s hs hf
    rw [decide_eq_true_eq] at hf
    exact hclear.queue s hs hf
  have hsearch : askingStep 0 me v₁ (.join function (.searching w.generation)) =
      some (v₁, .going (.join function (.looking w.generation false .locking))) := by
    rw [askingStep, joinStep,
      World.onQueue_of_free ((congrArg Crew.queueHolder? hscene₁).trans hqueue), hempty, hnone]
    rfl
  obtain ⟨v₂, h₂, hscene₂, ha₂⟩ := h₁.going ha₁ hsearch rfl
  obtain ⟨v₃, h₃, hscene₃, ha₃⟩ := h₂.look (.executing function)
    (fun place => .join function (.looking w.generation false place))
    (.join function (.confirming w.generation)) (fun hs => by simp [askingStep, joinStep, hs])
    (fun hs => by simp [askingStep, joinStep, hs]) (hscene₂.trans hscene₁) ha₂ hpool hclear.pool
  have hgeneration : v₃.generation = w.generation := congrArg Crew.generation hscene₃
  refine ⟨v₃, h₃, hscene₃, ?_⟩
  simp [World.returnsFromJoin, ha₃, joinStep, hgeneration]

theorem World.Alone.joinAll (ha : w.asking? me = some (.joinAll .sampling))
    (hqueue : w.queueHolder? = none) (hpool : w.poolHolder? = none)
    (hclear : Barrier.joinAll.Clear me w) :
    ∃ w', World.Alone library me w w' ∧ w'.scene = w.scene ∧
      w'.returnsFromJoinAll me = true := by
  have hempty : w.queue = [] := by
    apply List.eq_nil_iff_forall_not_mem.mpr
    intro s hs
    exact hclear.queue s hs trivial
  have hstart : World.Alone library me w w := .refl
  obtain ⟨v₁, h₁, hscene₁, ha₁⟩ := hstart.going ha (u := w) rfl rfl
  have hqueue₁ : v₁.queueHolder? = none := (congrArg Crew.queueHolder? hscene₁).trans hqueue
  have hempty₁ : v₁.queue = [] := (congrArg Crew.queue hscene₁).trans hempty
  have hdrive : askingStep 0 me v₁ (.joinAll (.driving w.generation .measuring)) =
      some (v₁, .going (.joinAll (.looking w.generation .locking))) := by
    rw [askingStep, joinAllStep, driveStep, World.onQueue_of_free hqueue₁, hempty₁]
    rfl
  obtain ⟨v₂, h₂, hscene₂, ha₂⟩ := h₁.going ha₁ hdrive rfl
  obtain ⟨v₃, h₃, hscene₃, ha₃⟩ := h₂.look .running
    (fun place => .joinAll (.looking w.generation place)) (.joinAll (.searching w.generation))
    (fun hs => by simp [askingStep, joinAllStep, hs])
    (fun hs => by simp [askingStep, joinAllStep, hs]) (hscene₂.trans hscene₁) ha₂ hpool hclear.pool
  have hqueue₃ : v₃.queueHolder? = none := (congrArg Crew.queueHolder? hscene₃).trans hqueue
  have hempty₃ : v₃.queue = [] := (congrArg Crew.queue hscene₃).trans hempty
  have hsearch : askingStep 0 me v₃ (.joinAll (.searching w.generation)) =
      some (v₃, .going (.joinAll (.confirming w.generation))) := by
    rw [askingStep, joinAllStep, World.onQueue_of_free hqueue₃, hempty₃]
    rfl
  obtain ⟨v₄, h₄, hscene₄, ha₄⟩ := h₃.going ha₃ hsearch rfl
  have hscene : v₄.scene = w.scene := hscene₄.trans hscene₃
  have hgeneration : v₄.generation = w.generation := congrArg Crew.generation hscene
  refine ⟨v₄, h₄, hscene, ?_⟩
  simp [World.returnsFromJoinAll, ha₄, joinAllStep, hgeneration]

theorem Barrier.alone (b : Barrier) (ha : w.asking? me = some b.lookout)
    (hqueue : w.queueHolder? = none) (hpool : w.poolHolder? = none) (hclear : b.Clear me w) :
    ∃ w', World.Alone library me w w' ∧ w'.scene = w.scene ∧ b.returns me w' = true := by
  cases b with
  | join function => exact World.Alone.join ha hqueue hpool hclear
  | joinAll => exact World.Alone.joinAll ha hqueue hpool hclear

theorem Barrier.looksOut_iff : b.looksOut me w = true ↔ w.asking? me = some b.lookout := by
  cases b with
  | join function =>
      unfold Barrier.looksOut
      split
      · next f g heq h =>
          cases heq
          simp [h, Barrier.lookout]
      · next heq h => cases heq
      · next hno _ =>
          constructor
          · rintro ⟨⟩
          · intro h
            exact absurd h (hno function function rfl)
  | joinAll =>
      unfold Barrier.looksOut
      split
      · next heq h => cases heq
      · next h => simp [h, Barrier.lookout]
      · next _ hno =>
          constructor
          · rintro ⟨⟩
          · intro h
            exact absurd h (hno rfl)

/-- When a thread returns from a barrier, no task that it waited for is in the queue or in the hands
of another worker of the pool. A thread that waits for all tasks may have been deceived if the pool
changed since it looked around last. -/
theorem Barrier.spares (h₀ : Run library (World.initial engine main poolSize others) before w₀)
    (h₁ : Run library w₀ during w₁) (hlook : w₀.asking? me = some b.lookout)
    (hkept : b = .joinAll → w₀.throughout library (fun v => v.pool = w₀.pool) during = true)
    (hreturn : b.returns me w₁ = true)
    (hs : .pushed s ∈ (World.initial engine main poolSize others).deeds library before)
    (hb : b.Awaits s) : w₁.scene.Spared me s := by
  cases b with
  | join function => exact h₀.join_spares h₁ hlook trivial hreturn hs hb
  | joinAll => exact h₀.joinAll_spares h₁ hlook trivial hreturn (hkept rfl) hs

theorem Account.of_spared_or_removed {deeds : List Deed} (ha : Account w.scene deeds s)
    (hspared : w.scene.Spared me s) (hme : ¬ w.Executes me s) :
    Accomplished deeds s ∨ ∃ i, i ∉ w.pool ∧ w.Executes (.worker i) s := by
  cases ha with
  | queued h => exact absurd h hspared.1
  | @held i hand once p hhand hplace hp =>
      have hi : w.scene.Holds i s := Account.holds hhand hplace hp
      refine .inr ⟨i, fun hpool => ?_, World.scene_holds_iff.mp hi⟩
      refine hspared.2 i hpool ?_ hi
      rintro rfl
      exact hme (World.scene_holds_iff.mp hi)
  | done h => exact .inl h

/-- A barrier misses a task exactly if the worker that executes it has been taken out of the pool.

A thread that has looked around returns only when all tasks that it waited for are accomplished,
but for the one that it executes itself and those that are executed by workers outside the pool. If
a worker executes the last task that a thread waits for, then the thread can return before the task
is accomplished if and only if that worker is outside the pool. -/
theorem barrier_misses_iff_removed (library : Library) (engine : Engine) (main : ContextId)
    (poolSize others : Nat) (b : Barrier) (before : List Move) (w₀ : World) (me : ThreadId)
    (s : Submission) (h₀ : Run library (World.initial engine main poolSize others) before w₀)
    (hlook : b.looksOut me w₀ = true)
    (hs : .pushed s ∈ (World.initial engine main poolSize others).deeds library before)
    (hb : b.Awaits s) :
    (∀ (during : List Move) (w₁ : World), Run library w₀ during w₁ →
      (b = .joinAll → w₀.throughout library (fun v => v.pool = w₀.pool) during = true) →
      b.returns me w₁ = true → ¬ w₁.Executes me s →
      Accomplished
          ((World.initial engine main poolSize others).deeds library (before ++ during)) s ∨
        ∃ i, i ∉ w₁.pool ∧ w₁.Executes (.worker i) s) ∧
    ∀ i, w₀.Executes (.worker i) s → me ≠ .worker i →
      w₀.queueHolder? = none → w₀.poolHolder? = none → (∀ t ∈ w₀.queue, ¬ b.Awaits t) →
      (∀ j ∈ w₀.pool, j ≠ i → me ≠ .worker j → b.question.holds w₀ j = false) →
      ((∃ (during : List Move) (w₁ : World), Run library w₀ during w₁ ∧
          w₀.throughout library (fun v => v.pool = w₀.pool) during = true ∧
          b.returns me w₁ = true ∧ w₁.Executes (.worker i) s) ↔
        i ∉ w₀.pool) := by
  rw [Barrier.looksOut_iff] at hlook
  constructor
  · intro during w₁ h₁ hkept hreturn hme
    have hspared := Barrier.spares h₀ h₁ hlook hkept hreturn hs hb
    have hs' : .pushed s ∈
        (World.initial engine main poolSize others).deeds library (before ++ during) := by
      rw [World.deeds, h₀.notes_append]
      exact List.mem_append_left _ hs
    exact ((h₀.trans h₁).accounted.account hs').of_spared_or_removed hspared hme
  · intro i hi hme hqueue hpool hnone hsilent
    constructor
    · rintro ⟨during, w₁, h₁, hkept, hreturn, hi'⟩ hmem
      have hspared := Barrier.spares h₀ h₁ hlook (fun _ => hkept) hreturn hs hb
      have hsame : w₁.pool = w₀.pool :=
        of_decide_eq_true (h₁.of_throughout (List.prefix_refl _) hkept)
      have hmem' : i ∈ w₁.scene.pool := by
        show i ∈ w₁.pool
        rw [hsame]
        exact hmem
      exact hspared.2 i hmem' hme (World.scene_holds_iff.mpr hi')
    · intro hmem
      have hclear : b.Clear me w₀ := by
        refine ⟨hnone, fun j hj hne => hsilent j hj ?_ hne⟩
        rintro rfl
        exact hmem hj
      obtain ⟨w₁, halone, hscene, hreturn⟩ := b.alone hlook hqueue hpool hclear
      obtain ⟨moves, h₁, hkept⟩ := halone.run
      refine ⟨moves, w₁, h₁, hkept, hreturn, ?_⟩
      rw [← World.scene_holds_iff, hscene]
      exact World.scene_holds_iff.mpr hi

/-- A library with one function, which waits for a gate. -/
def gatedLibrary : Library :=
  ⟨[("f", fun _ _ => .perform (.passGate "open") fun _ => .done [])]⟩

/-- A coordinator with one worker and two threads of the host. -/
def gatedStart : World :=
  World.initial (Engine.initial "gated" none).createContext.2 0 1 1

/-- The worker executes a call, another thread enters a join of the call's function, and the
coordinator is shut down until the pool is empty. -/
def gatedBefore : List Move :=
  List.replicate 4 (.step 0 (.host 0)) ++ [.begin 0 (.ask 0 (.parallel "f()"))] ++
    List.replicate 12 (.step 0 (.host 0)) ++ List.replicate 9 (.step 0 (.worker 0)) ++
    [.begin 1 (.ask 0 (.join "f")), .step 0 (.host 1), .begin 0 .shutDown] ++
    List.replicate 3 (.step 0 (.host 0))

/-- A join returns although the worker that was taken out of the pool still executes the call. -/
theorem barrier_misses_gated : ∃ w₀ s during w₁,
    Run gatedLibrary gatedStart gatedBefore w₀ ∧ Run gatedLibrary w₀ during w₁ ∧
    .pushed s ∈ gatedStart.deeds gatedLibrary gatedBefore ∧ s.function = "f" ∧
    w₁.returnsFromJoin (.host 1) "f" = true ∧ w₁.Executes (.worker 0) s := by
  have hbefore : (gatedStart.follow gatedLibrary gatedBefore).any (fun w =>
      (Barrier.join "f").looksOut (.host 1) w && w.pool.isEmpty && w.queue.isEmpty &&
        w.queueHolder?.isNone && w.poolHolder?.isNone && w.workers.length = 1) = true := by
    decide +kernel
  have hnames : (pushes (gatedStart.deeds gatedLibrary gatedBefore)).all (·.function = "f") =
      true := by
    decide +kernel
  have hpushed : (pushes (gatedStart.deeds gatedLibrary gatedBefore)).isEmpty = false := by
    decide +kernel
  have hcounted : (gatedStart.deeds gatedLibrary gatedBefore).all
      (fun d => !d.completes && !d.fails) = true := by
    decide +kernel
  obtain ⟨w₀, h₀, hw₀⟩ := (Option.any_eq_true _ _).mp hbefore
  simp only [Bool.and_eq_true, List.isEmpty_iff, Option.isNone_iff_eq_none,
    decide_eq_true_eq] at hw₀
  obtain ⟨⟨⟨⟨⟨hlook, hpool⟩, hqueue⟩, hqueueFree⟩, hpoolFree⟩, hlength⟩ := hw₀
  have h₀ := run_iff_follow.mpr h₀
  obtain ⟨s, hs⟩ := List.exists_mem_of_ne_nil _ (List.isEmpty_eq_false_iff.mp hpushed)
  have hd := mem_pushes.mp hs
  have hf : s.function = "f" := of_decide_eq_true (List.all_eq_true.mp hnames s hs)
  have hopen : ¬ Accomplished (gatedStart.deeds gatedLibrary gatedBefore) s := by
    rintro ⟨i, outcome, hmem, -⟩
    have hboth := List.all_eq_true.mp hcounted _ hmem
    simp [Deed.completes, Deed.fails] at hboth
  have hheld : w₀.Executes (.worker 0) s := by
    rcases h₀.shown hqueueFree hd hopen with hmem | ⟨i, worker, hworker, hheld, -⟩
    · rw [hqueue] at hmem
      cases hmem
    · have hlt := (List.getElem?_eq_some_iff.mp hworker).1
      have hzero : i = 0 := by omega
      exact ⟨i, worker, by rw [hzero], hworker, hheld⟩
  obtain ⟨-, hexact⟩ := barrier_misses_iff_removed gatedLibrary
    (Engine.initial "gated" none).createContext.2 0 1 1 (.join "f") gatedBefore w₀ (.host 1) s
    h₀ hlook hd hf
  obtain ⟨during, w₁, h₁, -, hreturn, hheld'⟩ := (hexact 0 hheld (by rintro ⟨⟩) hqueueFree hpoolFree
    (by simp [hqueue]) (by simp [hpool])).mpr (by simp [hpool])
  exact ⟨w₀, s, during, w₁, h₀, h₁, hd, hf, hreturn, hheld'⟩

end ScriptPool
