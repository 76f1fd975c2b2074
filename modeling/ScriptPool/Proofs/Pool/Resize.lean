import ScriptPool.Proofs.Pool.Rebuilt
import ScriptPool.Proofs.Pool.ResizeEnds

namespace ScriptPool

/-- A thread is about to ask for `n` workers. -/
def World.entersResize (me : ThreadId) (n : Nat) (w : World) : Bool :=
  match w.asking? me with
  | some (.resize m .checking) => m = n
  | _ => false

/-- From one world to the next a thread is told the reply to a request: it is the result of the call
of the host, or else the code that the thread executes goes on with it. -/
def World.Hears (w w' : World) (reply : Reply) : ThreadId → Prop
  | .host host =>
    (∃ a, w.hosts[host]? = some (.asking a)) ∧ w'.result? host = some (.replied reply) ∨
      ∃ activity, w.hosts[host]? = some (.running activity) ∧
        w'.hosts[host]? = some (.running ⟨activity.execution.answer reply, none⟩)
  | .worker i =>
    ∃ worker activity once s, w.workers[i]? = some worker ∧
      worker.place = .executing once s (.running activity) ∧
      w'.workers[i]? = some { worker with
        place := .executing once s (.running ⟨activity.execution.answer reply, none⟩) }

variable {library : Library} {engine : Engine} {main : ContextId} {poolSize n pick : Nat}
  {before during : List Move} {me : ThreadId} {v w w' w₀ w₁ w₂ : World} {place : ResizePlace}
  {reply : Reply}

theorem World.entersResize_iff :
    w.entersResize me n = true ↔ w.asking? me = some (.resize n .checking) := by
  unfold World.entersResize
  split
  · next m h =>
      rw [h, decide_eq_true_eq]
      constructor
      · rintro rfl
        rfl
      · intro heq
        cases heq
        rfl
  · next hno =>
      constructor
      · nofun
      · intro h
        exact absurd h (hno n)

theorem startStep_over {place : StartPlace} {m : Nat} (h : startStep me w place = some (v, .over m)) :
    v = w.unlockPool := by
  cases place with
  | locking limit =>
      simp only [startStep, Option.map_eq_some_iff] at h
      obtain ⟨u, -, h⟩ := h
      cases h
  | trying rest limit started =>
      cases rest with
      | nil => cases h
      | cons serial rest =>
          simp only [startStep] at h
          split at h
          · cases h
          · split at h
            · cases h
            · cases h
  | sending => cases h
  | unlocking =>
      cases h
      rfl

theorem driveStep_over {place : DrivePlace} (h : driveStep me w place = some (v, .over ())) :
    v = { w with poolHolder? := v.poolHolder? } := by
  cases place with
  | measuring =>
      simp only [driveStep, World.onQueue_eq_some_iff] at h
      obtain ⟨-, h⟩ := h
      split at h
      · cases h
        rfl
      · cases h
  | starting place =>
      simp only [driveStep, Option.map_eq_some_iff] at h
      obtain ⟨⟨u, stage⟩, hs, h⟩ := h
      cases stage with
      | going => cases h
      | «over» =>
          cases h
          rw [startStep_over hs]
          rfl

theorem ResizePlace.Replies.world_eq (h : place.Replies n me w v reply) :
    v = { w with
      engine := { w.engine with reports := v.engine.reports }, poolHolder? := v.poolHolder? } := by
  cases h with
  | refused | same | inPool => rfl
  | broken _ hs => rw [(joinAllStep_error hs).2.1]
  | resized _ hs =>
      rw [driveStep_over hs]
      rfl
  | incomplete _ hs => rw [driveStep_over hs]

theorem World.advance_hears (ha : w.asking? me = some (.resize n place))
    (hreply : w.resizeReply? me = some reply) (h : w.advance library pick me = some w') :
    w.Hears w' reply me := by
  obtain ⟨v, hstep⟩ := (World.resizeReply?_eq_some_iff ha).mp hreply
  have hv := (resizeStep_replies hstep).world_eq
  have hs : askingStep pick me w (.resize n place) = some (v, .over reply) := by
    simp only [askingStep, hstep, Option.map_some]
  have hhosts : v.hosts = w.hosts := by rw [hv]
  have hworkers : v.workers = w.workers := by rw [hv]
  obtain ⟨v', stage', hs', hserves⟩ := World.advance_serves ha h
  rw [hs] at hs'
  cases hs'
  cases hserves with
  | call hat =>
      have hlt := (List.getElem?_eq_some_iff.mp hat).1
      refine .inl ⟨⟨_, hat⟩, World.result?_eq_some_iff.mpr ?_⟩
      rw [World.placeHost, List.getElem?_set_self (hhosts ▸ hlt)]
      rfl
  | code hat =>
      have hlt := (List.getElem?_eq_some_iff.mp hat).1
      refine .inr ⟨_, hat, ?_⟩
      rw [World.placeHost, List.getElem?_set_self (hhosts ▸ hlt)]
      rfl
  | @task i worker once s x hworker hplace =>
      refine ⟨worker, _, once, s, hworker, hplace, ?_⟩
      rw [World.placeWorker, World.modifyWorker, List.getElem?_modify, hworkers, hworker]
      simp [Activity.afterAsking]

theorem World.workers_of_estate {e : Engine} (h : w'.estate = { w.estate with engine := e }) (i : Nat) :
    w'.workers[i]?.map Worker.unplaced = w.workers[i]?.map Worker.unplaced := by
  have hworkers : w'.workers.map Worker.unplaced = w.workers.map Worker.unplaced :=
    (congrArg World.workers h :)
  have hi := congrArg (fun l => l[i]?) hworkers
  simpa using hi

theorem World.Rebuilt.of_estate {e : Engine} {count : Nat} (h : w₀.Rebuilt w count)
    (hestate : w'.estate = { w.estate with engine := e }) : w₀.Rebuilt w' count := by
  have hpool : w'.pool = w.pool := (congrArg World.pool hestate :)
  have hsize : w'.poolSize = w.poolSize := (congrArg World.poolSize hestate :)
  have hqueue : w'.queue = w.queue := (congrArg World.queue hestate :)
  have hworkers := World.workers_of_estate hestate
  have hids : w'.poolIds = w.poolIds := by
    rw [World.poolIds, World.poolIds, hpool]
    congr 1
    funext i
    have hi := congrArg (Option.map (·.id)) (hworkers i)
    simp only [Option.map_map] at hi
    exact hi
  have hcontexts : w'.poolContexts = w.poolContexts := by
    rw [World.poolContexts, World.poolContexts, hpool]
    congr 1
    funext i
    have hi := congrArg (Option.map (·.context)) (hworkers i)
    simp only [Option.map_map] at hi
    exact hi
  refine ⟨hsize.trans h.poolSize, hpool ▸ h.length, hids.trans h.ids, hcontexts ▸ h.distinct,
    hcontexts ▸ h.fresh, ?_, hqueue.trans h.queue⟩
  intro worker hmem
  obtain ⟨i, hworker⟩ := List.mem_iff_getElem?.mp hmem
  have hi := hworkers i
  rw [hworker, Option.map_some, eq_comm, Option.map_eq_some_iff] at hi
  obtain ⟨before, hbefore, heq⟩ := hi
  have hrunning : before.running = worker.running := (congrArg Worker.running heq :)
  rw [← hrunning]
  exact h.idle before (List.mem_of_getElem? hbefore)

theorem World.Answers.of_estate {e : Engine} (h : w₀.Answers w me n reply)
    (hestate : w'.estate = { w.estate with engine := e }) : w₀.Answers w' me n reply := by
  cases h with
  | shutDown hdown hhost =>
      have hsame : w'.shutDown = w.shutDown := (congrArg World.shutDown hestate :)
      exact .shutDown (hsame.trans hdown) hhost
  | unchanged hrunning hsame => exact .unchanged hrunning hsame
  | fromTask hrunning hzero hsize hme => exact .fromTask hrunning hzero hsize hme
  | resized hrunning hzero hsize hme h =>
      exact .resized hrunning hzero hsize hme (h.of_estate hestate)
  | incomplete hrunning hzero hsize hme id message hid h =>
      exact .incomplete hrunning hzero hsize hme id message hid (h.of_estate hestate)

theorem World.advance_replies (ha : w.asking? me = some (.resize n place))
    (hreply : w.resizeReply? me = some reply) (h : w.advance library pick me = some w') :
    ∃ e, w'.estate = { w.estate with engine := e } := by
  obtain ⟨v, hstep⟩ := (World.resizeReply?_eq_some_iff ha).mp hreply
  obtain ⟨u, stage, hs, hestate, -⟩ := World.advance_estate ha h
  simp only [askingStep, hstep, Option.map_some, Option.some.injEq, Prod.mk.injEq] at hs
  obtain ⟨rfl, -⟩ := hs
  refine ⟨v.engine, hestate.trans ?_⟩
  rw [(resizeStep_replies hstep).world_eq]
  rfl

/-- With a single thread of the host, the size on record is the number of workers whenever that
thread has no call in progress and the coordinator is not shut down. A request for no workers or for
as many as there are is answered with their number, a task that asks for another number is turned
away, and neither changes anything. When the host asks for another number, all tasks are done before
the pool is touched, and then the pool is built anew with all workers or with those that could be
started. Only if the coordinator is shut down, every request is refused. The reply can always be
reached by steps of threads, for a request of the host that rebuilds the pool as soon as no task is
left. -/
theorem resize_alone (library : Library) (engine : Engine) (main : ContextId) (poolSize : Nat)
    (before : List Move) (w₀ : World) (hmain : main < engine.contexts.length)
    (h₀ : Run library (World.initial engine main poolSize 0) before w₀) :
    (w₀.isFree 0 = true → w₀.shutDown = false → w₀.poolSize = w₀.pool.length) ∧
    ∀ (me : ThreadId) (n : Nat) (during : List Move) (w₁ : World),
      w₀.entersResize me n = true → Run library w₀ during w₁ →
      w₀.throughout library (World.isResizing me n) during = true →
      (∀ reply pick w₂, w₁.resizeReply? me = some reply →
        w₁.advance library pick me = some w₂ →
        w₁.Hears w₂ reply me ∧ w₀.Answers w₂ me n reply) ∧
      (me ≠ .host 0 ∨ n = 0 ∨ n = w₀.poolSize ∨ w₀.shutDown = true →
        ∀ pick w₂, w₁.advance library pick me = some w₂ → w₂.estate = w₁.estate) ∧
      (me = .host 0 → n ≠ 0 → n ≠ w₀.poolSize → w₀.shutDown = false →
        w₁.pool ≠ w₀.pool ∨ (w₁.resizeReply? me).isSome = true →
        ∀ s, .pushed s ∈ (World.initial engine main poolSize 0).deeds library (before ++ during) →
          Accomplished
            ((World.initial engine main poolSize 0).deeds library (before ++ during)) s) ∧
      (me ≠ .host 0 ∨ n = 0 ∨ n = w₀.poolSize ∨ w₁.shutDown = true ∨ w₁.pool ≠ w₀.pool ∨
          w₁.Idle →
        ∃ after w₂, (∀ m ∈ after, ∃ thread, m = .step 0 thread) ∧ Run library w₁ after w₂ ∧
          w₁.throughout library (World.isResizing me n) after = true ∧
          (w₂.resizeReply? me).isSome = true) := by
  refine ⟨h₀.poolSize_eq, fun me n during w₁ henter h₁ hstay => ?_⟩
  have henter := World.entersResize_iff.mp henter
  refine ⟨fun reply pick w₂ hreply hadv => ?_, fun hidle pick w₂ hadv => ?_, ?_, fun hcome => ?_⟩
  · obtain ⟨place, hask, -⟩ := h₀.since henter h₁ hstay
    obtain ⟨e, hestate⟩ := World.advance_replies hask hreply hadv
    exact ⟨World.advance_hears hask hreply hadv,
      (h₀.answers h₁ hmain henter hstay hreply).of_estate hestate⟩
  · exact h₀.keeps_estate h₁ henter hstay hidle hadv
  · rintro rfl hzero hsize hrunning hlate s hs
    obtain ⟨hquiet, hqueue⟩ :=
      h₀.quiet_of_rebuilding h₁ henter hstay hzero hsize hrunning hlate
    exact (h₀.trans h₁).accomplished_of_quiet hquiet hqueue hs
  · obtain ⟨w₂, honward, hreply⟩ := (h₀.answerable h₁ henter hstay hcome).onward
    have hwaits : w₁.isResizing me n = true := h₁.of_throughout (List.prefix_refl _) hstay
    obtain ⟨after, hsteps, hrun, hkept⟩ := honward.run hwaits
    exact ⟨after, w₂, hsteps, hrun, hkept, hreply⟩

/-- The number of workers is to be raised from one to two when only one more context can be had. -/
def soloAsked : List Move :=
  List.replicate 4 (.step 0 (.host 0)) ++ [.setBudget (some 1), .begin 0 (.ask 0 (.resize 2))]

/-- The old worker leaves, and a new one is started. -/
def soloRebuilding : List Move :=
  List.replicate 18 (.step 0 (.host 0)) ++ List.replicate 3 (.step 0 (.worker 0)) ++
    List.replicate 9 (.step 0 (.host 0))

theorem Reply.eq_of_missing {id : Nat} (h : (HostResult.replied reply).missing? = some id) :
    ∃ message, reply = .error (.workerStart id message) := by
  unfold HostResult.missing? at h
  split at h
  · next heq =>
      cases heq
      cases h
      exact ⟨_, rfl⟩
  · cases h

/-- A request for two workers fails at the second one, and the pool has a new one. -/
theorem resize_alone_short : ∃ w₀ w₁ w₂, Run soloLibrary soloStart soloAsked w₀ ∧
    Run soloLibrary w₀ soloRebuilding w₁ ∧ w₁.advance soloLibrary 0 (.host 0) = some w₂ ∧
    (∃ message, w₁.Hears w₂ (.error (.workerStart 1 message)) (.host 0)) ∧ w₀.Rebuilt w₂ 1 := by
  have hruns : (soloStart.follow soloLibrary soloAsked).any (fun w₀ =>
      w₀.entersResize (.host 0) 2 &&
        w₀.throughout soloLibrary (World.isResizing (.host 0) 2) soloRebuilding &&
        (w₀.follow soloLibrary soloRebuilding).any fun w₁ =>
          (w₁.advance soloLibrary 0 (.host 0)).isSome &&
            (w₁.resizeReply? (.host 0)).bind (HostResult.replied · |>.missing?) = some 1) = true := by
    decide +kernel
  obtain ⟨w₀, h₀, hruns⟩ := (Option.any_eq_true _ _).mp hruns
  rw [Bool.and_eq_true, Bool.and_eq_true] at hruns
  obtain ⟨⟨henter, hstay⟩, hruns⟩ := hruns
  obtain ⟨w₁, h₁, hruns⟩ := (Option.any_eq_true _ _).mp hruns
  rw [Bool.and_eq_true] at hruns
  obtain ⟨hadv, hreply⟩ := hruns
  obtain ⟨w₂, hadv⟩ := Option.isSome_iff_exists.mp hadv
  rw [decide_eq_true_eq, Option.bind_eq_some_iff] at hreply
  obtain ⟨reply, hreply, hmissing⟩ := hreply
  obtain ⟨message, rfl⟩ := Reply.eq_of_missing hmissing
  have h₀ := run_iff_follow.mpr h₀
  have h₁ := run_iff_follow.mpr h₁
  obtain ⟨hears, hanswers⟩ := ((resize_alone soloLibrary
    (Engine.initial "solo" none).createContext.2 0 1 soloAsked w₀ (by decide) h₀).2
    (.host 0) 2 soloRebuilding w₁ henter h₁ hstay).1 _ 0 w₂ hreply hadv
  cases hanswers with
  | incomplete _ _ _ _ _ _ _ hrebuilt => exact ⟨w₀, w₁, w₂, h₀, h₁, hadv, ⟨message, hears⟩, hrebuilt⟩

/-- Whether a call was refused by a coordinator that is shut down. -/
def HostResult.isRefused : HostResult → Bool
  | .replied (.error .shutDown) => true
  | _ => false

theorem HostResult.isRefused_iff {result : HostResult} :
    result.isRefused = true ↔ result = .replied (.error .shutDown) := by
  constructor
  · intro h
    unfold HostResult.isRefused at h
    split at h
    · rfl
    · cases h
  · rintro rfl
    rfl

/-- The coordinator is shut down, and then no workers are asked for. -/
def soloClosed : List Move :=
  [List.replicate 4 (.step 0 (.host 0)), [.begin 0 .shutDown],
    List.replicate 4 (.step 0 (.host 0)), List.replicate 3 (.step 0 (.worker 0)),
    List.replicate 4 (.step 0 (.host 0)), [.begin 0 (.ask 0 (.resize 0))]].flatten

/-- After the coordinator was shut down, a request for no workers is not answered with the size on
record. -/
theorem resize_refused_after_shutDown : ∃ w₀ w₁, Run soloLibrary soloStart soloClosed w₀ ∧
    w₀.entersResize (.host 0) 0 = true ∧ w₀.advance soloLibrary 0 (.host 0) = some w₁ ∧
    w₁.result? 0 = some (.replied (.error .shutDown)) ∧
    w₁.result? 0 ≠ some (.replied (.ok w₀.poolSize)) := by
  have hruns : (soloStart.follow soloLibrary soloClosed).any (fun w₀ =>
      w₀.entersResize (.host 0) 0 &&
        (w₀.advance soloLibrary 0 (.host 0)).any fun w₁ =>
          (w₁.result? 0).any HostResult.isRefused) = true := by
    decide +kernel
  obtain ⟨w₀, h₀, hruns⟩ := (Option.any_eq_true _ _).mp hruns
  rw [Bool.and_eq_true] at hruns
  obtain ⟨henter, hruns⟩ := hruns
  obtain ⟨w₁, hadv, hresult⟩ := (Option.any_eq_true _ _).mp hruns
  obtain ⟨result, hresult, hrefused⟩ := (Option.any_eq_true _ _).mp hresult
  obtain rfl := HostResult.isRefused_iff.mp hrefused
  refine ⟨w₀, w₁, run_iff_follow.mpr h₀, henter, hadv, hresult, ?_⟩
  rw [hresult]
  nofun

end ScriptPool
