import ScriptPool.Proofs.Pool.Outcome

namespace ScriptPool

/-- The private contexts that the workers of the pool hold. -/
def World.poolContexts (w : World) : List ContextId :=
  w.pool.filterMap fun i => w.workers[i]?.map (·.context)

/-- The numbers of the workers of the pool. -/
def World.poolIds (w : World) : List Nat :=
  w.pool.filterMap fun i => w.workers[i]?.map (·.id)

variable {library : Library} {engine : Engine} {main : ContextId} {poolSize : Nat}
  {moves : List Move} {w w' : World}

theorem World.posts_getElem? {i : Nat} {worker : Worker} (hworker : w.workers[i]? = some worker) :
    w.staff.posts[i]? = some worker.post := by
  simp [World.staff, hworker]

theorem World.of_posts_getElem? {i : Nat} {post : Post} (hpost : w.staff.posts[i]? = some post) :
    ∃ worker, w.workers[i]? = some worker ∧ worker.post = post := by
  simpa [World.staff] using hpost

theorem World.isFree_iff {host : Nat} :
    w.isFree host = true ↔ ∃ last?, w.hosts[host]? = some (.free last?) := by
  simp only [World.isFree, World.host?]
  cases w.hosts[host]? with
  | none => simp
  | some place =>
      cases place with
      | free | opening | asking | closing | measuring | running => simp

theorem World.result?_eq_some_iff {host : Nat} {result : HostResult} :
    w.result? host = some result ↔ w.hosts[host]? = some (.free (some result)) := by
  simp only [World.result?, World.host?]
  cases w.hosts[host]? with
  | none => simp
  | some place =>
      cases place with
      | free | opening | asking | closing | measuring | running => simp

theorem World.duty_of_free {host : Nat} (hfree : w.isFree host = true) :
    w.duty (.host host) = .off := by
  obtain ⟨last?, hplace⟩ := World.isFree_iff.mp hfree
  rw [World.duty, World.view_host hplace]
  rfl

theorem World.Sole.complete (hs : w.Sole) (hfree : w.isFree 0 = true) :
    Complete w.staff.posts w.pool [] none := by
  have hmanned := hs.manned
  rw [World.duty_of_free hfree] at hmanned
  exact hmanned.complete

theorem Complete.poolIds_eq {untold : List Nat} {awaited? : Option Nat}
    (h : Complete w.staff.posts w.pool untold awaited?) : w.poolIds = List.range w.pool.length := by
  have hids : w.poolIds = (w.pool.map (idAt w.staff.posts)).filterMap id := by
    rw [List.filterMap_map, World.poolIds]
    congr 1
    funext i
    simp [idAt, World.staff, Worker.post, Function.comp_def]
  rw [hids, h.numbered, List.filterMap_map]
  exact List.filterMap_some

theorem Complete.length_poolContexts (h : Complete w.staff.posts w.pool [] none) :
    w.poolContexts.length = w.pool.length := by
  rw [World.poolContexts, List.filterMap_length_eq_length]
  intro i hi
  obtain ⟨post, hpost, -⟩ := h.employed (by simpa using hi)
  obtain ⟨worker, hworker, -⟩ := World.of_posts_getElem? hpost
  simp [hworker]

theorem World.mem_poolContexts {c : ContextId} :
    c ∈ w.poolContexts ↔
      ∃ (i : Nat) (worker : Worker), i ∈ w.pool ∧ w.workers[i]? = some worker ∧
        worker.context = c := by
  simp only [World.poolContexts, List.mem_filterMap, Option.map_eq_some_iff]
  constructor
  · rintro ⟨i, hi, worker, hworker, hc⟩
    exact ⟨i, worker, hi, hworker, hc⟩
  · rintro ⟨i, worker, hi, hworker, hc⟩
    exact ⟨i, hi, worker, hworker, hc⟩

theorem Complete.nodup_poolContexts (h : Complete w.staff.posts w.pool [] none)
    (hs : w.staff.Secluded) : w.poolContexts.Nodup := by
  have hpool : w.pool.Nodup := by simpa using h.nodup
  refine hpool.filterMap ?_
  intro i j c hi hj
  simp only [Option.mem_def, Option.map_eq_some_iff] at hi hj
  obtain ⟨worker, hworker, rfl⟩ := hi
  obtain ⟨other, hother, heq⟩ := hj
  exact hs.distinct (World.posts_getElem? hworker) (World.posts_getElem? hother) heq.symm

/-- Whoever is in the pool has not left, and when nobody is on the way to or from it, whoever is not
in the pool has. -/
theorem Complete.gone_iff (h : Complete w.staff.posts w.pool [] none) {i : Nat} {post : Post}
    (hpost : w.staff.posts[i]? = some post) : post.gone = false ↔ i ∈ w.pool := by
  constructor
  · intro hstays
    rcases h.held hpost with hgone | hin | hawaited
    · rw [hstays] at hgone
      cases hgone
    · simpa using hin
    · cases hawaited
  · intro hi
    obtain ⟨other, hother, htold⟩ := h.employed (by simpa using hi)
    rw [hpost] at hother
    cases hother
    by_contra hgone
    have hdismissed := h.leaving hpost (Bool.eq_true_of_not_eq_false hgone)
    rw [htold] at hdismissed
    cases hdismissed

theorem Run.registered_perm (h : Run library (World.initial engine main poolSize 0) moves w)
    (hmain : main < engine.contexts.length) (hfresh : engine.registered = [])
    (hfree : w.isFree 0 = true) : w.engine.registered.Perm w.poolContexts := by
  have hregistered := h.registered hmain hfresh
  have hsecluded := ((World.Secluded.initial hmain poolSize 0).run h).staff
  have hcomplete := h.sole.complete hfree
  refine (List.perm_ext_iff_of_nodup hregistered.nodup
    (hcomplete.nodup_poolContexts hsecluded)).mpr fun c => ?_
  rw [World.mem_poolContexts]
  constructor
  · intro hc
    obtain ⟨i, post, hpost, hstays, rfl⟩ := (hregistered.held c).mp hc
    obtain ⟨worker, hworker, rfl⟩ := World.of_posts_getElem? hpost
    exact ⟨i, worker, (hcomplete.gone_iff hpost).mp hstays, hworker, rfl⟩
  · rintro ⟨i, worker, hi, hworker, rfl⟩
    have hpost := World.posts_getElem? hworker
    exact (hregistered.held _).mpr ⟨i, worker.post, hpost, (hcomplete.gone_iff hpost).mpr hi, rfl⟩

theorem Run.registered_nil (h : Run library (World.initial engine main poolSize 0) moves w)
    (hmain : main < engine.contexts.length) (hfresh : engine.registered = [])
    (hfree : w.isFree 0 = true) (hdown : w.shutDown = true) : w.engine.registered = [] := by
  have hmanned := h.sole.manned
  rw [World.duty_of_free hfree] at hmanned
  have hpool : w.pool = [] := by
    rcases hmanned.closed hdown with hempty | htaking
    · exact hempty
    · cases htaking
  have hperm := h.registered_perm hmain hfresh hfree
  rw [World.poolContexts, hpool] at hperm
  exact hperm.eq_nil

/-- The context that a worker had stays registered as long as the worker has it and does not
leave. -/
theorem Run.registered_later {before during : List Move}
    (h₀ : Run library (World.initial engine main poolSize 0) before w) (h : Run library w during w')
    (hmain : main < engine.contexts.length) (hfresh : engine.registered = []) {i : Nat}
    {worker worker' : Worker} (hworker : w.workers[i]? = some worker)
    (hworker' : w'.workers[i]? = some worker') :
    worker.context ∈ w'.engine.registered ↔
      worker'.context = worker.context ∧ worker'.place.isGone = false := by
  have hregistered := (h₀.trans h).registered hmain hfresh
  have hinitial := World.Secluded.initial hmain poolSize 0
  have hsecluded := (hinitial.run h₀).staff
  have hsecluded' := (hinitial.run (h₀.trans h)).staff
  have hpost := World.posts_getElem? hworker
  have hpost' := World.posts_getElem? hworker'
  constructor
  · intro hmem
    obtain ⟨j, other, hother, hstays, hc⟩ := (hregistered.held _).mp hmem
    have hsame : i = j := by
      rcases h.follows.context hother with hnew | ⟨post, hold, heq⟩
      · exact absurd hc ((hsecluded.known hpost).trans_le hnew).ne'
      · exact hsecluded.distinct hpost hold (hc.symm.trans heq.symm)
    subst hsame
    rw [hpost'] at hother
    cases hother
    exact ⟨hc, hstays⟩
  · rintro ⟨heq, hstays⟩
    exact (hregistered.held _).mpr ⟨i, worker'.post, hpost', hstays, heq⟩

/-- With a single thread of the host, whenever that thread has no call in progress, exactly the
contexts that the workers of the pool hold are registered, one for each worker, and none once the
coordinator is shut down. So none is registered after a start that failed, those of the workers that
were started after a resize that failed, and at any time a context is registered as long as a worker
holds it that has not left. -/
theorem registrations_match_pool (library : Library) (engine : Engine) (main : ContextId)
    (poolSize : Nat) (moves : List Move) (w : World) (hmain : main < engine.contexts.length)
    (hfresh : engine.registered = [])
    (h : Run library (World.initial engine main poolSize 0) moves w) :
    (w.isFree 0 = true →
      w.engine.registered.Perm w.poolContexts ∧ w.poolContexts.Nodup ∧
        w.poolContexts.length = w.pool.length ∧
        (w.shutDown = true → w.engine.registered = [])) ∧
    (∀ e, w.result? 0 = some (.opened (.error e)) → w.engine.registered = []) ∧
    (∀ id message, w.result? 0 = some (.replied (.error (.workerStart id message))) →
      w.poolIds = List.range id) ∧
    ∀ (during : List Move) (w' : World) (i : Nat) (worker worker' : Worker),
      Run library w during w' → w.workers[i]? = some worker → w'.workers[i]? = some worker' →
      (worker.context ∈ w'.engine.registered ↔
        worker'.context = worker.context ∧ worker'.place.isGone = false) := by
  have htold {result : HostResult} (hresult : w.result? 0 = some result) :
      w.isFree 0 = true ∧ (HostPlace.free (some result)).Told w.pool w.shutDown := by
    have hplace := World.result?_eq_some_iff.mp hresult
    exact ⟨World.isFree_iff.mpr ⟨_, hplace⟩, h.host_told hplace⟩
  refine ⟨fun hfree => ?_, fun e hresult => ?_, fun id message hresult => ?_,
    fun during w' i worker worker' hlater hworker hworker' => ?_⟩
  · have hsecluded := ((World.Secluded.initial hmain poolSize 0).run h).staff
    have hcomplete := h.sole.complete hfree
    exact ⟨h.registered_perm hmain hfresh hfree, hcomplete.nodup_poolContexts hsecluded,
      hcomplete.length_poolContexts, h.registered_nil hmain hfresh hfree⟩
  · obtain ⟨hfree, hdown⟩ := htold hresult
    exact h.registered_nil hmain hfresh hfree hdown
  · obtain ⟨hfree, hlength⟩ := htold hresult
    have hlength : w.pool.length = id := hlength
    rw [(h.sole.complete hfree).poolIds_eq, hlength]
  · exact h.registered_later hlater hmain hfresh hworker hworker'

/-- The number of workers is to be raised from one to two when only one more context can be had. -/
def soloShort : List Move :=
  List.replicate 4 (.step 0 (.host 0)) ++
    [.setBudget (some 1), .begin 0 (.ask 0 (.resize 2))] ++
    List.replicate 18 (.step 0 (.host 0)) ++ List.replicate 3 (.step 0 (.worker 0)) ++
    List.replicate 10 (.step 0 (.host 0))

/-- The number of the worker that could not be started, if the last call was told so. -/
def HostResult.missing? : HostResult → Option Nat
  | .replied (.error (.workerStart id _)) => some id
  | _ => none

/-- After a resize that failed, the context of the one worker that was started is registered. -/
theorem registrations_match_pool_short : ∃ w, Run soloLibrary soloStart soloShort w ∧
    w.poolIds = [0] ∧ w.engine.registered.length = 1 ∧
    w.engine.registered.Perm w.poolContexts := by
  have hend : (soloStart.follow soloLibrary soloShort).any (fun w =>
      (w.result? 0).bind HostResult.missing? = some 1 && w.engine.registered.length = 1) =
        true := by
    decide +kernel
  obtain ⟨w, hw, hend⟩ := (Option.any_eq_true _ _).mp hend
  rw [Bool.and_eq_true, decide_eq_true_eq, decide_eq_true_eq, Option.bind_eq_some_iff] at hend
  obtain ⟨⟨result, hresult, hmissing⟩, hone⟩ := hend
  obtain ⟨message, rfl⟩ : ∃ message, result = .replied (.error (.workerStart 1 message)) := by
    cases result with
    | replied reply =>
        rcases reply with e | n
        · cases e with
          | workerStart id message =>
              cases hmissing
              exact ⟨message, rfl⟩
          | _ => cases hmissing
        · cases hmissing
    | _ => cases hmissing
  have hrun := run_iff_follow.mpr hw
  obtain ⟨hfree, -, hshort, -⟩ := registrations_match_pool soloLibrary
    (Engine.initial "solo" none).createContext.2 0 1 soloShort w (by decide) rfl hrun
  have hplace := World.result?_eq_some_iff.mp hresult
  exact ⟨w, hrun, hshort 1 message hresult, hone, (hfree (World.isFree_iff.mpr ⟨_, hplace⟩)).1⟩

end ScriptPool
