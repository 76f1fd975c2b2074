import ScriptPool.Proofs.Pool.Ownership

namespace ScriptPool

/-- A step, or a request from the main context that does not ask for another number of workers. -/
def Move.isAskedFrom (main : ContextId) : Move → Bool
  | .step .. => true
  | .begin _ (.ask source r) => source = main && !(r matches .resize _)
  | _ => false

/-- No thread of the host has a call in progress, and no worker executes a task. -/
def World.atRest (w : World) : Bool :=
  w.hosts.all (fun place => place matches .free _) &&
    w.workers.all fun worker => !(worker.place matches .executing ..)

/-- How often the globals of the workers' contexts own a handle. A worker whose thread has ended has
no context any longer. -/
def World.workersOwn (w : World) (i : Identity) : Nat :=
  ((w.workers.filter fun worker => !(worker.place matches .gone)).map fun worker =>
    (w.engine.globals worker.context).owns i).sum

/-- How often a handle is owned by the globals of the main context, the snapshots of pending tasks
and the globals of the workers' contexts. -/
def World.owners (w : World) (i : Identity) : Nat :=
  (w.engine.globals w.main).owns i + w.pendingOwns i + w.workersOwn i

variable {library library₀ : Library} {engine : Engine} {main : ContextId} {poolSize others : Nat}
  {w w' start : World} {moves : List Move} {m : Move} {i : Identity}

theorem World.free_of_atRest (h : w.atRest = true) {place : HostPlace} (hplace : place ∈ w.hosts) :
    ∃ last?, place = .free last? := by
  rw [World.atRest, Bool.and_eq_true, List.all_eq_true] at h
  have hfree := h.1 place hplace
  cases place with
  | free last? => exact ⟨last?, rfl⟩
  | opening | asking | closing | measuring | running => cases hfree

theorem World.idle_of_atRest (h : w.atRest = true) {worker : Worker}
    (hworker : worker ∈ w.workers) : (!(worker.place matches .executing ..)) = true := by
  rw [World.atRest, Bool.and_eq_true, List.all_eq_true, List.all_eq_true] at h
  exact h.2 worker hworker

theorem WorkerPlace.idle {place : WorkerPlace} (h : (!(place matches .executing ..)) = true) :
    place.unwritten = [] ∧ (∀ i, place.owns i = 0) ∧ ∀ g i, place.Backed g i := by
  cases place with
  | executing => cases h
  | beginning | receiving | measuring | comparing | checking | popping | resting | announcing
  | exiting | gone => exact ⟨rfl, fun _ => rfl, fun _ _ => trivial⟩

theorem World.unwritten_of_atRest (h : w.atRest = true) : w.unwritten = [] := by
  have hnothing : ∀ thread, w.unwrittenBy thread = [] := by
    intro thread
    cases thread with
    | host host =>
        cases hhost : w.hosts[host]? with
        | none => simp [World.unwrittenBy, Crew.view, World.crew, hhost]
        | some place =>
            obtain ⟨last?, rfl⟩ := World.free_of_atRest h (List.mem_of_getElem? hhost)
            rw [World.unwrittenBy, World.view_host hhost]
            rfl
    | worker j =>
        cases hworker : w.workers[j]? with
        | none => simp [World.unwrittenBy, Crew.view, World.crew, hworker, WorkerPlace.unwritten]
        | some worker =>
            have hidle := World.idle_of_atRest h (List.mem_of_getElem? hworker)
            rw [World.unwrittenBy, World.view_worker hworker]
            exact (WorkerPlace.idle hidle).1
  rw [World.unwritten]
  cases w.mainHolder? with
  | none => rfl
  | some thread => exact hnothing thread

theorem sum_stations_of_idle {e : Engine} {workers : List Worker}
    (h : ∀ worker ∈ workers, (!(worker.place matches .executing ..)) = true) :
    (workers.map fun worker => e.stationOwns i worker.station).sum =
      ((workers.filter fun worker => !(worker.place matches .gone)).map fun worker =>
        (e.globals worker.context).owns i).sum := by
  induction workers with
  | nil => rfl
  | cons worker workers ih =>
      obtain ⟨hunwritten, howns, -⟩ := WorkerPlace.idle (h worker List.mem_cons_self)
      rw [List.map_cons, List.sum_cons, ih fun worker hworker =>
        h worker (List.mem_cons_of_mem _ hworker), Worker.station, List.filter_cons]
      by_cases hgone : worker.place = .gone
      · simp [hgone, Engine.stationOwns]
      · have hhere : (!(worker.place matches .gone)) = true := by
          cases hplace : worker.place with
          | gone => exact absurd hplace hgone
          | beginning | receiving | measuring | comparing | checking | popping | executing
          | resting | announcing | exiting => rfl
        rw [if_pos hhere, List.map_cons, List.sum_cons, Engine.stationOwns_eq hgone, hunwritten,
          howns, Globals.without_nil, Nat.add_zero]

theorem World.stock_of_atRest (h : w.atRest = true) : w.stock i = w.owners i := by
  have hhosts : (w.hosts.map (HostPlace.owns i)).sum = 0 := by
    rw [List.sum_eq_zero_iff]
    intro n hn
    obtain ⟨place, hplace, rfl⟩ := List.mem_map.mp hn
    obtain ⟨last?, rfl⟩ := World.free_of_atRest h hplace
    rfl
  have hstations : (w.stations.map (w.engine.stationOwns i)).sum = w.workersOwn i := by
    rw [World.stations, List.map_map]
    exact sum_stations_of_idle fun _ => World.idle_of_atRest h
  rw [World.stock, World.mainOwns, World.unwritten_of_atRest h, Globals.without_nil, hhosts,
    hstations, World.owners, Nat.add_zero]

theorem OwnedOnce.of_atRest (hsecluded : w.Secluded) (hlocked : MainLocked w)
    (hrest : w.atRest = true) (hpending : w.queue = []) (howned : w.owners i ≤ 1) :
    OwnedOnce i w := by
  refine ⟨World.stock_of_atRest (i := i) hrest ▸ howned, hsecluded, hlocked, by simp [hpending],
    ?_, ?_⟩
  · intro place hplace
    obtain ⟨last?, rfl⟩ := World.free_of_atRest hrest hplace
    trivial
  · intro station hstation
    obtain ⟨worker, hworker, rfl⟩ := List.mem_map.mp hstation
    exact (WorkerPlace.idle (World.idle_of_atRest hrest hworker)).2.2 _ i

theorem OwnedOnce.begin (h : OwnedOnce i w) {host : Nat} {r : Request}
    (hm : (Move.begin host (.ask w.main r)).isAskedFrom w.main = true)
    (hbegin : w.canBegin host (.ask w.main r) = true) :
    OwnedOnce i (w.begin library host (.ask w.main r)) := by
  obtain ⟨last?, hfree⟩ := World.free_of_canBegin hbegin
  have hlt := (List.getElem?_eq_some_iff.mp hfree).1
  have hresize : ∀ count, r ≠ .resize count := by
    rintro count rfl
    simp [Move.isAskedFrom] at hm
  have hplace : (HostPlace.asking (r.begin w.main)).Asks i w.main ∧
      (HostPlace.asking (r.begin w.main)).owns i = 0 ∧
      (HostPlace.asking (r.begin w.main)).unwritten = [] := by
    cases r with
    | parallel text => exact ⟨⟨rfl, trivial⟩, rfl, rfl⟩
    | join | joinAll => exact ⟨trivial, rfl, rfl⟩
    | acquire id | release id =>
        simp only [Request.begin]
        split
        · exact ⟨trivial, rfl, rfl⟩
        · exact ⟨trivial, rfl, rfl⟩
    | resize count => exact absurd rfl (hresize count)
  obtain ⟨hasks, howns, hwrites⟩ := hplace
  have hopen : (w.begin library host (.ask w.main r)).unwritten = w.unwritten := by
    have hsame : ∀ thread, (w.begin library host (.ask w.main r)).unwrittenBy thread =
        w.unwrittenBy thread := by
      intro thread
      by_cases hthread : thread = .host host
      · rw [hthread, World.unwrittenBy, World.unwrittenBy, World.view_host hfree]
        exact (World.view_placeHost hlt _).trans hwrites
      · exact World.view_placeHost_of_ne hthread
    rw [World.unwritten, World.unwritten]
    exact congrArg (w.mainHolder?.elim []) (funext hsame)
  refine h.moveHost (h.secluded.rehomes (.keep rfl (Nat.le_refl _))) (h.locked.begin hbegin) hfree
    rfl rfl rfl (fun _ _ => rfl) h.queue hasks ?_
  rw [World.mainOwns, hopen]
  exact Nat.add_le_add_left (howns.trans_le (Nat.zero_le _)) _

theorem OwnedOnce.move (h : OwnedOnce i w) (hlibrary : library.OnlyReturns)
    (hover : w.handsOver i = true) (hm : m.isAskedFrom w.main = true)
    (hmove : w.move? library m = some w') : OwnedOnce i w' ∧ w'.main = w.main := by
  cases m with
  | step pick thread =>
      refine ⟨?_, (World.advance_main (h.locked.apt thread) hmove).1.main_eq⟩
      cases thread with
      | host host => exact h.hostStep hmove
      | worker j => exact h.workerStep hlibrary hover hmove
  | begin host call =>
      cases call with
      | ask source r =>
          have hsource : source = w.main := by
            simp only [Move.isAskedFrom, Bool.and_eq_true, decide_eq_true_eq] at hm
            exact hm.1
          subst hsource
          obtain ⟨hbegin, rfl⟩ := World.move?_begin_iff.mp hmove
          exact ⟨h.begin hm hbegin, rfl⟩
      | shutDown | measure | invoke | load => cases hm
  | addContext | setGlobal | openGate | openAllGates | setBudget => cases hm

theorem OwnedOnce.run (h : OwnedOnce i w) (hlibrary : library.OnlyReturns)
    (hmoves : ∀ m ∈ moves, m.isAskedFrom w.main = true)
    (hover : w.throughout library (World.handsOver i) moves = true)
    (hrun : Run library w moves w') : OwnedOnce i w' := by
  induction hrun using Run.head_induction with
  | nil => exact h
  | @cons w v m moves hv _ ih =>
      obtain ⟨hnext, hmain⟩ :=
        h.move hlibrary (World.throughout_head hover) (hmoves m List.mem_cons_self) hv
      refine ih hnext ?_ ?_
      · rw [hmain]
        exact fun m hm => hmoves m (List.mem_cons_of_mem _ hm)
      · exact (Run.start.move m hv).throughout hover

/-- When all results of a task are written, the names that were written own nothing in the worker's
context, and in the main context they own what was delivered. -/
theorem Run.writeAll (library : Library) {j : Nat} {worker : Worker} {once : Bool} {s : Submission}
    {outcome : Invocation} {names : List String} {results : List Value} (hs : w.Secluded)
    (hworker : w.workers[j]? = some worker)
    (hplace : worker.place = .executing once s (.writing outcome names results)) :
    ∃ w', Run library w (List.replicate names.length (.step 0 (.worker j))) w' ∧
      (w'.engine.globals worker.context).owns i =
        ((w.engine.globals worker.context).without names).owns i ∧
      (w'.engine.globals w.main).owns i =
        ((w.engine.globals w.main).without names).owns i + delivered i names results := by
  induction names generalizing w worker results with
  | nil => exact ⟨w, .start, by rw [Globals.without_nil], by rw [Globals.without_nil]; rfl⟩
  | cons name names ih =>
      have hj := World.stations_getElem? hworker
      obtain ⟨hknown, hne⟩ := hs.station hj
      have hmade : w.main < w.engine.contexts.length := hs.known _ List.mem_cons_self
      have hadv : w.advance library 0 (.worker j) = some ({ w with
          engine := writeResult worker.context w.main name (firstResult results)
            w.engine }.placeWorker j (.executing once s (.writing outcome names results.tail))) :=
        by simp [World.advance, hworker, workerStep, hplace, taskStep]
      have hworker' : ({ w with
          engine := writeResult worker.context w.main name (firstResult results)
            w.engine }.placeWorker j
              (.executing once s (.writing outcome names results.tail))).workers[j]? = some
          { worker with place := .executing once s (.writing outcome names results.tail) } := by
        simp [World.placeWorker, World.modifyWorker, hworker]
      obtain ⟨w', hrun, hprivate, hpublic⟩ :=
        ih (hs.rehomes (World.advance_rehomes hadv)) hworker' rfl
      refine ⟨w', (Run.start.move (.step 0 (.worker j)) hadv).trans hrun, hprivate.trans ?_,
        hpublic.trans ?_⟩
      · exact owns_writeResult_private hne hknown name (firstResult results) names i
      · have hmain := owns_writeResult_main hmade hne name (firstResult results) names i
        rw [delivered, ← Nat.add_assoc, ← hmain]
        rfl

theorem Run.keepsBack {j : Nat} {worker : Worker} (hs : w.Secluded)
    (hworker : w.workers[j]? = some worker) (hfree : w.mainHolder? = none)
    (hkeeps : worker.place.keepsBack (w.engine.globals worker.context) i = true) :
    ∃ n w', Run library w (List.replicate n (.step 0 (.worker j))) w' ∧
      2 ≤ (w'.engine.globals worker.context).owns i + (w'.engine.globals w.main).owns i := by
  obtain ⟨once, s, outcome, hplace⟩ : ∃ once s outcome,
      worker.place = .executing once s (.lockingMain outcome) := by
    cases hplace : worker.place with
    | executing once s place =>
        cases place with
        | lockingMain outcome => exact ⟨once, s, outcome, rfl⟩
        | _ =>
            rw [hplace] at hkeeps
            cases hkeeps
    | _ =>
        rw [hplace] at hkeeps
        cases hkeeps
  rw [hplace] at hkeeps
  simp only [WorkerPlace.keepsBack, Bool.and_eq_true, decide_eq_true_eq] at hkeeps
  obtain ⟨hgiven, hkept⟩ := hkeeps
  have hhealthy : outcome.isHealthy = true := by
    cases outcome with
    | errored e =>
        rw [Invocation.results, delivered_of_results (fun _ hv => absurd hv List.not_mem_nil)]
          at hgiven
        exact absurd hgiven (lt_irrefl 0)
    | completed | suspended => rfl
  have hadv : w.advance library 0 (.worker j) = some
      ({ w with mainHolder? := some (.worker j) }.placeWorker j
        (.executing once s (.writing outcome s.task.call.returns outcome.results))) := by
    simp [World.advance, hworker, workerStep, hplace, taskStep, World.lockMain, hfree, hhealthy]
  have hworker' : ({ w with mainHolder? := some (.worker j) }.placeWorker j
      (.executing once s (.writing outcome s.task.call.returns outcome.results))).workers[j]? =
        some { worker with
          place := .executing once s (.writing outcome s.task.call.returns outcome.results) } := by
    simp [World.placeWorker, World.modifyWorker, hworker]
  obtain ⟨w', hrun, hprivate, hpublic⟩ :=
    Run.writeAll (i := i) library (hs.rehomes (World.advance_rehomes hadv)) hworker' rfl
  refine ⟨s.task.call.returns.length + 1, w',
    (Run.start.move (.step 0 (.worker j)) hadv).trans hrun, ?_⟩
  have hprivate : (w'.engine.globals worker.context).owns i =
      ((w.engine.globals worker.context).without s.task.call.returns).owns i := hprivate
  have hpublic : (w'.engine.globals w.main).owns i =
      ((w.engine.globals w.main).without s.task.call.returns).owns i +
        delivered i s.task.call.returns outcome.results := hpublic
  omega

/-- A handle has one owner, unless a worker keeps back what it hands back.

A coordinator is at rest without pending tasks, and the globals of the main context and of the
workers' contexts own the handle at most once. Tasks are submitted from the main context, and their
functions only return values built from their arguments. As long as no worker is about to hand back
the handle and to go on owning it under a name that is not written, or to hand it back twice, the
handle is owned at most once, by the main context, a pending task or a worker's context, whenever
nothing is in progress. A worker that is about to keep it back and finds the main context unlocked
leaves the handle owned twice. -/
theorem handle_owned_once (hmain : main < engine.contexts.length)
    (hstart : Reachable library₀ (World.initial engine main poolSize others) start)
    (hrest : start.atRest = true) (hpending : start.queue = []) (howned : start.owners i ≤ 1)
    (hlibrary : library.OnlyReturns) (hmoves : ∀ m ∈ moves, m.isAskedFrom start.main = true)
    (hrun : Run library start moves w) :
    (start.throughout library (World.handsOver i) moves = true → w.atRest = true →
      w.owners i ≤ 1) ∧
    ∀ j worker, w.workers[j]? = some worker → w.mainHolder? = none →
      worker.place.keepsBack (w.engine.globals worker.context) i = true →
      ∃ n w', Run library w (List.replicate n (.step 0 (.worker j))) w' ∧
        2 ≤ (w'.engine.globals worker.context).owns i + (w'.engine.globals w.main).owns i := by
  obtain ⟨before, hbefore⟩ := hstart
  have hsecluded := (World.Secluded.initial hmain poolSize others).run hbefore
  have hlocked := (MainLocked.initial engine main poolSize others).run hbefore
  constructor
  · intro hover hend
    have hstarts := OwnedOnce.of_atRest hsecluded hlocked hrest hpending howned
    rw [← World.stock_of_atRest hend]
    exact (hstarts.run hlibrary hmoves hover hrun).stock
  · intro j worker hworker hfree hkeeps
    exact Run.keepsBack (hsecluded.run hrun) hworker hfree hkeeps

/-- A function that returns its arguments. -/
def returningLibrary : Library := ⟨[("id", fun _ arguments => .done arguments)]⟩

theorem returningLibrary_onlyReturns : returningLibrary.OnlyReturns := by
  intro name f hf arguments
  simp only [returningLibrary, Library.find?, List.lookup_cons, List.lookup_nil] at hf
  split at hf
  · cases hf
    exact fun i hnone => hnone
  · cases hf

def boxIdentity : Identity := ⟨.supplied, 0⟩

/-- A main context that owns a handle. -/
def boxEngine : Engine :=
  (Engine.initial "box" none).createContext.2.set 0 "x"
    (.handle ⟨boxIdentity, .foreign "box" none, .owned⟩)

/-- A coordinator with one worker is started. -/
def boxOpened : Option World :=
  (World.initial boxEngine 0 1 0).follow returningLibrary (List.replicate 4 (.step 0 (.host 0)))

/-- A call is submitted, and the worker takes some steps. -/
def boxMoves (text : String) (steps : Nat) : List Move :=
  .begin 0 (.ask 0 (.parallel text)) :: List.replicate 14 (.step 0 (.host 0)) ++
    List.replicate steps (.step 0 (.worker 0))

/-- A handle that is returned under its own name stays with one owner, and one that is returned
under another name is going to have two. -/
theorem handle_owned_once_box : ∃ start w v v' : World, ∃ n : Nat,
    (Run returningLibrary start (boxMoves "x = id(x)" 20) w ∧ w.owners boxIdentity ≤ 1) ∧
    Run returningLibrary start (boxMoves "r = id(x)" 10) v ∧
      Run returningLibrary v (List.replicate n (.step 0 (.worker 0))) v' ∧
      2 ≤ (v'.engine.globals 1).owns boxIdentity + (v'.engine.globals v.main).owns boxIdentity := by
  have hopened : boxOpened.any (fun start => start.atRest && start.queue.isEmpty &&
      decide (start.owners boxIdentity ≤ 1) && decide (start.main = 0) &&
      start.throughout returningLibrary (World.handsOver boxIdentity) (boxMoves "x = id(x)" 20) &&
      (start.follow returningLibrary (boxMoves "x = id(x)" 20)).any World.atRest &&
      (start.follow returningLibrary (boxMoves "r = id(x)" 10)).any fun v =>
        v.mainHolder?.isNone && v.workers[0]?.any fun worker => decide (worker.context = 1) &&
          worker.place.keepsBack (v.engine.globals worker.context) boxIdentity) = true := by
    decide +kernel
  obtain ⟨start, hstart, hopened⟩ := (Option.any_eq_true _ _).mp hopened
  simp only [Bool.and_eq_true, decide_eq_true_eq, List.isEmpty_iff, Option.any_eq_true,
    Option.isNone_iff_eq_none] at hopened
  obtain ⟨⟨⟨⟨⟨⟨hrest, hqueue⟩, howned⟩, hzero⟩, hover⟩, w, hw, hend⟩, v, hv, hfree, worker, hworker,
    hcontext, hkeeps⟩ := hopened
  have hmoves : ∀ text steps, ∀ m ∈ boxMoves text steps, m.isAskedFrom start.main = true := by
    intro text steps m hm
    rw [hzero]
    simp only [boxMoves, List.cons_append, List.mem_cons, List.mem_append, List.mem_replicate] at hm
    rcases hm with rfl | ⟨-, rfl⟩ | ⟨-, rfl⟩
    · rfl
    · rfl
    · rfl
  have hmain : 0 < boxEngine.contexts.length := by decide
  have hreach : Reachable returningLibrary (World.initial boxEngine 0 1 0) start :=
    ⟨_, run_iff_follow.mpr hstart⟩
  have hrun := run_iff_follow.mpr hw
  have hrun' := run_iff_follow.mpr hv
  have hkept := (handle_owned_once hmain hreach hrest hqueue howned returningLibrary_onlyReturns
    (hmoves _ _) hrun).1 hover hend
  obtain ⟨n, v', hwrites, htwice⟩ := (handle_owned_once hmain hreach hrest hqueue howned
    returningLibrary_onlyReturns (hmoves _ _) hrun').2 0 worker hworker hfree hkeeps
  rw [hcontext] at htwice
  exact ⟨start, w, v, v', n, ⟨hrun, hkept⟩, hrun', hwrites, htwice⟩

/-- After a handle was returned under another name, everything is at rest, and both the main context
and the context of the worker own it. -/
theorem handle_owned_twice : ∃ start w : World,
    Reachable returningLibrary (World.initial boxEngine 0 1 0) start ∧ start.atRest = true ∧
      start.queue = [] ∧ start.owners boxIdentity ≤ 1 ∧
      Run returningLibrary start (boxMoves "r = id(x)" 20) w ∧ w.atRest = true ∧
      (w.engine.globals 0).owns boxIdentity = 1 ∧ (w.engine.globals 1).owns boxIdentity = 1 ∧
      w.workers.map (·.context) = [1] := by
  have hopened : boxOpened.any (fun start => start.atRest && start.queue.isEmpty &&
      decide (start.owners boxIdentity ≤ 1) &&
      (start.follow returningLibrary (boxMoves "r = id(x)" 20)).any fun w => w.atRest &&
        decide ((w.engine.globals 0).owns boxIdentity = 1) &&
        decide ((w.engine.globals 1).owns boxIdentity = 1) &&
        decide (w.workers.map (·.context) = [1])) = true := by
    decide +kernel
  obtain ⟨start, hstart, hopened⟩ := (Option.any_eq_true _ _).mp hopened
  simp only [Bool.and_eq_true, decide_eq_true_eq, List.isEmpty_iff, Option.any_eq_true] at hopened
  obtain ⟨⟨⟨hrest, hqueue⟩, howned⟩, w, hw, ⟨⟨hend, hpublic⟩, hprivate⟩, hcontexts⟩ := hopened
  exact ⟨start, w, ⟨_, run_iff_follow.mpr hstart⟩, hrest, hqueue, howned, run_iff_follow.mpr hw,
    hend, hpublic, hprivate, hcontexts⟩

end ScriptPool
