import ScriptPool.Proofs.Pool.Roster
import ScriptPool.Proofs.Pool.Touch

namespace ScriptPool

variable {library : Library} {engine : Engine} {main : ContextId} {poolSize others : Nat}
  {u v w w' : World} {m : Move} {moves : List Move} {host pick i : Nat} {me thread : ThreadId}
  {hand hand' : Hand} {c c₁ : Crew} {place : HostPlace}

/-- A worker shows the function of the task that it executes, and nothing else. -/
def Hand.Candid (hand : Hand) : Prop :=
  hand.current? = hand.place.shown?.map Submission.function

theorem Crew.Own.candid (h : Crew.Own i c hand c₁ hand') (hc : hand.Candid) : hand'.Candid := by
  unfold Hand.Candid at hc ⊢
  cases h with
  | move p hp => rw [hp.shown?_eq.1, hc]
  | receive command rest hplace =>
      cases command with
      | run | stop =>
          rw [hc, hplace]
          rfl
  | leave once hplace =>
      rcases hplace with h | h
      · rw [hc, h]
        rfl
      · rw [hc, h]
        rfl
  | report once s hplace =>
      cases once with
      | false | true =>
          rw [hc, hplace]
          rfl
  | publish | clear => rfl
  | pop _ _ _ hplace | unlockQueue _ _ hplace | fail _ _ _ hplace | complete _ _ _ hplace
  | rest hplace | announce hplace => rw [hc, hplace]; rfl

/-- Each worker shows what it executes. -/
def Crew.Candid (c : Crew) : Prop :=
  ∀ (i : Nat) (hand : Hand), c.hands[i]? = some hand → hand.Candid

theorem Crew.Candid.stride (hc : w.scene.Candid) (h : Stride me w w') : w'.scene.Candid := by
  intro i hand' hi
  cases h.touched hi with
  | same h => exact hc i hand' h
  | raised h _ _ _ _ heq | started h _ _ _ heq | stopped h _ _ heq =>
      have hhand := hc i _ h
      rw [heq]
      exact hhand
  | hired _ _ _ heq => rw [heq]; rfl
  | own h _ _ _ hown => exact hown.candid (hc i _ h)

theorem Run.candid (h : Run library (World.initial engine main poolSize others) moves w) :
    w.scene.Candid :=
  h.keeps (P := fun c _ => c.Candid) (fun _ _ hi => by simp at hi) fun _ _ _ hstride hc =>
    hc.stride hstride

theorem WorkerPlace.isBusy_of_shown? {p : WorkerPlace} {s : Submission} (h : p.shown? = some s) :
    p.isBusy = true := by
  cases p with
  | executing => rfl
  | _ => cases h

theorem Run.running_of_current? {worker : Worker} {name : String}
    (h : Run library (World.initial engine main poolSize others) moves w)
    (hworker : w.workers[i]? = some worker) (hname : worker.current? = some name) :
    worker.running = true := by
  have hhand := World.scene_hands_getElem? hworker
  have hcandid : worker.current? = _ := h.candid i _ hhand
  rw [hname] at hcandid
  obtain ⟨s, hs, -⟩ := Option.map_eq_some_iff.mp hcandid.symm
  exact ((h.disciplined.sound hhand).busy (WorkerPlace.isBusy_of_shown? hs)).1

theorem Crew.Own.running_le (h : Crew.Own i c hand c₁ hand') (hr : hand'.running = true) :
    hand.running = true := by
  cases h with
  | rest => cases hr
  | move | receive | leave | pop | publish | unlockQueue | fail | complete | clear | report
  | announce => exact hr

theorem World.isRunning_eq_scene (w : World) (i : Nat) :
    w.isRunning i = w.scene.hands[i]?.any (·.running) := by
  rw [← World.isRunning_crew, ← Crew.isRunning_scene]
  rfl

theorem World.move?_raises (hl : Locked w.scene w.errand) (h : w.move? library m = some w')
    (hdown : w.isRunning i = false) (hup : w'.isRunning i = true) :
    ∃ pick thread, m = .step pick thread ∧ w.poolHolder? = some thread := by
  rw [World.isRunning_eq_scene] at hdown hup
  rcases World.move?_stride h with ⟨pick, thread, rfl, -, hstride⟩ | hstir
  · obtain ⟨hand', hhand', hrunning⟩ := (Option.any_eq_true _ _).mp hup
    refine ⟨pick, thread, rfl, ?_⟩
    have hstopped {hand : Hand} (h : w.scene.hands[i]? = some hand) : ¬hand.running = true := by
      rw [h] at hdown
      exact Bool.eq_false_iff.mp hdown
    cases hstride.touched hhand' with
    | raised _ _ he => exact hl thread (by rw [he]; rfl)
    | same h => exact absurd hrunning (hstopped h)
    | started h _ _ _ heq | stopped h _ _ heq =>
        subst heq
        exact (hstopped h hrunning).elim
    | hired _ _ _ heq =>
        subst heq
        cases hrunning
    | own h _ _ _ hown => exact absurd (hown.running_le hrunning) (hstopped h)
  · rw [hstir.scene_eq] at hup
    rw [hup] at hdown
    cases hdown

theorem World.move?_locked (hl : Locked w.scene w.errand) (h : w.move? library m = some w')
    (hlocks : (w.errand thread).locks = true) (hne : ∀ pick, m ≠ .step pick thread) :
    w'.pool = w.pool ∧ ∀ i, w'.isRunning i = true → w.isRunning i = true := by
  refine ⟨?_, fun i hup => ?_⟩
  · rcases World.move?_stride h with ⟨pick, other, rfl, -, hstride⟩ | hstir
    · exact hl.pool_eq hstride (fun heq => hne pick (heq ▸ rfl)) hlocks
    · exact congrArg Crew.pool hstir.scene_eq
  · by_contra hdown
    obtain ⟨pick, other, rfl, hholder⟩ :=
      World.move?_raises hl h (Bool.eq_false_iff.mpr hdown) hup
    have hthread : w.poolHolder? = some thread := hl thread hlocks
    rw [hholder] at hthread
    exact hne pick (congrArg _ (Option.some.inj hthread))

/-- What a thread that measures reads of the workers in one step. -/
inductive Reading where
  /-- The workers in the pool, when it is locked. -/
  | pool (serials : List Nat)
  | flag (serial : Nat) (running : Bool)
  | function (serial : Nat) (name? : Option String)

def MeasurePlace.reading? (w : World) : MeasurePlace → Option Reading
  | .locking => some (.pool w.pool)
  | .counting (serial :: _) _ => some (.flag serial (w.isRunning serial))
  | .naming (serial :: _) _ => some (.function serial (w.workers[serial]?.bind (·.current?)))
  | _ => none

/-- What the next step of a thread reads of the workers, if it is the thread `host` of the host. -/
def World.reading? (host : Nat) (w : World) (thread : ThreadId) : Option Reading :=
  match w.host? host with
  | some (.measuring place) => if thread = .host host then place.reading? w else none
  | _ => none

/-- What a thread of the host reads of the workers along some moves. -/
def World.readings (library : Library) (host : Nat) (w : World) (moves : List Move) :
    List Reading :=
  w.notes library (World.reading? host) moves

/-- A survey of the workers: who was in the pool, whose flags were read with what result, and whose
functions. -/
structure Survey where
  pool : List Nat
  flags : List (Nat × Bool)
  functions : List (Nat × Option String)

namespace Survey

/-- The readings of a survey, in order. -/
def readings (s : Survey) : List Reading :=
  .pool s.pool :: (s.flags.map fun flag => .flag flag.1 flag.2) ++
    s.functions.map fun function => .function function.1 function.2

/-- Both readings are of the same worker, and if it shows a function its flag is raised. -/
def Agree (flag : Nat × Bool) (function : Nat × Option String) : Prop :=
  flag.1 = function.1 ∧ (function.2.isSome = true → flag.2 = true)

/-- The survey is one of the whole pool, its two passes agree, and the metrics say what was read. -/
structure Accounts (s : Survey) (found : Metrics) : Prop where
  whole : s.flags.map Prod.fst = s.pool
  agree : List.Forall₂ Agree s.flags s.functions
  poolSize : found.poolSize = s.pool.length
  busy : found.busyWorkers = s.flags.countP Prod.snd
  executing : found.executing = s.functions.filterMap Prod.snd

theorem Accounts.of_same {s : Survey} {found found' : Metrics} (h : s.Accounts found)
    (hsize : found'.poolSize = found.poolSize) (hbusy : found'.busyWorkers = found.busyWorkers)
    (hexecuting : found'.executing = found.executing) : s.Accounts found' where
  whole := h.whole
  agree := h.agree
  poolSize := hsize.trans h.poolSize
  busy := hbusy.trans h.busy
  executing := hexecuting.trans h.executing

theorem length_functions_le {flags : List (Nat × Bool)} {functions : List (Nat × Option String)}
    (h : List.Forall₂ Agree flags functions) :
    (functions.filterMap Prod.snd).length ≤ flags.countP Prod.snd := by
  induction h with
  | nil => exact Nat.le_refl 0
  | @cons flag function flags functions hagree _ ih =>
      obtain ⟨-, hraised⟩ := hagree
      cases hfunction : function.2 with
      | none =>
          rw [List.filterMap_cons_none hfunction, List.countP_cons]
          omega
      | some name =>
          rw [List.filterMap_cons_some hfunction, List.length_cons,
            List.countP_cons_of_pos (hraised (by rw [hfunction]; rfl))]
          omega

theorem Accounts.length_executing_le {s : Survey} {found : Metrics} (h : s.Accounts found) :
    found.executing.length ≤ found.busyWorkers := by
  rw [h.executing, h.busy]
  exact length_functions_le h.agree

theorem Accounts.busyWorkers_le {s : Survey} {found : Metrics} (h : s.Accounts found) :
    found.busyWorkers ≤ found.poolSize := by
  rw [h.busy, h.poolSize, ← h.whole, List.length_map]
  exact List.countP_le_length

end Survey

variable {readings : List Reading}

/-- Whoever was read with the flag down still has it down. -/
def Backed (w : World) (flags : List (Nat × Bool)) : Prop :=
  ∀ flag ∈ flags, w.isRunning flag.1 = true → flag.2 = true

theorem Backed.mono {flags : List (Nat × Bool)} (h : Backed w flags)
    (hfalls : ∀ i, w'.isRunning i = true → w.isRunning i = true) : Backed w' flags :=
  fun flag hflag hrunning => h flag hflag (hfalls flag.1 hrunning)

/-- What has been read before a place. -/
def MeasurePlace.Surveys (w : World) (readings : List Reading) : MeasurePlace → Prop
  | .locking => readings = []
  | .counting rest busy => ∃ flags, readings = Survey.readings ⟨w.pool, flags, []⟩ ∧
      flags.map Prod.fst ++ rest = w.pool ∧ busy = flags.countP Prod.snd ∧ Backed w flags
  | .naming rest found => ∃ done todo functions,
      readings = Survey.readings ⟨w.pool, done ++ todo, functions⟩ ∧
      done.map Prod.fst ++ rest = w.pool ∧ todo.map Prod.fst = rest ∧
      List.Forall₂ Survey.Agree done functions ∧ found.poolSize = w.pool.length ∧
      found.busyWorkers = (done ++ todo).countP Prod.snd ∧
      found.executing = functions.filterMap Prod.snd ∧ Backed w todo
  | .unlocking found | .queue found | .sections found | .submitted found | .completed found
  | .failed found | .flag found => ∃ s : Survey, readings = s.readings ∧ s.Accounts found

def HostPlace.Surveys (w : World) (readings : List Reading) : HostPlace → Prop
  | .measuring place => place.Surveys w readings
  | .free (some (.measured found)) => ∃ s : Survey, readings = s.readings ∧ s.Accounts found
  | _ => False

theorem MeasurePlace.Surveys.mono {place : MeasurePlace} (h : place.Surveys w readings)
    (hpool : place.errand.locks = true → w'.pool = w.pool ∧
      ∀ i, w'.isRunning i = true → w.isRunning i = true) : place.Surveys w' readings := by
  cases place with
  | counting rest busy =>
      obtain ⟨hpool, hfalls⟩ := hpool rfl
      obtain ⟨flags, hreadings, hwhole, hbusy, hbacked⟩ := h
      exact ⟨flags, hpool ▸ hreadings, hpool ▸ hwhole, hbusy, hbacked.mono hfalls⟩
  | naming rest found =>
      obtain ⟨hpool, hfalls⟩ := hpool rfl
      obtain ⟨done, todo, functions, hreadings, hwhole, htodo, hagree, hsize, hbusy, hexecuting,
        hbacked⟩ := h
      exact ⟨done, todo, functions, hpool ▸ hreadings, hpool ▸ hwhole, htodo, hagree, hpool ▸ hsize,
        hbusy, hexecuting, hbacked.mono hfalls⟩
  | locking | unlocking | queue | sections | submitted | completed | failed | flag => exact h

theorem Survey.readings_flag (pool : List Nat) (flags : List (Nat × Bool)) (serial : Nat)
    (running : Bool) : Survey.readings ⟨pool, flags ++ [(serial, running)], []⟩ =
      Survey.readings ⟨pool, flags, []⟩ ++ [.flag serial running] := by
  simp [readings]

theorem Survey.readings_function (pool : List Nat) (flags : List (Nat × Bool))
    (functions : List (Nat × Option String)) (serial : Nat) (name? : Option String) :
    Survey.readings ⟨pool, flags, functions ++ [(serial, name?)]⟩ =
      Survey.readings ⟨pool, flags, functions⟩ ++ [.function serial name?] := by
  simp [readings]

/-- What has been read when a step of measuring is done. -/
def Stage.Surveys (w : World) (readings : List Reading) : Stage MeasurePlace Metrics → Prop
  | .going place => place.Surveys w readings
  | .over found => ∃ s : Survey, readings = s.readings ∧ s.Accounts found

theorem measureStep_surveys {place : MeasurePlace} {stage : Stage MeasurePlace Metrics}
    (hplace : place.Surveys w readings)
    (hshown : ∀ (i : Nat) (worker : Worker) (name : String), w.workers[i]? = some worker →
      worker.current? = some name → worker.running = true)
    (h : measureStep me w place = some (v, stage)) :
    stage.Surveys v (readings ++ (place.reading? w).toList) := by
  cases place with
  | locking =>
      simp only [measureStep, Option.map_eq_some_iff, World.lockPool_eq_some_iff, Prod.mk.injEq] at h
      obtain ⟨u, ⟨-, rfl⟩, rfl, rfl⟩ := h
      obtain rfl : readings = [] := hplace
      exact ⟨[], rfl, rfl, rfl, fun _ hflag => absurd hflag List.not_mem_nil⟩
  | counting rest busy =>
      obtain ⟨flags, rfl, hwhole, rfl, hbacked⟩ := hplace
      cases rest with
      | nil =>
          cases h
          rw [List.append_nil] at hwhole
          exact ⟨[], flags, [], by simp [MeasurePlace.reading?], rfl, hwhole, .nil, rfl, rfl, rfl,
            hbacked⟩
      | cons serial rest =>
          cases h
          refine ⟨flags ++ [(serial, v.isRunning serial)], ?_, ?_, ?_, ?_⟩
          · exact (Survey.readings_flag _ _ _ _).symm
          · rw [List.map_append, List.append_assoc]
            exact hwhole
          · rw [List.countP_append, List.countP_singleton]
            split
            · rfl
            · rfl
          · intro flag hflag
            rcases List.mem_append.mp hflag with hflag | hflag
            · exact hbacked flag hflag
            · rw [List.mem_singleton.mp hflag]
              exact id
  | naming rest found =>
      obtain ⟨done, todo, functions, rfl, hwhole, htodo, hagree, hsize, hbusy, hexecuting,
        hbacked⟩ := hplace
      cases rest with
      | nil =>
          cases h
          obtain rfl : todo = [] := List.map_eq_nil_iff.mp htodo
          simp only [List.append_nil] at hbusy hwhole
          exact ⟨⟨v.pool, done, functions⟩, by simp [MeasurePlace.reading?],
            hwhole, hagree, hsize, hbusy, hexecuting⟩
      | cons serial rest =>
          cases h
          cases todo with
          | nil => cases htodo
          | cons flag todo =>
              obtain ⟨rfl, hrest⟩ := List.cons.inj htodo
              refine ⟨done ++ [flag], todo,
                functions ++ [(flag.1, v.workers[flag.1]?.bind (·.current?))], ?_, ?_, hrest, ?_, hsize,
                ?_, ?_, fun other hother => hbacked other (List.mem_cons_of_mem _ hother)⟩
              · rw [List.append_assoc]
                exact (Survey.readings_function _ _ _ _ _).symm
              · rw [List.map_append, List.append_assoc]
                exact hwhole
              · refine List.rel_append hagree (.cons ⟨rfl, fun hsome => ?_⟩ .nil)
                -- whoever shows a function now is running, and was already read as running
                obtain ⟨name, hname⟩ := Option.isSome_iff_exists.mp hsome
                obtain ⟨worker, hworker, hcurrent⟩ := Option.bind_eq_some_iff.mp hname
                refine hbacked flag List.mem_cons_self ?_
                rw [World.isRunning, hworker, Option.any_some]
                exact hshown _ worker name hworker hcurrent
              · rw [List.append_assoc]
                exact hbusy
              · rw [List.filterMap_append, ← hexecuting]
                cases v.workers[flag.1]?.bind (·.current?) with
                | none | some => rfl
  | queue found =>
      simp only [measureStep, World.onQueue_eq_some_iff, Prod.mk.injEq] at h
      obtain ⟨-, rfl, rfl⟩ := h
      obtain ⟨s, rfl, haccounts⟩ := hplace
      exact ⟨s, List.append_nil _, haccounts.of_same rfl rfl rfl⟩
  | unlocking found | sections found | submitted found | completed found | failed found
  | flag found =>
      cases h
      obtain ⟨s, rfl, haccounts⟩ := hplace
      exact ⟨s, List.append_nil _, haccounts.of_same rfl rfl rfl⟩

theorem HostPlace.Surveys.mono (h : place.Surveys w readings)
    (hpool : place.errand.locks = true → w'.pool = w.pool ∧
      ∀ i, w'.isRunning i = true → w.isRunning i = true) : place.Surveys w' readings := by
  cases place with
  | measuring place => exact MeasurePlace.Surveys.mono h hpool
  | free last? =>
      rcases last? with _ | result
      · exact h
      · cases result with
        | opened | replied | closed | measured | ended => exact h
  | opening | asking | closing | running => exact h

theorem hostStep_surveys (hhost : w.hosts[host]? = some place) (hplace : place.Surveys w readings)
    (hshown : ∀ (i : Nat) (worker : Worker) (name : String), w.workers[i]? = some worker →
      worker.current? = some name → worker.running = true)
    (h : hostStep library pick host place w = some w') :
    ∃ place', w'.hosts[host]? = some place' ∧
      place'.Surveys w' (readings ++ (World.reading? host w (.host host)).toList) := by
  cases place with
  | measuring place =>
      simp only [hostStep, Option.map_eq_some_iff] at h
      obtain ⟨⟨v, stage⟩, hstep, rfl⟩ := h
      have hhosts : v.hosts = w.hosts := (measureStep_crew hstep).hosts_eq
      have hlt : host < v.hosts.length := hhosts ▸ (List.getElem?_eq_some_iff.mp hhost).1
      have hreading : World.reading? host w (.host host) = place.reading? w := by
        simp only [World.reading?, World.host?, hhost, if_pos]
      have hstage := measureStep_surveys hplace hshown hstep
      rw [hreading]
      refine ⟨_, List.getElem?_set_self hlt, ?_⟩
      cases stage with
      | going place' => exact MeasurePlace.Surveys.mono hstage fun _ => ⟨rfl, fun _ h => h⟩
      | «over» found => exact hstage
  | free => cases h
  | opening | asking | closing | running => cases hplace

theorem World.move?_host_of_ne (h : w.move? library m = some w')
    (hbegin : ∀ call, m ≠ .begin host call) (hstep : ∀ pick, m ≠ .step pick (.host host)) :
    w'.hosts[host]? = w.hosts[host]? := by
  cases m with
  | step pick thread =>
      have hne : .host host ≠ thread := fun heq => hstep pick (heq ▸ rfl)
      exact (World.advance_stride h).host_of_ne hne
  | begin host' call =>
      obtain ⟨-, rfl⟩ := World.move?_begin_iff.mp h
      have hne : host' ≠ host := fun heq => hbegin call (heq ▸ rfl)
      exact List.getElem?_set_ne hne
  | setGlobal context name value =>
      obtain ⟨-, rfl⟩ := World.move?_setGlobal_iff.mp h
      rfl
  | addContext | openGate | openAllGates | setBudget =>
      cases h
      rfl

theorem World.move?_surveys {before : List Move}
    (hw : Run library (World.initial engine main poolSize others) before w)
    (h : w.move? library m = some w') (hbegin : ∀ call, m ≠ .begin host call)
    (hhost : w.hosts[host]? = some place) (hplace : place.Surveys w readings) :
    ∃ place', w'.hosts[host]? = some place' ∧
      place'.Surveys w' (readings ++ (m.thread?.bind (World.reading? host w)).toList) := by
  by_cases hstep : ∃ pick, m = .step pick (.host host)
  · obtain ⟨pick, rfl⟩ := hstep
    simp only [World.move?, World.advance, World.host?, hhost, Option.bind_some] at h
    exact hostStep_surveys hhost hplace (fun _ _ _ => hw.running_of_current?) h
  · have hother (pick : Nat) : m ≠ .step pick (.host host) := fun heq => hstep ⟨pick, heq⟩
    have hreading : m.thread?.bind (World.reading? host w) = none := by
      cases m with
      | step pick thread =>
          have hthread : thread ≠ .host host := fun heq => hother pick (heq ▸ rfl)
          simp only [Move.thread?, Option.bind_some, World.reading?, if_neg hthread]
          split
          · rfl
          · rfl
      | begin | addContext | setGlobal | openGate | openAllGates | setBudget => rfl
    have herrand : w.errand (.host host) = place.errand := by
      rw [World.errand_eq_view, World.view_host hhost]
      rfl
    rw [hreading, Option.toList_none, List.append_nil, World.move?_host_of_ne h hbegin hother]
    refine ⟨place, hhost, hplace.mono fun hlocks => ?_⟩
    exact World.move?_locked hw.disciplined.locked h (herrand ▸ hlocks) hother

theorem Run.surveys {before : List Move}
    (hw : Run library (World.initial engine main poolSize others) before w)
    (h : Run library w moves w') (hbegin : ∀ call, .begin host call ∉ moves)
    (hhost : w.hosts[host]? = some place) (hplace : place.Surveys w readings) :
    ∃ place', w'.hosts[host]? = some place' ∧
      place'.Surveys w' (readings ++ w.readings library host moves) := by
  induction h using Run.head_induction generalizing before place readings with
  | nil => exact ⟨place, hhost, by rwa [World.readings, World.notes, List.append_nil]⟩
  | @cons w v m moves hv _ ih =>
      have hhead : ∀ call, m ≠ .begin host call := by
        rintro call rfl
        exact hbegin call List.mem_cons_self
      obtain ⟨place', hhost', hplace'⟩ := World.move?_surveys hw hv hhead hhost hplace
      rw [World.readings, World.notes_cons hv, ← List.append_assoc]
      exact ih (hw.move m hv) (fun call hmem => hbegin call (List.mem_cons_of_mem _ hmem)) hhost'
        hplace'

/-- Metrics are consistent while workers run.

Whatever the other threads do between the beginning of a call that measures and its end, the call reads
the flags of all workers in the pool at the moment when it locked the pool, and then their functions; it
reports as many busy workers as flags were raised and the functions that were shown, and whoever showed a
function was counted as busy. So there are no more functions than busy workers, and no more of these than
workers. At any time a worker shows a function only while its flag is raised, and its flag is raised only
by a thread that has the pool locked. -/
theorem metrics_consistent (library : Library) (engine : Engine) (main : ContextId)
    (poolSize others : Nat) (before : List Move) (u : World)
    (hu : Run library (World.initial engine main poolSize others) before u) :
    (∀ (host : Nat) (during : List Move) (w : World) (found : Metrics),
      u.hosts[host]? = some (.measuring .locking) → Run library u during w →
      (∀ call, .begin host call ∉ during) →
      w.hosts[host]? = some (.free (some (.measured found))) →
      (∃ survey : Survey, u.readings library host during = survey.readings ∧
        survey.Accounts found) ∧
      found.executing.length ≤ found.busyWorkers ∧ found.busyWorkers ≤ found.poolSize) ∧
    (∀ (i : Nat) (worker : Worker) (name : String), u.workers[i]? = some worker →
      worker.current? = some name → worker.running = true) ∧
    ∀ (m : Move) (v : World) (i : Nat), u.move? library m = some v → u.isRunning i = false →
      v.isRunning i = true →
      ∃ pick thread, m = .step pick thread ∧ u.poolHolder? = some thread := by
  refine ⟨fun host during w found hcall hrun hbegin hend => ?_,
    fun _ _ _ => hu.running_of_current?,
    fun m v i hm hdown hup => World.move?_raises hu.disciplined.locked hm hdown hup⟩
  have hstart : (HostPlace.measuring .locking).Surveys u [] := rfl
  obtain ⟨place, hhost, hplace⟩ := hu.surveys hrun hbegin hcall hstart
  rw [hend, Option.some_inj] at hhost
  subst hhost
  obtain ⟨survey, hreadings, haccounts⟩ := hplace
  exact ⟨⟨survey, hreadings, haccounts⟩, haccounts.length_executing_le, haccounts.busyWorkers_le⟩

def HostResult.metrics? : HostResult → Option Metrics
  | .measured found => some found
  | .opened _ | .replied _ | .closed | .ended _ => none

theorem HostResult.metrics?_eq_some_iff {result : HostResult} {found : Metrics} :
    result.metrics? = some found ↔ result = .measured found := by
  cases result with
  | opened | replied | closed | measured | ended => simp [metrics?]

def HostPlace.beginsMeasuring : HostPlace → Bool
  | .measuring .locking => true
  | _ => false

theorem HostPlace.beginsMeasuring_iff :
    place.beginsMeasuring = true ↔ place = .measuring .locking := by
  cases place with
  | measuring place =>
      cases place with
      | locking | counting | naming | unlocking | queue | sections | submitted | completed
      | failed | flag => simp [beginsMeasuring]
  | _ => simp [beginsMeasuring]

/-- A coordinator with one worker and two threads of the host. -/
def duoStart : World :=
  World.initial (Engine.initial "duo" none).createContext.2 0 1 1

/-- A worker has claimed a task and shows its function when another thread of the host measures. -/
def duoShowing : List Move :=
  [List.replicate 4 (.step 0 (.host 0)), [.begin 0 (.ask 0 (.parallel "f()"))],
    List.replicate 12 (.step 0 (.host 0)), List.replicate 8 (.step 0 (.worker 0)),
    [.begin 1 .measure]].flatten

/-- The worker goes on between the two passes. -/
def duoSurveying : List Move :=
  [List.replicate 3 (.step 0 (.host 1)), List.replicate 4 (.step 0 (.worker 0)),
    List.replicate 9 (.step 0 (.host 1))].flatten

/-- Metrics taken while a worker executes a task. -/
theorem metrics_consistent_duo : ∃ u w found, Run soloLibrary duoStart duoShowing u ∧
    Run soloLibrary u duoSurveying w ∧ w.result? 1 = some (.measured found) ∧
    found.executing = ["f"] ∧
    (∃ survey : Survey, u.readings soloLibrary 1 duoSurveying = survey.readings ∧
      survey.Accounts found) ∧
    found.executing.length ≤ found.busyWorkers ∧ found.busyWorkers ≤ found.poolSize := by
  have hruns : (duoStart.follow soloLibrary duoShowing).any (fun u =>
      (u.hosts[1]?.any HostPlace.beginsMeasuring) &&
        (u.follow soloLibrary duoSurveying).any fun w =>
          ((w.result? 1).bind HostResult.metrics?).any fun found => found.executing = ["f"]) =
      true := by
    decide +kernel
  obtain ⟨u, hu, hmid⟩ := (Option.any_eq_true _ _).mp hruns
  obtain ⟨hbegins, hends⟩ := (Bool.and_eq_true _ _).mp hmid
  obtain ⟨place, hplace, hlocking⟩ := (Option.any_eq_true _ _).mp hbegins
  obtain rfl := HostPlace.beginsMeasuring_iff.mp hlocking
  obtain ⟨w, hw, hend⟩ := (Option.any_eq_true _ _).mp hends
  obtain ⟨found, hfound, hexecuting⟩ := (Option.any_eq_true _ _).mp hend
  obtain ⟨result, hresult, hmeasured⟩ := Option.bind_eq_some_iff.mp hfound
  obtain rfl := HostResult.metrics?_eq_some_iff.mp hmeasured
  have hrun : Run soloLibrary duoStart duoShowing u := run_iff_follow.mpr hu
  obtain ⟨hconsistent, -, -⟩ := metrics_consistent _ _ _ _ _ _ u hrun
  exact ⟨u, w, found, hrun, run_iff_follow.mpr hw, hresult, of_decide_eq_true hexecuting,
    hconsistent 1 duoSurveying w found hplace (run_iff_follow.mpr hw)
      (fun call hmem => by simp [duoSurveying] at hmem) (World.result?_eq_some_iff.mp hresult)⟩

end ScriptPool
