import ScriptPool.Proofs.Pool.JoinBarrier
import ScriptPool.Proofs.Pool.MainBlock
import ScriptPool.Proofs.Pool.Touch

/-!
Captures and write-backs of the main context happen as if one at a time.

A log keeps the blocks that are over. While a thread has the main context locked, going on with its
block from where it stands comes to the same as the whole block from the state in which it was
locked. Nobody else changes this state or the private globals of the holder.
-/

namespace ScriptPool

/-- What has happened to the main context: the blocks that are over, and the private globals with
which a worker has locked it last. -/
structure MainLog where
  blocks : List MainBlock
  own : Globals

/-- What the next step of a worker's loop adds to the log. -/
def WorkerPlace.log (own : Globals) (log : MainLog) : WorkerPlace → MainLog
  | .executing _ _ (.lockingMain _) => { log with own := own }
  | .executing _ s (.unlockingMain outcome) =>
    { log with blocks := log.blocks ++ [.deliver s outcome log.own own] }
  | _ => log

/-- What the next step of a thread adds to the log. -/
def World.log (w : World) (log : MainLog) (thread : ThreadId) : MainLog :=
  match w.asking? thread with
  | some (.submit _ (.unlocking task)) =>
    { log with blocks := log.blocks ++ [.capture task.call task] }
  | some _ => log
  | none =>
    match thread with
    | .host _ => log
    | .worker i => w.workers[i]?.elim log fun worker =>
      worker.place.log (w.engine.globals worker.context) log

/-- What a move adds to the log. -/
def Move.log (w : World) (log : MainLog) : Move → MainLog
  | .step _ thread => w.log log thread
  | .begin .. | .addContext | .setGlobal .. | .openGate _ | .openAllGates | .setBudget _ => log

/-- The log after some moves. -/
def World.logAll (library : Library) : World → MainLog → List Move → MainLog
  | _, log, [] => log
  | w, log, m :: moves =>
    (w.move? library m).elim log fun v => v.logAll library (m.log w log) moves

/-- The captures and write-backs that some moves bring to their end, in the order in which they give
the lock of the main context back. -/
def World.mainBlocks (library : Library) (w : World) (moves : List Move) : List MainBlock :=
  (w.logAll library ⟨[], .empty⟩ moves).blocks

def HostPlace.sets? : HostPlace → Option ContextId
  | .running activity => activity.sets?
  | _ => none

def WorkerPlace.sets? : WorkerPlace → Option ContextId
  | .executing _ _ (.running activity) => activity.sets?
  | _ => none

/-- The context in which the next step of a thread's code sets a global. -/
def World.sets? (w : World) : ThreadId → Option ContextId :=
  w.crew.view (·.bind HostPlace.sets?) WorkerPlace.sets?

/-- Whether a move sets a global of the main context by other means than a capture or a write-back:
the host does it itself, or code that runs there does. -/
def Move.disturbs (w : World) : Move → Bool
  | .setGlobal context _ _ => context = w.main
  | .step _ thread => w.sets? thread = some w.main
  | _ => false

/-- Whether some moves leave the main context to captures and write-backs. -/
def World.undisturbed (library : Library) : World → List Move → Bool
  | _, [] => true
  | w, m :: moves =>
    !m.disturbs w && (w.move? library m).all fun v => v.undisturbed library moves

/-- Going on with a capture from the globals `now` comes to what the whole capture comes to from
`g`. -/
def SubmitPlace.Resumes (g now : Globals) : SubmitPlace → Prop
  | .reading call names captured =>
    Snapshot.capture captured names now = Snapshot.capture [] call.parameters g
  | .tagging call name left names captured =>
    Snapshot.capture captured names (now.set name left) = Snapshot.capture [] call.parameters g
  | .unlocking task => Task.capture task.call g = (task, now)
  | _ => True

/-- Going on with a submission from the globals `now` captures what a capture from `g` does. -/
def SubmitPlace.Captures (g now : Globals) : SubmitPlace → Prop
  | .checking _ | .locking _ => now = g
  | .pushing task => Task.capture task.call g = (task, now)
  | place => place.Resumes g now

def Asking.Resumes (g now : Globals) : Asking → Prop
  | .submit _ place => place.Resumes g now
  | _ => True

/-- Going on with a write-back from the private globals `own` and the main ones `now` comes to what
the whole write-back comes to from `own₀` and `g`. -/
def WorkerPlace.Resumes (g now own₀ own : Globals) : WorkerPlace → Prop
  | .executing _ s (.writing outcome names results) =>
    outcome.isHealthy = true ∧ Globals.writeBack names results own now =
      Globals.writeBack s.task.call.returns outcome.results own₀ g
  | .executing _ s (.unlockingMain outcome) =>
    Globals.writeBack (if outcome.isHealthy then s.task.call.returns else []) outcome.results own₀ g =
      (own, now)
  | _ => True

def World.Resumes (w : World) (g own₀ : Globals) (thread : ThreadId) : Prop :=
  match w.asking? thread with
  | some a => a.Resumes g (w.engine.globals w.main)
  | none =>
    match thread with
    | .host _ => True
    | .worker i => ∀ worker, w.workers[i]? = some worker →
      worker.place.Resumes g (w.engine.globals w.main) own₀ (w.engine.globals worker.context)

variable {library : Library} {pick : Nat} {me thread : ThreadId} {w v w' : World} {g : Globals}
  {log : MainLog} {i : Nat}

theorem Task.capture_ofCaptured {call : Call} {captured : Snapshot} {now : Globals}
    (h : Snapshot.capture [] call.parameters g = (captured, now)) :
    Task.capture (Task.ofCaptured call captured).call g = (Task.ofCaptured call captured, now) := by
  rw [Task.ofCaptured, Task.capture]
  cases hparameters : call.parameters with
  | nil =>
      rw [hparameters] at h
      cases h
      rfl
  | cons name names =>
      rw [hparameters] at h
      simp only [List.isEmpty_cons, Bool.false_eq_true, if_false, h]

theorem SubmitPlace.Captures.resumes {place : SubmitPlace} {now : Globals}
    (h : place.Captures g now) : place.Resumes g now := by
  cases place with
  | reading | tagging | unlocking => exact h
  | checking | locking | pushing | counting | notifying | starting => trivial

theorem submitStep_captures {source : ContextId} {place place' : SubmitPlace}
    (hknown : source < w.engine.contexts.length)
    (h : submitStep source me w place = some (v, .going place'))
    (hplace : place.Captures g (w.engine.globals source)) :
    place'.Captures g (v.engine.globals source) := by
  cases submitStep_goes h with
  | checked | checkedApart | locked =>
      obtain rfl : w.engine.globals source = g := hplace
      rfl
  | found call hfound =>
      have hcaptures : Snapshot.capture _ (_ :: _) (w.engine.globals source) =
          Snapshot.capture [] call.parameters g := hplace
      rw [Snapshot.capture, if_pos hfound] at hcaptures
      exact hcaptures
  | copied call hnew hwhole =>
      have hcaptures : Snapshot.capture _ (_ :: _) (w.engine.globals source) =
          Snapshot.capture [] call.parameters g := hplace
      rw [Snapshot.capture, if_neg hnew, Globals.takeOut_eq_capture, ← Engine.get?] at hcaptures
      dsimp only at hcaptures
      rw [hwhole] at hcaptures
      exact hcaptures
  | moved call hnew hleft =>
      have hcaptures : Snapshot.capture _ (_ :: _) (w.engine.globals source) =
          Snapshot.capture [] call.parameters g := hplace
      rw [Snapshot.capture, if_neg hnew, Globals.takeOut_eq_capture, ← Engine.get?] at hcaptures
      dsimp only at hcaptures
      rw [hleft] at hcaptures
      exact hcaptures
  | tagged call name left names captured =>
      have hset : (w.engine.set source name left).globals source =
          (w.engine.globals source).set name left := Engine.globals_setGlobals_self _ _ hknown
      exact (congrArg (Snapshot.capture captured names) hset).trans hplace
  | read call captured | readApart call captured =>
      have hcaptures : Snapshot.capture captured [] (w.engine.globals source) =
          Snapshot.capture [] call.parameters g := hplace
      exact Task.capture_ofCaptured hcaptures.symm
  | unlocked => exact hplace
  | pushed | counted | notified | start => trivial

theorem submitStep_resumes {place : SubmitPlace} {stage : Stage SubmitPlace Reply}
    (hknown : w.main < w.engine.contexts.length)
    (hplace : place.Resumes g (w.engine.globals w.main))
    (hin : (Asking.submit w.main place).inMain w.main = true)
    (h : submitStep w.main me w place = some (v, stage)) :
    ∃ place', stage = .going place' ∧ place'.Resumes g (v.engine.globals w.main) ∧
      ((Asking.submit w.main place').inMain w.main = true ∨ ∃ task, place = .unlocking task) := by
  have hmain : decide (w.main = w.main) = true := decide_eq_true rfl
  suffices hgoing : place.Captures g (w.engine.globals w.main) ∧ ∃ place', stage = .going place' ∧
      ((Asking.submit w.main place').inMain w.main = true ∨ ∃ task, place = .unlocking task) by
    obtain ⟨hcaptures, place', rfl, hplace'⟩ := hgoing
    exact ⟨place', rfl, (submitStep_captures hknown h hcaptures).resumes, hplace'⟩
  cases stage with
  | going place' =>
      cases submitStep_goes h with
      | checked | checkedApart | locked | pushed | counted | notified | start => cases hin
      | found | copied | moved | tagged => exact ⟨hplace, _, rfl, .inl hmain⟩
      | read => exact ⟨hplace, _, rfl, .inl rfl⟩
      | readApart _ _ hapart => exact absurd rfl hapart
      | unlocked task => exact ⟨hplace, _, rfl, .inr ⟨task, rfl⟩⟩
  | «over» reply =>
      cases submitStep_replies h with
      | refused | misread | idle | started => cases hin

theorem writeResult_globals {c main : ContextId} {e : Engine} (hne : c ≠ main)
    (hc : c < e.contexts.length) (hmain : main < e.contexts.length) (name : String) (value : Value) :
    (writeResult c main name value e).globals c = (((e.globals c).set name value).takeOut name).2 ∧
      (writeResult c main name value e).globals main =
        (e.globals main).set name (((e.globals c).set name value).takeOut name).1 := by
  have hlength : (e.setGlobals c (((e.globals c).set name value).takeOut name).2).contexts.length =
      e.contexts.length := by simp [Engine.setGlobals]
  rw [writeResult_eq, Engine.set]
  constructor
  · rw [Engine.globals_setGlobals_of_ne _ _ hne, Engine.globals_setGlobals_self _ _ hc]
  · rw [Engine.globals_setGlobals_self _ _ (hlength ▸ hmain),
      Engine.globals_setGlobals_of_ne _ _ hne.symm]

theorem World.sets?_host {host : Nat} {place : HostPlace} (h : w.hosts[host]? = some place) :
    w.sets? (.host host) = place.sets? :=
  World.view_host h

theorem World.sets?_worker {worker : Worker} (h : w.workers[i]? = some worker) :
    w.sets? (.worker i) = worker.place.sets? :=
  World.view_worker h

theorem World.contextOf?_of_worker {worker : Worker} (h : w.workers[i]? = some worker) :
    w.contextOf? i = some worker.context := by
  rw [World.contextOf?, h]
  rfl

theorem World.Secluded.worker (hs : w.Secluded) {worker : Worker} (h : w.workers[i]? = some worker) :
    worker.context < w.engine.contexts.length ∧ worker.context ≠ w.main :=
  hs.station (World.stations_getElem? h)

theorem World.Secluded.main_known (hs : w.Secluded) : w.main < w.engine.contexts.length :=
  hs.known _ List.mem_cons_self

theorem Asking.inMain_of_touches {a : Asking} {main : ContextId} (h : main ∈ a.touches) :
    a.inMain main = true := by
  cases a with
  | submit source place =>
      cases place with
      | tagging =>
          obtain rfl := List.mem_singleton.mp h
          exact decide_eq_true rfl
      | _ => cases h
  | _ => cases h

theorem Activity.inMain_or_sets {activity : Activity} {main : ContextId}
    (h : main ∈ activity.touches) :
    activity.asking?.any (·.inMain main) = true ∨ activity.sets? = some main := by
  obtain ⟨x, a?⟩ := activity
  cases a? with
  | some a => exact .inl (Asking.inMain_of_touches h)
  | none => exact .inr (Option.mem_toList.mp h)

theorem World.inMain_or_sets (hs : w.Secluded) (h : w.main ∈ w.touches thread) :
    w.inMain thread = true ∨ w.sets? thread = some w.main := by
  cases thread with
  | host host =>
      cases hplace : w.hosts[host]? with
      | none =>
          rw [World.touches, hplace] at h
          cases h
      | some place =>
          rw [World.touches, hplace] at h
          rw [World.sets?_host hplace, World.inMain, World.view_host hplace]
          cases place with
          | asking a => exact .inl (Asking.inMain_of_touches h)
          | running activity => exact Activity.inMain_or_sets h
          | free | opening | closing | measuring => cases h
  | worker i =>
      cases hworker : w.workers[i]? with
      | none =>
          rw [World.touches, hworker] at h
          cases h
      | some worker =>
          have hne := (hs.worker hworker).2
          rw [World.touches, hworker, Option.elim_some] at h
          rw [World.sets?_worker hworker, World.inMain, World.view_worker hworker]
          cases hplace : worker.place with
          | executing once s place =>
              rw [hplace] at h
              cases place with
              | preparing => exact absurd (List.mem_singleton.mp h).symm hne
              | running activity => exact Activity.inMain_or_sets h
              | writing outcome names results => exact .inl rfl
              | _ => cases h
          | _ =>
              rw [hplace] at h
              cases h

theorem World.Enclosed.not_touched (he : w.Enclosed) (hs : w.Secluded) {worker : Worker}
    (hworker : w.workers[i]? = some worker) (hne : thread ≠ .worker i) :
    worker.context ∉ w.touches thread := by
  intro h
  cases thread with
  | host host =>
      cases hplace : w.hosts[host]? with
      | none =>
          rw [World.touches, hplace] at h
          cases h
      | some place =>
          rw [World.touches, hplace, Option.elim_some] at h
          have hworks := he.hosts host place hplace
          have hmem : worker.context ∈ w.hostContexts := by
            cases place with
            | asking a => exact Asking.WorksIn.touches hworks _ h
            | running activity => exact Activity.WorksIn.touches hworks _ h
            | free | opening | closing | measuring => cases h
          exact he.apart i _ (World.contextOf?_of_worker hworker) hmem
  | worker j =>
      cases hother : w.workers[j]? with
      | none =>
          rw [World.touches, hother] at h
          cases h
      | some other =>
          have hapart : other.context ≠ worker.context :=
            hs.station_ne (World.stations_getElem? hworker) (World.stations_getElem? hother)
              fun heq => hne (heq ▸ rfl)
          have hmain := (hs.worker hworker).2
          have hworks := he.workers j other hother
          rw [World.touches, hother, Option.elim_some] at h
          cases hplace : other.place with
          | executing once s place =>
              rw [hplace] at h hworks
              cases place with
              | preparing => exact hapart (List.mem_singleton.mp h).symm
              | running activity =>
                  have hactivity : activity.WorksIn (· = other.context) := hworks
                  exact hapart (hactivity.touches _ h).symm
              | writing outcome names results =>
                  cases names with
                  | nil => cases h
                  | cons =>
                      rcases List.mem_cons.mp h with heq | hmem
                      · exact hapart heq.symm
                      · exact hmain (List.mem_singleton.mp hmem)
              | _ => cases h
          | _ =>
              rw [hplace] at h
              cases h

theorem World.Enclosed.move?_globals (he : w.Enclosed) (hs : w.Secluded) {worker : Worker}
    (hworker : w.workers[i]? = some worker) (h : w.move? library m = some w')
    (hother : ∀ pick, m ≠ .step pick (.worker i)) :
    w'.engine.globals worker.context = w.engine.globals worker.context := by
  have hknown := (hs.worker hworker).1
  cases m with
  | step pick me =>
      have hne : me ≠ .worker i := fun heq => hother pick (heq ▸ rfl)
      exact World.advance_globals h hknown (he.not_touched hs hworker hne)
  | begin host call =>
      obtain ⟨-, rfl⟩ := World.move?_begin_iff.mp h
      cases call with
      | ask | shutDown | measure | invoke | load => rfl
  | addContext =>
      cases h
      exact (Engine.globals_bind _ _ _ _).trans (Engine.globals_createContext _ hknown)
  | setGlobal c name value =>
      obtain ⟨hmem, rfl⟩ := World.move?_setGlobal_iff.mp h
      have hne : worker.context ≠ c := by
        rintro rfl
        exact he.apart i _ (World.contextOf?_of_worker hworker) hmem
      exact Engine.globals_setGlobals_of_ne _ _ hne
  | openGate | openAllGates | setBudget =>
      cases h
      rfl

theorem World.Resumes.other {own₀ : Globals} (hr : w.Resumes g own₀ thread) (he : w.Enclosed)
    (hs : w.Secluded) (h : w.advance library pick me = some w') (hne : thread ≠ me)
    (hmain : w'.main = w.main)
    (hnow : w'.engine.globals w.main = w.engine.globals w.main)
    (hexists : ∀ i, thread = .worker i → ∃ worker, w.workers[i]? = some worker) :
    w'.Resumes g own₀ thread := by
  have hstride := World.advance_stride h
  unfold World.Resumes at hr ⊢
  rw [hstride.asking?_of_ne hne, hmain, hnow]
  cases hask : w.asking? thread with
  | some a =>
      rw [hask] at hr
      exact hr
  | none =>
      rw [hask] at hr
      cases thread with
      | host host => trivial
      | worker i =>
          intro worker' hworker'
          obtain ⟨worker, hworker⟩ := hexists i rfl
          have hcontext := World.advance_contextOf? h hne (World.contextOf?_of_worker hworker)
          rw [World.contextOf?_of_worker hworker'] at hcontext
          have hsame : worker'.context = worker.context := Option.some.inj hcontext
          have hplace : worker'.place = worker.place := by
            rw [hstride.place_of_ne hne hworker', hworker]
            rfl
          have hown := World.advance_globals h (hs.worker hworker).1
            (he.not_touched hs hworker (Ne.symm hne))
          rw [hplace, hsame, hown]
          exact hr worker hworker

theorem WorkerPlace.inMain_running {once : Bool} {s : Submission} {activity : Activity}
    {main : ContextId} : (WorkerPlace.executing once s (.running activity)).inMain main =
      activity.asking?.any (·.inMain main) :=
  rfl

theorem World.inMain_of_asking {a : Asking} (ha : w.asking? thread = some a) :
    w.inMain thread = a.inMain w.main := by
  cases World.awaits_iff.mpr ha with
  | call h | code h =>
      rw [World.inMain, World.view_host h]
      rfl
  | task hworker hplace =>
      rw [World.inMain, World.view_worker hworker, hplace]
      rfl

/-- A step of a thread that waits for a request does to the engine and the lock what the step of the
request does. -/
theorem World.advance_request {a : Asking} {stage : Stage Asking Reply}
    (ha : w.asking? me = some a) (h : w.advance library pick me = some w')
    (hs : askingStep pick me w a = some (v, stage)) :
    w'.engine = v.engine ∧ w'.mainHolder? = v.mainHolder? := by
  obtain ⟨v', stage', hs', hserves⟩ := World.advance_serves ha h
  rw [hs] at hs'
  cases hs'
  cases hserves with
  | call | code | task => exact ⟨rfl, rfl⟩

theorem submitStep_locks {source : ContextId} {place : SubmitPlace} {stage : Stage SubmitPlace Reply}
    (h : submitStep source me w place = some (v, stage)) (hfree : w.mainHolder? = none)
    (hheld : v.mainHolder? = some me) : ∃ call, place = .locking call := by
  have hnone (hsame : v.mainHolder? = w.mainHolder?) : ∃ call, place = .locking call := by
    rw [hsame, hfree] at hheld
    cases hheld
  cases stage with
  | going place' =>
      cases submitStep_goes h with
      | locked call => exact ⟨call, rfl⟩
      | unlocked => cases hheld
      | start hs => exact hnone (startStep_oversees hs).offMain.holder
      | _ => exact hnone rfl
  | «over» reply =>
      cases submitStep_replies h with
      | refused | misread => exact hnone rfl
      | idle hs | started _ hs => exact hnone (startStep_oversees hs).offMain.holder

/-- Of the workers that wait for no request, only those locks the main context whose place says
so. -/
theorem workerStep_locks {worker : Worker} (hidle : worker.place.asking? = none)
    (h : workerStep library pick i worker w = some w') (hfree : w.mainHolder? = none) :
    w'.mainHolder? = none ∨
      ∃ once s outcome, worker.place = .executing once s (.lockingMain outcome) := by
  obtain ⟨place, hplace, hgoes⟩ := workerStep_goes h
  rw [hplace] at hidle
  cases hgoes with
  | went once hs =>
      cases hs with
      | locked | lockedErrored => exact .inr ⟨_, _, _, hplace⟩
      | ran hs =>
          cases activityStep_goes hs with
          | asks | replied => cases hidle
          | went | asked => exact .inl hfree
      | unlocked => exact .inl rfl
      | replaced hcontext | notReplaced hcontext =>
          have hoff := (privateContext_offMain w).holder
          rw [hcontext] at hoff
          exact .inl (hoff.trans hfree)
      | published | unlockedQueue | prepared | ended | written | wrote | counted | failed | completed
      | cleared => exact .inl hfree
  | began | received | measured | compared | checkedEmpty | checked | missed | popped | finished
  | rested | announced | exited => exact .inl hfree

theorem hostStep_locks {host : Nat} {place : HostPlace} (hidle : place.asking? = none)
    (h : hostStep library pick host place w = some w') : w'.mainHolder? = w.mainHolder? := by
  obtain ⟨v, place', rfl, hgoes⟩ := hostStep_goes h
  have hplaced : (v.placeHost host place').mainHolder? = v.mainHolder? := rfl
  rw [hplaced]
  cases hgoes with
  | opens hs | opened hs => exact (openStep_hires hs).offMain.holder
  | closes hs | closed hs => exact (shutdownStep_manages hs).offMain.holder
  | measures hs | measured hs => exact (measureStep_oversees hs).offMain.holder
  | asks | replied => cases hidle
  | runs hs =>
      cases activityStep_goes hs with
      | asks | replied => cases hidle
      | went | asked => rfl
  | ended hs => rw [(activityStep_over hs).1]

theorem MainLocked.locking (hm : MainLocked w) (h : w.advance library pick me = some w')
    (hfree : w.mainHolder? = none) (hheld : w'.mainHolder? = some me) :
    (∃ call, w.asking? me = some (.submit w.main (.locking call))) ∨
      ∃ i worker once s outcome, me = .worker i ∧ w.workers[i]? = some worker ∧
        w.asking? me = none ∧ worker.place = .executing once s (.lockingMain outcome) := by
  have hapt := hm.apt me
  cases hask : w.asking? me with
  | some a =>
      obtain ⟨v, stage, hs, -, -, -⟩ := World.advance_asking hask h
      rw [(World.advance_request hask h hs).2] at hheld
      rw [hask, Option.all_some] at hapt
      obtain ⟨source, place, rfl⟩ : ∃ source place, a = .submit source place := by
        cases (askingStep_main hapt hs).1 with
        | still hoff =>
            rw [hoff.holder, hfree] at hheld
            cases hheld
        | lock _ _ _ hafter =>
            cases stage with
            | «over» reply => cases hafter
            | going a' =>
                cases a' with
                | submit source place' =>
                    obtain ⟨place, rfl, -⟩ := askingStep_submit hs
                    exact ⟨source, place, rfl⟩
                | join | joinAll | acquire | release | resize | refused => cases hafter
        | unlock _ _ hnone =>
            rw [hnone] at hheld
            cases hheld
      obtain ⟨call, rfl⟩ : ∃ call, place = .locking call := by
        cases askingStep_goes hs with
        | submits hsubmit | submitted hsubmit => exact submitStep_locks hsubmit hfree hheld
      have hsource : source = w.main := of_decide_eq_true hapt
      exact .inl ⟨call, by rw [hsource]⟩
  | none =>
      rw [World.asking?_eq_view] at hask
      cases me with
      | host host =>
          obtain ⟨place, hplace, h⟩ := World.advance_host_iff.mp h
          rw [World.view_host hplace] at hask
          rw [hostStep_locks hask h, hfree] at hheld
          cases hheld
      | worker i =>
          obtain ⟨worker, hworker, h⟩ := World.advance_worker_iff.mp h
          rw [World.view_worker hworker] at hask
          rcases workerStep_locks hask h hfree with hnone | ⟨once, s, outcome, hplace⟩
          · rw [hnone] at hheld
            cases hheld
          · exact .inr ⟨i, worker, once, s, outcome, rfl, hworker, rfl, hplace⟩

/-- The log explains a world: executing its blocks one at a time leads to the globals of the main
context, or to those with which the block in progress has begun. -/
structure MainLog.Explains (log : MainLog) (start : Globals) (w : World) (g : Globals) : Prop where
  serial : Serial log.blocks start g
  free : w.mainHolder? = none → w.engine.globals w.main = g
  held : ∀ thread, w.mainHolder? = some thread → w.Resumes g log.own thread

section Steps

variable {start : Globals}

theorem World.log_of_worker {worker : Worker} (hworker : w.workers[i]? = some worker)
    (hask : w.asking? (.worker i) = none) :
    w.log log (.worker i) = worker.place.log (w.engine.globals worker.context) log := by
  unfold World.log
  rw [hask]
  simp only [hworker, Option.elim_some]

theorem World.resumes_of_asking {own₀ : Globals} {a : Asking} (ha : w.asking? thread = some a) :
    w.Resumes g own₀ thread ↔ a.Resumes g (w.engine.globals w.main) := by
  unfold World.Resumes
  rw [ha]

theorem World.resumes_of_worker {own₀ : Globals} {worker : Worker}
    (hworker : w.workers[i]? = some worker) (hidle : worker.place.asking? = none) :
    w.Resumes g own₀ (.worker i) ↔ worker.place.Resumes g (w.engine.globals w.main) own₀
      (w.engine.globals worker.context) := by
  have hask : w.asking? (.worker i) = none := by
    rw [World.asking?_eq_view, World.view_worker hworker, hidle]
  unfold World.Resumes
  rw [hask]
  constructor
  · exact fun h => h worker hworker
  · rintro h worker' hworker'
    rw [hworker] at hworker'
    cases hworker'
    exact h

theorem World.placeWorker_resumes {own₀ : Globals} {worker : Worker} {place : WorkerPlace}
    (hworker : v.workers[i]? = some worker) (hidle : place.asking? = none)
    (h : place.Resumes g (v.engine.globals v.main) own₀ (v.engine.globals worker.context)) :
    (v.placeWorker i place).Resumes g own₀ (.worker i) := by
  have hplaced : (v.placeWorker i place).workers[i]? = some { worker with place := place } := by
    rw [World.placeWorker, World.modifyWorker, List.getElem?_modify_eq, hworker]
    rfl
  exact (World.resumes_of_worker hplaced hidle).mpr h

theorem MainLocked.holding (hm : MainLocked w) (hheld : w.mainHolder? = some me) :
    (∃ place, w.asking? me = some (.submit w.main place) ∧
      (Asking.submit w.main place).inMain w.main = true) ∨
    ∃ i worker once s place, me = .worker i ∧ w.workers[i]? = some worker ∧
      w.asking? me = none ∧ worker.place = .executing once s place ∧
      ((∃ outcome names results, place = .writing outcome names results) ∨
        ∃ outcome, place = .unlockingMain outcome) := by
  have hin : w.inMain me = true := (hm.holder me).mpr hheld
  have hapt := hm.apt me
  cases hask : w.asking? me with
  | some a =>
      rw [World.inMain_of_asking hask] at hin
      rw [hask, Option.all_some] at hapt
      cases a with
      | submit source place =>
          have hsource : source = w.main := by
            cases place with
            | reading | tagging => exact of_decide_eq_true hin
            | unlocking => exact of_decide_eq_true hapt
            | checking | locking | pushing | counting | notifying | starting => cases hin
          subst hsource
          exact .inl ⟨place, rfl, hin⟩
      | join | joinAll | acquire | release | resize | refused => cases hin
  | none =>
      rw [World.asking?_eq_view] at hask
      cases me with
      | host host =>
          cases hplace : w.hosts[host]? with
          | none =>
              simp only [World.inMain, Crew.view, World.crew, hplace] at hin
              cases hin
          | some place =>
              rw [World.view_host hplace] at hask
              rw [World.inMain, World.view_host hplace, Option.any_some, HostPlace.inMain,
                show place.asking? = none from hask] at hin
              cases hin
      | worker i =>
          cases hworker : w.workers[i]? with
          | none =>
              simp only [World.inMain, Crew.view, World.crew, List.getElem?_map, hworker] at hin
              cases hin
          | some worker =>
              rw [World.view_worker hworker] at hask
              rw [World.inMain, World.view_worker hworker] at hin
              refine .inr ⟨i, worker, ?_⟩
              cases hplace : worker.place with
              | executing once s place =>
                  rw [hplace] at hin hask
                  refine ⟨once, s, place, rfl, hworker, rfl, rfl, ?_⟩
                  cases place with
                  | writing outcome names results => exact .inl ⟨_, _, _, rfl⟩
                  | unlockingMain outcome => exact .inr ⟨_, rfl⟩
                  | running activity =>
                      have hnone : activity.asking? = none := hask
                      rw [WorkerPlace.inMain_running, hnone] at hin
                      cases hin
                  | _ => cases hin
              | _ =>
                  rw [hplace] at hin
                  cases hin

theorem MainLog.Explains.of_holder (hserial : Serial log.blocks start g)
    (hheld : w.mainHolder? = some me) (hresumes : w.Resumes g log.own me) :
    log.Explains start w g := by
  refine ⟨hserial, fun hnone => ?_, fun thread hthread => ?_⟩
  · rw [hheld] at hnone
    cases hnone
  · rw [hheld] at hthread
    cases hthread
    exact hresumes

theorem MainLog.Explains.of_free (hserial : Serial log.blocks start (w.engine.globals w.main))
    (hnone : w.mainHolder? = none) : log.Explains start w (w.engine.globals w.main) := by
  refine ⟨hserial, fun _ => rfl, fun thread hthread => ?_⟩
  rw [hnone] at hthread
  cases hthread

theorem MainLog.Explains.capturing {place : SubmitPlace} (hx : log.Explains start w g)
    (hm : MainLocked w) (hs : w.Secluded) (h : w.advance library pick me = some w')
    (hheld : w.mainHolder? = some me) (hask : w.asking? me = some (.submit w.main place))
    (hin : (Asking.submit w.main place).inMain w.main = true) :
    ∃ g', (w.log log me).Explains start w' g' := by
  have hm' := hm.advance h
  have hmain : w'.main = w.main := (World.advance_main (hm.apt me) h).1.main_eq
  have hresumes := (World.resumes_of_asking hask).mp (hx.held me hheld)
  obtain ⟨v, stage, hstep, -, -, hstage⟩ := World.advance_asking hask h
  obtain ⟨hengine, -⟩ := World.advance_request hask h hstep
  simp only [askingStep, Option.map_eq_some_iff] at hstep
  obtain ⟨⟨u, stage'⟩, hstep, heq⟩ := hstep
  obtain ⟨place', rfl, hafter, hstill⟩ := submitStep_resumes hs.main_known hresumes hin hstep
  obtain ⟨rfl, rfl⟩ : u = v ∧ .going (.submit w.main place') = stage := by
    cases heq
    exact ⟨rfl, rfl⟩
  have hnow : w'.engine.globals w'.main = u.engine.globals w.main := by rw [hengine, hmain]
  -- The lock is kept but for the last step, which adds the block to the log.
  rcases hstill with hstill | ⟨task, rfl⟩
  · have hheld' : w'.mainHolder? = some me := by
      rw [← hm'.holder, World.inMain_of_asking hstage, hmain]
      exact hstill
    have hlog : w.log log me = log := by
      unfold World.log
      rw [hask]
      cases place with
      | unlocking =>
          cases hstep
          cases hstill
      | _ => rfl
    rw [hlog]
    refine ⟨g, .of_holder hx.serial hheld' ?_⟩
    rw [World.resumes_of_asking hstage, hnow]
    exact hafter
  · cases hstep
    have hnone : w'.mainHolder? = none := by
      have hout : w'.mainHolder? ≠ some me := by
        rw [ne_eq, ← hm'.holder, World.inMain_of_asking hstage]
        exact Bool.false_ne_true
      cases (World.advance_main (hm.apt me) h).1 with
      | still hoff => exact absurd (hoff.holder.trans hheld) hout
      | lock _ hfree => rw [hheld] at hfree; cases hfree
      | unlock _ _ hfree => exact hfree
    have hlog : w.log log me = { log with blocks := log.blocks ++ [.capture task.call task] } := by
      unfold World.log
      rw [hask]
    have htakes : Task.capture task.call g = (task, w'.engine.globals w'.main) :=
      hnow ▸ hresumes
    rw [hlog]
    exact ⟨_, .of_free (hx.serial.snoc htakes) hnone⟩

theorem MainLog.Explains.writing {worker : Worker} {once : Bool} {s : Submission}
    {outcome : Invocation} {names : List String} {results : List Value}
    (hx : log.Explains start w g) (hs : w.Secluded)
    (h : w.advance library pick (.worker i) = some w')
    (hheld : w.mainHolder? = some (.worker i)) (hworker : w.workers[i]? = some worker)
    (hplace : worker.place = .executing once s (.writing outcome names results)) :
    log.Explains start w' g := by
  obtain ⟨hknown, hne⟩ := hs.worker hworker
  have hresumes := hx.held _ hheld
  rw [World.resumes_of_worker hworker (hplace ▸ rfl), hplace] at hresumes
  obtain ⟨hhealthy, hwrite⟩ := hresumes
  simp only [World.advance, hworker, Option.bind_some, workerStep, hplace,
    Option.map_eq_some_iff] at h
  obtain ⟨⟨v, stage⟩, hstep, rfl⟩ := h
  cases names with
  | nil =>
      cases hstep
      refine .of_holder hx.serial hheld (World.placeWorker_resumes hworker rfl ?_)
      rw [WorkerPlace.Resumes, if_pos hhealthy]
      exact hwrite.symm
  | cons name names =>
      cases hstep
      have hglobals := writeResult_globals hne hknown hs.main_known name (firstResult results)
      refine .of_holder hx.serial hheld
        (World.placeWorker_resumes (by exact hworker) rfl ⟨hhealthy, ?_⟩)
      change Globals.writeBack names results.tail
        ((writeResult worker.context w.main name (firstResult results) w.engine).globals _)
        ((writeResult worker.context w.main name (firstResult results) w.engine).globals _) =
        Globals.writeBack s.task.call.returns outcome.results log.own g
      rw [← hwrite, Globals.writeBack, hglobals.1, hglobals.2]

theorem MainLog.Explains.written {worker : Worker} {once : Bool} {s : Submission}
    {outcome : Invocation} (hx : log.Explains start w g)
    (h : w.advance library pick (.worker i) = some w')
    (hheld : w.mainHolder? = some (.worker i)) (hworker : w.workers[i]? = some worker)
    (hplace : worker.place = .executing once s (.unlockingMain outcome)) :
    (worker.place.log (w.engine.globals worker.context) log).Explains start w'
      (w'.engine.globals w'.main) := by
  have hresumes := hx.held _ hheld
  rw [World.resumes_of_worker hworker (hplace ▸ rfl), hplace] at hresumes
  simp only [World.advance, hworker, Option.bind_some, workerStep, hplace,
    Option.map_eq_some_iff] at h
  obtain ⟨⟨v, stage⟩, hstep, rfl⟩ := h
  cases hstep
  rw [hplace]
  exact .of_free (hx.serial.snoc hresumes) rfl

theorem MainLog.Explains.holder (hx : log.Explains start w g) (hm : MainLocked w) (hs : w.Secluded)
    (h : w.advance library pick me = some w') (hheld : w.mainHolder? = some me) :
    ∃ g', (w.log log me).Explains start w' g' := by
  rcases hm.holding hheld with ⟨place, hask, hin⟩ |
    ⟨i, worker, once, s, place, rfl, hworker, hask, hplace, hwhere⟩
  · exact hx.capturing hm hs h hheld hask hin
  · rw [World.log_of_worker hworker hask]
    rcases hwhere with ⟨outcome, names, results, rfl⟩ | ⟨outcome, rfl⟩
    · rw [hplace]
      exact ⟨g, hx.writing hs h hheld hworker hplace⟩
    · exact ⟨_, hx.written h hheld hworker hplace⟩

theorem MainLog.Explains.lock (hx : log.Explains start w g) (hm : MainLocked w)
    (h : w.advance library pick me = some w') (hfree : w.mainHolder? = none)
    (hheld : w'.mainHolder? = some me) : ∃ g', (w.log log me).Explains start w' g' := by
  have hmain : w'.main = w.main := (World.advance_main (hm.apt me) h).1.main_eq
  have hnow := hx.free hfree
  rcases hm.locking h hfree hheld with ⟨call, hask⟩ |
    ⟨i, worker, once, s, outcome, rfl, hworker, hask, hplace⟩
  · obtain ⟨v, stage, hstep, -, -, hstage⟩ := World.advance_asking hask h
    obtain ⟨hengine, -⟩ := World.advance_request hask h hstep
    simp only [askingStep, submitStep, World.lockMain, hfree, Option.isNone_none, if_true,
      Option.map_some, Option.some.injEq, Prod.mk.injEq] at hstep
    obtain ⟨rfl, rfl⟩ := hstep
    have hlog : w.log log me = log := by
      unfold World.log
      rw [hask]
    rw [hlog]
    refine ⟨g, .of_holder hx.serial hheld ?_⟩
    rw [World.resumes_of_asking hstage, hengine, hmain]
    exact congrArg (Snapshot.capture [] call.parameters) hnow
  · simp only [World.advance, hworker, Option.bind_some, workerStep, hplace, taskStep,
      World.lockMain, hfree, Option.isNone_none, if_true, Option.map_some,
      Option.some.injEq] at h
    subst h
    rw [World.log_of_worker hworker hask, hplace]
    refine ⟨g, .of_holder hx.serial hheld ?_⟩
    cases hhealthy : outcome.isHealthy with
    | true =>
        apply World.placeWorker_resumes (by exact hworker) rfl
        refine ⟨hhealthy, ?_⟩
        exact congrArg (Globals.writeBack s.task.call.returns outcome.results _) hnow
    | false =>
        apply World.placeWorker_resumes (by exact hworker) rfl
        rw [if_neg Bool.false_ne_true, WorkerPlace.Resumes, hhealthy,
          if_neg Bool.false_ne_true]
        exact congrArg (Prod.mk _) hnow.symm

theorem World.log_eq (h : w.advance library pick me = some w') (hin : w.inMain me = false)
    (hout' : w'.mainHolder? ≠ some me) : w.log log me = log := by
  cases hask : w.asking? me with
  | some a =>
      rw [World.inMain_of_asking hask] at hin
      unfold World.log
      rw [hask]
      split
      · next heq =>
          cases heq
          cases hin
      · rfl
      · next heq => cases heq
  | none =>
      cases me with
      | host host =>
          unfold World.log
          rw [hask]
      | worker i =>
          obtain ⟨worker, hworker, h⟩ := World.advance_worker_iff.mp h
          obtain ⟨place, hplace, hgoes⟩ := workerStep_goes h
          rw [World.inMain, World.view_worker hworker, hplace] at hin
          rw [World.log_of_worker hworker hask, hplace]
          cases hgoes with
          | went once hs =>
              cases hs with
              | locked | lockedErrored => exact absurd rfl hout'
              | unlocked => cases hin
              | _ => rfl
          | _ => rfl

theorem MainLog.Explains.other (hx : log.Explains start w g) (hm : MainLocked w) (hs : w.Secluded)
    (he : w.Enclosed) (h : w.advance library pick me = some w') (halone : w.sets? me ≠ some w.main)
    (hout : w.mainHolder? ≠ some me) (hout' : w'.mainHolder? ≠ some me) :
    ∃ g', (w.log log me).Explains start w' g' := by
  have hin : w.inMain me = false := by
    rw [Bool.eq_false_iff, ne_eq, hm.holder]
    exact hout
  obtain ⟨hmain, hholder⟩ : OffMain w w' := by
    cases (World.advance_main (hm.apt me) h).1 with
    | still hoff => exact hoff
    | lock _ _ hheld => exact absurd hheld hout'
    | unlock _ hbefore => rw [hin] at hbefore; cases hbefore
  have hnow : w'.engine.globals w.main = w.engine.globals w.main := by
    apply World.advance_globals h hs.main_known
    intro htouched
    rcases World.inMain_or_sets hs htouched with hin' | hsets
    · rw [hin] at hin'
      cases hin'
    · exact halone hsets
  have hlog : w.log log me = log := World.log_eq h hin hout'
  rw [hlog]
  refine ⟨g, hx.serial, fun hfree => ?_, fun thread hthread => ?_⟩
  · rw [hmain, hnow]
    exact hx.free (hholder ▸ hfree)
  · rw [hholder] at hthread
    have hne : thread ≠ me := fun heq => hout (heq ▸ hthread)
    apply (hx.held thread hthread).other he hs h hne hmain hnow
    rintro i rfl
    have hheld := (hm.holder _).mpr hthread
    cases hworker : w.workers[i]? with
    | some worker => exact ⟨worker, rfl⟩
    | none =>
        simp only [World.inMain, Crew.view, World.crew, List.getElem?_map, hworker] at hheld
        cases hheld

theorem MainLog.Explains.advance (hx : log.Explains start w g) (hm : MainLocked w) (hs : w.Secluded)
    (he : w.Enclosed) (h : w.advance library pick me = some w')
    (halone : w.sets? me ≠ some w.main) : ∃ g', (w.log log me).Explains start w' g' := by
  by_cases hheld : w.mainHolder? = some me
  · exact hx.holder hm hs h hheld
  · by_cases hheld' : w'.mainHolder? = some me
    · have hfree : w.mainHolder? = none := by
        cases (World.advance_main (hm.apt me) h).1 with
        | still hoff => exact absurd (hoff.holder ▸ hheld') hheld
        | lock _ hfree => exact hfree
        | unlock _ _ hnone => rw [hnone] at hheld'; cases hheld'
      exact hx.lock hm h hfree hheld'
    · exact hx.other hm hs he h halone hheld hheld'

end Steps

theorem MainLog.Explains.same {start : Globals} (hx : log.Explains start w g)
    (hmain : w'.main = w.main) (hholder : w'.mainHolder? = w.mainHolder?)
    (hworkers : w'.workers = w.workers)
    (hasking : ∀ thread, w.mainHolder? = some thread → w'.asking? thread = w.asking? thread)
    (hnow : w'.engine.globals w.main = w.engine.globals w.main)
    (hown : ∀ (i : Nat) worker, w.workers[i]? = some worker →
      w'.engine.globals worker.context = w.engine.globals worker.context) :
    log.Explains start w' g := by
  refine ⟨hx.serial, fun hfree => ?_, fun thread hthread => ?_⟩
  · rw [hmain, hnow]
    exact hx.free (hholder ▸ hfree)
  · rw [hholder] at hthread
    have hresumes := hx.held thread hthread
    unfold World.Resumes at hresumes ⊢
    rw [hasking thread hthread, hmain, hnow]
    cases hask : w.asking? thread with
    | some a =>
        rw [hask] at hresumes
        exact hresumes
    | none =>
        rw [hask] at hresumes
        cases thread with
        | host host => trivial
        | worker i =>
            intro worker hworker
            rw [hworkers] at hworker
            rw [hown i worker hworker]
            exact hresumes worker hworker

theorem World.begin_asking? {host : Nat} {call : HostCall} (hm : MainLocked w)
    (hbegin : w.canBegin host call = true) (hheld : w.mainHolder? = some thread) :
    (w.begin library host call).asking? thread = w.asking? thread := by
  obtain ⟨last?, hfree⟩ := World.free_of_canBegin hbegin
  have hne : thread ≠ .host host := by
    rintro rfl
    have hin := (hm.holder _).mpr hheld
    rw [World.inMain, World.view_host hfree] at hin
    cases hin
  rw [World.asking?_eq_view, World.asking?_eq_view]
  exact World.view_placeHost_of_ne hne

theorem MainLog.Explains.move {start : Globals} {m : Move} (hx : log.Explains start w g)
    (hm : MainLocked w) (hs : w.Secluded) (he : w.Enclosed) (h : w.move? library m = some w')
    (halone : m.disturbs w = false) : ∃ g', (m.log w log).Explains start w' g' := by
  cases m with
  | step pick thread => exact hx.advance hm hs he h (of_decide_eq_false halone)
  | begin host call =>
      obtain ⟨hbegin, rfl⟩ := World.move?_begin_iff.mp h
      refine ⟨g, hx.same rfl rfl rfl (fun thread hheld => World.begin_asking? hm hbegin hheld) ?_ ?_⟩
      · cases call with
        | ask | shutDown | measure | invoke | load => rfl
      · intro i worker _
        cases call with
        | ask | shutDown | measure | invoke | load => rfl
  | addContext =>
      cases h
      have hsame : ∀ c < w.engine.contexts.length,
          w.addContext.1.engine.globals c = w.engine.globals c := by
        intro c hc
        exact (Engine.globals_bind _ c _ _).trans (Engine.globals_createContext _ hc)
      exact ⟨g, hx.same rfl rfl rfl (fun _ _ => rfl) (hsame _ hs.main_known)
        fun i worker hworker => hsame _ (hs.worker hworker).1⟩
  | setGlobal context name value =>
      obtain ⟨hmem, rfl⟩ := World.move?_setGlobal_iff.mp h
      have hne : w.main ≠ context := fun heq => of_decide_eq_false halone heq.symm
      refine ⟨g, hx.same rfl rfl rfl (fun _ _ => rfl)
        (Engine.globals_setGlobals_of_ne _ _ hne) fun i worker hworker => ?_⟩
      refine Engine.globals_setGlobals_of_ne _ _ ?_
      rintro rfl
      exact he.apart i _ (World.contextOf?_of_worker hworker) hmem
  | openGate | openAllGates | setBudget =>
      cases h
      exact ⟨g, hx.same rfl rfl rfl (fun _ _ => rfl) rfl fun _ _ _ => rfl⟩

theorem MainLog.Explains.run {start : Globals} {moves : List Move} (hx : log.Explains start w g)
    (hm : MainLocked w) (hs : w.Secluded) (he : w.Enclosed) (h : Run library w moves w')
    (halone : w.undisturbed library moves = true) :
    ∃ g', (w.logAll library log moves).Explains start w' g' := by
  induction h using Run.head_induction generalizing log g with
  | nil => exact ⟨g, hx⟩
  | cons hv _ ih =>
      simp only [World.undisturbed, hv, Option.all_some, Bool.and_eq_true,
        Bool.not_eq_true'] at halone
      obtain ⟨g', hx'⟩ := hx.move hm hs he hv halone.1
      simp only [World.logAll, hv, Option.elim_some]
      exact ih hx' (hm.move hv) (hs.move hv) (he.move hs hm hv) halone.2

end ScriptPool
