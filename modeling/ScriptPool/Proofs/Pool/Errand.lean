import ScriptPool.Proofs.Pool.JoinStep
import ScriptPool.Proofs.Pool.RequestStep
import ScriptPool.Proofs.Pool.ResizeStep
import ScriptPool.Proofs.Pool.ThreadStep

/-!
What a step of any procedure does to the pool.

All procedures on the workers of the pool come down to a few dealings with its lock, its members,
their flags and their mailboxes. `Errand` says where a thread stands in these dealings and
`Crew.Step` lists them, so that a property of the pool is proved once for every procedure.
-/

namespace ScriptPool

/-- What a thread is doing with the pool. All errands but `away`, `owing` and `hired` need the lock
of the pool. -/
inductive Errand where
  | away
  /-- A task has been pushed and is not counted yet. -/
  | owing
  /-- Before the running flags of the rest of the pool are tried. -/
  | trying (rest : List Nat)
  /-- The flag of a worker is raised; the command is still to be sent. -/
  | sending (serial : Nat) (rest : List Nat)
  /-- The pool is locked, and nothing is going to happen to its workers. -/
  | holding
  /-- Before all workers are taken out. -/
  | taking
  /-- A new worker has been made that is not in the pool. -/
  | hired (serial : Nat)
  /-- Before a new worker is added. -/
  | adding (serial : Nat)
  deriving DecidableEq

/-- Whether the errand needs the lock of the pool. -/
def Errand.locks : Errand → Bool
  | .away | .owing | .hired _ => false
  | _ => true

def StartPlace.errand : StartPlace → Errand
  | .locking _ => .away
  | .trying rest _ _ => .trying rest
  | .sending serial rest _ _ => .sending serial rest
  | .unlocking _ => .holding

def LookPlace.errand : LookPlace → Errand
  | .locking => .away
  | .looking _ | .unlocking _ => .holding

def DismissPlace.errand : DismissPlace → Errand
  | .taking => .taking
  | .locking | .telling .. | .awaiting .. => .away

def HirePlace.errand : HirePlace → Errand
  | .creating .. => .away
  | .locking serial _ _ => .hired serial
  | .pushing serial _ _ => .adding serial

def DrivePlace.errand : DrivePlace → Errand
  | .measuring => .away
  | .starting place => place.errand

def SubmitPlace.errand : SubmitPlace → Errand
  | .counting => .owing
  | .starting place => place.errand
  | _ => .away

def JoinPlace.errand : JoinPlace → Errand
  | .looking _ _ place => place.errand
  | .driving _ place => place.errand
  | _ => .away

def JoinAllPlace.errand : JoinAllPlace → Errand
  | .noticing => .holding
  | .driving _ place => place.errand
  | .looking _ place => place.errand
  | _ => .away

def ResizePlace.errand : ResizePlace → Errand
  | .placing _ | .surveying _ => .holding
  | .joining _ place => place.errand
  | .dismissing _ place => place.errand
  | .hiring _ place => place.errand
  | .driving _ place | .drivingOn _ place => place.errand
  | _ => .away

def Asking.errand : Asking → Errand
  | .submit _ place => place.errand
  | .join _ place => place.errand
  | .joinAll place => place.errand
  | .resize _ place => place.errand
  | .acquire .. | .release .. | .refused _ => .away

def Activity.errand (activity : Activity) : Errand :=
  activity.asking?.elim .away Asking.errand

def WorkerPlace.errand : WorkerPlace → Errand
  | .executing _ _ (.running activity) => activity.errand
  | _ => .away

def ShutdownPlace.errand : ShutdownPlace → Errand
  | .dismissing place => place.errand
  | _ => .away

def OpenPlace.errand : OpenPlace → Errand
  | .hiring place => place.errand
  | .closing _ place => place.errand

def MeasurePlace.errand : MeasurePlace → Errand
  | .counting .. | .naming .. | .unlocking _ => .holding
  | _ => .away

def HostPlace.errand : HostPlace → Errand
  | .free _ => .away
  | .opening place => place.errand
  | .asking request => request.errand
  | .closing place => place.errand
  | .measuring place => place.errand
  | .running activity => activity.errand

/-- The errand after a step; a procedure that is over has left the pool alone. -/
def Stage.errand {σ ρ : Type} (f : σ → Errand) : Stage σ ρ → Errand
  | .going place => f place
  | .over _ => .away

/-- A worker as scheduling sees it. -/
structure Hand where
  running : Bool
  current? : Option String
  mailbox : List Command
  place : WorkerPlace

def Worker.hand (worker : Worker) : Hand :=
  ⟨worker.running, worker.current?, worker.mailbox, worker.place⟩

/-- The part of a world that scheduling is about. -/
structure Crew where
  queue : List Submission
  queueHolder? : Option ThreadId
  pool : List Nat
  poolHolder? : Option ThreadId
  generation : Nat
  submitted : Nat
  completed : Nat
  failed : Nat
  tickets : Nat
  hands : List Hand
  hosts : List HostPlace

def World.crew (w : World) : Crew where
  queue := w.queue
  queueHolder? := w.queueHolder?
  pool := w.pool
  poolHolder? := w.poolHolder?
  generation := w.generation
  submitted := w.submitted
  completed := w.completed
  failed := w.failed
  tickets := w.tickets
  hands := w.workers.map Worker.hand
  hosts := w.hosts

namespace Crew

def modify (c : Crew) (serial : Nat) (f : Hand → Hand) : Crew :=
  { c with hands := c.hands.modify serial f }

def isRunning (c : Crew) (serial : Nat) : Bool :=
  c.hands[serial]?.any (·.running)

def view {α : Type} (f : Option HostPlace → α) (g : WorkerPlace → α) (c : Crew) : ThreadId → α
  | .host host => f c.hosts[host]?
  | .worker serial => g (c.hands[serial]?.elim .beginning (·.place))

/-- The errand of a thread. -/
def errand (c : Crew) : ThreadId → Errand :=
  c.view (·.elim .away HostPlace.errand) WorkerPlace.errand

def newHand : Hand := ⟨false, none, [], .beginning⟩

/-- One dealing of a thread with the crew, with its errand before and after. -/
inductive Step (me : ThreadId) (c : Crew) : Errand → Crew → Errand → Prop where
  | still : Step me c .away c .away
  | push (task : Task) (hfree : c.queueHolder? = none) :
      Step me c .away
        { c with queue := c.queue ++ [⟨c.tickets, task⟩], tickets := c.tickets + 1 } .owing
  | count : Step me c .owing { c with submitted := c.submitted + 1 } .away
  | notify : Step me c .away { c with generation := c.generation + 1 } .away
  | lock (e : Errand) (hfree : c.poolHolder? = none)
      (he : e = .trying c.pool ∨ e = .holding ∨ e = .taking) :
      Step me c .away { c with poolHolder? := some me } e
  | lockHired (serial : Nat) (hfree : c.poolHolder? = none) :
      Step me c (.hired serial) { c with poolHolder? := some me } (.adding serial)
  | skip (serial : Nat) (rest : List Nat) : Step me c (.trying (serial :: rest)) c (.trying rest)
  | stop (rest : List Nat) : Step me c (.trying rest) c .holding
  | raise (serial : Nat) (rest : List Nat) (hme : me ≠ .worker serial)
      (hidle : c.isRunning serial = false) :
      Step me c (.trying (serial :: rest))
        (c.modify serial fun hand => { hand with running := true }) (.sending serial rest)
  | send (serial : Nat) (rest : List Nat) :
      Step me c (.sending serial rest)
        (c.modify serial fun hand => { hand with mailbox := hand.mailbox ++ [.run] })
        (.trying rest)
  | hold : Step me c .holding c .holding
  | unlock : Step me c .holding { c with poolHolder? := none } .away
  | take : Step me c .taking { c with pool := [], poolHolder? := none } .away
  | tell (serial : Nat) :
      Step me c .away
        (c.modify serial fun hand => { hand with mailbox := hand.mailbox ++ [.stop] }) .away
  | hire : Step me c .away { c with hands := c.hands ++ [newHand] } (.hired c.hands.length)
  | add (serial : Nat) :
      Step me c (.adding serial) { c with pool := c.pool ++ [serial], poolHolder? := none } .away

end Crew

theorem map_modify_of_comm {α β : Type} {g : α → β} {f : α → α} {f' : β → β}
    (h : ∀ a, g (f a) = f' (g a)) (l : List α) (i : Nat) :
    (l.modify i f).map g = (l.map g).modify i f' := by
  apply List.ext_getElem?
  intro j
  simp only [List.getElem?_map, List.getElem?_modify]
  cases l[j]? with
  | none => rfl
  | some a =>
      by_cases hij : i = j
      · simp [hij, h]
      · simp [hij]

theorem World.crew_modifyWorker {f : Worker → Worker} {g : Hand → Hand}
    (h : ∀ worker, (f worker).hand = g worker.hand) (w : World) (serial : Nat) :
    (w.modifyWorker serial f).crew = w.crew.modify serial g := by
  simp only [World.modifyWorker, World.crew, Crew.modify]
  rw [map_modify_of_comm h]

theorem World.isRunning_crew (w : World) (serial : Nat) :
    w.crew.isRunning serial = w.isRunning serial := by
  simp only [Crew.isRunning, World.isRunning, World.crew, List.getElem?_map]
  cases w.workers[serial]? with
  | none | some => rfl

theorem World.crew_send (w : World) (serial : Nat) (command : Command) :
    (w.send serial command).crew =
      w.crew.modify serial fun hand => { hand with mailbox := hand.mailbox ++ [command] } :=
  w.crew_modifyWorker (fun _ => rfl) serial

variable {me : ThreadId} {w w' : World}

theorem startStep_crew {place : StartPlace} {stage : Stage StartPlace Nat}
    (h : startStep me w place = some (w', stage)) :
    Crew.Step me w.crew place.errand w'.crew (stage.errand StartPlace.errand) := by
  cases place with
  | locking limit =>
      simp only [startStep, Option.map_eq_some_iff, World.lockPool_eq_some_iff, Prod.mk.injEq] at h
      obtain ⟨v, ⟨hfree, rfl⟩, rfl, rfl⟩ := h
      exact .lock _ hfree (.inl rfl)
  | trying rest limit started =>
      cases rest with
      | nil =>
          simp only [startStep, Option.some.injEq, Prod.mk.injEq] at h
          obtain ⟨rfl, rfl⟩ := h
          exact .stop []
      | cons serial rest =>
          simp only [startStep] at h
          split at h
          · simp only [Option.some.injEq, Prod.mk.injEq] at h
            obtain ⟨rfl, rfl⟩ := h
            exact .stop _
          · split at h
            · simp only [Option.some.injEq, Prod.mk.injEq] at h
              obtain ⟨rfl, rfl⟩ := h
              exact .skip serial rest
            · next hidle =>
                simp only [Option.some.injEq, Prod.mk.injEq] at h
                obtain ⟨rfl, rfl⟩ := h
                rw [not_or, Bool.not_eq_true, ← World.isRunning_crew] at hidle
                rw [World.crew_modifyWorker (g := fun hand => { hand with running := true })
                  fun _ => rfl]
                exact .raise serial rest hidle.1 hidle.2
  | sending serial rest limit started =>
      simp only [startStep, Option.some.injEq, Prod.mk.injEq] at h
      obtain ⟨rfl, rfl⟩ := h
      change Crew.Step me w.crew _ (w.send serial .run).crew _
      rw [World.crew_send]
      exact .send serial rest
  | unlocking started =>
      simp only [startStep, Option.some.injEq, Prod.mk.injEq] at h
      obtain ⟨rfl, rfl⟩ := h
      exact .unlock

theorem lookStep_crew {question : Question} {place : LookPlace} {stage : Stage LookPlace Bool}
    (h : lookStep me question w place = some (w', stage)) :
    Crew.Step me w.crew place.errand w'.crew (stage.errand LookPlace.errand) := by
  cases place with
  | locking =>
      simp only [lookStep, Option.map_eq_some_iff, World.lockPool_eq_some_iff, Prod.mk.injEq] at h
      obtain ⟨v, ⟨hfree, rfl⟩, rfl, rfl⟩ := h
      exact .lock _ hfree (.inr (.inl rfl))
  | looking rest =>
      cases rest with
      | nil =>
          simp only [lookStep, Option.some.injEq, Prod.mk.injEq] at h
          obtain ⟨rfl, rfl⟩ := h
          exact .hold
      | cons serial rest =>
          simp only [lookStep] at h
          split at h
          · cases h
            exact .hold
          · split at h
            · cases h
              exact .hold
            · cases h
              exact .hold
  | unlocking found =>
      simp only [lookStep, Option.some.injEq, Prod.mk.injEq] at h
      obtain ⟨rfl, rfl⟩ := h
      exact .unlock

theorem dismissStep_crew {place : DismissPlace} {stage : Stage DismissPlace Nat}
    (h : dismissStep me w place = some (w', stage)) :
    Crew.Step me w.crew place.errand w'.crew (stage.errand DismissPlace.errand) := by
  cases place with
  | locking =>
      simp only [dismissStep, Option.map_eq_some_iff, World.lockPool_eq_some_iff,
        Prod.mk.injEq] at h
      obtain ⟨v, ⟨hfree, rfl⟩, rfl, rfl⟩ := h
      exact .lock _ hfree (.inr (.inr rfl))
  | taking =>
      simp only [dismissStep, Option.some.injEq, Prod.mk.injEq] at h
      obtain ⟨rfl, rfl⟩ := h
      exact .take
  | telling rest count =>
      cases rest with
      | nil =>
          simp only [dismissStep, Option.some.injEq, Prod.mk.injEq] at h
          obtain ⟨rfl, rfl⟩ := h
          exact .still
      | cons serial rest =>
          simp only [dismissStep] at h
          split at h
          · cases h
            change Crew.Step me w.crew _ (w.send serial .stop).crew _
            rw [World.crew_send]
            exact .tell serial
          · cases h
            rw [World.crew_send]
            exact .tell serial
  | awaiting serial rest count =>
      simp only [dismissStep] at h
      split at h
      · cases h
        exact .still
      · simp at h

theorem hireStep_crew {place : HirePlace} {stage : Stage HirePlace (Except PoolError Unit)}
    (h : hireStep me w place = some (w', stage)) :
    Crew.Step me w.crew place.errand w'.crew (stage.errand HirePlace.errand) := by
  cases place with
  | creating id count =>
      have hcrew : w.privateContext.2.crew = w.crew ∧
          w.privateContext.2.workers.length = w.crew.hands.length := by
        unfold World.privateContext
        split
        · simp [World.crew]
        · simp [World.crew]
      simp only [hireStep] at h
      split at h
      · split at h
        · next context v hv =>
            rw [hv] at hcrew
            cases h
            have hire : (World.report (v.addWorker id context) .workerStarted).crew =
                { v.crew with hands := v.crew.hands ++ [Crew.newHand] } := by
              simp [World.report, World.addWorker, World.crew, Worker.hand, Crew.newHand]
            simp only [Stage.errand, HirePlace.errand]
            rw [hire, hcrew.1, hcrew.2]
            exact .hire
        · next v hv =>
            rw [hv] at hcrew
            cases h
            rw [hcrew.1]
            exact .still
      · cases h
        exact .still
  | locking serial id count =>
      simp only [hireStep, Option.map_eq_some_iff, World.lockPool_eq_some_iff, Prod.mk.injEq] at h
      obtain ⟨v, ⟨hfree, rfl⟩, rfl, rfl⟩ := h
      exact .lockHired serial hfree
  | pushing serial id count =>
      simp only [hireStep, Option.some.injEq, Prod.mk.injEq] at h
      obtain ⟨rfl, rfl⟩ := h
      exact .add serial

theorem driveStep_crew {place : DrivePlace} {stage : Stage DrivePlace Unit}
    (h : driveStep me w place = some (w', stage)) :
    Crew.Step me w.crew place.errand w'.crew (stage.errand DrivePlace.errand) := by
  cases place with
  | measuring =>
      simp only [driveStep, World.onQueue_eq_some_iff] at h
      obtain ⟨-, h⟩ := h
      split at h
      · cases h
        exact .still
      · cases h
        exact .still
  | starting place =>
      simp only [driveStep, Option.map_eq_some_iff] at h
      obtain ⟨⟨v, stage⟩, hs, h⟩ := h
      cases stage with
      | going | «over» =>
          cases h
          exact startStep_crew hs

theorem submitStep_crew {source : ContextId} {place : SubmitPlace}
    {stage : Stage SubmitPlace Reply} (h : submitStep source me w place = some (w', stage)) :
    Crew.Step me w.crew place.errand w'.crew (stage.errand SubmitPlace.errand) := by
  cases stage with
  | going place' =>
      cases submitStep_goes h with
      | checked | checkedApart | locked | found | copied | moved | tagged | read | readApart
      | unlocked => exact .still
      | pushed task hfree => exact .push task hfree
      | counted => exact .count
      | notified => exact .notify
      | start hs => exact startStep_crew hs
  | «over» reply =>
      cases submitStep_replies h with
      | refused | misread => exact .still
      | idle hs | started _ hs => exact startStep_crew hs

theorem joinStep_crew {function : String} {place : JoinPlace} {stage : Stage JoinPlace Reply}
    (h : joinStep function me w place = some (w', stage)) :
    Crew.Step me w.crew place.errand w'.crew (stage.errand JoinPlace.errand) := by
  cases stage with
  | going place' =>
      cases joinStep_goes h with
      | checked | sampled | searched | disturbed | rechecked | woke => exact .still
      | look _ _ hs | pending _ hs | executing _ hs | clear _ hs => exact lookStep_crew hs
      | drive _ hs | driven _ hs => exact driveStep_crew hs
  | «over» reply =>
      cases joinStep_replies h with
      | refused | done | stopped => exact .still

theorem joinAllStep_crew {place : JoinAllPlace} {stage : Stage JoinAllPlace Reply}
    (h : joinAllStep me w place = some (w', stage)) :
    Crew.Step me w.crew place.errand w'.crew (stage.errand JoinAllPlace.errand) := by
  cases stage with
  | going place' =>
      cases joinAllStep_goes h with
      | checked | sampled | searched | pending | disturbed | rechecked | woke => exact .still
      | locked hfree => exact .lock _ hfree (.inr (.inl rfl))
      | noticed | noticedAlone => exact .unlock
      | look _ hs | busy _ hs | idle _ hs => exact lookStep_crew hs
      | drive _ hs | driven _ hs => exact driveStep_crew hs
  | «over» reply =>
      cases joinAllStep_replies h with
      | refused | done | stopped => exact .still

theorem resizeStep_crew {count : Nat} {place : ResizePlace} {stage : Stage ResizePlace Reply}
    (h : resizeStep count me w place = some (w', stage)) :
    Crew.Step me w.crew place.errand w'.crew (stage.errand ResizePlace.errand) := by
  cases stage with
  | going place' =>
      cases resizeStep_goes h with
      | checked | read | stored | kept => exact .still
      | locked _ hfree | failed _ hfree => exact .lock _ hfree (.inr (.inl rfl))
      | placed | surveyed => exact .unlock
      | join _ hs | joined _ hs => exact joinAllStep_crew hs
      | dismiss _ hs | dismissed _ hs => exact dismissStep_crew hs
      | hire _ hs | hired _ hs | lacking _ hs => exact hireStep_crew hs
      | drive _ hs | driveOn _ hs => exact driveStep_crew hs
  | «over» reply =>
      cases resizeStep_replies h with
      | refused | same => exact .still
      | inPool => exact .unlock
      | broken _ hs => exact joinAllStep_crew hs
      | resized _ hs | incomplete _ hs => exact driveStep_crew hs

theorem askingStep_crew {pick : Nat} {asking : Asking} {stage : Stage Asking Reply}
    (h : askingStep pick me w asking = some (w', stage)) :
    Crew.Step me w.crew asking.errand w'.crew (stage.errand Asking.errand) := by
  cases askingStep_goes h with
  | submits hs | submitted hs => exact submitStep_crew hs
  | joins hs | joined hs => exact joinStep_crew hs
  | joinsAll hs | joinedAll hs => exact joinAllStep_crew hs
  | resizes hs | resized hs => exact resizeStep_crew hs
  | acquires | acquired | releases | released | refused => exact .still

theorem Request.begin_errand (source : ContextId) (r : Request) :
    (r.begin source).errand = .away := by
  cases r with
  | acquire id | release id =>
      simp only [Request.begin]
      split
      · rfl
      · rfl
  | parallel | join | joinAll | resize => rfl

theorem activityStep_crew {library : Library} {pick : Nat} {activity : Activity}
    {stage : Stage Activity Ending} (h : activityStep library pick me w activity = some (w', stage)) :
    Crew.Step me w.crew activity.errand w'.crew (stage.errand Activity.errand) := by
  cases activityStep_goes h with
  | asks hs | replied hs => exact askingStep_crew hs
  | went | ended => exact .still
  | asked =>
      simp only [Stage.errand, Activity.errand, Option.elim, Request.begin_errand]
      exact .still

theorem shutdownStep_crew {place : ShutdownPlace} {stage : Stage ShutdownPlace Unit}
    (h : shutdownStep me w place = some (w', stage)) :
    Crew.Step me w.crew place.errand w'.crew (stage.errand ShutdownPlace.errand) := by
  cases place with
  | swapping =>
      simp only [shutdownStep] at h
      split at h
      · cases h
        exact .still
      · cases h
        exact .still
  | dismissing place =>
      simp only [shutdownStep, Option.map_eq_some_iff] at h
      obtain ⟨⟨v, stage⟩, hs, h⟩ := h
      cases stage with
      | going | «over» =>
          cases h
          exact dismissStep_crew hs
  | notifying count =>
      cases h
      exact .notify
  | surveying count =>
      simp only [shutdownStep, World.onQueue_eq_some_iff] at h
      obtain ⟨-, h⟩ := h
      cases h
      split
      · exact .still
      · exact .still

theorem openStep_crew {place : OpenPlace} {stage : Stage OpenPlace (Except PoolError Unit)}
    (h : openStep me w place = some (w', stage)) :
    Crew.Step me w.crew place.errand w'.crew (stage.errand OpenPlace.errand) := by
  cases place with
  | hiring place =>
      simp only [openStep, Option.map_eq_some_iff] at h
      obtain ⟨⟨v, stage⟩, hs, h⟩ := h
      cases stage with
      | going place =>
          cases h
          exact hireStep_crew hs
      | «over» result =>
          cases result with
          | error | ok =>
              cases h
              exact hireStep_crew hs
  | closing e place =>
      simp only [openStep, Option.map_eq_some_iff] at h
      obtain ⟨⟨v, stage⟩, hs, h⟩ := h
      cases stage with
      | going | «over» =>
          cases h
          exact shutdownStep_crew hs

theorem measureStep_crew {place : MeasurePlace} {stage : Stage MeasurePlace Metrics}
    (h : measureStep me w place = some (w', stage)) :
    Crew.Step me w.crew place.errand w'.crew (stage.errand MeasurePlace.errand) := by
  cases place with
  | locking =>
      simp only [measureStep, Option.map_eq_some_iff, World.lockPool_eq_some_iff,
        Prod.mk.injEq] at h
      obtain ⟨v, ⟨hfree, rfl⟩, rfl, rfl⟩ := h
      exact .lock _ hfree (.inr (.inl rfl))
  | counting rest busy =>
      cases rest with
      | nil | cons =>
          cases h
          exact .hold
  | naming rest found =>
      cases rest with
      | nil | cons =>
          cases h
          exact .hold
  | unlocking found =>
      cases h
      exact .unlock
  | queue found =>
      simp only [measureStep, World.onQueue_eq_some_iff] at h
      obtain ⟨-, h⟩ := h
      cases h
      exact .still
  | sections | submitted | completed | failed | flag =>
      cases h
      exact .still

end ScriptPool
