import ScriptPool.Pool.Schedule
import ScriptPool.Proofs.Pool.Errand

/-!
What one step of a thread does to the scene.

The scene is the crew without the code in progress. A thread either goes about its errand, or it is
a worker that goes through its own loop; `Stride` tells the two apart and `World.advance_stride`
shows that there is nothing else.
-/

namespace ScriptPool

/-- Moves of a worker within a task that only concern the worker. -/
inductive TaskPlace.Moves (s : Submission) : TaskPlace → TaskPlace → Prop where
  | prepare (activity : Activity) : Moves s .preparing (.running activity)
  | finish (activity : Activity) (outcome : Invocation) :
      Moves s (.running activity) (.lockingMain outcome)
  | lock (outcome : Invocation) (h : outcome.isHealthy = true) :
      Moves s (.lockingMain outcome) (.writing outcome s.task.call.returns outcome.results)
  | lockErrored (outcome : Invocation) (h : outcome.isHealthy = false) :
      Moves s (.lockingMain outcome) (.unlockingMain outcome)
  | write (outcome : Invocation) (name : String) (names : List String) (results : List Value) :
      Moves s (.writing outcome (name :: names) results) (.writing outcome names results.tail)
  | written (outcome : Invocation) (results : List Value) :
      Moves s (.writing outcome [] results) (.unlockingMain outcome)
  | unlock (outcome : Invocation) : Moves s (.unlockingMain outcome) (.counting outcome)
  | count (outcome : Invocation) : Moves s (.counting outcome) (.countingTotal outcome)
  | replace : Moves s .replacing .clearing

/-- Moves of a worker that only concern the worker. -/
inductive WorkerPlace.Moves : WorkerPlace → WorkerPlace → Prop where
  | begin : Moves .beginning .receiving
  | measure (pending : Nat) : Moves .measuring (.comparing pending)
  | compare (pending : Nat) (once : Bool) : Moves (.comparing pending) (.checking once)
  | check (once : Bool) : Moves (.checking once) (.popping once)
  | task (once : Bool) (s : Submission) {p p' : TaskPlace} (h : p.Moves s p') :
      Moves (.executing once s p) (.executing once s p')
  | exit : Moves .exiting .gone

def Command.place : Command → WorkerPlace
  | .run => .measuring
  | .stop => .exiting

/-- One step of a worker's own loop: what becomes of the crew around the worker, and what of the
worker. -/
inductive Crew.Own (serial : Nat) (c : Crew) (hand : Hand) : Crew → Hand → Prop where
  | move (p : WorkerPlace) (h : hand.place.Moves p) : Own serial c hand c { hand with place := p }
  | receive (command : Command) (rest : List Command) (hplace : hand.place = .receiving)
      (hmailbox : hand.mailbox = command :: rest) :
      Own serial c hand c { hand with mailbox := rest, place := command.place }
  | leave (once : Bool) (hplace : hand.place = .checking once ∨ hand.place = .popping once)
      (hqueue : c.queue = []) : Own serial c hand c { hand with place := .resting }
  | pop (once : Bool) (s : Submission) (rest : List Submission)
      (hplace : hand.place = .popping once) (hfree : c.queueHolder? = none)
      (hqueue : c.queue = s :: rest) :
      Own serial c hand { c with queue := rest, queueHolder? := some (.worker serial) }
        { hand with place := .executing once s .publishing }
  | publish (once : Bool) (s : Submission) (hplace : hand.place = .executing once s .publishing) :
      Own serial c hand c
        { hand with current? := some s.function, place := .executing once s .unlockingQueue }
  | unlockQueue (once : Bool) (s : Submission)
      (hplace : hand.place = .executing once s .unlockingQueue) :
      Own serial c hand { c with queueHolder? := none }
        { hand with place := .executing once s .preparing }
  | fail (once : Bool) (s : Submission) (outcome : Invocation)
      (hplace : hand.place = .executing once s (.countingTotal outcome)) :
      Own serial c hand { c with failed := c.failed + 1 }
        { hand with place := .executing once s .replacing }
  | complete (once : Bool) (s : Submission) (outcome : Invocation)
      (hplace : hand.place = .executing once s (.countingTotal outcome)) :
      Own serial c hand { c with completed := c.completed + 1 }
        { hand with place := .executing once s .clearing }
  | clear (once : Bool) (s : Submission) (hplace : hand.place = .executing once s .clearing) :
      Own serial c hand c { hand with current? := none, place := .executing once s .notifying }
  | report (once : Bool) (s : Submission) (hplace : hand.place = .executing once s .notifying) :
      Own serial c hand { c with generation := c.generation + 1 }
        { hand with place := if once then .resting else .checking once }
  | rest (hplace : hand.place = .resting) :
      Own serial c hand c { hand with running := false, place := .announcing }
  | announce (hplace : hand.place = .announcing) :
      Own serial c hand { c with generation := c.generation + 1 }
        { hand with place := .receiving }

def Crew.put (c : Crew) (serial : Nat) (hand : Hand) : Crew :=
  { c with hands := c.hands.set serial hand }

/-- Code in progress about which nothing is known. -/
def Activity.blank : Activity :=
  ⟨⟨0, "", .done [], [], false⟩, none⟩

/-- The place without the code in progress. -/
def WorkerPlace.bare : WorkerPlace → WorkerPlace
  | .executing once s (.running _) => .executing once s (.running .blank)
  | place => place

theorem WorkerPlace.apply_bare {α : Type} {f : WorkerPlace → α}
    (h : ∀ once s activity, f (.executing once s (.running .blank)) =
      f (.executing once s (.running activity))) (p : WorkerPlace) : f p.bare = f p := by
  cases p with
  | executing once s p =>
      cases p with
      | running activity => exact h once s activity
      | _ => rfl
  | _ => rfl

def Hand.bare (hand : Hand) : Hand :=
  { hand with place := hand.place.bare }

def Crew.scene (c : Crew) : Crew :=
  { c with hosts := [], hands := c.hands.map Hand.bare }

/-- The part of the world that scheduling is about, without the code in progress. -/
def World.scene (w : World) : Crew :=
  w.crew.scene

/-- The errand of a thread. -/
def World.errand (w : World) : ThreadId → Errand :=
  w.crew.errand

theorem Crew.scene_modify {f g : Hand → Hand} (h : ∀ hand, (f hand).bare = g hand.bare)
    (c : Crew) (serial : Nat) : (c.modify serial f).scene = c.scene.modify serial g := by
  simp only [Crew.modify, Crew.scene]
  rw [map_modify_of_comm h]

theorem Crew.isRunning_scene (c : Crew) (serial : Nat) :
    c.scene.isRunning serial = c.isRunning serial := by
  simp only [Crew.isRunning, Crew.scene, List.getElem?_map]
  cases c.hands[serial]? with
  | none | some => rfl

theorem Crew.Step.scene {me : ThreadId} {c c' : Crew} {e e' : Errand}
    (h : Crew.Step me c e c' e') : Crew.Step me c.scene e c'.scene e' := by
  cases h with
  | still => exact .still
  | push task hfree => exact .push task hfree
  | count => exact .count
  | notify => exact .notify
  | lock _ hfree he => exact .lock _ hfree he
  | lockHired serial hfree => exact .lockHired serial hfree
  | skip serial rest => exact .skip serial rest
  | stop rest => exact .stop rest
  | raise serial rest hme hidle =>
      rw [Crew.scene_modify (g := fun hand => { hand with running := true }) fun _ => rfl]
      rw [← Crew.isRunning_scene] at hidle
      exact .raise serial rest hme hidle
  | send serial rest =>
      rw [Crew.scene_modify
        (g := fun hand => { hand with mailbox := hand.mailbox ++ [.run] }) fun _ => rfl]
      exact .send serial rest
  | hold => exact .hold
  | unlock => exact .unlock
  | take => exact .take
  | tell serial =>
      rw [Crew.scene_modify
        (g := fun hand => { hand with mailbox := hand.mailbox ++ [.stop] }) fun _ => rfl]
      exact .tell serial
  | hire =>
      have hscene : Crew.scene { c with hands := c.hands ++ [Crew.newHand] } =
          { c.scene with hands := c.scene.hands ++ [Crew.newHand] } := by
        simp [Crew.scene, Crew.newHand, Hand.bare, WorkerPlace.bare]
      have hlength : c.hands.length = c.scene.hands.length := by simp [Crew.scene]
      rw [hscene, hlength]
      exact .hire
  | add serial => exact .add serial

section View

variable {α : Type} {f : Option HostPlace → α} {g : WorkerPlace → α}

theorem Crew.view_modify {h : Hand → Hand} (hh : ∀ hand, (h hand).place = hand.place)
    (c : Crew) (serial : Nat) (thread : ThreadId) :
    (c.modify serial h).view f g thread = c.view f g thread := by
  cases thread with
  | host host => rfl
  | worker i =>
      simp only [Crew.modify, Crew.view, List.getElem?_modify]
      cases c.hands[i]? with
      | none => rfl
      | some hand =>
          by_cases hi : serial = i
          · simp [hi, hh]
          · simp [hi]

theorem Crew.Step.view_eq {me : ThreadId} {c c' : Crew} {e e' : Errand}
    (h : Crew.Step me c e c' e') (thread : ThreadId) :
    c'.view f g thread = c.view f g thread := by
  cases h with
  | raise | send | tell =>
      apply Crew.view_modify
      intro hand
      rfl
  | hire =>
      cases thread with
      | host host => rfl
      | worker i =>
          simp only [Crew.view, List.getElem?_append]
          split
          · rfl
          · next hi =>
              rw [List.getElem?_eq_none (Nat.le_of_not_lt hi)]
              by_cases hz : i - c.hands.length = 0
              · simp [hz, Crew.newHand]
              · rw [List.getElem?_eq_none (by simp; omega)]
  | still | push | count | notify | lock | lockHired | skip | stop | hold | unlock | take | add =>
      rfl

end View

theorem Crew.Step.hosts_eq {me : ThreadId} {c c' : Crew} {e e' : Errand}
    (h : Crew.Step me c e c' e') : c'.hosts = c.hosts := by
  cases h with
  | still | push | count | notify | lock | lockHired | skip | stop | raise | send | hold
  | unlock | take | tell | hire | add => rfl

/-- Whether the thread is not a worker, or a worker in the middle of the code of a task. -/
def Crew.InCode (c : Crew) : ThreadId → Prop
  | .host _ => True
  | .worker serial => ∃ hand once s activity, c.hands[serial]? = some hand ∧
      hand.place = .executing once s (.running activity)

/-- What a step of a thread does: the thread goes about its errand, or it is a worker that goes
through its own loop. -/
inductive Stride (me : ThreadId) (w w' : World) : Prop where
  | errand (hcode : w.scene.InCode me)
      (h : Crew.Step me w.scene (w.errand me) w'.scene (w'.errand me))
      (hview : ∀ {α : Type} (f : Option HostPlace → α) (g : WorkerPlace → α) (thread : ThreadId),
        thread ≠ me → w'.crew.view f g thread = w.crew.view f g thread)
  | own {serial : Nat} {hand hand' : Hand} {c : Crew} (hme : me = .worker serial)
      (hhand : w.scene.hands[serial]? = some hand) (h : Crew.Own serial w.scene hand c hand')
      (hscene : w'.scene = c.put serial hand')
      (haway : w.errand me = .away) (herrand : ∀ thread, w'.errand thread = w.errand thread)
      (hidle : w.asking? me = none) (hasking : ∀ thread, w'.asking? thread = w.asking? thread)
      (hview : ∀ {α : Type} (f : Option HostPlace → α) (g : WorkerPlace → α) (thread : ThreadId),
        thread ≠ me → w'.crew.view f g thread = w.crew.view f g thread)

section View

variable {α : Type} {f : Option HostPlace → α} {g : WorkerPlace → α} {w : World}

theorem World.view_host {host : Nat} {place : HostPlace} (h : w.hosts[host]? = some place) :
    w.crew.view f g (.host host) = f (some place) := by
  simp only [Crew.view, World.crew]
  rw [h]

theorem World.view_worker {serial : Nat} {worker : Worker}
    (h : w.workers[serial]? = some worker) :
    w.crew.view f g (.worker serial) = g worker.place := by
  simp only [Crew.view, World.crew, List.getElem?_map]
  rw [h]
  rfl

theorem World.view_placeHost {host : Nat} (hhost : host < w.hosts.length) (place : HostPlace) :
    (w.placeHost host place).crew.view f g (.host host) = f (some place) :=
  World.view_host (by simp [World.placeHost, hhost])

theorem World.view_placeHost_of_ne {host : Nat} {place : HostPlace} {thread : ThreadId}
    (h : thread ≠ .host host) :
    (w.placeHost host place).crew.view f g thread = w.crew.view f g thread := by
  cases thread with
  | worker serial => rfl
  | host i =>
      have hi : host ≠ i := fun hi => h (by rw [hi])
      simp [Crew.view, World.crew, World.placeHost, hi]

theorem World.view_modifyWorker {serial : Nat} {worker : Worker} {h : Worker → Worker}
    (hworker : w.workers[serial]? = some worker) :
    (w.modifyWorker serial h).crew.view f g (.worker serial) = g (h worker).place :=
  World.view_worker (by simp [World.modifyWorker, hworker])

theorem World.view_modifyWorker_of_ne {serial : Nat} {h : Worker → Worker} {thread : ThreadId}
    (hne : thread ≠ .worker serial) :
    (w.modifyWorker serial h).crew.view f g thread = w.crew.view f g thread := by
  cases thread with
  | host host => rfl
  | worker i =>
      have hi : serial ≠ i := fun hi => hne (by rw [hi])
      simp [Crew.view, World.crew, World.modifyWorker, hi]

/-- The request that a thread of the host waits for. -/
def HostPlace.asking? : HostPlace → Option Asking
  | .asking a => some a
  | .running activity => activity.asking?
  | _ => none

def WorkerPlace.asking? : WorkerPlace → Option Asking
  | .executing _ _ (.running activity) => activity.asking?
  | _ => none

theorem WorkerPlace.errand_eq (p : WorkerPlace) : p.errand = p.asking?.elim .away Asking.errand := by
  cases p with
  | executing once s p =>
      cases p with
      | publishing | unlockingQueue | preparing | running | lockingMain | writing
      | unlockingMain | counting | countingTotal | replacing | clearing | notifying => rfl
  | _ => rfl

theorem World.errand_eq_view (w : World) (thread : ThreadId) :
    w.errand thread = w.crew.view (·.elim .away HostPlace.errand) WorkerPlace.errand thread :=
  rfl

theorem World.asking?_eq_view (w : World) (thread : ThreadId) :
    w.asking? thread = w.crew.view (·.bind HostPlace.asking?) WorkerPlace.asking? thread := by
  cases thread with
  | host host =>
      simp only [World.asking?, World.host?, Crew.view, World.crew]
      cases w.hosts[host]? with
      | none => rfl
      | some place =>
          cases place with
          | free | opening | asking | closing | measuring | running => rfl
  | worker serial =>
      simp only [World.asking?, Crew.view, World.crew, List.getElem?_map]
      cases w.workers[serial]? with
      | none => rfl
      | some worker =>
          obtain ⟨_, _, _, _, _, _, _, place⟩ := worker
          cases place with
          | executing once s p =>
              cases p with
              | publishing | unlockingQueue | preparing | running | lockingMain | writing
              | unlockingMain | counting | countingTotal | replacing | clearing | notifying => rfl
          | _ => rfl

end View

section Frame

variable {me thread : ThreadId} {w w' : World} (h : Stride me w w') (hne : thread ≠ me)
include h hne

theorem Stride.view_eq {α : Type} (f : Option HostPlace → α) (g : WorkerPlace → α) :
    w'.crew.view f g thread = w.crew.view f g thread := by
  cases h with
  | errand _ _ hview => exact hview f g thread hne
  | own _ _ _ _ _ _ _ _ hview => exact hview f g thread hne

theorem Stride.errand_of_ne : w'.errand thread = w.errand thread := by
  rw [World.errand_eq_view, World.errand_eq_view]
  exact h.view_eq hne _ _

theorem Stride.asking?_of_ne : w'.asking? thread = w.asking? thread := by
  rw [World.asking?_eq_view, World.asking?_eq_view]
  exact h.view_eq hne _ _

end Frame

theorem Stride.of_host {w v : World} {host : Nat} {place place' : HostPlace}
    (hplace : w.hosts[host]? = some place)
    (h : Crew.Step (.host host) w.crew place.errand v.crew place'.errand) :
    Stride (.host host) w (v.placeHost host place') := by
  have hlt : host < v.hosts.length := by
    rw [show v.hosts = w.hosts from h.hosts_eq]
    exact (List.getElem?_eq_some_iff.mp hplace).1
  have hview {α : Type} (f : Option HostPlace → α) (g : WorkerPlace → α) (thread : ThreadId)
      (hthread : thread ≠ .host host) :
      (v.placeHost host place').crew.view f g thread = w.crew.view f g thread := by
    rw [World.view_placeHost_of_ne hthread]
    exact h.view_eq thread
  refine Stride.errand trivial ?_ hview
  rw [World.errand_eq_view, World.view_host hplace, World.errand_eq_view,
    World.view_placeHost hlt]
  exact h.scene

/-- A step of a thread of the host is one of its errands, also where the thread does not wait for
anything after it. -/
theorem HostPlace.Goes.crew {library : Library} {pick host : Nat} {place place' : HostPlace}
    {w v : World} (h : place.Goes library pick host w v place') :
    Crew.Step (.host host) w.crew place.errand v.crew place'.errand := by
  cases h with
  | opens hs | opened hs => exact openStep_crew hs
  | asks hs | replied hs => exact askingStep_crew hs
  | closes hs | closed hs => exact shutdownStep_crew hs
  | measures hs | measured hs => exact measureStep_crew hs
  | runs hs | ended hs => exact activityStep_crew hs

theorem hostStep_stride {library : Library} {pick host : Nat} {place : HostPlace} {w w' : World}
    (hplace : w.hosts[host]? = some place) (h : hostStep library pick host place w = some w') :
    Stride (.host host) w w' := by
  obtain ⟨v, place', rfl, hgoes⟩ := hostStep_goes h
  exact Stride.of_host hplace hgoes.crew

theorem World.scene_hands_getElem? {w : World} {serial : Nat} {worker : Worker}
    (h : w.workers[serial]? = some worker) :
    w.scene.hands[serial]? = some worker.hand.bare := by
  simp [World.scene, World.crew, Crew.scene, h]

theorem World.worker_of_scene_hands {w : World} {serial : Nat} {hand : Hand}
    (h : w.scene.hands[serial]? = some hand) :
    ∃ worker, w.workers[serial]? = some worker ∧ worker.hand.bare = hand := by
  simpa [World.scene, World.crew, Crew.scene] using h

theorem modify_eq_set_of_getElem? {α : Type} {f : α → α} {l : List α} {i : Nat} {a : α}
    (ha : l[i]? = some a) : l.modify i f = l.set i (f a) := by
  apply List.ext_getElem?
  intro j
  rw [List.getElem?_modify, List.getElem?_set]
  obtain ⟨hlt, rfl⟩ := List.getElem?_eq_some_iff.mp ha
  by_cases hij : i = j
  · subst hij
    simp [hlt]
  · simp [hij]

theorem World.scene_modifyWorker {w : World} {serial : Nat} {worker : Worker} {f : Worker → Worker}
    (h : w.workers[serial]? = some worker) :
    (w.modifyWorker serial f).scene = w.scene.put serial (f worker).hand.bare := by
  simp only [World.scene, World.modifyWorker, World.crew, Crew.scene, Crew.put,
    modify_eq_set_of_getElem? h, List.map_set]

theorem World.scene_modifyWorker_of_comm {f : Worker → Worker} {g : Hand → Hand}
    (h : ∀ worker, (f worker).hand.bare = g worker.hand.bare) (w : World) (serial : Nat) :
    (w.modifyWorker serial f).scene = w.scene.modify serial g := by
  have hhands : (w.workers.modify serial f).map (Hand.bare ∘ Worker.hand) =
      (w.workers.map (Hand.bare ∘ Worker.hand)).modify serial g := map_modify_of_comm h _ _
  simp only [World.scene, World.modifyWorker, World.crew, Crew.scene, Crew.modify, List.map_map,
    hhands]

theorem Stride.of_own {w v : World} {serial : Nat} {worker : Worker} {p : WorkerPlace}
    {f : Worker → Worker} (hworker : w.workers[serial]? = some worker) (hplace : worker.place = p)
    (hworkers : v.workers = w.workers) (hhosts : v.hosts = w.hosts)
    (h : Crew.Own serial w.scene worker.hand.bare v.scene (f worker).hand.bare)
    (hidle : p.asking? = none) (hidle' : (f worker).place.asking? = none) :
    Stride (.worker serial) w (v.modifyWorker serial f) := by
  subst hplace
  have haway : worker.place.errand = .away := by rw [WorkerPlace.errand_eq, hidle]; rfl
  have haway' : (f worker).place.errand = .away := by rw [WorkerPlace.errand_eq, hidle']; rfl
  have hv : v.workers[serial]? = some worker := by rw [hworkers, hworker]
  have hview {α : Type} (k : Option HostPlace → α) (g : WorkerPlace → α) (thread : ThreadId)
      (hthread : thread ≠ .worker serial) :
      (v.modifyWorker serial f).crew.view k g thread = w.crew.view k g thread := by
    rw [World.view_modifyWorker_of_ne hthread]
    cases thread with
    | host | worker => simp only [Crew.view, World.crew, hworkers, hhosts]
  have hsame {α : Type} {k : Option HostPlace → α} {g : WorkerPlace → α}
      (hg : g (f worker).place = g worker.place) (thread : ThreadId) :
      (v.modifyWorker serial f).crew.view k g thread = w.crew.view k g thread := by
    by_cases hthread : thread = .worker serial
    · subst hthread
      rw [World.view_modifyWorker hv, hg, World.view_worker hworker]
    · exact hview k g thread hthread
  refine .own rfl (World.scene_hands_getElem? hworker) h (World.scene_modifyWorker hv) ?_
    (fun thread => ?_) ?_ (fun thread => ?_) hview
  · rw [World.errand_eq_view, World.view_worker hworker, haway]
  · rw [World.errand_eq_view, World.errand_eq_view]
    exact hsame (by rw [haway, haway']) thread
  · rw [World.asking?_eq_view, World.view_worker hworker, hidle]
  · rw [World.asking?_eq_view, World.asking?_eq_view]
    exact hsame (by rw [hidle, hidle']) thread

theorem Crew.Step.place_eq {me : ThreadId} {c c' : Crew} {e e' : Errand}
    (h : Crew.Step me c e c' e') {serial : Nat} {hand : Hand} (hhand : c.hands[serial]? = some hand) :
    ∃ hand', c'.hands[serial]? = some hand' ∧ hand'.place = hand.place := by
  cases h with
  | raise i | send i | tell i =>
      by_cases hi : i = serial
      · simp [Crew.modify, hhand, hi]
      · simp [Crew.modify, hhand, hi]
  | hire =>
      refine ⟨hand, ?_, rfl⟩
      rw [List.getElem?_append_left (List.getElem?_eq_some_iff.mp hhand).1, hhand]
  | still | push | count | notify | lock | lockHired | skip | stop | hold | unlock | take | add =>
      exact ⟨hand, hhand, rfl⟩

theorem World.scene_running {v : World} {serial : Nat} {worker : Worker} {once : Bool}
    {s : Submission} {activity : Activity} (hworker : v.workers[serial]? = some worker)
    (hplace : worker.place = .executing once s (.running activity)) (activity' : Activity) :
    (v.placeWorker serial (.executing once s (.running activity'))).scene = v.scene := by
  have hsame : Hand.bare (Worker.hand
      { worker with place := .executing once s (.running activity') }) = worker.hand.bare := by
    simp [Hand.bare, Worker.hand, hplace, WorkerPlace.bare]
  obtain ⟨hlt, hget⟩ := List.getElem?_eq_some_iff.mp (World.scene_hands_getElem? hworker)
  rw [World.placeWorker, World.scene_modifyWorker hworker, hsame, Crew.put, ← hget,
    List.set_getElem_self]

theorem Crew.Step.worker_eq {me : ThreadId} {w v : World} {e e' : Errand}
    (h : Crew.Step me w.crew e v.crew e') {serial : Nat} {worker : Worker}
    (hworker : w.workers[serial]? = some worker) :
    ∃ worker', v.workers[serial]? = some worker' ∧ worker'.place = worker.place := by
  have hhand : w.crew.hands[serial]? = some worker.hand := by simp [World.crew, hworker]
  obtain ⟨hand', hhand', hplace'⟩ := h.place_eq hhand
  obtain ⟨worker', hworker', rfl⟩ : ∃ worker', v.workers[serial]? = some worker' ∧
      worker'.hand = hand' := by
    simpa [World.crew] using hhand'
  exact ⟨worker', hworker', hplace'⟩

theorem Stride.of_running {w v : World} {serial : Nat} {worker : Worker} {once : Bool}
    {s : Submission} {activity activity' : Activity}
    (hworker : w.workers[serial]? = some worker)
    (hplace : worker.place = .executing once s (.running activity))
    (h : Crew.Step (.worker serial) w.crew activity.errand v.crew activity'.errand) :
    Stride (.worker serial) w
      (v.placeWorker serial (.executing once s (.running activity'))) := by
  obtain ⟨worker', hworker', hplace'⟩ := h.worker_eq hworker
  have hcode : w.scene.InCode (.worker serial) :=
    ⟨_, once, s, .blank, World.scene_hands_getElem? hworker, by
      simp [Worker.hand, Hand.bare, hplace, WorkerPlace.bare]⟩
  have hview {α : Type} (f : Option HostPlace → α) (g : WorkerPlace → α) (thread : ThreadId)
      (hthread : thread ≠ .worker serial) :
      (v.placeWorker serial (.executing once s (.running activity'))).crew.view f g thread =
        w.crew.view f g thread := by
    rw [World.placeWorker, World.view_modifyWorker_of_ne hthread]
    exact h.view_eq thread
  refine .errand hcode ?_ hview
  rw [World.scene_running hworker' (hplace'.trans hplace), World.errand, Crew.errand,
    World.view_worker hworker, hplace, World.errand_eq_view, World.placeWorker,
    World.view_modifyWorker hworker']
  exact h.scene

theorem World.privateContext_scene (w : World) :
    w.privateContext.2.scene = w.scene ∧ w.privateContext.2.workers = w.workers ∧
      w.privateContext.2.hosts = w.hosts := by
  unfold World.privateContext
  split
  · exact ⟨rfl, rfl, rfl⟩
  · exact ⟨rfl, rfl, rfl⟩

theorem Stride.of_move {w v : World} {serial : Nat} {worker : Worker} {p p' : WorkerPlace}
    (hworker : w.workers[serial]? = some worker) (hplace : worker.place = p)
    (hworkers : v.workers = w.workers) (hhosts : v.hosts = w.hosts) (hscene : v.scene = w.scene)
    (h : p.bare.Moves p'.bare) (hidle : p.asking? = none) (hidle' : p'.asking? = none) :
    Stride (.worker serial) w (v.placeWorker serial p') := by
  refine Stride.of_own hworker hplace hworkers hhosts ?_ hidle hidle'
  subst hplace
  rw [hscene]
  exact .move p'.bare h

theorem World.modifyWorker_modifyWorker (w : World) (serial : Nat) (f g : Worker → Worker) :
    (w.modifyWorker serial f).modifyWorker serial g = w.modifyWorker serial (g ∘ f) := by
  simp only [World.modifyWorker, List.modify_modify_eq]

/-- Where a step of executing a task leaves the worker. -/
def Stage.afterTask (once : Bool) (s : Submission) : Stage TaskPlace Unit → WorkerPlace
  | .going place => .executing once s place
  | .over () => if once then .resting else .checking once

theorem TaskPlace.Goes.stride {library : Library} {pick serial : Nat} {worker : Worker} {once : Bool}
    {s : Submission} {place place' : TaskPlace} {w v : World}
    (hworker : w.workers[serial]? = some worker)
    (hplace : worker.place = .executing once s place)
    (h : place.Goes library pick serial worker s.task w v place') :
    Stride (.worker serial) w (v.placeWorker serial (.executing once s place')) := by
  have hhand : worker.hand.bare.place = (WorkerPlace.executing once s place).bare := by
    rw [← hplace]
    rfl
  cases h with
  | published =>
      rw [World.placeWorker, World.modifyWorker_modifyWorker]
      exact Stride.of_own (v := w) hworker hplace rfl rfl (.publish once s hhand) rfl rfl
  | unlockedQueue =>
      exact Stride.of_own (v := { w with queueHolder? := none }) hworker hplace rfl rfl
        (.unlockQueue once s hhand) rfl rfl
  | prepared => exact Stride.of_move hworker hplace rfl rfl rfl (.task once s (.prepare _)) rfl rfl
  | ran hs => exact Stride.of_running hworker hplace (activityStep_crew hs)
  | ended hcode =>
      exact Stride.of_move hworker hplace rfl rfl rfl (.task once s (.finish _ _)) hcode rfl
  | locked _ hhealthy =>
      exact Stride.of_move hworker hplace rfl rfl rfl (.task once s (.lock _ hhealthy)) rfl rfl
  | lockedErrored _ herrored =>
      exact Stride.of_move hworker hplace rfl rfl rfl (.task once s (.lockErrored _ herrored)) rfl rfl
  | written =>
      exact Stride.of_move hworker hplace rfl rfl rfl (.task once s (.written _ _)) rfl rfl
  | wrote =>
      exact Stride.of_move hworker hplace rfl rfl rfl (.task once s (.write _ _ _ _)) rfl rfl
  | unlocked => exact Stride.of_move hworker hplace rfl rfl rfl (.task once s (.unlock _)) rfl rfl
  | counted outcome =>
      rw [World.placeWorker, World.modifyWorker_modifyWorker]
      refine Stride.of_own (v := w) hworker hplace rfl rfl ?_ rfl rfl
      have hmove : worker.hand.bare.place.Moves (.executing once s (.countingTotal outcome)) := by
        rw [hhand]
        exact .task once s (.count _)
      rw [Function.comp_apply]
      split
      · exact .move _ hmove
      · exact .move _ hmove
  | failed e =>
      exact Stride.of_own (v := World.report { w with failed := w.failed + 1 }
        (.taskFailed s.task.function s.task.call.text e.message)) hworker hplace rfl rfl
        (.fail once s _ hhand) rfl rfl
  | @completed outcome hhealthy =>
      refine Stride.of_own (v := World.report { w with completed := w.completed + 1 } _)
        hworker hplace rfl rfl ?_ rfl rfl
      cases outcome with
      | errored e => exact absurd rfl (hhealthy e)
      | completed results | suspended results => exact .complete once s _ hhand
  | @replaced fresh u hcontext =>
      obtain ⟨hscene, hworkers, hhosts⟩ := w.privateContext_scene
      rw [hcontext] at hscene hworkers hhosts
      rw [World.placeWorker, World.modifyWorker_modifyWorker]
      refine Stride.of_own (v := { u.report .contextReplaced with
        engine := (u.report .contextReplaced).engine.unregister worker.context })
        hworker hplace hworkers hhosts ?_ rfl rfl
      have hsame : World.scene { u.report .contextReplaced with
          engine := (u.report .contextReplaced).engine.unregister worker.context } =
          w.scene := hscene
      rw [hsame]
      exact .move _ (hhand ▸ .task once s .replace)
  | @notReplaced e u hcontext =>
      obtain ⟨hscene, hworkers, hhosts⟩ := w.privateContext_scene
      rw [hcontext] at hscene hworkers hhosts
      exact Stride.of_move (v := u.report (.replacementFailed e.message)) hworker hplace
        hworkers hhosts hscene (.task once s .replace) rfl rfl
  | cleared =>
      rw [World.placeWorker, World.modifyWorker_modifyWorker]
      exact Stride.of_own (v := w) hworker hplace rfl rfl (.clear once s hhand) rfl rfl

theorem Worker.receive_eq {worker : Worker} {command : Command} {rest : List Command}
    (h : worker.mailbox = command :: rest) :
    worker.receive = { worker with mailbox := rest, place := command.place } := by
  simp only [Worker.receive, h]
  cases command with
  | run | stop => rfl

theorem workerStep_stride {library : Library} {pick serial : Nat} {worker : Worker} {w w' : World}
    (hworker : w.workers[serial]? = some worker)
    (h : workerStep library pick serial worker w = some w') : Stride (.worker serial) w w' := by
  obtain ⟨place, hplace, hgoes⟩ := workerStep_goes h
  have hhand : worker.hand.bare.place = place.bare := congrArg WorkerPlace.bare hplace
  cases hgoes with
  | began => exact Stride.of_move (v := w.report _) hworker hplace rfl rfl rfl .begin rfl rfl
  | received hmail =>
      obtain ⟨command, rest, hmailbox⟩ := List.exists_cons_of_ne_nil hmail
      have hown : Crew.Own serial w.scene _ _ _ := .receive command rest hhand hmailbox
      refine Stride.of_own (v := w) hworker hplace rfl rfl ?_ rfl ?_
      · rw [Worker.receive_eq hmailbox]
        cases command with
        | run | stop => exact hown
      · rw [Worker.receive_eq hmailbox]
        cases command with
        | run | stop => rfl
  | measured => exact Stride.of_move hworker hplace rfl rfl rfl (.measure _) rfl rfl
  | compared => exact Stride.of_move hworker hplace rfl rfl rfl (.compare _ _) rfl rfl
  | checkedEmpty once _ hqueue =>
      exact Stride.of_own (v := w) hworker hplace rfl rfl (.leave once (.inl hhand) hqueue) rfl rfl
  | checked => exact Stride.of_move hworker hplace rfl rfl rfl (.check _) rfl rfl
  | missed once _ hqueue =>
      exact Stride.of_own (v := w) hworker hplace rfl rfl (.leave once (.inr hhand) hqueue) rfl rfl
  | @popped once s rest hfree hqueue =>
      exact Stride.of_own (v := { w with queue := rest, queueHolder? := some (.worker serial) })
        hworker hplace rfl rfl (.pop once s rest hhand hfree hqueue) rfl rfl
  | went once hs => exact hs.stride hworker hplace
  | finished once s =>
      have hown : Crew.Own serial w.scene _ _ _ := .report once s hhand
      cases once with
      | false | true => exact Stride.of_own (v := w.notify) hworker hplace rfl rfl hown rfl rfl
  | rested => exact Stride.of_own (v := w) hworker hplace rfl rfl (.rest hhand) rfl rfl
  | announced =>
      exact Stride.of_own (v := w.notify) hworker hplace rfl rfl (.announce hhand) rfl rfl
  | exited =>
      exact Stride.of_move
        (v := { w.report .loopFinished with
          engine := (w.report .loopFinished).engine.unregister worker.context })
        hworker hplace rfl rfl rfl .exit rfl rfl

theorem World.advance_stride {library : Library} {pick : Nat} {w w' : World} {me : ThreadId}
    (h : w.advance library pick me = some w') : Stride me w w' := by
  cases me with
  | host host =>
      obtain ⟨place, hplace, h⟩ := World.advance_host_iff.mp h
      exact hostStep_stride hplace h
  | worker serial =>
      obtain ⟨worker, hworker, h⟩ := World.advance_worker_iff.mp h
      exact workerStep_stride hworker h

theorem HostCall.place_errand (library : Library) (call : HostCall) :
    (call.place library).errand = .away := by
  cases call with
  | ask source r => exact Request.begin_errand source r
  | shutDown | measure | invoke | load => rfl

theorem HostCall.place_asking? (library : Library) (call : HostCall) :
    (call.place library).asking? = none ∨
      ∃ r source, (call.place library).asking? = some (Request.begin source r) := by
  cases call with
  | ask source r => exact .inr ⟨r, source, rfl⟩
  | shutDown | measure | invoke | load => exact .inl rfl

theorem World.free_of_canBegin {w : World} {host : Nat} {call : HostCall}
    (h : w.canBegin host call = true) : ∃ last?, w.hosts[host]? = some (.free last?) := by
  simp only [World.canBegin, Bool.and_eq_true, World.isFree, World.host?] at h
  obtain ⟨⟨hfree, -⟩, -⟩ := h
  cases hh : w.hosts[host]? with
  | none => simp [hh] at hfree
  | some place =>
      cases place with
      | free =>
          simp [hh] at hfree
          exact ⟨_, rfl⟩
      | opening | asking | closing | measuring | running => simp [hh] at hfree

/-- What happens besides the steps of threads: the scene and all errands stay as they are, and a
thread of the host may begin to wait for a request. -/
structure Stir (w w' : World) : Prop where
  scene_eq : w'.scene = w.scene
  errand_eq : ∀ thread, w'.errand thread = w.errand thread
  asking : ∀ thread, w'.asking? thread = w.asking? thread ∨
    w.asking? thread = none ∧ ∃ r source, w'.asking? thread = some (Request.begin source r)

theorem Stir.of_crew {w w' : World} (h : w'.crew = w.crew) : Stir w w' where
  scene_eq := by rw [World.scene, World.scene, h]
  errand_eq := fun thread => by rw [World.errand, World.errand, h]
  asking := fun thread => .inl (by rw [World.asking?_eq_view, World.asking?_eq_view, h])

theorem World.begin_stir {library : Library} {w : World} {host : Nat} {call : HostCall}
    (h : w.canBegin host call = true) : Stir w (w.begin library host call) := by
  obtain ⟨last?, hfree⟩ := World.free_of_canBegin h
  have hlt := (List.getElem?_eq_some_iff.mp hfree).1
  refine ⟨rfl, fun thread => ?_, fun thread => ?_⟩
  · rw [World.errand_eq_view, World.errand_eq_view]
    by_cases hthread : thread = .host host
    · subst hthread
      rw [World.view_host hfree]
      refine (World.view_placeHost hlt _).trans ?_
      exact HostCall.place_errand library call
    · exact World.view_placeHost_of_ne hthread
  · rw [World.asking?_eq_view, World.asking?_eq_view]
    by_cases hthread : thread = .host host
    · subst hthread
      have hbegin : (w.begin library host call).crew.view (·.bind HostPlace.asking?)
          WorkerPlace.asking? (.host host) = (call.place library).asking? :=
        World.view_placeHost hlt _
      rw [hbegin, World.view_host hfree]
      rcases HostCall.place_asking? library call with hnone | hsome
      · exact .inl hnone
      · exact .inr ⟨rfl, hsome⟩
    · exact .inl (World.view_placeHost_of_ne hthread)

theorem World.move?_stride {library : Library} {w w' : World} {m : Move}
    (h : w.move? library m = some w') :
    (∃ pick me, m = .step pick me ∧ w.advance library pick me = some w' ∧ Stride me w w') ∨
      Stir w w' := by
  cases m with
  | step pick me => exact .inl ⟨pick, me, rfl, h, World.advance_stride h⟩
  | begin host call =>
      obtain ⟨hbegin, rfl⟩ := World.move?_begin_iff.mp h
      exact .inr (World.begin_stir hbegin)
  | setGlobal context name value =>
      obtain ⟨-, rfl⟩ := World.move?_setGlobal_iff.mp h
      exact .inr (.of_crew rfl)
  | addContext | openGate | openAllGates | setBudget =>
      cases h
      exact .inr (.of_crew rfl)

end ScriptPool
