import ScriptPool.Proofs.Pool.Secluded

namespace ScriptPool

/-- A worker on the books. -/
structure Post where
  id : Nat
  context : ContextId
  /-- The worker has been told to stop. -/
  dismissed : Bool
  gone : Bool

def WorkerPlace.isGone : WorkerPlace → Bool
  | .gone => true
  | _ => false

/-- Whether a worker has read its last command. -/
def WorkerPlace.isLeaving : WorkerPlace → Bool
  | .exiting | .gone => true
  | _ => false

def Worker.post (worker : Worker) : Post where
  id := worker.id
  context := worker.context
  dismissed := worker.mailbox.contains .stop || worker.place.isLeaving
  gone := worker.place.isGone

/-- What a coordinator owns of workers. -/
structure Staff where
  pool : List Nat
  poolSize : Nat
  shutDown : Bool
  registered : List ContextId
  /-- How many contexts have been made. -/
  made : Nat
  posts : List Post

def World.staff (w : World) : Staff where
  pool := w.pool
  poolSize := w.poolSize
  shutDown := w.shutDown
  registered := w.engine.registered
  made := w.engine.contexts.length
  posts := w.workers.map Worker.post

/-- Where a thread stands in what it does to the staff. Workers are dismissed to close the
coordinator or else to resize its pool. They are hired to resize the pool to some size, or to open
the coordinator. -/
inductive Duty where
  | off
  /-- Before the flag is raised. -/
  | swapping
  /-- Before all workers are taken out of the pool. -/
  | taking (closing : Bool)
  /-- The rest of the workers is still to be told to stop. -/
  | telling (closing : Bool) (rest : List Nat)
  /-- The thread of a worker is awaited. -/
  | awaiting (closing : Bool) (serial : Nat) (rest : List Nat)
  | hiring (size? : Option Nat) (id count : Nat)
  /-- A new worker has been made that is not in the pool. -/
  | arriving (size? : Option Nat) (serial id count : Nat)
  /-- Before the pool is counted. -/
  | counting
  /-- Before the size is stored. -/
  | sizing (size : Nat)

namespace Staff

def modify (s : Staff) (serial : Nat) (f : Post → Post) : Staff :=
  { s with posts := s.posts.modify serial f }

def register (s : Staff) : Staff :=
  { s with made := s.made + 1, registered := s.made :: s.registered.filter (· != s.made) }

def unregister (s : Staff) (c : ContextId) : Staff :=
  { s with registered := s.registered.filter (· != c) }

def newPost (id : Nat) (context : ContextId) : Post := ⟨id, context, false, false⟩

/-- One dealing of a thread with the staff, with its duty before and after. -/
inductive Step (me : ThreadId) (s : Staff) : Duty → Staff → Duty → Prop where
  | still (d : Duty) : Step me s d s d
  | enter : Step me s .off s (.taking false)
  | already (hdown : s.shutDown = true) : Step me s .swapping s .off
  | flag : Step me s .swapping { s with shutDown := true } (.taking true)
  | take (closing : Bool) :
      Step me s (.taking closing) { s with pool := [] } (.telling closing s.pool)
  | tell (closing : Bool) (serial : Nat) (rest : List Nat) (hme : me ≠ .worker serial) :
      Step me s (.telling closing (serial :: rest))
        (s.modify serial fun post => { post with dismissed := true })
        (.awaiting closing serial rest)
  | tellSelf (closing : Bool) (serial : Nat) (rest : List Nat) (hme : me = .worker serial) :
      Step me s (.telling closing (serial :: rest))
        (s.modify serial fun post => { post with dismissed := true }) (.telling closing rest)
  | await (closing : Bool) (serial : Nat) (rest : List Nat)
      (hgone : s.posts[serial]?.any (·.gone) = true) :
      Step me s (.awaiting closing serial rest) s (.telling closing rest)
  | cleared (count : Nat) : Step me s (.telling false []) s (.hiring (some count) 0 count)
  | closed : Step me s (.telling true []) s .off
  | hire (size? : Option Nat) (id count : Nat) (hid : id < count) :
      Step me s (.hiring size? id count)
        { s.register with posts := s.posts ++ [newPost id s.made] }
        (.arriving size? s.posts.length id count)
  | add (size? : Option Nat) (serial id count : Nat) :
      Step me s (.arriving size? serial id count) { s with pool := s.pool ++ [serial] }
        (.hiring size? (id + 1) count)
  | opened (id count : Nat) (hid : count ≤ id) : Step me s (.hiring none id count) s .off
  | hired (size id count : Nat) (hid : count ≤ id) :
      Step me s (.hiring (some size) id count) s (.sizing size)
  | lacking (id count : Nat) : Step me s (.hiring none id count) s .swapping
  | short (size id count : Nat) : Step me s (.hiring (some size) id count) s .counting
  | count : Step me s .counting s (.sizing s.pool.length)
  | size (n : Nat) : Step me s (.sizing n) { s with poolSize := n } .off
  | exit (serial : Nat) (post : Post) (hme : me = .worker serial)
      (hpost : s.posts[serial]? = some post) (hdismissed : post.dismissed = true) :
      Step me s .off
        ((s.modify serial fun post => { post with gone := true }).unregister post.context) .off
  | replace (serial : Nat) (post : Post) (hme : me = .worker serial)
      (hpost : s.posts[serial]? = some post) (hstays : post.gone = false) :
      Step me s .off
        ((s.modify serial fun post => { post with context := s.made }).register.unregister
          post.context) .off

end Staff

def DismissPlace.duty (closing : Bool) : DismissPlace → Duty
  | .locking | .taking => .taking closing
  | .telling rest _ => .telling closing rest
  | .awaiting serial rest _ => .awaiting closing serial rest

def HirePlace.duty (size? : Option Nat) : HirePlace → Duty
  | .creating id count => .hiring size? id count
  | .locking serial id count | .pushing serial id count => .arriving size? serial id count

def ResizePlace.duty (count : Nat) : ResizePlace → Duty
  | .dismissing _ place => place.duty false
  | .hiring _ place => place.duty count
  | .storing _ => .sizing count
  | .failing _ | .surveying _ => .counting
  | .keeping _ started => .sizing started
  | .checking | .reading | .locking _ | .placing _ | .joining .. | .driving .. | .drivingOn .. =>
    .off

def Asking.duty : Asking → Duty
  | .resize count place => place.duty count
  | _ => .off

def ShutdownPlace.duty : ShutdownPlace → Duty
  | .swapping => .swapping
  | .dismissing place => place.duty true
  | .notifying _ | .surveying _ => .off

def OpenPlace.duty : OpenPlace → Duty
  | .hiring place => place.duty none
  | .closing _ place => place.duty

def HostPlace.duty : HostPlace → Duty
  | .opening place => place.duty
  | .closing place => place.duty
  | .asking a => a.duty
  | .running activity => activity.asking?.elim .off Asking.duty
  | .free _ | .measuring _ => .off

def WorkerPlace.duty (place : WorkerPlace) : Duty :=
  place.asking?.elim .off Asking.duty

/-- The duty of a thread. -/
def World.duty (w : World) : ThreadId → Duty :=
  w.crew.view (·.elim .off HostPlace.duty) WorkerPlace.duty

/-- The duty after a step; a procedure that is over leaves the staff alone. -/
def Stage.duty {σ ρ : Type} (f : σ → Duty) : Stage σ ρ → Duty
  | .going place => f place
  | .over _ => .off

variable {library : Library} {pick : Nat} {me : ThreadId} {w v w' : World}

theorem World.staff_modifyWorker {f : Worker → Worker} {g : Post → Post}
    (h : ∀ worker, (f worker).post = g worker.post) (w : World) (serial : Nat) :
    (w.modifyWorker serial f).staff = w.staff.modify serial g := by
  simp only [World.modifyWorker, World.staff, Staff.modify]
  rw [map_modify_of_comm h]

theorem World.staff_modifyWorker_of_same {f : Worker → Worker}
    (h : ∀ worker, (f worker).post = worker.post) (w : World) (serial : Nat) :
    (w.modifyWorker serial f).staff = w.staff := by
  rw [World.staff_modifyWorker (g := id) h, Staff.modify, List.modify_id]

theorem World.staff_send_run (w : World) (serial : Nat) : (w.send serial .run).staff = w.staff := by
  apply World.staff_modifyWorker_of_same
  intro worker
  simp [Worker.post]

theorem World.staff_send_stop (w : World) (serial : Nat) :
    (w.send serial .stop).staff =
      w.staff.modify serial fun post => { post with dismissed := true } := by
  apply World.staff_modifyWorker
  intro worker
  simp [Worker.post]

theorem World.staff_report (w : World) (event : Event) : (w.report event).staff = w.staff :=
  rfl

theorem World.lockPool_staff (h : w.lockPool me = some w') : w'.staff = w.staff := by
  obtain ⟨-, rfl⟩ := World.lockPool_eq_some_iff.mp h
  rfl

theorem Oversees.staff (h : Oversees me w v) : v.staff = w.staff := by
  induction h with
  | refl => rfl
  | lock _ hlock ih => exact (World.lockPool_staff hlock).trans ih
  | raise _ serial ih =>
      refine Eq.trans ?_ ih
      apply World.staff_modifyWorker_of_same
      intro worker
      rfl
  | @send v _ serial ih => exact (v.staff_send_run serial).trans ih
  | unlock _ ih | report _ _ ih => exact ih

theorem submitStep_staff {source : ContextId} {place : SubmitPlace}
    {stage : Stage SubmitPlace Reply} (h : submitStep source me w place = some (v, stage)) :
    v.staff = w.staff := by
  cases stage with
  | going place' =>
      cases submitStep_goes h with
      | checked | checkedApart | locked | found | copied | moved | read | readApart | unlocked
      | pushed | counted | notified => rfl
      | tagged => simp [World.staff, Engine.set, Engine.setGlobals]
      | start hs => exact (startStep_oversees hs).staff
  | «over» reply =>
      cases submitStep_replies h with
      | refused | misread => rfl
      | idle hs => exact ((startStep_oversees hs).report _).staff
      | started _ hs => exact (startStep_oversees hs).staff

theorem World.staff_withSections (w : World) (sections : Registry) (events : List Event) :
    (w.withSections sections events).staff = w.staff := by
  have hreports (e : Engine) : (events.foldl Engine.report e).registered = e.registered ∧
      (events.foldl Engine.report e).contexts = e.contexts := by
    induction events generalizing e with
    | nil => exact ⟨rfl, rfl⟩
    | cons event events ih => exact ih (e.report event)
  simp [World.staff, World.withSections, hreports]

theorem dismissStep_staff (closing : Bool) {place : DismissPlace} {stage : Stage DismissPlace Nat}
    (h : dismissStep me w place = some (v, stage)) :
    match stage with
    | .going place' => Staff.Step me w.staff (place.duty closing) v.staff (place'.duty closing)
    | .over _ => v.staff = w.staff ∧ place.duty closing = .telling closing [] := by
  cases place with
  | locking =>
      simp only [dismissStep, Option.map_eq_some_iff, Prod.mk.injEq] at h
      obtain ⟨u, hlock, rfl, rfl⟩ := h
      have hsame := World.lockPool_staff hlock
      dsimp only
      rw [hsame]
      exact .still _
  | taking =>
      cases h
      exact .take closing
  | telling rest count =>
      cases rest with
      | nil =>
          cases h
          exact ⟨rfl, rfl⟩
      | cons serial rest =>
          simp only [dismissStep] at h
          split at h
          · cases h
            next hme =>
              dsimp only
              rw [World.staff_report, World.staff_send_stop]
              exact .tellSelf closing serial rest hme
          · cases h
            next hme =>
              dsimp only
              rw [World.staff_send_stop]
              exact .tell closing serial rest hme
  | awaiting serial rest count =>
      simp only [dismissStep] at h
      split at h
      · next hgone =>
          cases h
          refine .await closing serial rest ?_
          have hpost : w.staff.posts[serial]? = w.workers[serial]?.map Worker.post :=
            List.getElem?_map
          rw [hpost]
          simp only [World.isGone] at hgone
          cases hworker : w.workers[serial]? with
          | none =>
              rw [hworker] at hgone
              cases hgone
          | some worker =>
              rw [hworker] at hgone
              simp only [Option.map_some, Option.any_some, Worker.post] at hgone ⊢
              generalize worker.place = place at hgone
              cases place with
              | beginning | receiving | measuring | comparing | checking | popping | executing
              | resting | announcing | exiting => simp at hgone ⊢
              | gone =>
                  simp at hgone ⊢
                  rfl
      · cases h

theorem World.privateContext_staff {c : ContextId} (h : w.privateContext = (.ok c, v)) :
    c = w.staff.made ∧ v.staff = w.staff.register ∧ v.workers = w.workers := by
  unfold World.privateContext Engine.spawnContext at h
  split at h
  · next c' e heq =>
      cases h
      split at heq
      · cases heq
      · cases heq
        refine ⟨rfl, ?_, rfl⟩
        simp [World.staff, Staff.register, Engine.register, Engine.bind, Engine.report]
  · cases h

theorem hireStep_staff (size? : Option Nat) {place : HirePlace}
    {stage : Stage HirePlace (Except PoolError Unit)}
    (h : hireStep me w place = some (v, stage)) :
    match stage with
    | .going place' => Staff.Step me w.staff (place.duty size?) v.staff (place'.duty size?)
    | .over (.ok ()) => v.staff = w.staff ∧ ∃ id count, place = .creating id count ∧ count ≤ id
    | .over (.error e) => v.staff = w.staff ∧ ∃ id count message, place = .creating id count ∧
        id < count ∧ e = .workerStart id message := by
  cases place with
  | creating id count =>
      simp only [hireStep] at h
      split at h
      · next hid =>
          split at h
          · next c u hcontext =>
              cases h
              obtain ⟨rfl, hstaff, hworkers⟩ := World.privateContext_staff hcontext
              have hlength : u.workers.length = w.staff.posts.length := by
                rw [hworkers, World.staff, List.length_map]
              have hposts : u.staff.posts = w.staff.posts := by rw [hstaff]; rfl
              have hadded : (u.addWorker id w.staff.made).staff =
                  { w.staff.register with
                    posts := w.staff.posts ++ [Staff.newPost id w.staff.made] } := by
                rw [← hstaff, ← hposts]
                simp [World.addWorker, World.staff, Worker.post, Staff.newPost,
                  WorkerPlace.isLeaving, WorkerPlace.isGone]
              dsimp only
              rw [World.staff_report, hadded, hlength]
              exact .hire size? id count hid
          · next e u hcontext =>
              have hsame := World.privateContext_fails hcontext
              cases h
              subst hsame
              exact ⟨rfl, id, count, _, rfl, hid, rfl⟩
      · next hid =>
          cases h
          exact ⟨rfl, id, count, rfl, Nat.le_of_not_lt hid⟩
  | locking serial id count =>
      simp only [hireStep, Option.map_eq_some_iff, Prod.mk.injEq] at h
      obtain ⟨u, hlock, rfl, rfl⟩ := h
      have hsame := World.lockPool_staff hlock
      dsimp only
      rw [hsame]
      exact .still _
  | pushing serial id count =>
      cases h
      exact .add size? serial id count

theorem resizeStep_staff {count : Nat} {place : ResizePlace} {stage : Stage ResizePlace Reply}
    (h : resizeStep count me w place = some (v, stage)) :
    Staff.Step me w.staff (place.duty count) v.staff (stage.duty (ResizePlace.duty count)) := by
  have hstill {u : World} {d d' : Duty} (hsame : u.staff = w.staff) (hd : d = d') :
      Staff.Step me w.staff d u.staff d' := by
    rw [hsame, hd]
    exact .still _
  cases stage with
  | going place' =>
      cases resizeStep_goes h with
      | checked | read => exact .still _
      | locked | failed | placed => exact hstill rfl rfl
      | join _ hs => exact hstill (joinAllStep_oversees hs).staff rfl
      | joined _ hs =>
          rw [(joinAllStep_oversees hs).staff]
          exact .enter
      | dismiss _ hs => exact dismissStep_staff false hs
      | dismissed _ hs =>
          obtain ⟨hsame, hduty⟩ := dismissStep_staff false hs
          rw [hsame, ResizePlace.duty, hduty]
          exact .cleared count
      | hire _ hs => exact hireStep_staff (some count) hs
      | hired _ hs =>
          obtain ⟨hsame, id, n, rfl, hid⟩ := hireStep_staff (some count) hs
          rw [hsame]
          exact .hired count id n hid
      | lacking _ hs =>
          obtain ⟨hsame, id, n, message, rfl, -, -⟩ := hireStep_staff (some count) hs
          rw [hsame]
          exact .short count id n
      | stored => exact .size count
      | kept _ started => exact .size started
      | surveyed => exact .count
      | drive _ hs | driveOn _ hs => exact hstill (driveStep_oversees hs).staff rfl
  | «over» reply =>
      cases resizeStep_replies h with
      | refused | same => exact .still _
      | inPool => exact hstill rfl rfl
      | broken _ hs => exact hstill (joinAllStep_oversees hs).staff rfl
      | resized _ hs | incomplete _ hs => exact hstill (driveStep_oversees hs).staff rfl

theorem askingStep_staff {a : Asking} {stage : Stage Asking Reply}
    (h : askingStep pick me w a = some (v, stage)) :
    Staff.Step me w.staff a.duty v.staff (stage.duty Asking.duty) := by
  have hstill {u : World} {d d' : Duty} (hsame : u.staff = w.staff) (hd : d = d') :
      Staff.Step me w.staff d u.staff d' := by
    rw [hsame, hd]
    exact .still _
  cases askingStep_goes h with
  | submits hs | submitted hs => exact hstill (submitStep_staff hs) rfl
  | joins hs | joined hs => exact hstill (joinStep_oversees hs).staff rfl
  | joinsAll hs | joinedAll hs => exact hstill (joinAllStep_oversees hs).staff rfl
  | resizes hs | resized hs => exact resizeStep_staff hs
  | acquires | acquired | releases | released => exact hstill (World.staff_withSections _ _ _) rfl
  | refused => exact .still _

theorem Request.begin_duty (source : ContextId) (r : Request) : (r.begin source).duty = .off := by
  cases r with
  | acquire | release =>
      simp only [Request.begin]
      split
      · rfl
      · rfl
  | parallel | join | joinAll | resize => rfl

theorem activityStep_staff {activity : Activity} {stage : Stage Activity Ending}
    (h : activityStep library pick me w activity = some (v, stage)) :
    Staff.Step me w.staff (activity.asking?.elim .off Asking.duty) v.staff
      (stage.duty fun activity => activity.asking?.elim .off Asking.duty) := by
  cases activityStep_goes h with
  | asks hs | replied hs => exact askingStep_staff hs
  | @went x x' e hstep =>
      have hsame : World.staff { w with engine := e } = w.staff := by
        simp [World.staff, (Execution.step_keeps hstep).registered, Execution.step_contexts hstep]
      rw [hsame]
      exact .still _
  | @asked x r =>
      simp only [Stage.duty, Option.elim_some, Option.elim_none, Request.begin_duty]
      exact .still _
  | ended => exact .still _

theorem shutdownStep_staff {place : ShutdownPlace} {stage : Stage ShutdownPlace Unit}
    (h : shutdownStep me w place = some (v, stage)) :
    Staff.Step me w.staff place.duty v.staff (stage.duty ShutdownPlace.duty) := by
  cases place with
  | swapping =>
      simp only [shutdownStep] at h
      split at h
      · cases h
        next hdown => exact .already hdown
      · cases h
        exact .flag
  | dismissing place =>
      simp only [shutdownStep, Option.map_eq_some_iff] at h
      obtain ⟨⟨u, stage'⟩, hs, h⟩ := h
      have hu := dismissStep_staff true hs
      cases stage' with
      | going place' =>
          cases h
          exact hu
      | «over» n =>
          cases h
          obtain ⟨hsame, hduty⟩ := hu
          rw [hsame, ShutdownPlace.duty, hduty]
          exact .closed
  | notifying count =>
      cases h
      exact .still _
  | surveying count =>
      simp only [shutdownStep, World.onQueue_eq_some_iff, Prod.mk.injEq] at h
      obtain ⟨-, rfl, rfl⟩ := h
      split
      · exact .still _
      · exact .still _

theorem openStep_staff {place : OpenPlace} {stage : Stage OpenPlace (Except PoolError Unit)}
    (h : openStep me w place = some (v, stage)) :
    Staff.Step me w.staff place.duty v.staff (stage.duty OpenPlace.duty) := by
  cases place with
  | hiring place =>
      simp only [openStep, Option.map_eq_some_iff] at h
      obtain ⟨⟨u, stage'⟩, hs, h⟩ := h
      have hu := hireStep_staff none hs
      rcases stage' with place' | (e | ⟨⟩)
      · cases h
        exact hu
      · cases h
        obtain ⟨hsame, id, n, message, rfl, -, -⟩ := hu
        rw [hsame]
        exact .lacking id n
      · cases h
        obtain ⟨hsame, id, n, rfl, hid⟩ := hu
        rw [World.staff_report, hsame]
        exact .opened id n hid
  | closing e place =>
      simp only [openStep, Option.map_eq_some_iff] at h
      obtain ⟨⟨u, stage'⟩, hs, h⟩ := h
      have hu := shutdownStep_staff hs
      cases stage' with
      | going | «over» =>
          cases h
          exact hu

theorem hostStep_staff {host : Nat} {place : HostPlace} (hplace : w.hosts[host]? = some place)
    (h : hostStep library pick host place w = some w') :
    Staff.Step (.host host) w.staff (w.duty (.host host)) w'.staff (w'.duty (.host host)) := by
  have hlt := (List.getElem?_eq_some_iff.mp hplace).1
  obtain ⟨u, place', rfl, hgoes⟩ := hostStep_goes h
  have hhosts : u.hosts = w.hosts := hgoes.crew.hosts_eq
  rw [World.duty, World.duty, World.view_host hplace, World.view_placeHost (hhosts ▸ hlt)]
  cases hgoes with
  | opens hs | opened hs => exact openStep_staff hs
  | asks hs | replied hs => exact askingStep_staff hs
  | closes hs | closed hs => exact shutdownStep_staff hs
  | measures hs | measured hs =>
      have hu : u.staff = w.staff := (measureStep_oversees hs).staff
      have hplaced (p : HostPlace) : (u.placeHost host p).staff = w.staff := hu
      rw [hplaced]
      exact .still _
  | runs hs | ended hs => exact activityStep_staff hs

theorem World.staff_modifyWorker_at {i : Nat} {worker : Worker} {f : Worker → Worker}
    {g : Post → Post} (hworker : w.workers[i]? = some worker)
    (hpost : (f worker).post = g worker.post) :
    (w.modifyWorker i f).staff = w.staff.modify i g := by
  have hposts : (w.modifyWorker i f).workers.map Worker.post =
      (w.workers.map Worker.post).modify i g := by
    rw [World.modifyWorker, modify_eq_set_of_getElem? hworker, List.map_set, hpost,
      modify_eq_set_of_getElem? (by rw [List.getElem?_map, hworker]; rfl)]
  simp only [World.staff, Staff.modify, hposts]
  rfl

theorem World.staff_modifyWorker_self {i : Nat} {worker : Worker} {f : Worker → Worker}
    (hworker : w.workers[i]? = some worker) (hpost : (f worker).post = worker.post) :
    (w.modifyWorker i f).staff = w.staff := by
  rw [World.staff_modifyWorker_at (g := id) hworker hpost, Staff.modify, List.modify_id]

theorem World.staff_placeWorker {i : Nat} {worker : Worker} {place : WorkerPlace}
    (hworker : w.workers[i]? = some worker) (hstays : worker.place.isLeaving = false)
    (hstays' : place.isLeaving = false) : (w.placeWorker i place).staff = w.staff := by
  have hgone {p : WorkerPlace} (hp : p.isLeaving = false) : p.isGone = false := by
    cases p with
    | exiting | gone => cases hp
    | beginning | receiving | measuring | comparing | checking | popping | executing | resting
    | announcing => rfl
  apply World.staff_modifyWorker_self hworker
  simp only [Worker.post, hstays, hstays', hgone hstays, hgone hstays']

theorem TaskPlace.Goes.staff {i : Nat} {worker : Worker} {once : Bool} {s : Submission}
    {place place' : TaskPlace} (hworker : w.workers[i]? = some worker)
    (hplace : worker.place = .executing once s place)
    (h : place.Goes library pick i worker s.task w v place') :
    Staff.Step (.worker i) w.staff worker.place.duty v.staff
        (WorkerPlace.executing once s place').duty ∧
      ∃ worker', v.workers[i]? = some worker' ∧ worker'.place = worker.place := by
  have hstill {u : World} {d d' : Duty} (hsame : u.staff = w.staff) (hd : d = d') :
      Staff.Step (.worker i) w.staff d u.staff d' := by
    rw [hsame, hd]
    exact .still _
  have hmodified {u : World} {f : Worker → Worker} (hu : u.workers = w.workers)
      (hf : ∀ worker, (f worker).place = worker.place) :
      ∃ worker', (u.modifyWorker i f).workers[i]? = some worker' ∧
        worker'.place = worker.place :=
    ⟨f worker, by simp [World.modifyWorker, hu, hworker], hf worker⟩
  have hduty : worker.place.duty = (WorkerPlace.executing once s place).duty := by rw [hplace]
  rw [hduty]
  cases h with
  | published | cleared =>
      refine ⟨hstill ?_ rfl, hmodified rfl fun _ => rfl⟩
      apply World.staff_modifyWorker_of_same
      intro worker
      rfl
  | counted outcome =>
      refine ⟨hstill (World.staff_modifyWorker_of_same (fun worker => ?_) _ _) rfl,
        hmodified rfl fun worker => ?_⟩
      · split
        · rfl
        · rfl
      · split
        · rfl
        · rfl
  | unlockedQueue | locked | lockedErrored | written | unlocked | failed | completed =>
      exact ⟨hstill rfl rfl, worker, hworker, rfl⟩
  | prepared =>
      refine ⟨hstill ?_ rfl, worker, hworker, rfl⟩
      simp [World.staff, startTask, World.report, Engine.report, Engine.setGlobals]
  | ran hs => exact ⟨activityStep_staff hs, (activityStep_crew hs).worker_eq hworker⟩
  | ended _ hs => exact ⟨activityStep_staff hs, worker, hworker, rfl⟩
  | wrote =>
      refine ⟨hstill ?_ rfl, worker, hworker, rfl⟩
      simp [World.staff, writeResult, Engine.set, Engine.setGlobals]
  | @replaced _ u hcontext =>
      obtain ⟨rfl, hstaff, hworkers⟩ := World.privateContext_staff hcontext
      refine ⟨?_, hmodified hworkers fun _ => rfl⟩
      rw [World.staff_modifyWorker (g := fun post => { post with context := w.staff.made })
        fun _ => rfl]
      have hleft : World.staff { u.report .contextReplaced with
          engine := (u.report .contextReplaced).engine.unregister worker.context } =
          u.staff.unregister worker.context := rfl
      have hstays : worker.post.gone = false := by
        simp [Worker.post, hplace, WorkerPlace.isGone]
      rw [hleft, hstaff]
      exact .replace i worker.post rfl (by simp [World.staff, hworker]) hstays
  | notReplaced hcontext =>
      obtain rfl := World.privateContext_fails hcontext
      exact ⟨hstill rfl rfl, worker, hworker, rfl⟩

/-- Reading a command leaves the post of a worker as it is: a dismissed worker is one that has the
command in its mailbox or on its way out. -/
theorem Worker.receive_post {worker : Worker} (hplace : worker.place = .receiving) :
    worker.receive.post = worker.post := by
  rcases hmail : worker.mailbox with _ | ⟨command, rest⟩
  · simp [Worker.receive, hmail]
  · cases command with
    | run | stop =>
        simp [Worker.receive, Worker.post, hmail, hplace, WorkerPlace.isLeaving, WorkerPlace.isGone]

theorem Worker.receive_duty {worker : Worker} (hplace : worker.place = .receiving) :
    worker.receive.place.duty = .off := by
  rcases Worker.receive_place hplace with h | h | h
  · rw [h]
    rfl
  · rw [h]
    rfl
  · rw [h]
    rfl

theorem workerStep_staff {i : Nat} {worker : Worker} (hworker : w.workers[i]? = some worker)
    (h : workerStep library pick i worker w = some w') :
    Staff.Step (.worker i) w.staff (w.duty (.worker i)) w'.staff (w'.duty (.worker i)) := by
  have hduty {u : World} {worker' : Worker} {f : Worker → Worker}
      (hu : u.workers[i]? = some worker') :
      (u.modifyWorker i f).duty (.worker i) = (f worker').place.duty := by
    rw [World.duty, World.view_modifyWorker hu]
  have hplaced {u : World} {p : WorkerPlace} (hu : u.workers = w.workers)
      (hsame : u.staff = w.staff) (hoff : worker.place.duty = .off) (hoff' : p.duty = .off)
      (hstays : worker.place.isLeaving = false) (hstays' : p.isLeaving = false) :
      Staff.Step (.worker i) w.staff (w.duty (.worker i)) (u.placeWorker i p).staff
        ((u.placeWorker i p).duty (.worker i)) := by
    rw [← hu] at hworker
    rw [World.placeWorker, hduty hworker, hoff', World.duty, World.view_worker (hu ▸ hworker), hoff,
      ← World.placeWorker, World.staff_placeWorker hworker hstays hstays', hsame]
    exact .still _
  obtain ⟨place, hplace, hgoes⟩ := workerStep_goes h
  cases hgoes with
  | went once hs =>
      obtain ⟨hstep, worker', hworker', hplace'⟩ := hs.staff hworker hplace
      have hstays : worker'.place.isLeaving = false := by
        rw [hplace', hplace]
        rfl
      rw [World.staff_placeWorker hworker' hstays rfl, World.placeWorker, hduty hworker',
        World.duty, World.view_worker hworker]
      exact hstep
  | received =>
      rw [World.staff_modifyWorker_self hworker (Worker.receive_post hplace), hduty hworker,
        Worker.receive_duty hplace, World.duty, World.view_worker hworker, hplace]
      exact .still _
  | finished once s =>
      rw [hplace] at hplaced
      cases once with
      | false | true => exact hplaced rfl rfl rfl rfl rfl rfl
  | began | measured | compared | checkedEmpty | checked | missed | popped | announced =>
      rw [hplace] at hplaced
      exact hplaced rfl rfl rfl rfl rfl rfl
  | rested =>
      have hpost : Worker.post { worker with running := false, place := .announcing } =
          worker.post := by
        simp [Worker.post, hplace, WorkerPlace.isLeaving, WorkerPlace.isGone]
      rw [World.staff_modifyWorker_self hworker hpost, hduty hworker, World.duty,
        World.view_worker hworker, hplace]
      exact .still _
  | exited =>
      have hleft : Worker.post { worker with place := .gone } = { worker.post with gone := true } := by
        simp [Worker.post, hplace, WorkerPlace.isLeaving, WorkerPlace.isGone]
      have hdismissed : worker.post.dismissed = true := by
        simp [Worker.post, hplace, WorkerPlace.isLeaving]
      have hexit {u : World} (hu : u.workers = w.workers)
          (hleaves : u.staff = w.staff.unregister worker.context) :
          Staff.Step (.worker i) w.staff (w.duty (.worker i)) (u.placeWorker i .gone).staff
            ((u.placeWorker i .gone).duty (.worker i)) := by
        have hworker' : u.workers[i]? = some worker := hu ▸ hworker
        rw [World.duty, World.view_worker hworker, hplace, World.placeWorker,
          World.staff_modifyWorker_at (g := fun post => { post with gone := true }) hworker' hleft,
          hduty hworker', hleaves]
        exact .exit i worker.post rfl (by simp [World.staff, hworker]) hdismissed
      exact hexit rfl rfl

theorem World.advance_staff (h : w.advance library pick me = some w') :
    Staff.Step me w.staff (w.duty me) w'.staff (w'.duty me) := by
  cases me with
  | host host =>
      obtain ⟨place, hplace, h⟩ := World.advance_host_iff.mp h
      exact hostStep_staff hplace h
  | worker i =>
      obtain ⟨worker, hworker, h⟩ := World.advance_worker_iff.mp h
      exact workerStep_staff hworker h

theorem World.duty_worker (w : World) (i : Nat) :
    w.duty (.worker i) = (w.asking? (.worker i)).elim .off Asking.duty := by
  rw [World.asking?_eq_view]
  rfl

theorem Stride.duty_of_ne {thread : ThreadId} (h : Stride me w w') (hne : thread ≠ me) :
    w'.duty thread = w.duty thread :=
  h.view_eq hne _ _

theorem HostCall.place_duty (library : Library) (call : HostCall) :
    (call.place library).duty = .off ∨ call = .shutDown := by
  cases call with
  | ask source r => exact .inl (Request.begin_duty source r)
  | shutDown => exact .inr rfl
  | measure | invoke | load => exact .inl rfl

/-- What happens besides the steps of threads: contexts may be made that no worker holds, and a
thread of the host may begin to shut the coordinator down. -/
structure Staff.Stir (w w' : World) : Prop where
  staff_eq : ∃ made, w.staff.made ≤ made ∧ w'.staff = { w.staff with made := made }
  duty_eq : ∀ thread, w'.duty thread = w.duty thread ∨
    w.duty thread = .off ∧ w'.duty thread = .swapping

theorem World.begin_staff {host : Nat} {call : HostCall} (h : w.canBegin host call = true) :
    Staff.Stir w (w.begin library host call) := by
  obtain ⟨last?, hfree⟩ := World.free_of_canBegin h
  have hlt := (List.getElem?_eq_some_iff.mp hfree).1
  refine ⟨⟨w.staff.made, Nat.le_refl _, ?_⟩, fun thread => ?_⟩
  · cases call with
    | ask | shutDown | measure | invoke | load => rfl
  · by_cases hthread : thread = .host host
    · subst hthread
      have hbegin : (w.begin library host call).duty (.host host) = (call.place library).duty :=
        World.view_placeHost hlt _
      have hoff : w.duty (.host host) = .off := World.view_host hfree
      rw [hbegin, hoff]
      rcases HostCall.place_duty library call with hoff | rfl
      · exact .inl hoff
      · exact .inr ⟨rfl, rfl⟩
    · exact .inl (World.view_placeHost_of_ne hthread)

theorem World.move?_staff {m : Move} (h : w.move? library m = some w') :
    (∃ pick me, m = .step pick me ∧ w.advance library pick me = some w' ∧
      Staff.Step me w.staff (w.duty me) w'.staff (w'.duty me)) ∨ Staff.Stir w w' := by
  have hcrew {u : World} {made : Nat} (hle : w.staff.made ≤ made)
      (hs : u.staff = { w.staff with made := made }) (hu : u.crew = w.crew) : Staff.Stir w u :=
    ⟨⟨made, hle, hs⟩, fun thread => .inl (by rw [World.duty, hu]; rfl)⟩
  cases m with
  | step pick me => exact .inl ⟨pick, me, rfl, h, World.advance_staff h⟩
  | begin host call =>
      obtain ⟨hbegin, rfl⟩ := World.move?_begin_iff.mp h
      exact .inr (World.begin_staff hbegin)
  | addContext =>
      cases h
      refine .inr (hcrew (Nat.le_succ _) ?_ rfl)
      simp [World.addContext, World.staff, Engine.createContext, Engine.bind]
  | setGlobal context name value =>
      obtain ⟨-, rfl⟩ := World.move?_setGlobal_iff.mp h
      refine .inr (hcrew (Nat.le_refl _) ?_ rfl)
      simp [World.staff, Engine.set, Engine.setGlobals]
  | openGate | openAllGates | setBudget =>
      cases h
      exact .inr (hcrew (Nat.le_refl _) rfl rfl)

theorem World.advance_or_stir {m : Move} (h : w.move? library m = some w') :
    (∃ pick me, w.advance library pick me = some w') ∨ ScriptPool.Stir w w' ∧ Staff.Stir w w' := by
  rcases World.move?_stride h with ⟨pick, me, rfl, hadv, -⟩ | hstir
  · exact .inl ⟨pick, me, hadv⟩
  · rcases World.move?_staff h with ⟨pick, me, rfl, hadv, -⟩ | hstaff
    · exact .inl ⟨pick, me, hadv⟩
    · exact .inr ⟨hstir, hstaff⟩

end ScriptPool
