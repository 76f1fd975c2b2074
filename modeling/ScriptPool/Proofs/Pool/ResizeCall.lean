import ScriptPool.Proofs.Pool.Roster

namespace ScriptPool

/-- Whether a thread waits for the number of workers to become `n`. -/
def World.isResizing (me : ThreadId) (n : Nat) (w : World) : Bool :=
  match w.asking? me with
  | some (.resize m _) => m = n
  | _ => false

/-- What the next step of a thread replies to its request for another number of workers. -/
def World.resizeReply? (me : ThreadId) (w : World) : Option Reply :=
  match w.asking? me with
  | some (.resize n place) =>
    match resizeStep n me w place with
    | some (_, .over reply) => some reply
    | _ => none
  | _ => none

def Worker.unplaced (worker : Worker) : Worker :=
  { worker with place := .beginning }

/-- A world but for the lock of the pool and where the threads stand. -/
def World.estate (w : World) : World :=
  { w with poolHolder? := none, workers := w.workers.map Worker.unplaced, hosts := [] }

variable {library : Library} {engine : Engine} {main : ContextId} {poolSize n pick : Nat}
  {before during : List Move} {me thread : ThreadId} {u v v' w w' w₀ : World} {a : Asking}
  {place place' : ResizePlace}

theorem World.isResizing_iff :
    w.isResizing me n = true ↔ ∃ place, w.asking? me = some (.resize n place) := by
  unfold World.isResizing
  split
  · next m place h =>
      rw [h, decide_eq_true_eq]
      constructor
      · rintro rfl
        exact ⟨place, rfl⟩
      · rintro ⟨place', heq⟩
        cases heq
        rfl
  · next hno =>
      constructor
      · nofun
      · rintro ⟨place, h⟩
        exact absurd h (hno n place)

theorem World.resizeReply?_eq_some_iff {reply : Reply} (ha : w.asking? me = some (.resize n place)) :
    w.resizeReply? me = some reply ↔ ∃ v, resizeStep n me w place = some (v, .over reply) := by
  simp only [World.resizeReply?, ha]
  split
  · next v reply' h =>
      rw [h]
      simp
  · next hno =>
      constructor
      · nofun
      · rintro ⟨v, h⟩
        exact absurd h (hno v reply)

theorem World.estate_placeWorker (w : World) (i : Nat) (p : WorkerPlace) :
    (w.placeWorker i p).estate = w.estate := by
  have hplaces : (w.placeWorker i p).workers.map Worker.unplaced =
      w.workers.map Worker.unplaced := by
    have hcomm (worker : Worker) :
        Worker.unplaced { worker with place := p } = id worker.unplaced := rfl
    rw [World.placeWorker, World.modifyWorker, map_modify_of_comm hcomm, List.modify_id]
  rw [World.estate, World.estate, hplaces]
  rfl

/-- A step of a thread that waits for a request does to the world what the step of the request
does. -/
theorem World.advance_estate (ha : w.asking? me = some a)
    (h : w.advance library pick me = some w') :
    ∃ v stage, askingStep pick me w a = some (v, stage) ∧ w'.estate = v.estate ∧
      w'.scene = v.scene ∧ w'.asking? me = stage.asking? := by
  obtain ⟨v, stage, hs, hscene, -, hask⟩ := World.advance_asking ha h
  obtain ⟨v', stage', hs', hserves⟩ := World.advance_serves ha h
  rw [hs] at hs'
  cases hs'
  refine ⟨v, stage, hs, ?_, hscene, hask⟩
  cases hserves with
  | call | code => rfl
  | task => exact World.estate_placeWorker _ _ _

theorem World.busy_of_asking {i : Nat} (ha : w.asking? (.worker i) = some a) :
    ∃ hand, w.scene.hands[i]? = some hand ∧ hand.place.isBusy = true := by
  rw [World.asking?_eq_view] at ha
  cases hworker : w.workers[i]? with
  | none => simp [Crew.view, World.crew, hworker, WorkerPlace.asking?] at ha
  | some worker =>
      rw [World.view_worker hworker] at ha
      refine ⟨worker.hand.bare, World.scene_hands_getElem? hworker,
        (WorkerPlace.isBusy_bare worker.place).trans ?_⟩
      cases hbusy : worker.place.isBusy with
      | true => rfl
      | false =>
          rw [WorkerPlace.asking?_of_idle hbusy] at ha
          cases ha

theorem Staff.Step.poolSize_eq {s s' : Staff} {d d' : Duty} (h : Staff.Step me s d s' d')
    (hd : ∀ size, d ≠ .sizing size) : s'.poolSize = s.poolSize := by
  cases h with
  | size m => exact absurd rfl (hd m)
  | _ => rfl

/-- Nobody but the thread of the host changes the pool, and its size stays as long as a task goes
on. -/
theorem World.Sole.poolSize_eq (hs : w.Sole) (hs' : w'.Sole)
    (hme : me = .host 0 ∨ ∃ i, me = .worker i) (hthread : thread = .host 0 ∨ ∃ i, thread = .worker i)
    (hne : thread ≠ me) (ha : w.asking? me = some a)
    (h : w.advance library pick thread = some w') :
    w'.poolSize = w.poolSize ∧
      (me = .host 0 → w'.pool = w.pool ∧ w'.shutDown = w.shutDown) := by
  rcases hthread with rfl | ⟨i, rfl⟩
  · rcases hme with rfl | ⟨i, rfl⟩
    · exact absurd rfl hne
    · refine ⟨(World.advance_staff h).poolSize_eq fun size hsizing => ?_, nofun⟩
      have hresizes : (w.duty (.host 0)).resizes = true := by
        rw [hsizing]
        rfl
      obtain ⟨n, place, hask, hduty⟩ := World.asking?_of_resizes hresizes
      rw [← hduty] at hresizes
      obtain ⟨hand, hhand, hbusy⟩ := World.busy_of_asking ha
      have hidle := (((hs.quieted hask).quiet hresizes).1 hhand).idle
      rw [hbusy] at hidle
      cases hidle
  · obtain ⟨hpool, hsize, hdown⟩ := hs.pool_eq_of_worker hs' h
    exact ⟨hsize, fun _ => ⟨hpool, hdown⟩⟩

theorem Run.thread_cases {moves : List Move}
    (h : Run library (World.initial engine main poolSize 0) moves w) (ha : w.asking? me = some a) :
    me = .host 0 ∨ ∃ i, me = .worker i := by
  cases me with
  | worker i => exact .inr ⟨i, rfl⟩
  | host host =>
      left
      rw [World.asking?_eq_view] at ha
      obtain ⟨place, hplace, -⟩ := Option.bind_eq_some_iff.mp ha
      have hlt : host < w.hosts.length := (List.getElem?_eq_some_iff.mp hplace).1
      rw [h.hosts_length] at hlt
      have hzero : host = 0 := by omega
      rw [hzero]

theorem World.workers_length (w : World) : w.scene.hands.length = w.workers.length := by
  simp [World.scene, Crew.scene, World.crew]

/-- What a thread knows of the number of workers, which was `size` when it asked and is `now`. -/
def ResizePlace.Asked (n size now : Nat) : ResizePlace → Prop
  | .checking | .reading => now = size
  | _ => n ≠ 0 ∧ n ≠ size

/-- What the thread of the host knows of the pool, which was `old` when it asked. The workers that
have been started since then are those from `first` on. -/
def ResizePlace.Renewed (first : Nat) (old pool : List Nat) : ResizePlace → Prop
  | .checking | .reading | .locking _ | .placing _ | .joining .. | .dismissing _ .locking
  | .dismissing _ .taking => pool = old
  | .hiring _ (.locking serial _ _) | .hiring _ (.pushing serial _ _) =>
    first ≤ serial ∧ ∀ i ∈ pool, first ≤ i
  | _ => ∀ i ∈ pool, first ≤ i

/-- What holds at a place of a request for `n` workers that was made in the world `w₀`. -/
structure ResizePlace.Since (me : ThreadId) (n : Nat) (w₀ w : World) (place : ResizePlace) :
    Prop where
  down : w₀.shutDown = true → w.shutDown = true ∧ place = .checking
  flag : me = .host 0 → w.shutDown = w₀.shutDown
  asked : place.Asked n w₀.poolSize w.poolSize
  workers : w₀.workers.length ≤ w.workers.length
  renewed : me = .host 0 → place.Renewed w₀.workers.length w₀.pool w.pool

theorem ResizePlace.Goes.asked {size : Nat} (h : place.Goes n me v u place')
    (hp : place.Asked n size v.poolSize) : place'.Asked n size u.poolSize := by
  cases h with
  | checked => exact hp
  | read hzero hsize =>
      have hp : u.poolSize = size := hp
      exact ⟨hzero, hp ▸ hsize⟩
  | locked | placed | join | joined | dismiss | dismissed | hire | hired | lacking | stored | drive
  | failed | surveyed | kept | driveOn => exact hp

theorem dismissStep_renewed {first m : Nat} {old : List Nat} {place place' : DismissPlace}
    (h : dismissStep me v place = some (u, .going place'))
    (hp : (ResizePlace.dismissing m place).Renewed first old v.pool) :
    (ResizePlace.dismissing m place').Renewed first old u.pool := by
  cases place with
  | locking =>
      simp only [dismissStep, Option.map_eq_some_iff, World.lockPool_eq_some_iff] at h
      obtain ⟨t, ⟨-, rfl⟩, h⟩ := h
      cases h
      exact hp
  | taking =>
      cases h
      intro i hi
      cases hi
  | telling rest count =>
      cases rest with
      | nil => cases h
      | cons serial rest =>
          simp only [dismissStep] at h
          split at h
          · cases h
            exact hp
          · cases h
            exact hp
  | awaiting serial rest count =>
      simp only [dismissStep] at h
      split at h
      · cases h
        exact hp
      · cases h

theorem hireStep_renewed {first m : Nat} {old : List Nat} {place place' : HirePlace}
    (h : hireStep me v place = some (u, .going place')) (hfirst : first ≤ v.workers.length)
    (hp : (ResizePlace.hiring m place).Renewed first old v.pool) :
    (ResizePlace.hiring m place').Renewed first old u.pool := by
  cases place with
  | creating id count =>
      simp only [hireStep] at h
      split at h
      · split at h
        · next c t hcontext =>
            obtain ⟨-, hstaff, hworkers⟩ := World.privateContext_staff hcontext
            have hpool : t.pool = v.pool := congrArg Staff.pool hstaff
            cases h
            refine ⟨hworkers ▸ hfirst, fun i hi => hp i ?_⟩
            rw [← hpool]
            exact hi
        · cases h
      · cases h
  | locking serial id count =>
      simp only [hireStep, Option.map_eq_some_iff, World.lockPool_eq_some_iff] at h
      obtain ⟨t, ⟨-, rfl⟩, h⟩ := h
      cases h
      exact hp
  | pushing serial id count =>
      cases h
      obtain ⟨hserial, hp⟩ := hp
      intro i hi
      rcases List.mem_append.mp hi with hi | hi
      · exact hp i hi
      · rw [List.mem_singleton.mp hi]
        exact hserial

theorem hireStep_over {place : HirePlace} {result : Except PoolError Unit}
    (h : hireStep me v place = some (u, .over result)) :
    u.staff = v.staff ∧ ∃ id count, place = .creating id count := by
  have hu := hireStep_staff none h
  rcases result with e | ⟨⟩
  · obtain ⟨hsame, id, count, -, hplace, -⟩ := hu
    exact ⟨hsame, id, count, hplace⟩
  · obtain ⟨hsame, id, count, hplace, -⟩ := hu
    exact ⟨hsame, id, count, hplace⟩

theorem ResizePlace.Goes.renewed {first : Nat} {old : List Nat} (h : place.Goes n me v u place')
    (hfirst : first ≤ v.workers.length) (hp : place.Renewed first old v.pool) :
    place'.Renewed first old u.pool := by
  cases h with
  | checked | read | locked | placed => exact hp
  | join _ hs | joined _ hs =>
      have hpool : u.pool = v.pool := congrArg Staff.pool (joinAllStep_oversees hs).staff
      exact hpool.trans hp
  | dismiss _ hs => exact dismissStep_renewed hs hp
  | @dismissed size place u m hs =>
      obtain ⟨heq, hduty⟩ := dismissStep_staff false hs
      have hpool : u.pool = v.pool := congrArg Staff.pool heq
      cases place with
      | telling rest count =>
          intro i hi
          exact hp i (hpool ▸ hi)
      | locking | taking | awaiting => cases hduty
  | hire _ hs => exact hireStep_renewed hs hfirst hp
  | hired _ hs | lacking _ hs =>
      obtain ⟨heq, id, count, rfl⟩ := hireStep_over hs
      have hpool : u.pool = v.pool := congrArg Staff.pool heq
      intro i hi
      exact hp i (hpool ▸ hi)
  | stored | failed | surveyed | kept => exact hp
  | drive _ hs | driveOn _ hs =>
      have hpool : u.pool = v.pool := congrArg Staff.pool (driveStep_oversees hs).staff
      intro i hi
      exact hp i (hpool ▸ hi)

theorem ResizePlace.Since.own (hsince : place.Since me n w₀ v) (h : place.Goes n me v u place')
    (hestate : v'.estate = u.estate) (hflag : v'.shutDown = v.shutDown)
    (hlength : v.workers.length ≤ v'.workers.length) : place'.Since me n w₀ v' := by
  have hpool : v'.pool = u.pool := (congrArg World.pool hestate :)
  have hsize : v'.poolSize = u.poolSize := (congrArg World.poolSize hestate :)
  constructor
  case down =>
    intro hdown
    obtain ⟨hdown', rfl⟩ := hsince.down hdown
    cases h with
    | checked hrunning =>
        rw [hrunning] at hdown'
        cases hdown'
  case flag => exact fun hme => hflag.trans (hsince.flag hme)
  case asked =>
    rw [hsize]
    exact h.asked hsince.asked
  case workers => exact hsince.workers.trans hlength
  case renewed =>
    intro hme
    rw [hpool]
    exact h.renewed hsince.workers (hsince.renewed hme)

theorem ResizePlace.Since.other (hsince : place.Since me n w₀ v)
    (hdown : v.shutDown = true → v'.shutDown = true) (hsize : v'.poolSize = v.poolSize)
    (hpool : me = .host 0 → v'.pool = v.pool ∧ v'.shutDown = v.shutDown)
    (hlength : v.workers.length ≤ v'.workers.length) : place.Since me n w₀ v' where
  down := fun hdown₀ => ⟨hdown (hsince.down hdown₀).1, (hsince.down hdown₀).2⟩
  flag := fun hme => (hpool hme).2.trans (hsince.flag hme)
  asked := hsize ▸ hsince.asked
  workers := hsince.workers.trans hlength
  renewed := fun hme => (hpool hme).1 ▸ hsince.renewed hme

theorem Run.since (h₀ : Run library (World.initial engine main poolSize 0) before w₀)
    (henter : w₀.asking? me = some (.resize n .checking)) (h : Run library w₀ during w)
    (hstay : w₀.throughout library (World.isResizing me n) during = true) :
    ∃ place, w.asking? me = some (.resize n place) ∧ place.Since me n w₀ w := by
  induction h with
  | start =>
      exact ⟨_, henter, fun hdown => ⟨hdown, rfl⟩, fun _ => rfl, rfl, Nat.le_refl _, fun _ => rfl⟩
  | @move moves v w h m hm ih =>
      obtain ⟨place, hask, hsince⟩ := ih (World.throughout_left hstay)
      have hrun := h₀.trans h
      have hrun' := hrun.move m hm
      have hstays : w.isResizing me n = true :=
        (h.move m hm).of_throughout (List.prefix_refl _) hstay
      obtain ⟨place', hask'⟩ := World.isResizing_iff.mp hstays
      refine ⟨place', hask', ?_⟩
      rcases World.advance_or_stir hm with ⟨pick, thread, hadv⟩ | ⟨hstir, hstaff⟩
      · have hstride := World.advance_stride hadv
        have hlength : v.workers.length ≤ w.workers.length := by
          rw [← v.workers_length, ← w.workers_length]
          exact hstride.hands_length_le
        by_cases hthread : thread = me
        · subst hthread
          obtain ⟨u, stage, hs, hestate, -, hstage⟩ := World.advance_estate hask hadv
          rw [hask'] at hstage
          cases stage with
          | «over» => cases hstage
          | going b =>
              cases hstage
              have hduty : v.duty thread ≠ .swapping := by
                rw [World.duty_of_asking hask]
                exact place.duty_ne_swapping n
              cases askingStep_goes hs with
              | resizes hstep =>
                  exact hsince.own (resizeStep_goes hstep) hestate
                    ((World.advance_staff hadv).shutDown_eq hduty) hlength
        · rw [hstride.asking?_of_ne (Ne.symm hthread), hask] at hask'
          cases hask'
          have hthread' : thread = .host 0 ∨ ∃ i, thread = .worker i := by
            by_cases hhost : thread = .host 0
            · exact .inl hhost
            · exact .inr (World.worker_of_advance hrun.hosts_length hhost hadv)
          obtain ⟨hsize, hpool⟩ := hrun.sole.poolSize_eq hrun'.sole (hrun.thread_cases hask)
            hthread' hthread hask hadv
          exact hsince.other (World.advance_staff hadv).shutDown_mono hsize hpool hlength
      · have hsame : w.asking? me = v.asking? me := by
          rcases hstir.asking me with hsame | ⟨hnone, -⟩
          · exact hsame
          · rw [hask] at hnone
            cases hnone
        rw [hsame, hask] at hask'
        cases hask'
        obtain ⟨made, -, heq⟩ := hstaff.staff_eq
        have hdown : w.shutDown = v.shutDown := congrArg Staff.shutDown heq
        refine hsince.other hdown.trans (congrArg Staff.poolSize heq)
          (fun _ => ⟨congrArg Staff.pool heq, hdown⟩) ?_
        rw [← v.workers_length, ← w.workers_length, hstir.scene_eq]

end ScriptPool
