import ScriptPool.Proofs.Pool.Conservation
import ScriptPool.Proofs.Pool.Occupied

/-!
Nobody waits with the pool locked.

A thread that has the pool locked takes its next step at once, whatever the others do, and after
finitely many steps it gives the lock back. `rank` bounds how many steps are left when the pool has
`k` workers.
-/

namespace ScriptPool

def StartPlace.rank (k : Nat) : StartPlace → Nat
  | .locking _ => 2 * k + 3
  | .trying rest _ _ => 2 * rest.length + 2
  | .sending _ rest _ _ => 2 * rest.length + 3
  | .unlocking _ => 1

def LookPlace.rank (k : Nat) : LookPlace → Nat
  | .locking => k + 3
  | .looking rest => rest.length + 2
  | .unlocking _ => 1

def DismissPlace.rank : DismissPlace → Nat
  | .taking => 1
  | .locking | .telling .. | .awaiting .. => 0

def HirePlace.rank : HirePlace → Nat
  | .pushing .. => 1
  | .creating .. | .locking .. => 0

def DrivePlace.rank (k : Nat) : DrivePlace → Nat
  | .measuring => 2 * k + 4
  | .starting place => place.rank k

def SubmitPlace.rank (k : Nat) : SubmitPlace → Nat
  | .starting place => place.rank k
  | _ => 0

def JoinPlace.rank (k : Nat) : JoinPlace → Nat
  | .looking _ _ place => place.rank k + 2 * k + 4
  | .driving _ place => place.rank k
  | _ => 0

/-- All steps count until the thread is about to look around again. -/
def JoinAllPlace.rank (k : Nat) : JoinAllPlace → Nat
  | .checking => 3
  | .locking => 2
  | .noticing => 1
  | .sampling => 0
  | .driving _ place => place.rank k + k + 9
  | .looking _ place => place.rank k + 5
  | .searching _ => 4
  | .confirming _ => 3
  | .rechecking _ => 2
  | .waiting _ => 1

/-- All steps count until the join of all tasks is over. -/
def ResizePlace.rank (k : Nat) : ResizePlace → Nat
  | .checking => 7
  | .reading => 6
  | .locking _ => 5
  | .placing _ => 4
  | .joining _ place => place.rank k
  | .dismissing _ place => place.rank
  | .hiring _ place => place.rank
  | .driving _ place | .drivingOn _ place => place.rank k
  | .surveying _ => 1
  | .storing _ | .failing _ | .keeping .. => 0

def Asking.rank (k : Nat) : Asking → Nat
  | .submit _ place => place.rank k
  | .join _ place => place.rank k
  | .joinAll place => place.rank k
  | .resize _ place => place.rank k
  | .acquire .. | .release .. | .refused _ => 0

def ShutdownPlace.rank : ShutdownPlace → Nat
  | .dismissing place => place.rank
  | .swapping | .notifying _ | .surveying _ => 0

def OpenPlace.rank : OpenPlace → Nat
  | .hiring place => place.rank
  | .closing _ place => place.rank

def MeasurePlace.rank (k : Nat) : MeasurePlace → Nat
  | .counting rest _ => rest.length + k + 3
  | .naming rest _ => rest.length + 2
  | .unlocking _ => 1
  | _ => 0

def Activity.rank (k : Nat) (activity : Activity) : Nat :=
  activity.asking?.elim 0 (Asking.rank k)

def HostPlace.rank (k : Nat) : HostPlace → Nat
  | .free _ => 0
  | .opening place => place.rank
  | .asking a => a.rank k
  | .closing place => place.rank
  | .measuring place => place.rank k
  | .running activity => activity.rank k

def WorkerPlace.rank (k : Nat) (place : WorkerPlace) : Nat :=
  place.asking?.elim 0 (Asking.rank k)

/-- How many steps a thread that has the pool locked is from giving the lock back, at most. -/
def World.rank (w : World) : ThreadId → Nat :=
  w.crew.view (·.elim 0 (HostPlace.rank w.pool.length)) (WorkerPlace.rank w.pool.length)

/-- How many steps the pool stays locked, at most. -/
def World.hold (w : World) : Nat :=
  w.poolHolder?.elim 0 fun holder => w.rank holder + 1

/-- A step is possible, and if it does not end the procedure, then it leads below a rank. -/
def Nears {α σ ρ : Type} [LT α] (rank : σ → α) (bound : α) (step : Option (World × Stage σ ρ)) :
    Prop :=
  ∃ v stage, step = some (v, stage) ∧ ∀ place, stage = .going place → rank place < bound

variable {library : Library} {pick n : Nat} {me : ThreadId} {w w' : World}

theorem Nears.of_going {α σ ρ : Type} [LT α] {rank : σ → α} {bound : α} {v : World} {place : σ}
    (h : rank place < bound) : Nears rank bound (some (v, (.going place : Stage σ ρ))) := by
  refine ⟨v, _, rfl, ?_⟩
  rintro place' ⟨⟩
  exact h

theorem Nears.of_over {α σ ρ : Type} [LT α] {rank : σ → α} {bound : α} {v : World} {result : ρ} :
    Nears rank bound (some (v, (.over result : Stage σ ρ))) :=
  ⟨v, _, rfl, nofun⟩

/-- A procedure that goes through another one comes nearer with it, if it is not above it when that one
is over. -/
theorem Nears.lift {σ ρ σ' ρ' : Type} {rank : σ → Nat} {rank' : σ' → Nat} {bound bound' : Nat}
    {step : Option (World × Stage σ ρ)} {f : World × Stage σ ρ → World × Stage σ' ρ'}
    (h : Nears rank bound step)
    (hgoing : ∀ v place place', (f (v, .going place)).2 = .going place' → rank place < bound →
      rank' place' < bound')
    (hover : ∀ v result place', (f (v, .over result)).2 = .going place' → rank' place' < bound') :
    Nears rank' bound' (step.map f) := by
  obtain ⟨v, stage, rfl, hless⟩ := h
  refine ⟨(f (v, stage)).1, (f (v, stage)).2, rfl, fun place' hplace' => ?_⟩
  cases stage with
  | going place => exact hgoing v place place' hplace' (hless place rfl)
  | «over» result => exact hover v result place' hplace'

theorem startStep_nears {place : StartPlace}
    (h : place.errand.locks = true ∨ w.poolHolder? = none) :
    Nears (StartPlace.rank w.pool.length) (place.rank w.pool.length) (startStep me w place) := by
  cases place with
  | locking limit =>
      have hfree := h.resolve_left nofun
      simp only [startStep, World.lockPool, hfree, Option.isNone_none, if_true, Option.map_some]
      exact .of_going (Nat.lt_succ_self _)
  | unlocking started => exact .of_over
  | sending serial rest limit started => exact .of_going (Nat.lt_succ_self _)
  | trying rest limit started =>
      cases rest with
      | nil => exact .of_going (Nat.lt_succ_self _)
      | cons serial rest =>
          simp only [startStep]
          split
          · apply Nears.of_going
            simp only [StartPlace.rank]
            omega
          · split
            · apply Nears.of_going
              simp only [StartPlace.rank, List.length_cons]
              omega
            · exact .of_going (Nat.lt_succ_self _)

theorem lookStep_nears {question : Question} {place : LookPlace}
    (h : place.errand.locks = true ∨ w.poolHolder? = none) :
    Nears (LookPlace.rank w.pool.length) (place.rank w.pool.length)
      (lookStep me question w place) := by
  cases place with
  | locking =>
      have hfree := h.resolve_left nofun
      simp only [lookStep, World.lockPool, hfree, Option.isNone_none, if_true, Option.map_some]
      exact .of_going (Nat.lt_succ_self _)
  | unlocking found => exact .of_over
  | looking rest =>
      cases rest with
      | nil => exact .of_going (Nat.lt_succ_self _)
      | cons serial rest =>
          simp only [lookStep]
          split
          · exact .of_going (Nat.lt_succ_self _)
          · split
            · apply Nears.of_going
              simp only [LookPlace.rank]
              omega
            · exact .of_going (Nat.lt_succ_self _)

theorem StartPlace.rank_pos (k : Nat) (place : StartPlace) : 0 < place.rank k := by
  cases place with
  | locking | trying | sending | unlocking => exact Nat.succ_pos _

theorem LookPlace.rank_pos (k : Nat) (place : LookPlace) : 0 < place.rank k := by
  cases place with
  | locking | looking | unlocking => exact Nat.succ_pos _

theorem DrivePlace.rank_pos (k : Nat) (place : DrivePlace) : 0 < place.rank k := by
  cases place with
  | measuring => exact Nat.succ_pos _
  | starting place => exact place.rank_pos k

theorem driveStep_nears {place : DrivePlace}
    (h : place.errand.locks = true ∨ w.poolHolder? = none ∧ w.queueHolder? = none) :
    Nears (DrivePlace.rank w.pool.length) (place.rank w.pool.length) (driveStep me w place) := by
  cases place with
  | measuring =>
      have hfree := (h.resolve_left nofun).2
      simp only [driveStep, World.onQueue_of_free hfree]
      split
      · exact .of_over
      · exact .of_going (Nat.lt_succ_self _)
  | starting place =>
      refine (startStep_nears (h.imp id And.left)).lift ?_ ?_
      · rintro v place place' ⟨⟩ hless
        exact hless
      · rintro v result place' ⟨⟩

theorem JoinAllPlace.rank_pos (k : Nat) {place : JoinAllPlace} (h : place ≠ .sampling) :
    0 < place.rank k := by
  cases place with
  | sampling => exact absurd rfl h
  | _ => exact Nat.succ_pos _

theorem joinAllStep_nears {place : JoinAllPlace} (hplace : place ≠ .sampling)
    (h : place.errand.locks = true ∨ w.poolHolder? = none ∧ w.queueHolder? = none) :
    Nears (JoinAllPlace.rank w.pool.length) (place.rank w.pool.length)
      (joinAllStep me w place) := by
  cases place with
  | checking | rechecking | confirming =>
      simp only [joinAllStep]
      split
      · exact .of_over
      · exact .of_going (Nat.lt_succ_self _)
  | locking =>
      have hfree := (h.resolve_left (by rintro ⟨⟩)).1
      simp only [joinAllStep, World.lockPool, hfree, Option.isNone_none, if_true, Option.map_some]
      exact .of_going (Nat.lt_succ_self _)
  | noticing | waiting => exact .of_going (Nat.lt_succ_self _)
  | sampling => exact absurd rfl hplace
  | searching seen =>
      have hfree := (h.resolve_left (by rintro ⟨⟩)).2
      simp only [joinAllStep, World.onQueue_of_free hfree]
      split
      · exact .of_going (Nat.lt_succ_self _)
      · exact .of_going (Nat.lt_succ_of_lt (Nat.lt_succ_self _))
  | looking seen place =>
      refine (lookStep_nears (h.imp id And.left)).lift ?_ ?_
      · rintro v place place' ⟨⟩ hless
        exact Nat.add_lt_add_right hless _
      · rintro v busy place' ⟨⟩
        cases busy with
        | false =>
            show 4 < place.rank w.pool.length + 5
            omega
        | true =>
            show 2 < place.rank w.pool.length + 5
            omega
  | driving seen place =>
      refine (driveStep_nears h).lift ?_ ?_
      · rintro v place place' ⟨⟩ hless
        simp only [JoinAllPlace.rank]
        omega
      · rintro v result place' ⟨⟩
        simp only [JoinAllPlace.rank, LookPlace.rank]
        omega

theorem joiningStep_nears {size : Nat} {place : JoinAllPlace} (hplace : place ≠ .sampling)
    (h : place.errand.locks = true ∨ w.poolHolder? = none ∧ w.queueHolder? = none) :
    Nears (ResizePlace.rank w.pool.length) (place.rank w.pool.length)
      (resizeStep n me w (.joining size place)) := by
  simp only [resizeStep]
  refine (joinAllStep_nears hplace h).lift ?_ ?_
  · rintro v place place' ⟨⟩ hless
    exact hless
  · rintro v (e | m) place' ⟨⟩
    exact JoinAllPlace.rank_pos _ hplace

theorem submitStep_nears {source : ContextId} {place : SubmitPlace}
    (h : place.errand.locks = true) :
    Nears (SubmitPlace.rank w.pool.length) (place.rank w.pool.length)
      (submitStep source me w place) := by
  cases place with
  | starting place =>
      simp only [submitStep]
      refine (startStep_nears (.inl h)).lift ?_ ?_
      · rintro v place place' ⟨⟩ hless
        exact hless
      · rintro v started place' ⟨⟩
  | _ => cases h

theorem joinStep_nears {function : String} {place : JoinPlace} (h : place.errand.locks = true) :
    Nears (JoinPlace.rank w.pool.length) (place.rank w.pool.length)
      (joinStep function me w place) := by
  cases place with
  | looking seen pending place =>
      simp only [joinStep]
      refine (lookStep_nears (.inl h)).lift ?_ ?_
      · rintro v place place' ⟨⟩ hless
        simp only [JoinPlace.rank]
        omega
      · rintro v executing place' ⟨⟩
        have hpos := place.rank_pos w.pool.length
        cases pending with
        | false | true =>
            cases executing with
            | false | true =>
                simp only [JoinPlace.rank, DrivePlace.rank, if_true, Bool.false_eq_true, if_false]
                omega
  | driving seen place =>
      simp only [joinStep]
      refine (driveStep_nears (.inl h)).lift ?_ ?_
      · rintro v place place' ⟨⟩ hless
        exact hless
      · rintro v result place' ⟨⟩
        exact place.rank_pos _
  | _ => cases h

theorem resizeStep_nears {place : ResizePlace} (h : place.errand.locks = true) :
    Nears (ResizePlace.rank w.pool.length) (place.rank w.pool.length)
      (resizeStep n me w place) := by
  cases place with
  | placing size =>
      simp only [resizeStep]
      split
      · exact .of_over
      · exact .of_going (Nat.lt_succ_self _)
  | surveying e => exact .of_going (Nat.lt_succ_self _)
  | joining size place =>
      refine joiningStep_nears ?_ (.inl h)
      rintro rfl
      cases h
  | dismissing size place =>
      cases place with
      | taking => exact .of_going (Nat.lt_succ_self _)
      | _ => cases h
  | hiring size place =>
      cases place with
      | pushing => exact .of_going (Nat.lt_succ_self _)
      | _ => cases h
  | driving size place | drivingOn e place =>
      simp only [resizeStep]
      refine (driveStep_nears (.inl h)).lift ?_ ?_
      · rintro v place place' ⟨⟩ hless
        exact hless
      · rintro v result place' ⟨⟩
  | checking | reading | locking | storing | failing | keeping => cases h

theorem askingStep_nears {a : Asking} (h : a.errand.locks = true) :
    Nears (Asking.rank w.pool.length) (a.rank w.pool.length) (askingStep pick me w a) := by
  cases a with
  | submit source place =>
      simp only [askingStep]
      refine (submitStep_nears h).lift ?_ ?_
      · rintro v place place' ⟨⟩ hless
        exact hless
      · rintro v result place' ⟨⟩
  | join function place =>
      simp only [askingStep]
      refine (joinStep_nears h).lift ?_ ?_
      · rintro v place place' ⟨⟩ hless
        exact hless
      · rintro v result place' ⟨⟩
  | joinAll place =>
      simp only [askingStep]
      refine (joinAllStep_nears ?_ (.inl h)).lift ?_ ?_
      · rintro rfl
        cases h
      · rintro v place place' ⟨⟩ hless
        exact hless
      · rintro v result place' ⟨⟩
  | resize m place =>
      simp only [askingStep]
      refine (resizeStep_nears h).lift ?_ ?_
      · rintro v place place' ⟨⟩ hless
        exact hless
      · rintro v result place' ⟨⟩
  | acquire | release | refused => cases h

theorem shutdownStep_nears {place : ShutdownPlace} (h : place.errand.locks = true) :
    Nears ShutdownPlace.rank place.rank (shutdownStep me w place) := by
  cases place with
  | dismissing place =>
      cases place with
      | taking => exact .of_going (Nat.lt_succ_self _)
      | _ => cases h
  | _ => cases h

theorem openStep_nears {place : OpenPlace} (h : place.errand.locks = true) :
    Nears OpenPlace.rank place.rank (openStep me w place) := by
  cases place with
  | hiring place =>
      cases place with
      | pushing => exact .of_going (Nat.lt_succ_self _)
      | _ => cases h
  | closing e place =>
      simp only [openStep]
      refine (shutdownStep_nears h).lift ?_ ?_
      · rintro v place place' ⟨⟩ hless
        exact hless
      · rintro v result place' ⟨⟩

theorem measureStep_nears {place : MeasurePlace} (h : place.errand.locks = true) :
    Nears (MeasurePlace.rank w.pool.length) (place.rank w.pool.length)
      (measureStep me w place) := by
  cases place with
  | counting rest busy =>
      cases rest with
      | nil =>
          apply Nears.of_going
          simp only [MeasurePlace.rank, List.length_nil]
          omega
      | cons serial rest =>
          apply Nears.of_going
          simp only [MeasurePlace.rank, List.length_cons]
          omega
  | naming rest found =>
      cases rest with
      | nil => exact .of_going (Nat.lt_succ_self _)
      | cons serial rest => exact .of_going (Nat.lt_succ_self _)
  | unlocking found => exact .of_going (Nat.lt_succ_self _)
  | _ => cases h

theorem activityStep_of_locks (library : Library) (pick : Nat) (me : ThreadId) (w : World)
    {activity : Activity} (h : activity.errand.locks = true) :
    ∃ v activity', activityStep library pick me w activity = some (v, .going activity') ∧
      (activity'.errand.locks = true →
        activity'.rank w.pool.length < activity.rank w.pool.length) := by
  obtain ⟨x, a?⟩ := activity
  cases a? with
  | none => cases h
  | some a =>
      have hstep : Nears _ _ (askingStep pick me w a) := askingStep_nears h
      obtain ⟨v, stage, hs, hless⟩ := hstep
      simp only [activityStep, hs, Option.map_some]
      cases stage with
      | going a' => exact ⟨v, _, rfl, fun _ => hless a' rfl⟩
      | «over» reply => exact ⟨v, _, rfl, fun hlocks => by cases hlocks⟩

theorem hostStep_of_locks (library : Library) (pick host : Nat) (w : World) {place : HostPlace}
    (h : place.errand.locks = true) :
    ∃ (v : World) (place' : HostPlace),
      hostStep library pick host place w = some (v.placeHost host place') ∧
      (place'.errand.locks = true → place'.rank w.pool.length < place.rank w.pool.length) := by
  cases place with
  | free => cases h
  | opening place =>
      have hstep : Nears _ _ (openStep (.host host) w place) := openStep_nears h
      obtain ⟨v, stage, hs, hless⟩ := hstep
      simp only [hostStep, hs, Option.map_some]
      cases stage with
      | going place' => exact ⟨v, _, rfl, fun _ => hless place' rfl⟩
      | «over» result => exact ⟨v, _, rfl, fun hlocks => by cases hlocks⟩
  | closing place =>
      have hstep : Nears _ _ (shutdownStep (.host host) w place) := shutdownStep_nears h
      obtain ⟨v, stage, hs, hless⟩ := hstep
      simp only [hostStep, hs, Option.map_some]
      cases stage with
      | going place' => exact ⟨v, _, rfl, fun _ => hless place' rfl⟩
      | «over» result => exact ⟨v, _, rfl, fun hlocks => by cases hlocks⟩
  | asking a =>
      have hstep : Nears _ _ (askingStep pick (.host host) w a) := askingStep_nears h
      obtain ⟨v, stage, hs, hless⟩ := hstep
      simp only [hostStep, hs, Option.map_some]
      cases stage with
      | going a' => exact ⟨v, _, rfl, fun _ => hless a' rfl⟩
      | «over» reply => exact ⟨v, _, rfl, fun hlocks => by cases hlocks⟩
  | measuring place =>
      have hstep : Nears _ _ (measureStep (.host host) w place) := measureStep_nears h
      obtain ⟨v, stage, hs, hless⟩ := hstep
      simp only [hostStep, hs, Option.map_some]
      cases stage with
      | going place' => exact ⟨v, _, rfl, fun _ => hless place' rfl⟩
      | «over» found => exact ⟨v, _, rfl, fun hlocks => by cases hlocks⟩
  | running activity =>
      obtain ⟨v, activity', hs, hbelow⟩ := activityStep_of_locks library pick (.host host) w h
      simp only [hostStep, hs, Option.map_some]
      exact ⟨v, _, rfl, hbelow⟩

theorem workerStep_of_locks (library : Library) (pick serial : Nat) (w : World) {worker : Worker}
    (h : worker.place.errand.locks = true) :
    ∃ (v : World) (place' : WorkerPlace),
      workerStep library pick serial worker w = some (v.placeWorker serial place') ∧
      (place'.errand.locks = true →
        place'.rank w.pool.length < worker.place.rank w.pool.length) := by
  unfold workerStep
  generalize worker.place = place at h ⊢
  cases place with
  | executing once s place =>
      cases place with
      | running activity =>
          obtain ⟨v, activity', hs, hbelow⟩ := activityStep_of_locks library pick (.worker serial) w h
          simp only [taskStep, hs, Option.map_some]
          exact ⟨v, _, rfl, hbelow⟩
      | _ => cases h
  | _ => cases h

theorem Crew.Step.pool_of_locks {c c' : Crew} {e e' : Errand} (h : Crew.Step me c e c' e')
    (hlocks : e'.locks = true) : c'.pool = c.pool := by
  cases h with
  | take | add => cases hlocks
  | _ => rfl

theorem Stride.pool_of_locks (h : Stride me w w') (hlocks : (w'.errand me).locks = true) :
    w'.pool = w.pool := by
  cases h with
  | errand _ hstep => exact hstep.pool_of_locks hlocks
  | own _ _ _ _ haway herrand =>
      rw [herrand, haway] at hlocks
      cases hlocks

/-- A thread that has the pool locked takes a step, and either gives the lock back or comes nearer
to that. -/
theorem World.advance_of_locks (library : Library) (hlocks : (w.errand me).locks = true) :
    ∃ w', w.advance library 0 me = some w' ∧
      ((w'.errand me).locks = true → w'.rank me < w.rank me) := by
  cases me with
  | host host =>
      cases hplace : w.hosts[host]? with
      | none =>
          simp only [World.errand, Crew.errand, Crew.view, World.crew, hplace] at hlocks
          cases hlocks
      | some place =>
          rw [World.errand_eq_view, World.view_host hplace] at hlocks
          obtain ⟨v, place', hs, hbelow⟩ := hostStep_of_locks library 0 host w hlocks
          have hadv : w.advance library 0 (.host host) = some (v.placeHost host place') := by
            rw [World.advance, World.host?, hplace]
            exact hs
          refine ⟨_, hadv, fun hlocks' => ?_⟩
          have hpool := (World.advance_stride hadv).pool_of_locks hlocks'
          cases hplace' : (v.placeHost host place').hosts[host]? with
          | none =>
              simp only [World.errand, Crew.errand, Crew.view, World.crew, hplace'] at hlocks'
              cases hlocks'
          | some place₁ =>
              have heq : place₁ = place' := by
                rw [World.placeHost, List.getElem?_set] at hplace'
                rw [if_pos rfl] at hplace'
                split at hplace'
                · exact (Option.some.inj hplace').symm
                · cases hplace'
              subst heq
              rw [World.errand_eq_view, World.view_host hplace'] at hlocks'
              rw [World.rank, World.rank, World.view_host hplace', World.view_host hplace, hpool]
              exact hbelow hlocks'
  | worker i =>
      cases hworker : w.workers[i]? with
      | none =>
          simp only [World.errand, Crew.errand, Crew.view, World.crew, List.getElem?_map,
            hworker] at hlocks
          cases hlocks
      | some worker =>
          rw [World.errand_eq_view, World.view_worker hworker] at hlocks
          obtain ⟨v, place', hs, hbelow⟩ := workerStep_of_locks library 0 i w hlocks
          have hadv : w.advance library 0 (.worker i) = some (v.placeWorker i place') := by
            rw [World.advance, hworker]
            exact hs
          refine ⟨_, hadv, fun hlocks' => ?_⟩
          have hpool := (World.advance_stride hadv).pool_of_locks hlocks'
          cases hworker' : (v.placeWorker i place').workers[i]? with
          | none =>
              simp only [World.errand, Crew.errand, Crew.view, World.crew, List.getElem?_map,
                hworker'] at hlocks'
              cases hlocks'
          | some worker' =>
              have heq : worker'.place = place' := by
                rw [World.placeWorker, World.modifyWorker, List.getElem?_modify,
                  Option.map_eq_map, Option.map_eq_some_iff] at hworker'
                obtain ⟨before, -, heq⟩ := hworker'
                rw [if_pos rfl] at heq
                rw [← heq]
              rw [World.errand_eq_view, World.view_worker hworker', heq] at hlocks'
              rw [World.rank, World.rank, World.view_worker hworker', World.view_worker hworker,
                hpool, heq]
              exact hbelow hlocks'

theorem World.advance_of_poolHolder (library : Library) (ho : Occupied w.scene w.errand)
    (hholder : w.poolHolder? = some me) :
    ∃ w', w.advance library 0 me = some w' ∧ w'.hold < w.hold := by
  obtain ⟨w', hadv, hless⟩ := World.advance_of_locks library (ho.pool hholder)
  refine ⟨w', hadv, ?_⟩
  have hstride := World.advance_stride hadv
  rw [World.hold, World.hold, hholder]
  cases hholder' : w'.poolHolder? with
  | none => exact Nat.succ_pos _
  | some thread =>
      have hsame : thread = me := by
        by_contra hne
        have hback := hstride.holder_back hne hholder'
        rw [hholder] at hback
        exact hne (Option.some.inj hback).symm
      subst hsame
      exact Nat.succ_lt_succ (hless ((ho.stride hstride).pool hholder'))

end ScriptPool
