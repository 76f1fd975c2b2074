import Mathlib.Data.Prod.Lex
import ScriptPool.Proofs.Pool.Onward

/-!
A request for another number of workers can always be replied to.

A task is turned away as soon as the pool is free. The thread of the host waits until no task is
left. Then it goes around once more, finds all workers at rest, and goes through with it.
-/

namespace ScriptPool

variable {library : Library} {n : Nat} {me : ThreadId} {v w w' : World}
  {place place' : ResizePlace}

theorem resizeStep_nears_early (k : Nat) (h : place.Early true)
    (hfree : ∀ size, place = .locking size → w.poolHolder? = none) :
    Nears (ResizePlace.rank k) (place.rank k) (resizeStep n me w place) := by
  cases place with
  | checking | reading | placing =>
      simp only [resizeStep]
      split
      · exact .of_over
      · exact .of_going (Nat.lt_succ_self _)
  | locking size =>
      simp only [resizeStep, World.lockPool, hfree size rfl, Option.isNone_none, if_true,
        Option.map_some]
      exact .of_going (Nat.lt_succ_self _)
  | joining size place =>
      cases place with
      | checking =>
          simp only [resizeStep, joinAllStep]
          split
          · exact .of_over
          · exact .of_going (Nat.lt_succ_self _)
      | _ => cases h
  | _ => cases h

namespace World.Waits

theorem free_pool (hw : Waits library me n place w) (hlocks : place.errand.locks = false)
    {holder : ThreadId} (hholder : w.poolHolder? = some holder) :
    ∃ w', w.advance library 0 holder = some w' ∧ Waits library me n place w' ∧
      w'.hold < w.hold := by
  obtain ⟨engine, main, poolSize, moves, hrun⟩ := hw.reached
  have ho := hrun.occupied
  have hne : holder ≠ me := by
    rintro rfl
    have hlocked := ho.pool hholder
    rw [World.errand_of_asking hw.asking] at hlocked
    rw [show (Asking.resize n place).errand = place.errand from rfl, hlocks] at hlocked
    cases hlocked
  obtain ⟨w', hadv, hless⟩ := World.advance_of_poolHolder library ho hholder
  exact ⟨w', hadv, hw.other hne hadv, hless⟩

theorem answerable_of_task {i : Nat} (hw : Waits library (.worker i) n place w) :
    w.Answerable library (.worker i) n := by
  refine descend (fun place v => toLex (place.rank 0, v.hold)) (Q := fun _ _ => True) ?_ hw trivial
  intro place v hv _
  have hearly : place.Early true := by
    obtain ⟨engine, main, poolSize, moves, hrun⟩ := hv.reached
    exact (hrun.sole.early hv.asking).mono fun _ => rfl
  by_cases hfree : ∀ size, place = .locking size → v.poolHolder? = none
  · rcases hv.proceed (resizeStep_nears_early 0 hearly hfree) with
      hreply | ⟨place', u, v', -, hadv, hv', -, -, hless⟩
    · exact .inl hreply
    · exact .inr (.inr ⟨_, v', place', hadv, hv', trivial, Prod.Lex.left _ _ hless⟩)
  · push Not at hfree
    obtain ⟨size, rfl, hholder⟩ := hfree
    obtain ⟨holder, hholder⟩ := Option.ne_none_iff_exists'.mp hholder
    obtain ⟨v', hadv, hv', hless⟩ := hv.free_pool rfl hholder
    exact .inr (.inr ⟨holder, v', _, hadv, hv', trivial, Prod.Lex.right _ hless⟩)

theorem answerable_of_down (hw : Waits library me n .checking w) (hdown : w.shutDown = true) :
    w.Answerable library me n := by
  have hreplies : resizeStep n me w .checking = some (w, .over (.error .shutDown)) := by
    simp [resizeStep, hdown]
  exact hw.reply_now hreplies

theorem answerable_of_same (hw : Waits library me n place w)
    (hplace : place = .checking ∨ place = .reading) (hsame : n = 0 ∨ n = w.poolSize) :
    w.Answerable library me n := by
  have hreads {v : World} (hv : Waits library me n .reading v) (hsame : n = 0 ∨ n = v.poolSize) :
      v.Answerable library me n := by
    have hreplies : resizeStep n me v .reading = some (v, .over (.ok v.poolSize)) := by
      simp only [resizeStep, if_pos hsame]
    exact hv.reply_now hreplies
  rcases hplace with rfl | rfl
  · rcases hw.proceed (resizeStep_nears_early 0 trivial (by rintro size ⟨⟩)) with
      hreply | ⟨place', u, w', hgoes, hadv, hw', -, hestate, -⟩
    · exact ⟨w, .refl, .inl hreply⟩
    · cases hgoes with
      | checked =>
          have hsize : w'.poolSize = w.poolSize := (congrArg World.poolSize hestate :)
          exact .of_onward (World.Onward.refl.step _ hadv hw'.isResizing)
            (hreads hw' (hsize ▸ hsame))
  · exact hreads hw hsame

end World.Waits

/-- Whether the thread of the host is done with waiting for all tasks. -/
def ResizePlace.isLate : ResizePlace → Bool
  | .checking | .reading | .locking _ | .placing _ | .joining .. => false
  | _ => true

theorem resizeStep_nears_join (hlate : place.isLate = false)
    (hplace : ∀ size, place ≠ .joining size .sampling)
    (h : place.errand.locks = true ∨ w.poolHolder? = none ∧ w.queueHolder? = none) :
    Nears (ResizePlace.rank w.pool.length) (place.rank w.pool.length)
      (resizeStep n me w place) := by
  cases place with
  | joining size place =>
      refine joiningStep_nears ?_ h
      rintro rfl
      exact hplace size rfl
  | checking | reading | placing => exact resizeStep_nears_early _ trivial nofun
  | locking size => exact resizeStep_nears_early _ trivial fun _ _ => (h.resolve_left nofun).1
  | _ => cases hlate

theorem ResizePlace.Goes.pool_eq (h : place.Goes n me w v place') (hlate : place.isLate = false) :
    v.pool = w.pool := by
  cases h with
  | checked | read | locked | placed => rfl
  | join _ hs | joined _ hs => exact congrArg Staff.pool (joinAllStep_oversees hs).staff
  | _ => cases hlate

theorem World.Idle.of_quiet (h : w.scene.Quiet ∧ w.scene.queue = []) : w.Idle := by
  refine ⟨h.2, fun i s hs => ?_⟩
  rw [← World.scene_holds_iff] at hs
  exact Hand.Resting.not_holds (fun hand hhand => h.1 hhand) hs

namespace World.Waits

theorem idle_next (hi : w.Idle) (hadv : w.advance library 0 me = some w')
    (hw' : Waits library me n place' w') : w'.Idle := by
  refine hi.stride (World.advance_stride hadv) fun howing => ?_
  obtain ⟨source, hsubmit⟩ := World.asking?_of_owing howing
  rw [hw'.asking] at hsubmit
  cases hsubmit

theorem locks_free (hw : Waits library (.host 0) n place w) (hi : w.Idle) :
    (place.errand.locks = true ∨ w.poolHolder? = none) ∧ w.queueHolder? = none := by
  obtain ⟨engine, main, poolSize, moves, hrun⟩ := hw.reached
  have ho := hrun.occupied
  refine ⟨?_, hi.queue_free ho⟩
  cases hlocks : place.errand.locks with
  | true => exact .inl rfl
  | false =>
      refine .inr (hi.pool_free ho hrun.hosts_length ?_)
      rw [World.errand_of_asking hw.asking]
      exact hlocks

theorem proceed_join (hw : Waits library (.host 0) n place w) (hi : w.Idle)
    (hlate : place.isLate = false) (hplace : ∀ size, place ≠ .joining size .sampling) :
    (w.resizeReply? (.host 0)).isSome = true ∨ ∃ place' u w', place.Goes n (.host 0) w u place' ∧
      w.advance library 0 (.host 0) = some w' ∧ Waits library (.host 0) n place' w' ∧
      w'.scene = u.scene ∧ place'.rank w'.pool.length < place.rank w.pool.length := by
  obtain ⟨hpool, hqueue⟩ := hw.locks_free hi
  have hnears : Nears _ _ (resizeStep n (.host 0) w place) :=
    resizeStep_nears_join hlate hplace (hpool.imp id fun hfree => ⟨hfree, hqueue⟩)
  refine (hw.proceed hnears).imp id ?_
  rintro ⟨place', u, w', hgoes, hadv, hw', hscene, -, hless⟩
  have hkept : w'.pool = w.pool := (congrArg Crew.pool hscene).trans (hgoes.pool_eq hlate)
  exact ⟨place', u, w', hgoes, hadv, hw', hscene, by rw [hkept]; exact hless⟩

theorem approach (hw : Waits library (.host 0) n place w) (hi : w.Idle) :
    w.Leads library (.host 0) n fun place v =>
      place.isLate = true ∨ v.Idle ∧ ∃ size, place = .joining size .sampling := by
  refine descend (fun place v => place.rank v.pool.length) (Q := fun _ v => v.Idle) ?_ hw hi
  intro place v hv hi
  cases hlate : place.isLate with
  | true => exact .inr (.inl (.inl rfl))
  | false =>
      by_cases hplace : ∀ size, place ≠ .joining size .sampling
      · rcases hv.proceed_join hi hlate hplace with
          hreply | ⟨place', u, v', -, hadv, hv', -, hless⟩
        · exact .inl hreply
        · exact .inr (.inr ⟨_, v', place', hadv, hv', idle_next hi hadv hv', hless⟩)
      · push Not at hplace
        exact .inr (.inl (.inr ⟨hi, hplace⟩))

theorem stir_worker {size : Nat} (hw : Waits library (.host 0) n (.joining size .sampling) w)
    (hi : w.Idle) (hquiet : ¬ w.scene.Quiet) :
    ∃ i w', w.advance library 0 (.worker i) = some w' ∧ w'.Idle ∧ w'.steps < w.steps := by
  obtain ⟨engine, main, poolSize, moves, hrun⟩ := hw.reached
  have hsole := hrun.sole
  have ho := hrun.occupied
  have hrunning : w.shutDown = false := (hsole.running hw.asking).resolve_left nofun
  simp only [Crew.Quiet, not_forall] at hquiet
  obtain ⟨i, hand, hhand, hawake⟩ := hquiet
  obtain ⟨worker, hworker, rfl⟩ := World.worker_of_scene_hands hhand
  have hpool : i ∈ w.pool := by
    by_contra hout
    exact hawake (hsole.outside hrunning hhand hout)
  have hraised : worker.hand.bare.running = true := by
    by_contra hlow
    exact hawake ((hrun.disciplined.sound hhand).resting (Bool.eq_false_of_not_eq_true hlow))
  refine ⟨i, hi.advance_worker library ho hworker ?_ ?_⟩
  · intro hgone
    obtain ⟨post, hpost, htold⟩ := hsole.manned.complete.employed (List.mem_append_left _ hpool)
    rw [World.posts_getElem? hworker, Option.some.injEq] at hpost
    subst hpost
    simp [Worker.post, hgone, WorkerPlace.isLeaving] at htold
  · intro hreceiving hempty
    rcases ho.running hhand hraised with hbusy | hmailed | ⟨thread, rest, hsending⟩
    · have hplace : worker.hand.bare.place = worker.place.bare := rfl
      rw [hplace, hreceiving] at hbusy
      cases hbusy
    · have hmailbox : worker.hand.bare.mailbox = worker.mailbox := rfl
      rw [hmailbox, hempty] at hmailed
      cases hmailed
    · rcases thread with (_ | host) | j
      · rw [World.errand_of_asking hw.asking] at hsending
        cases hsending
      · rw [World.errand_host_succ hrun.hosts_length] at hsending
        cases hsending
      · rw [hi.errand_eq_away] at hsending
        cases hsending

theorem come_to_rest {size : Nat} (hw : Waits library (.host 0) n (.joining size .sampling) w)
    (hi : w.Idle) : w.Leads library (.host 0) n fun place v =>
      place = .joining size .sampling ∧ v.scene.Quiet ∧ v.scene.queue = [] := by
  refine descend (fun _ v => v.steps)
    (Q := fun place v => place = .joining size .sampling ∧ v.Idle) ?_ hw ⟨rfl, hi⟩
  rintro _ v hv ⟨rfl, hi⟩
  by_cases hquiet : v.scene.Quiet
  · exact .inr (.inl ⟨rfl, hquiet, hi.queue⟩)
  · obtain ⟨i, v', hadv, hi', hless⟩ := hv.stir_worker hi hquiet
    have hne : ThreadId.worker i ≠ .host 0 := nofun
    exact .inr (.inr ⟨_, v', _, hadv, hv.other hne hadv, ⟨rfl, hi'⟩, hless⟩)

end World.Waits

/-- The rest of a round in which the thread finds nothing to do, if nothing is announced. -/
def JoinAllPlace.Passing (generation : Nat) : JoinAllPlace → Prop
  | .driving seen .measuring | .searching seen | .confirming seen => seen = generation
  | .looking seen place => seen = generation ∧ place ≠ .unlocking true
  | _ => False

theorem JoinAllPlace.Passing.targets_eq {generation : Nat} {place : JoinAllPlace}
    (h : place.Passing generation) : place.errand.targets = [] := by
  cases place with
  | driving seen place =>
      cases place with
      | measuring => rfl
      | starting => cases h
  | looking seen place =>
      cases place with
      | locking | looking | unlocking => rfl
  | _ => rfl

theorem World.isRunning_of_quiet (hquiet : w.scene.Quiet) (i : Nat) : w.isRunning i = false := by
  rw [← World.isRunning_scene, Crew.isRunning]
  cases hhand : w.scene.hands[i]? with
  | none => rfl
  | some hand => exact (hquiet hhand).running

theorem lookStep_of_quiet {place : LookPlace} {stage : Stage LookPlace Bool}
    (hquiet : w.scene.Quiet) (hplace : place ≠ .unlocking true)
    (h : lookStep me .running w place = some (v, stage)) :
    stage ≠ .going (.unlocking true) ∧ stage ≠ .over true := by
  cases place with
  | locking =>
      simp only [lookStep, Option.map_eq_some_iff] at h
      obtain ⟨u, -, h⟩ := h
      cases h
      constructor
      · rintro ⟨⟩
      · rintro ⟨⟩
  | looking rest =>
      cases rest with
      | nil =>
          cases h
          constructor
          · rintro ⟨⟩
          · rintro ⟨⟩
      | cons serial rest =>
          simp only [lookStep, Question.holds, World.isRunning_of_quiet hquiet, Bool.false_eq_true,
            if_false, ite_self] at h
          cases h
          constructor
          · rintro ⟨⟩
          · rintro ⟨⟩
  | unlocking found =>
      cases h
      cases found with
      | false =>
          constructor
          · rintro ⟨⟩
          · rintro ⟨⟩
      | true => exact absurd rfl hplace

theorem joinAllStep_passing {place place' : JoinAllPlace} (hquiet : w.scene.Quiet)
    (hqueue : w.queue = []) (hp : place.Passing w.generation)
    (h : joinAllStep me w place = some (v, .going place')) :
    place'.Passing v.generation := by
  cases joinAllStep_goes h with
  | @drive seen place place' v hs =>
      cases place with
      | starting => cases hp
      | measuring =>
          simp only [driveStep, hqueue, List.isEmpty_nil, if_true, World.onQueue_eq_some_iff] at hs
          cases hs.2
  | @driven seen place v hs =>
      cases place with
      | starting => cases hp
      | measuring =>
          simp only [driveStep, hqueue, List.isEmpty_nil, if_true, World.onQueue_eq_some_iff] at hs
          cases hs.2
          refine ⟨hp, ?_⟩
          rintro ⟨⟩
  | look seen hs =>
      obtain ⟨hseen, hplace⟩ := hp
      have hsame : v.generation = w.generation := congrArg Crew.generation (lookStep_scene hs)
      rw [← hsame] at hseen
      refine ⟨hseen, ?_⟩
      rintro rfl
      exact (lookStep_of_quiet hquiet hplace hs).1 rfl
  | busy seen hs => exact absurd rfl (lookStep_of_quiet hquiet hp.2 hs).2
  | idle seen hs =>
      have hsame : v.generation = w.generation := congrArg Crew.generation (lookStep_scene hs)
      exact hp.1.trans hsame.symm
  | searched => exact hp
  | pending _ _ hsome => exact absurd hqueue hsome
  | disturbed hseen => exact absurd hp.symm hseen
  | _ => cases hp

namespace World.Waits

/-- While all workers rest and nothing is announced, the thread finishes its round and gets past the
join. -/
theorem go_round {size : Nat} {place : JoinAllPlace}
    (hw : Waits library (.host 0) n (.joining size place) w)
    (hquiet : w.scene.Quiet ∧ w.scene.queue = []) (hp : place.Passing w.generation) :
    w.Leads library (.host 0) n fun place _ => place.isLate = true := by
  refine descend (fun place v => place.rank v.pool.length) (Q := fun place v =>
    place.isLate = false → (v.scene.Quiet ∧ v.scene.queue = []) ∧
      ∃ p, place = .joining size p ∧ p.Passing v.generation) ?_ hw fun _ => ⟨hquiet, _, rfl, hp⟩
  intro place v hv hround
  cases hlate : place.isLate with
  | true => exact .inr (.inl rfl)
  | false =>
      obtain ⟨hquiet, p, rfl, hp⟩ := hround hlate
      have hplace (size' : Nat) : ResizePlace.joining size p ≠ .joining size' .sampling := by
        rintro ⟨⟩
        cases hp
      have htargets : (v.errand (.host 0)).targets = [] := by
        rw [World.errand_of_asking hv.asking]
        exact hp.targets_eq
      rcases hv.proceed_join (.of_quiet hquiet) rfl hplace with
        hreply | ⟨place', u, v', hgoes, hadv, hv', hscene, hless⟩
      · exact .inl hreply
      · refine .inr (.inr ⟨_, v', place', hadv, hv', fun hlate' => ?_, hless⟩)
        refine ⟨World.quiet_advance hadv hv'.asking htargets hquiet, ?_⟩
        cases hgoes with
        | join _ hstep =>
            have hsame : v'.generation = u.generation := congrArg Crew.generation hscene
            exact ⟨_, rfl, hsame ▸ joinAllStep_passing hquiet.1 hquiet.2 hp hstep⟩
        | joined => cases hlate'

theorem pass {size : Nat} (hw : Waits library (.host 0) n (.joining size .sampling) w)
    (hquiet : w.scene.Quiet ∧ w.scene.queue = []) :
    w.Leads library (.host 0) n fun place _ => place.isLate = true := by
  have hfirst : resizeStep n (.host 0) w (.joining size .sampling) =
      some (w, .going (.joining size (.driving w.generation .measuring))) := rfl
  have hnears : Nears (fun _ => 0) 1 (resizeStep n (.host 0) w (.joining size .sampling)) :=
    ⟨_, _, hfirst, fun _ _ => Nat.one_pos⟩
  rcases hw.proceed hnears with hreply | ⟨place, u, w', hgoes, hadv, hw', hscene, -⟩
  · exact ⟨w, .refl, .inl hreply⟩
  · have htargets : (w.errand (.host 0)).targets = [] := by
      rw [World.errand_of_asking hw.asking]
      rfl
    have hquiet' := World.quiet_advance hadv hw'.asking htargets hquiet
    cases hgoes with
    | join _ hstep =>
        cases hstep
        have hsame : w.generation = w'.generation := (congrArg Crew.generation hscene).symm
        exact .of_onward (World.Onward.refl.step _ hadv hw'.isResizing)
          (hw'.go_round hquiet' hsame)
    | joined _ hstep => cases hstep

end World.Waits

/-- How far the thread of the host is from its reply once the join is over, as a stage of the request
and the steps left in it. -/
def ResizePlace.course : ResizePlace → ℕ ×ₗ ℕ
  | .dismissing _ .locking => toLex (7, 0)
  | .dismissing _ .taking => toLex (6, 0)
  | .dismissing _ (.telling rest _) => toLex (5, 2 * rest.length)
  | .dismissing _ (.awaiting _ rest _) => toLex (5, 2 * rest.length + 1)
  | .hiring _ (.creating id count) => toLex (4, 3 * (count - id) + 2)
  | .hiring _ (.locking _ id count) => toLex (4, 3 * (count - id) + 1)
  | .hiring _ (.pushing _ id count) => toLex (4, 3 * (count - id))
  | .failing _ => toLex (3, 0)
  | .surveying _ => toLex (2, 0)
  | .storing _ | .keeping .. => toLex (1, 0)
  | _ => toLex (0, 0)

theorem resizeStep_nears_late (hlate : place.isLate = true) (hq : place.Quieted w.scene me)
    (hr : (place.duty n).Recorded w.staff)
    (hfree : (place.errand.locks = true ∨ w.poolHolder? = none) ∧ w.queueHolder? = none)
    (hgone : ∀ size serial rest count, place = .dismissing size (.awaiting serial rest count) →
      w.isGone serial = true) :
    Nears ResizePlace.course place.course (resizeStep n me w place) := by
  cases place with
  | checking | reading | locking | placing | joining => cases hlate
  | dismissing size place =>
      cases place with
      | locking =>
          have hpool := hfree.1.resolve_left (by rintro ⟨⟩)
          simp only [resizeStep, dismissStep, World.lockPool, hpool, Option.isNone_none, if_true,
            Option.map_some]
          exact .of_going (Prod.Lex.left _ _ (Nat.lt_succ_self _))
      | taking => exact .of_going (Prod.Lex.left _ _ (Nat.lt_succ_self _))
      | telling rest count =>
          cases rest with
          | nil => exact .of_going (Prod.Lex.left _ _ (Nat.lt_succ_self _))
          | cons serial rest =>
              simp only [resizeStep, dismissStep]
              split
              · apply Nears.of_going
                apply Prod.Lex.right
                simp only [List.length_cons]
                omega
              · apply Nears.of_going
                apply Prod.Lex.right
                simp only [List.length_cons]
                omega
      | awaiting serial rest count =>
          simp only [resizeStep, dismissStep, hgone _ _ _ _ rfl, if_true, Option.map_some]
          exact .of_going (Prod.Lex.right _ (Nat.lt_succ_self _))
  | hiring size place =>
      cases place with
      | creating id count =>
          simp only [resizeStep, hireStep]
          split
          · split
            · exact .of_going (Prod.Lex.right _ (Nat.lt_succ_self _))
            · exact .of_going (Prod.Lex.left _ _ (Nat.lt_succ_self _))
          · exact .of_going (Prod.Lex.left _ _ (by decide))
      | locking serial id count =>
          have hpool := hfree.1.resolve_left (by rintro ⟨⟩)
          simp only [resizeStep, hireStep, World.lockPool, hpool, Option.isNone_none, if_true,
            Option.map_some]
          exact .of_going (Prod.Lex.right _ (Nat.lt_succ_self _))
      | pushing serial id count =>
          obtain ⟨-, -, hid, -⟩ := hr
          apply Nears.of_going
          apply Prod.Lex.right
          omega
  | storing | surveying | keeping => exact .of_going (Prod.Lex.left _ _ (Nat.lt_succ_self _))
  | failing e =>
      have hpool := hfree.1.resolve_left (by rintro ⟨⟩)
      simp only [resizeStep, World.lockPool, hpool, Option.isNone_none, if_true, Option.map_some]
      exact .of_going (Prod.Lex.left _ _ (Nat.lt_succ_self _))
  | driving size place | drivingOn e place =>
      cases place with
      | starting => cases hq
      | measuring =>
          have hempty : w.queue.isEmpty = true := List.isEmpty_iff.mpr hq.2
          simp only [resizeStep, driveStep, World.onQueue_of_free hfree.2, hempty, if_true,
            Option.map_some]
          exact .of_over

theorem ResizePlace.Goes.late (h : place.Goes n me w v place') (hlate : place.isLate = true) :
    place'.isLate = true := by
  cases h with
  | checked | read | locked | placed | join | joined => cases hlate
  | _ => rfl

theorem ResizePlace.Quieted.of_late {c : Crew} (hq : place.Quieted c me)
    (hlate : place.isLate = true) : c.Quiet ∧ c.queue = [] := by
  cases place with
  | checking | reading | locking | placing | joining => cases hlate
  | dismissing | hiring | storing | failing | surveying | keeping => exact hq
  | driving size place | drivingOn e place =>
      cases place with
      | measuring => exact hq
      | starting => cases hq

theorem World.Idle.advance_told {serial : Nat} (hi : w.Idle) (ho : Occupied w.scene w.errand)
    (htold : isTold w.staff.posts serial = true) (hstays : w.isGone serial = false) :
    ∃ w', w.advance library 0 (.worker serial) = some w' ∧ w'.Idle ∧ w'.steps < w.steps := by
  rw [isTold] at htold
  cases hpost : w.staff.posts[serial]? with
  | none =>
      rw [hpost] at htold
      cases htold
  | some post =>
      rw [hpost, Option.any_some] at htold
      obtain ⟨worker, hworker, rfl⟩ := World.of_posts_getElem? hpost
      refine hi.advance_worker library ho hworker ?_ ?_
      · intro hgone
        simp [World.isGone, hworker, hgone] at hstays
      · intro hreceiving hempty
        simp [Worker.post, hreceiving, hempty, WorkerPlace.isLeaving] at htold

namespace World.Waits

theorem answerable_of_late (hw : Waits library (.host 0) n place w) (hlate : place.isLate = true) :
    w.Answerable library (.host 0) n := by
  refine descend (fun place v => toLex (place.course, v.steps))
    (Q := fun place _ => place.isLate = true) ?_ hw hlate
  intro place v hv hlate
  obtain ⟨engine, main, poolSize, moves, hrun⟩ := hv.reached
  have hquieted := hrun.sole.quieted hv.asking
  have hrecorded := hrun.sole.manned.recorded
  rw [World.duty_of_asking hv.asking] at hrecorded
  have hi := World.Idle.of_quiet (hquieted.of_late hlate)
  by_cases hgone : ∀ size serial rest count,
      place = .dismissing size (.awaiting serial rest count) → v.isGone serial = true
  · have hnears := resizeStep_nears_late hlate hquieted hrecorded (hv.locks_free hi) hgone
    rcases hv.proceed hnears with hreply | ⟨place', u, v', hgoes, hadv, hv', -, -, hless⟩
    · exact .inl hreply
    · exact .inr (.inr ⟨_, v', place', hadv, hv', hgoes.late hlate, Prod.Lex.left _ _ hless⟩)
  · push Not at hgone
    obtain ⟨size, serial, rest, count, rfl, hstays⟩ := hgone
    obtain ⟨v', hadv, -, hless⟩ := hi.advance_told hrun.occupied hrecorded.2.2
      (Bool.eq_false_of_not_eq_true hstays)
    have hne : ThreadId.worker serial ≠ .host 0 := nofun
    exact .inr (.inr ⟨_, v', _, hadv, hv.other hne hadv, rfl, Prod.Lex.right _ hless⟩)

theorem answerable_of_idle (hw : Waits library (.host 0) n place w) (hi : w.Idle) :
    w.Answerable library (.host 0) n := by
  refine (hw.approach hi).trans fun place v hv hgoal => ?_
  rcases hgoal with hlate | ⟨hi, size, rfl⟩
  · exact hv.answerable_of_late hlate
  · refine (hv.come_to_rest hi).trans ?_
    rintro _ v₁ hv₁ ⟨rfl, hquiet⟩
    exact (hv₁.pass hquiet).trans fun _ v₂ hv₂ hlate => hv₂.answerable_of_late hlate

end World.Waits

theorem Run.answerable {engine : Engine} {main : ContextId} {poolSize : Nat}
    {before during : List Move} {w₀ w₁ : World}
    (h₀ : Run library (World.initial engine main poolSize 0) before w₀)
    (h₁ : Run library w₀ during w₁) (henter : w₀.asking? me = some (.resize n .checking))
    (hstay : w₀.throughout library (World.isResizing me n) during = true)
    (hcome : me ≠ .host 0 ∨ n = 0 ∨ n = w₀.poolSize ∨ w₁.shutDown = true ∨ w₁.pool ≠ w₀.pool ∨
      w₁.Idle) : w₁.Answerable library me n := by
  obtain ⟨place, hask, hsince⟩ := h₀.since henter h₁ hstay
  have hrun := h₀.trans h₁
  have hw : World.Waits library me n place w₁ := ⟨⟨engine, main, poolSize, _, hrun⟩, hask⟩
  rcases hrun.thread_cases hask with rfl | ⟨i, rfl⟩
  · have hshort (hsame : n = 0 ∨ n = w₀.poolSize) : w₁.Answerable library (.host 0) n := by
      have hasked := hsince.asked
      have hplace : place = .checking ∨ place = .reading := by
        cases place with
        | checking => exact .inl rfl
        | reading => exact .inr rfl
        | _ => exact absurd hsame (not_or.mpr hasked)
      refine hw.answerable_of_same hplace ?_
      rcases hplace with rfl | rfl
      · rw [show w₁.poolSize = w₀.poolSize from hasked]
        exact hsame
      · rw [show w₁.poolSize = w₀.poolSize from hasked]
        exact hsame
    rcases hcome with hme | hzero | hsize | hdown | hpool | hi
    · exact absurd rfl hme
    · exact hshort (.inl hzero)
    · exact hshort (.inr hsize)
    · obtain rfl : place = .checking := by
        refine (hrun.sole.running hask).resolve_right ?_
        rw [hdown]
        nofun
      exact hw.answerable_of_down hdown
    · refine hw.answerable_of_late ?_
      have hrenewed := hsince.renewed rfl
      cases place with
      | checking | reading | locking | placing | joining => exact absurd hrenewed hpool
      | _ => rfl
    · exact hw.answerable_of_idle hi
  · exact hw.answerable_of_task

end ScriptPool
