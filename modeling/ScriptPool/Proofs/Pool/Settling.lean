import ScriptPool.Proofs.Pool.LockRank
import ScriptPool.Proofs.Pool.SoleHost
import ScriptPool.Proofs.Pool.Stock

namespace ScriptPool

/-- No task is in the queue or in the hands of a worker. -/
structure World.Idle (w : World) : Prop where
  queue : w.queue = []
  hands : ∀ i s, ¬ w.Executes (.worker i) s

/-- How many steps a worker without a task is from looking into its mailbox, at most. -/
def WorkerPlace.steps : WorkerPlace → Nat
  | .gone | .receiving => 0
  | .beginning | .exiting | .announcing => 1
  | .resting => 2
  | .popping _ => 3
  | .checking _ => 4
  | .comparing _ | .executing _ _ .notifying => 5
  | .measuring | .executing _ _ .clearing => 6
  | .executing .. => 7

/-- A command costs a worker one step more than a run without tasks. -/
def Hand.steps (hand : Hand) : Nat :=
  hand.place.steps + 7 * hand.mailbox.length

/-- How many steps the workers can take while no task is left, at most. -/
def World.steps (w : World) : Nat :=
  (w.scene.hands.map Hand.steps).sum

variable {library : Library} {i : Nat} {me thread : ThreadId} {w w' : World} {c c₁ : Crew}
  {hand hand' : Hand} {worker : Worker}

theorem Crew.Own.steps_lt (h : Crew.Own i c hand c₁ hand') (hqueue : c.queue = [])
    (hheld : hand.place.held? = none) : hand'.steps < hand.steps := by
  have hplace {p : WorkerPlace} (hlt : p.steps < hand.place.steps) :
      p.steps + 7 * hand.mailbox.length < hand.steps := Nat.add_lt_add_right hlt _
  cases h with
  | move p hp =>
      apply hplace
      revert hp hheld
      generalize hand.place = p₀
      intro hheld hp
      cases hp with
      | task once s hp =>
          cases hp with
          | replace => exact Nat.lt_succ_self _
          | _ => cases hheld
      | _ => exact Nat.lt_succ_self _
  | receive command rest hreceiving hmailbox =>
      rw [Hand.steps, Hand.steps, hreceiving, hmailbox, List.length_cons]
      cases command with
      | run | stop =>
          simp only [Command.place, WorkerPlace.steps]
          omega
  | leave once hbefore =>
      apply hplace
      rcases hbefore with hbefore | hbefore
      · rw [hbefore]
        exact Nat.lt_succ_of_lt (Nat.lt_succ_self _)
      · rw [hbefore]
        exact Nat.lt_succ_self _
  | pop _ _ _ _ _ hsome =>
      rw [hqueue] at hsome
      cases hsome
  | publish _ _ hbefore | unlockQueue _ _ hbefore | fail _ _ _ hbefore | complete _ _ _ hbefore =>
      rw [hbefore] at hheld
      cases hheld
  | clear _ _ hbefore | rest hbefore | announce hbefore =>
      apply hplace
      rw [hbefore]
      exact Nat.lt_succ_self _
  | report once _ hbefore =>
      apply hplace
      rw [hbefore]
      cases once
      · exact Nat.lt_succ_self _
      · exact Nat.lt_succ_of_lt (Nat.lt_succ_of_lt (Nat.lt_succ_self _))

theorem sum_map_set_lt {α : Type} {f : α → Nat} {l : List α} {j : Nat} {a b : α}
    (h : l[j]? = some a) (hlt : f b < f a) : ((l.set j b).map f).sum < (l.map f).sum := by
  have hentry : (l.map f)[j]? = some (f a) := by simp [h]
  have hsum := sum_set_add hentry (f b)
  rw [List.map_set]
  omega

theorem World.errand_host_succ (hlength : w.hosts.length = 1) (host : Nat) :
    w.errand (.host (host + 1)) = .away := by
  have hnone : w.hosts[host + 1]? = none := List.getElem?_eq_none (by omega)
  simp only [World.errand, Crew.errand, Crew.view, World.crew, hnone]
  rfl

namespace World.Idle

theorem held (hi : w.Idle) (hhand : w.scene.hands[i]? = some hand) : hand.place.held? = none := by
  cases hheld : hand.place.held? with
  | none => rfl
  | some s => exact absurd (World.scene_holds_iff.mp ⟨hand, hhand, hheld⟩) (hi.hands i s)

theorem not_inCode (hi : w.Idle) : ¬ w.scene.InCode (.worker i) := by
  rintro ⟨hand, once, s, activity, hhand, hplace⟩
  have hheld := hi.held hhand
  rw [hplace] at hheld
  cases hheld

theorem asking?_eq_none (hi : w.Idle) (i : Nat) : w.asking? (.worker i) = none := by
  rw [World.asking?_eq_view]
  cases hworker : w.workers[i]? with
  | none => simp [Crew.view, World.crew, hworker, WorkerPlace.asking?]
  | some worker =>
      rw [World.view_worker hworker]
      cases hplace : worker.place with
      | executing once s p =>
          cases p with
          | running activity =>
              refine absurd ⟨i, worker, rfl, hworker, ?_⟩ (hi.hands i s)
              rw [hplace]
              rfl
          | _ => rfl
      | _ => rfl

theorem errand_eq_away (hi : w.Idle) (i : Nat) : w.errand (.worker i) = .away := by
  have hask := hi.asking?_eq_none i
  rw [World.asking?_eq_view] at hask
  rw [World.errand_eq_view]
  simp only [Crew.view] at hask ⊢
  rw [WorkerPlace.errand_eq, hask]
  rfl

theorem queue_free (hi : w.Idle) (ho : Occupied w.scene w.errand) : w.queueHolder? = none := by
  cases hholder : w.queueHolder? with
  | none => rfl
  | some thread =>
      obtain ⟨i, hand, -, hhand, hclaiming⟩ := ho.queue hholder
      have hheld := hi.held hhand
      generalize hand.place = p at hheld hclaiming
      cases p with
      | executing once s p =>
          cases p with
          | publishing | unlockingQueue => cases hheld
          | _ => cases hclaiming
      | _ => cases hclaiming

theorem pool_free (hi : w.Idle) (ho : Occupied w.scene w.errand) (hlength : w.hosts.length = 1)
    (hunlocked : (w.errand (.host 0)).locks = false) : w.poolHolder? = none := by
  cases hholder : w.poolHolder? with
  | none => rfl
  | some thread =>
      have hlocks := ho.pool hholder
      cases thread with
      | worker i =>
          rw [hi.errand_eq_away] at hlocks
          cases hlocks
      | host host =>
          cases host with
          | zero =>
              rw [hunlocked] at hlocks
              cases hlocks
          | succ host =>
              rw [World.errand_host_succ hlength] at hlocks
              cases hlocks

theorem stride (hi : w.Idle) (h : Stride me w w') (hpush : w'.errand me ≠ .owing) : w'.Idle := by
  have hqueue : w'.scene.queue = [] := by
    cases h with
    | errand _ hstep =>
        rw [hstep.queue_eq hpush]
        exact hi.queue
    | own _ _ hown hscene =>
        rw [hscene]
        cases hown with
        | pop _ _ _ _ _ hsome =>
            rw [show w.scene.queue = [] from hi.queue] at hsome
            cases hsome
        | _ => exact hi.queue
  refine ⟨hqueue, fun i s hs => ?_⟩
  have hnone (i : Nat) (s : Submission) : ¬ w.scene.Holds i s := by
    rw [World.scene_holds_iff]
    exact hi.hands i s
  rw [← World.scene_holds_iff] at hs
  cases h.flow with
  | still _ _ hholds => exact hnone i s ((hholds i s).mp hs)
  | push _ _ _ hholds => exact hnone i s ((hholds i s).mp hs)
  | claim _ _ _ _ _ _ hsome =>
      rw [show w.scene.queue = [] from hi.queue] at hsome
      cases hsome
  | finish i s hheld => exact hnone i s hheld

theorem advance_worker (library : Library) (hi : w.Idle) (ho : Occupied w.scene w.errand)
    (hworker : w.workers[i]? = some worker) (hstays : worker.place ≠ .gone)
    (hmail : worker.place = .receiving → worker.mailbox ≠ []) :
    ∃ w', w.advance library 0 (.worker i) = some w' ∧ w'.Idle ∧ w'.steps < w.steps := by
  have hheld : worker.place.held? = none := by
    cases hheld : worker.place.held? with
    | none => rfl
    | some s => exact absurd ⟨i, worker, rfl, hworker, hheld⟩ (hi.hands i s)
  have hfree := hi.queue_free ho
  have hstep : (w.advance library 0 (.worker i)).isSome = true := by
    rw [World.advance, hworker, Option.bind_some]
    unfold workerStep
    generalize worker.place = p at hstays hmail hheld
    cases p with
    | gone => exact absurd rfl hstays
    | receiving => simp [hmail rfl]
    | measuring | checking | popping => simp [World.onQueue, hfree]
    | executing once s p =>
        cases p with
        | replacing =>
            simp only [taskStep, Option.isSome_map]
            split
            · rfl
            · rfl
        | clearing | notifying => rfl
        | _ => cases hheld
    | _ => rfl
  obtain ⟨w', hadv⟩ := Option.isSome_iff_exists.mp hstep
  have hstride := World.advance_stride hadv
  have hown := hstride
  cases hown with
  | errand hcode => exact absurd hcode hi.not_inCode
  | own hme hhand hown hscene haway herrand =>
      cases hme
      refine ⟨w', hadv, hi.stride hstride ?_, ?_⟩
      · rw [herrand, haway]
        rintro ⟨⟩
      · have hqueue : w.scene.queue = [] := hi.queue
        rw [World.steps, World.steps, hscene, Crew.put, hown.hands_eq]
        exact sum_map_set_lt hhand (hown.steps_lt hqueue (hi.held hhand))

end World.Idle

end ScriptPool
