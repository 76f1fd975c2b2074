import ScriptPool.Proofs.Pool.Errand

namespace ScriptPool

variable {me : ThreadId} {w v v' : World}

/-- Workers may have been looked at and started. -/
inductive Oversees (me : ThreadId) (w : World) : World → Prop where
  | refl : Oversees me w w
  | lock {v v' : World} (h : Oversees me w v) (hlock : v.lockPool me = some v') : Oversees me w v'
  | unlock {v : World} (h : Oversees me w v) : Oversees me w v.unlockPool
  | raise {v : World} (h : Oversees me w v) (serial : Nat) :
      Oversees me w (v.modifyWorker serial fun worker => { worker with running := true })
  | send {v : World} (h : Oversees me w v) (serial : Nat) : Oversees me w (v.send serial .run)
  | report {v : World} (h : Oversees me w v) (event : Event) : Oversees me w (v.report event)

/-- The pool may have been changed, too, and workers been told to stop. -/
inductive Manages (me : ThreadId) (w : World) : World → Prop where
  | refl : Manages me w w
  | oversees {v v' : World} (h : Manages me w v) (hv : Oversees me v v') : Manages me w v'
  | regroup {v : World} (h : Manages me w v) (pool : List Nat) : Manages me w { v with pool }
  | dismiss {v : World} (h : Manages me w v) (serial : Nat) : Manages me w (v.send serial .stop)
  | close {v : World} (h : Manages me w v) : Manages me w { v with shutDown := true }
  | notify {v : World} (h : Manages me w v) : Manages me w v.notify
  | size {v : World} (h : Manages me w v) (n : Nat) : Manages me w { v with poolSize := n }

/-- At most one worker may have been hired. -/
inductive Hires (me : ThreadId) (w : World) : World → Prop where
  | manages {v : World} (h : Manages me w v) : Hires me w v
  | hire {v v' : World} {c : ContextId} (id : Nat) (hcontext : w.privateContext = (.ok c, v))
      (h : Oversees me (v.addWorker id c) v') : Hires me w v'
  | fail {v : World} {e : ScriptError} (hcontext : w.privateContext = (.error e, v)) : Hires me w v

theorem Oversees.manages (h : Oversees me w v) : Manages me w v :=
  .oversees .refl h

theorem Manages.report (h : Manages me w v) (event : Event) : Manages me w (v.report event) :=
  .oversees h (.report .refl event)

theorem Manages.unlock (h : Manages me w v) : Manages me w v.unlockPool :=
  .oversees h (.unlock .refl)

theorem Oversees.hires (h : Oversees me w v) : Hires me w v :=
  .manages h.manages

theorem startStep_oversees {place : StartPlace} {stage : Stage StartPlace Nat}
    (h : startStep me w place = some (v, stage)) : Oversees me w v := by
  cases place with
  | locking limit =>
      simp only [startStep, Option.map_eq_some_iff, Prod.mk.injEq] at h
      obtain ⟨u, hlock, rfl, -⟩ := h
      exact .lock .refl hlock
  | trying rest limit started =>
      cases rest with
      | nil =>
          cases h
          exact .refl
      | cons serial rest =>
          simp only [startStep] at h
          split at h
          · cases h
            exact .refl
          · split at h
            · cases h
              exact .refl
            · cases h
              exact .raise .refl serial
  | sending serial rest limit started =>
      cases h
      exact .report (.send .refl serial) _
  | unlocking started =>
      cases h
      exact .unlock .refl

theorem lookStep_oversees {question : Question} {place : LookPlace} {stage : Stage LookPlace Bool}
    (h : lookStep me question w place = some (v, stage)) : Oversees me w v := by
  cases place with
  | locking =>
      simp only [lookStep, Option.map_eq_some_iff, Prod.mk.injEq] at h
      obtain ⟨u, hlock, rfl, -⟩ := h
      exact .lock .refl hlock
  | looking rest =>
      cases rest with
      | nil =>
          cases h
          exact .refl
      | cons serial rest =>
          simp only [lookStep] at h
          split at h
          · cases h
            exact .refl
          · split at h
            · cases h
              exact .refl
            · cases h
              exact .refl
  | unlocking found =>
      cases h
      exact .unlock .refl

theorem driveStep_oversees {place : DrivePlace} {stage : Stage DrivePlace Unit}
    (h : driveStep me w place = some (v, stage)) : Oversees me w v := by
  cases place with
  | measuring =>
      simp only [driveStep, World.onQueue_eq_some_iff] at h
      obtain ⟨-, h⟩ := h
      split at h
      · cases h
        exact .refl
      · cases h
        exact .refl
  | starting place =>
      simp only [driveStep, Option.map_eq_some_iff] at h
      obtain ⟨⟨u, stage'⟩, hs, h⟩ := h
      have hu := startStep_oversees hs
      cases stage' with
      | going | «over» =>
          cases h
          exact hu

theorem joinStep_oversees {function : String} {place : JoinPlace} {stage : Stage JoinPlace Reply}
    (h : joinStep function me w place = some (v, stage)) : Oversees me w v := by
  cases stage with
  | going place' =>
      cases joinStep_goes h with
      | checked => exact .report .refl _
      | sampled | searched | disturbed | rechecked | woke => exact .refl
      | look _ _ hs | pending _ hs | executing _ hs | clear _ hs => exact lookStep_oversees hs
      | drive _ hs | driven _ hs => exact driveStep_oversees hs
  | «over» reply =>
      cases joinStep_replies h with
      | refused | done | stopped => exact .refl

theorem joinAllStep_oversees {place : JoinAllPlace} {stage : Stage JoinAllPlace Reply}
    (h : joinAllStep me w place = some (v, stage)) : Oversees me w v := by
  cases stage with
  | going place' =>
      cases joinAllStep_goes h with
      | checked => exact .report .refl _
      | locked hfree => exact .lock .refl (World.lockPool_eq_some_iff.mpr ⟨hfree, rfl⟩)
      | noticed => exact .unlock .refl
      | noticedAlone => exact .unlock (.report .refl _)
      | sampled | searched | pending | disturbed | rechecked | woke => exact .refl
      | look _ hs | busy _ hs | idle _ hs => exact lookStep_oversees hs
      | drive _ hs | driven _ hs => exact driveStep_oversees hs
  | «over» reply =>
      cases joinAllStep_replies h with
      | refused | done | stopped => exact .refl

theorem measureStep_oversees {place : MeasurePlace} {stage : Stage MeasurePlace Metrics}
    (h : measureStep me w place = some (v, stage)) : Oversees me w v := by
  cases place with
  | locking =>
      simp only [measureStep, Option.map_eq_some_iff, Prod.mk.injEq] at h
      obtain ⟨u, hlock, rfl, -⟩ := h
      exact .lock .refl hlock
  | counting rest | naming rest =>
      cases rest with
      | nil | cons =>
          cases h
          exact .refl
  | unlocking =>
      cases h
      exact .unlock .refl
  | queue found =>
      simp only [measureStep, World.onQueue_eq_some_iff, Prod.mk.injEq] at h
      obtain ⟨-, rfl, -⟩ := h
      exact .refl
  | sections | submitted | completed | failed | flag =>
      cases h
      exact .refl

theorem dismissStep_manages {place : DismissPlace} {stage : Stage DismissPlace Nat}
    (h : dismissStep me w place = some (v, stage)) : Manages me w v := by
  cases place with
  | locking =>
      simp only [dismissStep, Option.map_eq_some_iff, Prod.mk.injEq] at h
      obtain ⟨u, hlock, rfl, -⟩ := h
      exact .oversees .refl (.lock .refl hlock)
  | taking =>
      cases h
      exact .unlock (.regroup .refl [])
  | telling rest count =>
      cases rest with
      | nil =>
          cases h
          exact .refl
      | cons serial rest =>
          simp only [dismissStep] at h
          split at h
          · cases h
            exact .report (.dismiss .refl serial) _
          · cases h
            exact .dismiss .refl serial
  | awaiting serial rest count =>
      simp only [dismissStep] at h
      split at h
      · cases h
        exact .report .refl _
      · cases h

theorem shutdownStep_manages {place : ShutdownPlace} {stage : Stage ShutdownPlace Unit}
    (h : shutdownStep me w place = some (v, stage)) : Manages me w v := by
  cases place with
  | swapping =>
      simp only [shutdownStep] at h
      split at h
      · cases h
        exact .refl
      · cases h
        exact .close .refl
  | dismissing place =>
      simp only [shutdownStep, Option.map_eq_some_iff] at h
      obtain ⟨⟨u, stage'⟩, hs, h⟩ := h
      have hu := dismissStep_manages hs
      cases stage' with
      | going | «over» =>
          cases h
          exact hu
  | notifying count =>
      cases h
      exact .notify .refl
  | surveying count =>
      simp only [shutdownStep, World.onQueue_eq_some_iff, Prod.mk.injEq] at h
      obtain ⟨-, rfl, -⟩ := h
      split
      · exact .report (.report .refl _) _
      · exact .report (.report (.report .refl _) _) _

theorem hireStep_hires {place : HirePlace} {stage : Stage HirePlace (Except PoolError Unit)}
    (h : hireStep me w place = some (v, stage)) : Hires me w v := by
  cases place with
  | creating id count =>
      simp only [hireStep] at h
      split at h
      · split at h
        · next c u hcontext =>
            cases h
            exact .hire id hcontext (.report .refl _)
        · next e u hcontext =>
            cases h
            exact .fail hcontext
      · cases h
        exact .manages (.report .refl _)
  | locking serial id count =>
      simp only [hireStep, Option.map_eq_some_iff, Prod.mk.injEq] at h
      obtain ⟨u, hlock, rfl, -⟩ := h
      exact Oversees.hires (.lock .refl hlock)
  | pushing serial id count =>
      cases h
      exact .manages (.unlock (.regroup .refl _))

/-- A coordinator has been started when all its workers have been hired; nothing is hired in that
step. -/
theorem hireStep_manages {place : HirePlace}
    (h : hireStep me w place = some (v, .over (.ok ()))) : Manages me w v := by
  cases place with
  | creating id count =>
      simp only [hireStep] at h
      split at h
      · split at h
        · cases h
        · cases h
      · cases h
        exact .report .refl _
  | locking serial id count =>
      simp only [hireStep, Option.map_eq_some_iff] at h
      obtain ⟨u, -, h⟩ := h
      cases h
  | pushing serial id count => cases h

theorem resizeStep_hires {count : Nat} {place : ResizePlace} {stage : Stage ResizePlace Reply}
    (h : resizeStep count me w place = some (v, stage)) : Hires me w v := by
  cases stage with
  | going place' =>
      cases resizeStep_goes h with
      | checked | read => exact .manages .refl
      | locked _ hfree | failed _ hfree =>
          exact Oversees.hires (.lock .refl (World.lockPool_eq_some_iff.mpr ⟨hfree, rfl⟩))
      | placed | surveyed => exact .manages (.unlock .refl)
      | join _ hs | joined _ hs => exact (joinAllStep_oversees hs).hires
      | dismiss _ hs | dismissed _ hs => exact .manages (dismissStep_manages hs)
      | hire _ hs | hired _ hs | lacking _ hs => exact hireStep_hires hs
      | stored => exact .manages (.size .refl _)
      | kept => exact .manages (.report (.size .refl _) _)
      | drive _ hs | driveOn _ hs => exact (driveStep_oversees hs).hires
  | «over» reply =>
      cases resizeStep_replies h with
      | refused | same => exact .manages .refl
      | inPool => exact .manages (.unlock .refl)
      | broken _ hs => exact (joinAllStep_oversees hs).hires
      | resized _ hs => exact Oversees.hires (.report (driveStep_oversees hs) _)
      | incomplete _ hs => exact (driveStep_oversees hs).hires

theorem openStep_hires {place : OpenPlace} {stage : Stage OpenPlace (Except PoolError Unit)}
    (h : openStep me w place = some (v, stage)) : Hires me w v := by
  cases place with
  | hiring place =>
      simp only [openStep, Option.map_eq_some_iff] at h
      obtain ⟨⟨u, stage'⟩, hs, h⟩ := h
      rcases stage' with place' | (e | ⟨⟩)
      · cases h
        exact hireStep_hires hs
      · cases h
        exact hireStep_hires hs
      · cases h
        exact .manages (.report (hireStep_manages hs) _)
  | closing e place =>
      simp only [openStep, Option.map_eq_some_iff] at h
      obtain ⟨⟨u, stage'⟩, hs, h⟩ := h
      have hu := Hires.manages (shutdownStep_manages hs)
      cases stage' with
      | going | «over» =>
          cases h
          exact hu

end ScriptPool
