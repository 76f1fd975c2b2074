import ScriptPool.Pool.Requests

namespace ScriptPool

variable {function : String} {me : ThreadId} {w v : World}

/-- A step from one place of a join to another. The join looks at the workers also when the queue has
a task of the function, and then it starts workers before it waits. -/
inductive JoinPlace.Goes (function : String) (me : ThreadId) (w : World) :
    JoinPlace → World → JoinPlace → Prop where
  | checked (hrunning : w.shutDown = false) :
      Goes function me w .checking (w.report (.joining function)) .sampling
  | sampled : Goes function me w .sampling w (.searching w.generation)
  | searched (seen : Nat) (hfree : w.queueHolder? = none) :
      Goes function me w (.searching seen) w
        (.looking seen (w.queue.any fun s => s.function = function) .locking)
  | look (seen : Nat) (pending : Bool) {place place' : LookPlace} {v : World}
      (h : lookStep me (.executing function) w place = some (v, .going place')) :
      Goes function me w (.looking seen pending place) v (.looking seen pending place')
  | pending (seen : Nat) {place : LookPlace} {executing : Bool} {v : World}
      (h : lookStep me (.executing function) w place = some (v, .over executing)) :
      Goes function me w (.looking seen true place) v (.driving seen .measuring)
  | executing (seen : Nat) {place : LookPlace} {v : World}
      (h : lookStep me (.executing function) w place = some (v, .over true)) :
      Goes function me w (.looking seen false place) v (.rechecking seen)
  | clear (seen : Nat) {place : LookPlace} {v : World}
      (h : lookStep me (.executing function) w place = some (v, .over false)) :
      Goes function me w (.looking seen false place) v (.confirming seen)
  | disturbed {seen : Nat} (hseen : w.generation ≠ seen) :
      Goes function me w (.confirming seen) w (.rechecking seen)
  | drive (seen : Nat) {place place' : DrivePlace} {v : World}
      (h : driveStep me w place = some (v, .going place')) :
      Goes function me w (.driving seen place) v (.driving seen place')
  | driven (seen : Nat) {place : DrivePlace} {v : World}
      (h : driveStep me w place = some (v, .over ())) :
      Goes function me w (.driving seen place) v (.rechecking seen)
  | rechecked (seen : Nat) (hrunning : w.shutDown = false) :
      Goes function me w (.rechecking seen) w (.waiting seen)
  | woke (seen : Nat) : Goes function me w (.waiting seen) w .sampling

/-- The last step of a join, with its reply. -/
inductive JoinPlace.Replies (w : World) : JoinPlace → World → Reply → Prop where
  | refused (hdown : w.shutDown = true) : Replies w .checking w (.error .shutDown)
  | done : Replies w (.confirming w.generation) w (.ok 0)
  | stopped (seen : Nat) (hdown : w.shutDown = true) :
      Replies w (.rechecking seen) w (.error .shutDown)

theorem joinStep_cases {place : JoinPlace} {stage : Stage JoinPlace Reply}
    (h : joinStep function me w place = some (v, stage)) :
    match stage with
    | .going place' => place.Goes function me w v place'
    | .over reply => place.Replies w v reply := by
  cases place with
  | checking =>
      simp only [joinStep] at h
      split at h
      · cases h
        next hdown => exact .refused hdown
      · cases h
        next hrunning => exact .checked (by simpa using hrunning)
  | sampling =>
      cases h
      exact .sampled
  | searching seen =>
      simp only [joinStep, World.onQueue_eq_some_iff, Prod.mk.injEq] at h
      obtain ⟨hfree, rfl, rfl⟩ := h
      exact .searched seen hfree
  | looking seen pending place =>
      simp only [joinStep, Option.map_eq_some_iff] at h
      obtain ⟨⟨u, stage⟩, hs, h⟩ := h
      rcases stage with place' | executing
      · cases h
        exact .look seen pending hs
      · cases h
        cases pending with
        | true => exact .pending seen hs
        | false =>
            cases executing with
            | true => exact .executing seen hs
            | false => exact .clear seen hs
  | confirming seen =>
      simp only [joinStep] at h
      split at h
      · cases h
        next hseen =>
          subst hseen
          exact .done
      · cases h
        next hseen => exact .disturbed hseen
  | driving seen place =>
      simp only [joinStep, Option.map_eq_some_iff] at h
      obtain ⟨⟨u, stage⟩, hs, h⟩ := h
      cases stage with
      | going =>
          cases h
          exact .drive seen hs
      | «over» =>
          cases h
          exact .driven seen hs
  | rechecking seen =>
      simp only [joinStep] at h
      split at h
      · cases h
        next hdown => exact .stopped seen hdown
      · cases h
        next hrunning => exact .rechecked seen (by simpa using hrunning)
  | waiting seen =>
      cases h
      exact .woke seen

theorem joinStep_goes {place place' : JoinPlace}
    (h : joinStep function me w place = some (v, .going place')) :
    place.Goes function me w v place' :=
  joinStep_cases h

theorem joinStep_replies {place : JoinPlace} {reply : Reply}
    (h : joinStep function me w place = some (v, .over reply)) : place.Replies w v reply :=
  joinStep_cases h

/-- A step from one place of a join of all tasks to another. The join starts workers before it looks
at them, and it looks at the queue only after all of them were idle. -/
inductive JoinAllPlace.Goes (me : ThreadId) (w : World) :
    JoinAllPlace → World → JoinAllPlace → Prop where
  | checked (hrunning : w.shutDown = false) :
      Goes me w .checking (w.report .joiningAll) .locking
  | locked (hfree : w.poolHolder? = none) :
      Goes me w .locking { w with poolHolder? := some me } .noticing
  | noticed : Goes me w .noticing w.unlockPool .sampling
  | noticedAlone (hin : w.isPoolThread me = true) (halone : w.pool.length = 1) :
      Goes me w .noticing (w.report .joiningFromOnlyWorker).unlockPool .sampling
  | sampled : Goes me w .sampling w (.driving w.generation .measuring)
  | drive (seen : Nat) {place place' : DrivePlace} {v : World}
      (h : driveStep me w place = some (v, .going place')) :
      Goes me w (.driving seen place) v (.driving seen place')
  | driven (seen : Nat) {place : DrivePlace} {v : World}
      (h : driveStep me w place = some (v, .over ())) :
      Goes me w (.driving seen place) v (.looking seen .locking)
  | look (seen : Nat) {place place' : LookPlace} {v : World}
      (h : lookStep me .running w place = some (v, .going place')) :
      Goes me w (.looking seen place) v (.looking seen place')
  | busy (seen : Nat) {place : LookPlace} {v : World}
      (h : lookStep me .running w place = some (v, .over true)) :
      Goes me w (.looking seen place) v (.rechecking seen)
  | idle (seen : Nat) {place : LookPlace} {v : World}
      (h : lookStep me .running w place = some (v, .over false)) :
      Goes me w (.looking seen place) v (.searching seen)
  | searched (seen : Nat) (hfree : w.queueHolder? = none) (hqueue : w.queue = []) :
      Goes me w (.searching seen) w (.confirming seen)
  | pending (seen : Nat) (hfree : w.queueHolder? = none) (hqueue : w.queue ≠ []) :
      Goes me w (.searching seen) w (.rechecking seen)
  | disturbed {seen : Nat} (hseen : w.generation ≠ seen) :
      Goes me w (.confirming seen) w (.rechecking seen)
  | rechecked (seen : Nat) (hrunning : w.shutDown = false) :
      Goes me w (.rechecking seen) w (.waiting seen)
  | woke (seen : Nat) : Goes me w (.waiting seen) w .sampling

/-- The last step of a join of all tasks, with its reply. -/
inductive JoinAllPlace.Replies (w : World) : JoinAllPlace → World → Reply → Prop where
  | refused (hdown : w.shutDown = true) : Replies w .checking w (.error .shutDown)
  | done : Replies w (.confirming w.generation) w (.ok 0)
  | stopped (seen : Nat) (hdown : w.shutDown = true) :
      Replies w (.rechecking seen) w (.error .shutDown)

theorem joinAllStep_cases {place : JoinAllPlace} {stage : Stage JoinAllPlace Reply}
    (h : joinAllStep me w place = some (v, stage)) :
    match stage with
    | .going place' => place.Goes me w v place'
    | .over reply => place.Replies w v reply := by
  cases place with
  | checking =>
      simp only [joinAllStep] at h
      split at h
      · cases h
        next hdown => exact .refused hdown
      · cases h
        next hrunning => exact .checked (by simpa using hrunning)
  | locking =>
      simp only [joinAllStep, Option.map_eq_some_iff, World.lockPool_eq_some_iff,
        Prod.mk.injEq] at h
      obtain ⟨u, ⟨hfree, rfl⟩, rfl, rfl⟩ := h
      exact .locked hfree
  | noticing =>
      simp only [joinAllStep] at h
      split at h
      · cases h
        next halone =>
          rw [Bool.and_eq_true, decide_eq_true_eq] at halone
          exact .noticedAlone halone.1 halone.2
      · cases h
        exact .noticed
  | sampling =>
      cases h
      exact .sampled
  | driving seen place =>
      simp only [joinAllStep, Option.map_eq_some_iff] at h
      obtain ⟨⟨u, stage⟩, hs, h⟩ := h
      cases stage with
      | going =>
          cases h
          exact .drive seen hs
      | «over» =>
          cases h
          exact .driven seen hs
  | looking seen place =>
      simp only [joinAllStep, Option.map_eq_some_iff] at h
      obtain ⟨⟨u, stage⟩, hs, h⟩ := h
      rcases stage with place' | (_ | _)
      · cases h
        exact .look seen hs
      · cases h
        exact .idle seen hs
      · cases h
        exact .busy seen hs
  | searching seen =>
      simp only [joinAllStep, World.onQueue_eq_some_iff] at h
      obtain ⟨hfree, h⟩ := h
      split at h
      · cases h
        next hempty => exact .searched seen hfree (List.isEmpty_iff.mp hempty)
      · cases h
        next hsome => exact .pending seen hfree fun hnil => hsome (List.isEmpty_iff.mpr hnil)
  | confirming seen =>
      simp only [joinAllStep] at h
      split at h
      · cases h
        next hseen =>
          subst hseen
          exact .done
      · cases h
        next hseen => exact .disturbed hseen
  | rechecking seen =>
      simp only [joinAllStep] at h
      split at h
      · cases h
        next hdown => exact .stopped seen hdown
      · cases h
        next hrunning => exact .rechecked seen (by simpa using hrunning)
  | waiting seen =>
      cases h
      exact .woke seen

theorem joinAllStep_goes {place place' : JoinAllPlace}
    (h : joinAllStep me w place = some (v, .going place')) : place.Goes me w v place' :=
  joinAllStep_cases h

theorem joinAllStep_replies {place : JoinAllPlace} {reply : Reply}
    (h : joinAllStep me w place = some (v, .over reply)) : place.Replies w v reply :=
  joinAllStep_cases h

end ScriptPool
