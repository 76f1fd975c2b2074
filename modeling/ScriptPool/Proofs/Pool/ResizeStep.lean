import ScriptPool.Pool.Requests

namespace ScriptPool

variable {n : Nat} {me : ThreadId} {w v : World}

/-- A step from one place of a request for `n` workers to another. -/
inductive ResizePlace.Goes (n : Nat) (me : ThreadId) (w : World) :
    ResizePlace → World → ResizePlace → Prop where
  | checked (hrunning : w.shutDown = false) : Goes n me w .checking w .reading
  | read (hzero : n ≠ 0) (hsize : n ≠ w.poolSize) : Goes n me w .reading w (.locking w.poolSize)
  | locked (size : Nat) (hfree : w.poolHolder? = none) :
      Goes n me w (.locking size) { w with poolHolder? := some me } (.placing size)
  | placed (size : Nat) (hout : w.isPoolThread me = false) :
      Goes n me w (.placing size) w.unlockPool (.joining size .checking)
  | join (size : Nat) {place place' : JoinAllPlace} {v : World}
      (h : joinAllStep me w place = some (v, .going place')) :
      Goes n me w (.joining size place) v (.joining size place')
  | joined (size : Nat) {place : JoinAllPlace} {v : World} {m : Nat}
      (h : joinAllStep me w place = some (v, .over (.ok m))) :
      Goes n me w (.joining size place) v (.dismissing size .locking)
  | dismiss (size : Nat) {place place' : DismissPlace} {v : World}
      (h : dismissStep me w place = some (v, .going place')) :
      Goes n me w (.dismissing size place) v (.dismissing size place')
  | dismissed (size : Nat) {place : DismissPlace} {v : World} {m : Nat}
      (h : dismissStep me w place = some (v, .over m)) :
      Goes n me w (.dismissing size place) v (.hiring size (.creating 0 n))
  | hire (size : Nat) {place place' : HirePlace} {v : World}
      (h : hireStep me w place = some (v, .going place')) :
      Goes n me w (.hiring size place) v (.hiring size place')
  | hired (size : Nat) {place : HirePlace} {v : World}
      (h : hireStep me w place = some (v, .over (.ok ()))) :
      Goes n me w (.hiring size place) v (.storing size)
  | lacking (size : Nat) {place : HirePlace} {v : World} {e : PoolError}
      (h : hireStep me w place = some (v, .over (.error e))) :
      Goes n me w (.hiring size place) v (.failing e)
  | stored (size : Nat) : Goes n me w (.storing size) { w with poolSize := n } (.driving size .measuring)
  | drive (size : Nat) {place place' : DrivePlace} {v : World}
      (h : driveStep me w place = some (v, .going place')) :
      Goes n me w (.driving size place) v (.driving size place')
  | failed (e : PoolError) (hfree : w.poolHolder? = none) :
      Goes n me w (.failing e) { w with poolHolder? := some me } (.surveying e)
  | surveyed (e : PoolError) :
      Goes n me w (.surveying e) w.unlockPool (.keeping e w.pool.length)
  | kept (e : PoolError) (started : Nat) :
      Goes n me w (.keeping e started)
        ({ w with poolSize := started }.report (.resizeIncomplete n started e.message))
        (.drivingOn e .measuring)
  | driveOn (e : PoolError) {place place' : DrivePlace} {v : World}
      (h : driveStep me w place = some (v, .going place')) :
      Goes n me w (.drivingOn e place) v (.drivingOn e place')

/-- The last step of a request for `n` workers, with its reply. -/
inductive ResizePlace.Replies (n : Nat) (me : ThreadId) (w : World) :
    ResizePlace → World → Reply → Prop where
  | refused (hdown : w.shutDown = true) : Replies n me w .checking w (.error .shutDown)
  | same (h : n = 0 ∨ n = w.poolSize) : Replies n me w .reading w (.ok w.poolSize)
  | inPool (size : Nat) (hin : w.isPoolThread me = true) :
      Replies n me w (.placing size) w.unlockPool (.error .resizeFromTask)
  | broken (size : Nat) {place : JoinAllPlace} {v : World} {e : PoolError}
      (h : joinAllStep me w place = some (v, .over (.error e))) :
      Replies n me w (.joining size place) v (.error e)
  | resized (size : Nat) {place : DrivePlace} {v : World}
      (h : driveStep me w place = some (v, .over ())) :
      Replies n me w (.driving size place) (v.report (.resized size n)) (.ok n)
  | incomplete (e : PoolError) {place : DrivePlace} {v : World}
      (h : driveStep me w place = some (v, .over ())) :
      Replies n me w (.drivingOn e place) v (.error e)

theorem resizeStep_cases {place : ResizePlace} {stage : Stage ResizePlace Reply}
    (h : resizeStep n me w place = some (v, stage)) :
    match stage with
    | .going place' => place.Goes n me w v place'
    | .over reply => place.Replies n me w v reply := by
  cases place with
  | checking =>
      simp only [resizeStep] at h
      split at h
      · cases h
        next hdown => exact .refused hdown
      · cases h
        next hrunning => exact .checked (by simpa using hrunning)
  | reading =>
      simp only [resizeStep] at h
      split at h
      · cases h
        next hsame => exact .same hsame
      · cases h
        next hother => exact .read (not_or.mp hother).1 (not_or.mp hother).2
  | locking size =>
      simp only [resizeStep, Option.map_eq_some_iff, World.lockPool_eq_some_iff,
        Prod.mk.injEq] at h
      obtain ⟨u, ⟨hfree, rfl⟩, rfl, rfl⟩ := h
      exact .locked size hfree
  | placing size =>
      simp only [resizeStep] at h
      split at h
      · cases h
        next hin => exact .inPool size hin
      · cases h
        next hout => exact .placed size (by simpa using hout)
  | joining size place =>
      simp only [resizeStep, Option.map_eq_some_iff] at h
      obtain ⟨⟨u, stage⟩, hs, h⟩ := h
      rcases stage with place' | (e | m)
      · cases h
        exact .join size hs
      · cases h
        exact .broken size hs
      · cases h
        exact .joined size hs
  | dismissing size place =>
      simp only [resizeStep, Option.map_eq_some_iff] at h
      obtain ⟨⟨u, stage⟩, hs, h⟩ := h
      cases stage with
      | going =>
          cases h
          exact .dismiss size hs
      | «over» =>
          cases h
          exact .dismissed size hs
  | hiring size place =>
      simp only [resizeStep, Option.map_eq_some_iff] at h
      obtain ⟨⟨u, stage⟩, hs, h⟩ := h
      rcases stage with place' | (e | ⟨⟩)
      · cases h
        exact .hire size hs
      · cases h
        exact .lacking size hs
      · cases h
        exact .hired size hs
  | storing size =>
      cases h
      exact .stored size
  | driving size place =>
      simp only [resizeStep, Option.map_eq_some_iff] at h
      obtain ⟨⟨u, stage⟩, hs, h⟩ := h
      cases stage with
      | going =>
          cases h
          exact .drive size hs
      | «over» =>
          cases h
          exact .resized size hs
  | failing e =>
      simp only [resizeStep, Option.map_eq_some_iff, World.lockPool_eq_some_iff,
        Prod.mk.injEq] at h
      obtain ⟨u, ⟨hfree, rfl⟩, rfl, rfl⟩ := h
      exact .failed e hfree
  | surveying e =>
      cases h
      exact .surveyed e
  | keeping e started =>
      cases h
      exact .kept e started
  | drivingOn e place =>
      simp only [resizeStep, Option.map_eq_some_iff] at h
      obtain ⟨⟨u, stage⟩, hs, h⟩ := h
      cases stage with
      | going =>
          cases h
          exact .driveOn e hs
      | «over» =>
          cases h
          exact .incomplete e hs

theorem resizeStep_goes {place place' : ResizePlace}
    (h : resizeStep n me w place = some (v, .going place')) : place.Goes n me w v place' :=
  resizeStep_cases h

theorem resizeStep_replies {place : ResizePlace} {reply : Reply}
    (h : resizeStep n me w place = some (v, .over reply)) : place.Replies n me w v reply :=
  resizeStep_cases h

end ScriptPool
