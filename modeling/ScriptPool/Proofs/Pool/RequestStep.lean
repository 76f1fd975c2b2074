import ScriptPool.Pool.Requests

namespace ScriptPool

variable {source : ContextId} {pick : Nat} {me : ThreadId} {w v : World}

/-- A step from one place of a submission from the globals of `source` to another. The main context
is locked during a capture from it; other contexts belong to their thread. -/
inductive SubmitPlace.Goes (source : ContextId) (me : ThreadId) (w : World) :
    SubmitPlace → World → SubmitPlace → Prop where
  | checked {text : String} {call : Call} (hrunning : w.shutDown = false)
      (hparse : Call.parse text = .ok call) (hmain : source = w.main) :
      Goes source me w (.checking text) w (.locking call)
  | checkedApart {text : String} {call : Call} (hrunning : w.shutDown = false)
      (hparse : Call.parse text = .ok call) (hapart : source ≠ w.main) :
      Goes source me w (.checking text) w (.reading call call.parameters [])
  | locked (call : Call) (hfree : w.mainHolder? = none) :
      Goes source me w (.locking call) { w with mainHolder? := some me }
        (.reading call call.parameters [])
  | found (call : Call) {name : String} {names : List String} {captured : Snapshot}
      (hfound : (captured.get? name).isSome = true) :
      Goes source me w (.reading call (name :: names) captured) w (.reading call names captured)
  | copied (call : Call) {name : String} {names : List String} {captured : Snapshot}
      (hnew : ¬(captured.get? name).isSome = true)
      (hwhole : (captureGlobal (w.engine.get? source name)).2 = none) :
      Goes source me w (.reading call (name :: names) captured) w
        (.reading call names (captured ++ [(name, (captureGlobal (w.engine.get? source name)).1)]))
  | moved (call : Call) {name : String} {names : List String} {captured : Snapshot} {left : Value}
      (hnew : ¬(captured.get? name).isSome = true)
      (hleft : (captureGlobal (w.engine.get? source name)).2 = some left) :
      Goes source me w (.reading call (name :: names) captured) w
        (.tagging call name left names
          (captured ++ [(name, (captureGlobal (w.engine.get? source name)).1)]))
  | tagged (call : Call) (name : String) (left : Value) (names : List String) (captured : Snapshot) :
      Goes source me w (.tagging call name left names captured)
        { w with engine := w.engine.set source name left } (.reading call names captured)
  | read (call : Call) (captured : Snapshot) (hmain : source = w.main) :
      Goes source me w (.reading call [] captured) w (.unlocking (Task.ofCaptured call captured))
  | readApart (call : Call) (captured : Snapshot) (hapart : source ≠ w.main) :
      Goes source me w (.reading call [] captured) w (.pushing (Task.ofCaptured call captured))
  | unlocked (task : Task) : Goes source me w (.unlocking task) w.unlockMain (.pushing task)
  | pushed (task : Task) (hfree : w.queueHolder? = none) :
      Goes source me w (.pushing task)
        ((w.push task).report (.taskEnqueued task.function task.call.text)) .counting
  | counted : Goes source me w .counting { w with submitted := w.submitted + 1 } .notifying
  | notified : Goes source me w .notifying w.notify (.starting (.locking 1))
  | start {place place' : StartPlace} {v : World} (h : startStep me w place = some (v, .going place')) :
      Goes source me w (.starting place) v (.starting place')

/-- The last step of a submission, with its reply. -/
inductive SubmitPlace.Replies (me : ThreadId) (w : World) :
    SubmitPlace → World → Reply → Prop where
  | refused (text : String) (hdown : w.shutDown = true) :
      Replies me w (.checking text) w (.error .shutDown)
  | misread {text : String} {e : PoolError} (hrunning : w.shutDown = false)
      (hparse : Call.parse text = .error e) : Replies me w (.checking text) w (.error e)
  | idle {place : StartPlace} {v : World} (h : startStep me w place = some (v, .over 0)) :
      Replies me w (.starting place) (v.report .noIdleWorker) (.ok 0)
  | started {place : StartPlace} {v : World} {n : Nat} (hn : n ≠ 0)
      (h : startStep me w place = some (v, .over n)) : Replies me w (.starting place) v (.ok 0)

theorem submitStep_cases {place : SubmitPlace} {stage : Stage SubmitPlace Reply}
    (h : submitStep source me w place = some (v, stage)) :
    match stage with
    | .going place' => place.Goes source me w v place'
    | .over reply => place.Replies me w v reply := by
  cases place with
  | checking text =>
      simp only [submitStep] at h
      split at h
      · next hdown =>
          cases h
          exact .refused text hdown
      · next hrunning =>
          have hrunning : w.shutDown = false := by simpa using hrunning
          split at h
          · next e hparse =>
              cases h
              exact .misread hrunning hparse
          · next call hparse =>
              split at h
              · cases h
                next hmain => exact .checked hrunning hparse hmain
              · cases h
                next hapart => exact .checkedApart hrunning hparse hapart
  | locking call =>
      simp only [submitStep, Option.map_eq_some_iff, World.lockMain_eq_some_iff] at h
      obtain ⟨u, ⟨hfree, rfl⟩, heq⟩ := h
      cases heq
      exact .locked call hfree
  | reading call names captured =>
      cases names with
      | nil =>
          simp only [submitStep] at h
          split at h
          · cases h
            next hmain => exact .read call captured hmain
          · cases h
            next hapart => exact .readApart call captured hapart
      | cons name names =>
          simp only [submitStep] at h
          split at h
          · next hfound =>
              cases h
              exact .found call hfound
          · next hnew =>
              split at h
              · cases h
                next left hleft => exact .moved call hnew hleft
              · cases h
                next hwhole => exact .copied call hnew hwhole
  | tagging call name left names captured =>
      cases h
      exact .tagged call name left names captured
  | unlocking task =>
      cases h
      exact .unlocked task
  | pushing task =>
      simp only [submitStep, World.onQueue_eq_some_iff] at h
      obtain ⟨hfree, h⟩ := h
      cases h
      exact .pushed task hfree
  | counting =>
      cases h
      exact .counted
  | notifying =>
      cases h
      exact .notified
  | starting place =>
      simp only [submitStep, Option.map_eq_some_iff] at h
      obtain ⟨⟨u, stage'⟩, hs, h⟩ := h
      cases stage' with
      | going place' =>
          cases h
          exact .start hs
      | «over» n =>
          cases h
          show SubmitPlace.Replies me w (.starting place)
            (if n = 0 then u.report .noIdleWorker else u) (.ok 0)
          split
          · next hzero =>
              subst hzero
              exact .idle hs
          · next hn => exact .started hn hs

theorem submitStep_goes {place place' : SubmitPlace}
    (h : submitStep source me w place = some (v, .going place')) : place.Goes source me w v place' :=
  submitStep_cases h

theorem submitStep_replies {place : SubmitPlace} {reply : Reply}
    (h : submitStep source me w place = some (v, .over reply)) : place.Replies me w v reply :=
  submitStep_cases h

/-- A step of a request, and how the request goes on. -/
inductive Asking.Goes (pick : Nat) (me : ThreadId) (w : World) :
    Asking → World → Stage Asking Reply → Prop where
  | submits {source : ContextId} {place place' : SubmitPlace} {v : World}
      (h : submitStep source me w place = some (v, .going place')) :
      Goes pick me w (.submit source place) v (.going (.submit source place'))
  | submitted {source : ContextId} {place : SubmitPlace} {reply : Reply} {v : World}
      (h : submitStep source me w place = some (v, .over reply)) :
      Goes pick me w (.submit source place) v (.over reply)
  | joins {function : String} {place place' : JoinPlace} {v : World}
      (h : joinStep function me w place = some (v, .going place')) :
      Goes pick me w (.join function place) v (.going (.join function place'))
  | joined {function : String} {place : JoinPlace} {reply : Reply} {v : World}
      (h : joinStep function me w place = some (v, .over reply)) :
      Goes pick me w (.join function place) v (.over reply)
  | joinsAll {place place' : JoinAllPlace} {v : World}
      (h : joinAllStep me w place = some (v, .going place')) :
      Goes pick me w (.joinAll place) v (.going (.joinAll place'))
  | joinedAll {place : JoinAllPlace} {reply : Reply} {v : World}
      (h : joinAllStep me w place = some (v, .over reply)) :
      Goes pick me w (.joinAll place) v (.over reply)
  | acquires {name : String} {place place' : AcquirePlace} {sections : Registry}
      {events : List Event}
      (h : acquireStep name me w.sections place = (sections, events, .going place')) :
      Goes pick me w (.acquire name place) (w.withSections sections events)
        (.going (.acquire name place'))
  | acquired {name : String} {place : AcquirePlace} {sections : Registry} {events : List Event}
      (h : acquireStep name me w.sections place = (sections, events, .over ())) :
      Goes pick me w (.acquire name place) (w.withSections sections events) (.over (.ok 0))
  | releases {name : String} {place place' : ReleasePlace} {sections : Registry}
      {events : List Event}
      (h : releaseStep name pick w.sections place = (sections, events, .going place')) :
      Goes pick me w (.release name place) (w.withSections sections events)
        (.going (.release name place'))
  | released {name : String} {place : ReleasePlace} {sections : Registry} {events : List Event}
      (h : releaseStep name pick w.sections place = (sections, events, .over ())) :
      Goes pick me w (.release name place) (w.withSections sections events) (.over (.ok 0))
  | resizes {count : Nat} {place place' : ResizePlace} {v : World}
      (h : resizeStep count me w place = some (v, .going place')) :
      Goes pick me w (.resize count place) v (.going (.resize count place'))
  | resized {count : Nat} {place : ResizePlace} {reply : Reply} {v : World}
      (h : resizeStep count me w place = some (v, .over reply)) :
      Goes pick me w (.resize count place) v (.over reply)
  | refused (e : PoolError) : Goes pick me w (.refused e) w (.over (.error e))

theorem askingStep_goes {a : Asking} {stage : Stage Asking Reply}
    (h : askingStep pick me w a = some (v, stage)) : a.Goes pick me w v stage := by
  cases a with
  | submit source place =>
      obtain ⟨⟨u, stage'⟩, hs, heq⟩ := Option.map_eq_some_iff.mp h
      cases stage' with
      | going =>
          cases heq
          exact .submits hs
      | «over» =>
          cases heq
          exact .submitted hs
  | join function place =>
      obtain ⟨⟨u, stage'⟩, hs, heq⟩ := Option.map_eq_some_iff.mp h
      cases stage' with
      | going =>
          cases heq
          exact .joins hs
      | «over» =>
          cases heq
          exact .joined hs
  | joinAll place =>
      obtain ⟨⟨u, stage'⟩, hs, heq⟩ := Option.map_eq_some_iff.mp h
      cases stage' with
      | going =>
          cases heq
          exact .joinsAll hs
      | «over» =>
          cases heq
          exact .joinedAll hs
  | acquire name place =>
      simp only [askingStep] at h
      split at h
      · cases h
        exact .acquires (Prod.ext rfl (Prod.ext rfl ‹_›))
      · cases h
        exact .acquired (Prod.ext rfl (Prod.ext rfl ‹_›))
  | release name place =>
      simp only [askingStep] at h
      split at h
      · cases h
        exact .releases (Prod.ext rfl (Prod.ext rfl ‹_›))
      · cases h
        exact .released (Prod.ext rfl (Prod.ext rfl ‹_›))
  | resize count place =>
      obtain ⟨⟨u, stage'⟩, hs, heq⟩ := Option.map_eq_some_iff.mp h
      cases stage' with
      | going =>
          cases heq
          exact .resizes hs
      | «over» =>
          cases heq
          exact .resized hs
  | refused e =>
      cases h
      exact .refused e

end ScriptPool
