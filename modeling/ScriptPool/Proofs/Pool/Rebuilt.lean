import ScriptPool.Proofs.Pool.ResizeCall

namespace ScriptPool

/-- Since the world `w₀` the pool has been built anew with some number of workers, and nobody has
anything to do. -/
structure World.Rebuilt (w₀ w : World) (count : Nat) : Prop where
  poolSize : w.poolSize = count
  length : w.pool.length = count
  ids : w.poolIds = List.range count
  distinct : w.poolContexts.Nodup
  fresh : ∀ c ∈ w.poolContexts, w₀.engine.contexts.length ≤ c
  idle : ∀ worker ∈ w.workers, worker.running = false
  queue : w.queue = []

/-- The replies to a request for `n` workers that was made in the world `w₀` and is answered in the
world `w`. -/
inductive World.Answers (w₀ w : World) (me : ThreadId) (n : Nat) : Reply → Prop where
  /-- The coordinator is shut down. The thread of the host finds it so from the beginning. -/
  | shutDown (hdown : w.shutDown = true) (hhost : me = .host 0 → w₀.shutDown = true) :
      Answers w₀ w me n (.error .shutDown)
  | unchanged (hrunning : w₀.shutDown = false) (hsame : n = 0 ∨ n = w₀.poolSize) :
      Answers w₀ w me n (.ok w₀.poolSize)
  | fromTask (hrunning : w₀.shutDown = false) (hzero : n ≠ 0) (hsize : n ≠ w₀.poolSize)
      (hme : me ≠ .host 0) : Answers w₀ w me n (.error .resizeFromTask)
  | resized (hrunning : w₀.shutDown = false) (hzero : n ≠ 0) (hsize : n ≠ w₀.poolSize)
      (hme : me = .host 0) (h : w₀.Rebuilt w n) : Answers w₀ w me n (.ok n)
  | incomplete (hrunning : w₀.shutDown = false) (hzero : n ≠ 0) (hsize : n ≠ w₀.poolSize)
      (hme : me = .host 0) (id : Nat) (message : String) (hid : id < n) (h : w₀.Rebuilt w id) :
      Answers w₀ w me n (.error (.workerStart id message))

variable {library : Library} {engine : Engine} {main : ContextId} {poolSize n : Nat}
  {before during moves : List Move} {me : ThreadId} {w w₀ w₁ : World} {place : ResizePlace}

theorem Run.accomplished_of_quiet
    (h : Run library (World.initial engine main poolSize 0) moves w) (hquiet : w.scene.Quiet)
    (hqueue : w.scene.queue = []) {s : Submission}
    (hs : .pushed s ∈ (World.initial engine main poolSize 0).deeds library moves) :
    Accomplished ((World.initial engine main poolSize 0).deeds library moves) s := by
  have hspared : w.scene.Spared (.host 0) s := by
    refine ⟨by simp [hqueue], fun i _ _ => Hand.Resting.not_holds fun hand hhand => hquiet hhand⟩
  refine (h.accounted.account hs).of_spared hspared ?_ fun hhand _ => hquiet hhand
  rintro ⟨i, worker, heq, -⟩
  cases heq

theorem Run.poolSize_eq (h : Run library (World.initial engine main poolSize 0) moves w)
    (hfree : w.isFree 0 = true) (hrunning : w.shutDown = false) : w.poolSize = w.pool.length := by
  have hrecorded := h.sole.manned.recorded
  rw [World.duty_of_free hfree] at hrecorded
  exact hrecorded hrunning

/-- The thread of the host builds the pool anew while it drives the queue at the end of its
request. -/
theorem Run.rebuilt (h₀ : Run library (World.initial engine main poolSize 0) before w₀)
    (h₁ : Run library w₀ during w₁) (hmain : main < engine.contexts.length)
    (hask : w₁.asking? (.host 0) = some (.resize n place))
    (hdriving : (∃ size, place = .driving size .measuring) ∨ ∃ e, place = .drivingOn e .measuring)
    (hsince : place.Since (.host 0) n w₀ w₁) : w₀.Rebuilt w₁ w₁.pool.length := by
  have h := h₀.trans h₁
  have hsole := h.sole
  have hquieted := hsole.quieted hask
  have hduty := World.duty_of_asking hask
  have hmanned := hsole.manned
  rw [hduty] at hmanned
  obtain ⟨hcomplete, hrecorded, hquiet, hrenewed⟩ : Complete w₁.staff.posts w₁.pool [] none ∧
      (w₁.shutDown = false → w₁.poolSize = w₁.pool.length) ∧
      (w₁.scene.Quiet ∧ w₁.scene.queue = []) ∧ ∀ i ∈ w₁.pool, w₀.workers.length ≤ i := by
    rcases hdriving with ⟨size, rfl⟩ | ⟨e, rfl⟩
    · exact ⟨hmanned.complete, hmanned.recorded, hquieted, hsince.renewed rfl⟩
    · exact ⟨hmanned.complete, hmanned.recorded, hquieted, hsince.renewed rfl⟩
  have hrunning : w₁.shutDown = false := by
    rcases hsole.running hask with rfl | hrunning
    · rcases hdriving with ⟨size, heq⟩ | ⟨e, heq⟩
      · cases heq
      · cases heq
    · exact hrunning
  have hsecluded := ((World.Secluded.initial hmain poolSize 0).run h).staff
  refine ⟨hrecorded hrunning, rfl, hcomplete.poolIds_eq, hcomplete.nodup_poolContexts hsecluded, ?_,
    ?_, hquiet.2⟩
  · intro c hc
    obtain ⟨i, worker, hi, hworker, rfl⟩ := World.mem_poolContexts.mp hc
    rcases h₁.follows.context (World.posts_getElem? hworker) with hnew | ⟨post, hold, -⟩
    · exact hnew
    · have hlt := (List.getElem?_eq_some_iff.mp hold).1
      rw [World.staff, List.length_map] at hlt
      exact absurd (hrenewed i hi) (Nat.not_le.mpr hlt)
  · intro worker hmem
    obtain ⟨i, hworker⟩ := List.mem_iff_getElem?.mp hmem
    exact (hquiet.1 (World.scene_hands_getElem? hworker)).running

theorem Run.answers (h₀ : Run library (World.initial engine main poolSize 0) before w₀)
    (h₁ : Run library w₀ during w₁) (hmain : main < engine.contexts.length)
    (henter : w₀.asking? me = some (.resize n .checking))
    (hstay : w₀.throughout library (World.isResizing me n) during = true) {reply : Reply}
    (hreply : w₁.resizeReply? me = some reply) : w₀.Answers w₁ me n reply := by
  have h := h₀.trans h₁
  obtain ⟨place, hask, hsince⟩ := h₀.since henter h₁ hstay
  obtain ⟨v, hstep⟩ := (World.resizeReply?_eq_some_iff hask).mp hreply
  have hrunning (hplace : place ≠ .checking) : w₀.shutDown = false := by
    by_contra hdown
    exact hplace (hsince.down (Bool.eq_true_of_not_eq_false hdown)).2
  have hhost (hearly : ¬ place.Early w₁.shutDown) : me = .host 0 := by
    rcases h.thread_cases hask with rfl | ⟨i, rfl⟩
    · rfl
    · exact absurd (h.sole.early hask) hearly
  cases resizeStep_replies hstep with
  | refused hdown =>
      exact .shutDown hdown fun hme => (hsince.flag hme).symm.trans hdown
  | same hsame =>
      have hsize : w₁.poolSize = w₀.poolSize := hsince.asked
      rw [hsize] at hsame ⊢
      exact .unchanged (hrunning nofun) hsame
  | inPool size hin =>
      refine .fromTask (hrunning nofun) hsince.asked.1 hsince.asked.2 ?_
      rintro rfl
      cases hin
  | broken size hs =>
      obtain ⟨rfl, -, hdown⟩ := joinAllStep_error hs
      exact .shutDown hdown fun hme => (hsince.flag hme).symm.trans hdown
  | @resized size place v hs =>
      obtain rfl := hhost nofun
      cases place with
      | starting place => cases h.sole.quieted hask
      | measuring =>
          have hlength : w₁.pool.length = n := h.resize_told hask
          have hrebuilt := h₀.rebuilt h₁ hmain hask (.inl ⟨size, rfl⟩) hsince
          rw [hlength] at hrebuilt
          exact .resized (hrunning nofun) hsince.asked.1 hsince.asked.2 rfl hrebuilt
  | @incomplete e place v hs =>
      obtain rfl := hhost nofun
      cases place with
      | starting place => cases h.sole.quieted hask
      | measuring =>
          obtain ⟨hid, message, rfl⟩ := h.resize_told hask
          exact .incomplete (hrunning nofun) hsince.asked.1 hsince.asked.2 rfl _ message hid
            (h₀.rebuilt h₁ hmain hask (.inr ⟨_, rfl⟩) hsince)

theorem ResizePlace.Since.early (hsince : place.Since me n w₀ w)
    (htask : me ≠ .host 0 → place.Early w.shutDown)
    (hidle : me ≠ .host 0 ∨ n = 0 ∨ n = w₀.poolSize ∨ w₀.shutDown = true) :
    place.Early w.shutDown := by
  have hasked := hsince.asked
  have hsame (h : n = 0 ∨ n = w₀.poolSize) : place.Early w.shutDown := by
    cases place with
    | checking | reading => trivial
    | _ => exact absurd h (not_or.mpr hasked)
  rcases hidle with hme | hzero | hsize | hdown
  · exact htask hme
  · exact hsame (.inl hzero)
  · exact hsame (.inr hsize)
  · rw [(hsince.down hdown).2]
    trivial

theorem Run.keeps_estate (h₀ : Run library (World.initial engine main poolSize 0) before w₀)
    (h₁ : Run library w₀ during w₁) (henter : w₀.asking? me = some (.resize n .checking))
    (hstay : w₀.throughout library (World.isResizing me n) during = true)
    (hidle : me ≠ .host 0 ∨ n = 0 ∨ n = w₀.poolSize ∨ w₀.shutDown = true) {pick : Nat}
    (hadv : w₁.advance library pick me = some w) : w.estate = w₁.estate := by
  have h := h₀.trans h₁
  obtain ⟨place, hask, hsince⟩ := h₀.since henter h₁ hstay
  have hearly : place.Early w₁.shutDown := by
    refine hsince.early (fun hme => ?_) hidle
    obtain ⟨i, rfl⟩ := (h.thread_cases hask).resolve_left hme
    exact h.sole.early hask
  obtain ⟨v, stage, hs, hestate, -, -⟩ := World.advance_estate hask hadv
  rw [hestate]
  cases askingStep_goes hs with
  | resizes hstep =>
      cases resizeStep_goes hstep with
      | checked | read | locked | placed => rfl
      | @join size place place' v hjoin =>
          cases place with
          | checking =>
              cases joinAllStep_goes hjoin with
              | checked hrunning => cases hrunning.symm.trans hearly
          | _ => cases hearly
      | joined size hjoin =>
          cases joinAllStep_ok hjoin
          cases hearly
      | _ => cases hearly
  | resized hstep =>
      cases resizeStep_replies hstep with
      | refused | same | inPool => rfl
      | broken size hjoin => rw [(joinAllStep_error hjoin).2.1]
      | _ => cases hearly

theorem Run.quiet_of_rebuilding (h₀ : Run library (World.initial engine main poolSize 0) before w₀)
    (h₁ : Run library w₀ during w₁) (henter : w₀.asking? (.host 0) = some (.resize n .checking))
    (hstay : w₀.throughout library (World.isResizing (.host 0) n) during = true)
    (hzero : n ≠ 0) (hsize : n ≠ w₀.poolSize) (hrunning : w₀.shutDown = false)
    (hlate : w₁.pool ≠ w₀.pool ∨ (w₁.resizeReply? (.host 0)).isSome = true) :
    w₁.scene.Quiet ∧ w₁.scene.queue = [] := by
  obtain ⟨place, hask, hsince⟩ := h₀.since henter h₁ hstay
  have hquieted := (h₀.trans h₁).sole.quieted hask
  have hup : w₁.shutDown = false := (hsince.flag rfl).trans hrunning
  have hrenewed := hsince.renewed rfl
  have hreply (hkept : w₁.pool = w₀.pool) : ∃ v reply, place.Replies n (.host 0) w₁ v reply := by
    rcases hlate with hchanged | hreply
    · exact absurd hkept hchanged
    · obtain ⟨reply, hreply⟩ := Option.isSome_iff_exists.mp hreply
      obtain ⟨v, hstep⟩ := (World.resizeReply?_eq_some_iff hask).mp hreply
      exact ⟨v, reply, resizeStep_replies hstep⟩
  cases place with
  | checking =>
      obtain ⟨v, reply, hreplies⟩ := hreply hrenewed
      cases hreplies with
      | refused hdown =>
          rw [hup] at hdown
          cases hdown
  | reading =>
      obtain ⟨v, reply, hreplies⟩ := hreply hrenewed
      cases hreplies with
      | same hsame =>
          rw [show w₁.poolSize = w₀.poolSize from hsince.asked] at hsame
          exact absurd hsame (not_or.mpr ⟨hzero, hsize⟩)
  | locking size =>
      obtain ⟨v, reply, hreplies⟩ := hreply hrenewed
      cases hreplies
  | placing size =>
      obtain ⟨v, reply, hreplies⟩ := hreply hrenewed
      cases hreplies with
      | inPool _ hin => cases hin
  | joining size place =>
      obtain ⟨v, reply, hreplies⟩ := hreply hrenewed
      cases hreplies with
      | broken _ hs =>
          obtain ⟨-, -, hdown⟩ := joinAllStep_error hs
          rw [hup] at hdown
          cases hdown
  | driving size place | drivingOn e place =>
      cases place with
      | measuring => exact hquieted
      | starting => cases hquieted
  | dismissing | hiring | storing | failing | surveying | keeping => exact hquieted

end ScriptPool
