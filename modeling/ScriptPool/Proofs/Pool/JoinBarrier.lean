import ScriptPool.Proofs.Pool.Join
import ScriptPool.Proofs.Pool.Steady

namespace ScriptPool

def World.Executes (w : World) (thread : ThreadId) (s : Submission) : Prop :=
  ∃ i worker, thread = .worker i ∧ w.workers[i]? = some worker ∧ worker.place.held? = some s

/-- The thread is about to take the first step of a join of a function. -/
def World.entersJoin (w : World) (me : ThreadId) (function : String) : Bool :=
  match w.asking? me with
  | some (.join f .checking) => f = function
  | _ => false

/-- The next step of the thread returns from a join of a function. -/
def World.returnsFromJoin (w : World) (me : ThreadId) (function : String) : Bool :=
  match w.asking? me with
  | some (.join f place) => f = function &&
    match joinStep f me w place with
    | some (_, .over (.ok _)) => true
    | _ => false
  | _ => false

variable {library : Library} {engine : Engine} {main : ContextId} {poolSize others : Nat}
  {pool : List Nat} {before during moves : List Move} {me : ThreadId} {w w₀ w₁ : World}
  {s : Submission} {function : String}

theorem WorkerPlace.held?_bare (p : WorkerPlace) : p.bare.held? = p.held? :=
  WorkerPlace.apply_bare (f := WorkerPlace.held?) (fun _ _ _ => rfl) p

theorem World.scene_holds_iff {i : Nat} : w.scene.Holds i s ↔ w.Executes (.worker i) s := by
  constructor
  · rintro ⟨hand, hhand, hheld⟩
    obtain ⟨worker, hworker, rfl⟩ := World.worker_of_scene_hands hhand
    have hbare : worker.place.bare.held? = some s := hheld
    rw [WorkerPlace.held?_bare] at hbare
    exact ⟨i, worker, rfl, hworker, hbare⟩
  · rintro ⟨j, worker, heq, hworker, hheld⟩
    cases heq
    refine ⟨worker.hand.bare, World.scene_hands_getElem? hworker, ?_⟩
    rw [← hheld]
    exact WorkerPlace.held?_bare worker.place

theorem World.entersJoin_iff :
    w.entersJoin me function = true ↔ w.asking? me = some (.join function .checking) := by
  unfold World.entersJoin
  split
  · next f h => simp [h]
  · next hno =>
      constructor
      · nofun
      · intro h
        exact absurd h (hno function)

theorem joinStep_ok {place : JoinPlace} {v : World} {n : Nat}
    (h : joinStep function me w place = some (v, .over (.ok n))) :
    ∃ seen, place = .confirming seen := by
  cases joinStep_replies h with
  | done => exact ⟨_, rfl⟩

theorem World.confirming_of_returnsFromJoin (h : w.returnsFromJoin me function = true) :
    ∃ seen, w.asking? me = some (.join function (.confirming seen)) := by
  unfold World.returnsFromJoin at h
  split at h
  · next f place hask =>
      rw [Bool.and_eq_true, decide_eq_true_eq] at h
      obtain ⟨rfl, h⟩ := h
      split at h
      · next v n hstep =>
          obtain ⟨seen, rfl⟩ := joinStep_ok hstep
          exact ⟨seen, hask⟩
      · cases h
  · cases h

/-- When a join returns, no task of its function that was pushed before it was entered, or before it
looked around, is in the queue or in the hands of another worker of the pool. -/
theorem Run.join_spares {place₀ : JoinPlace}
    (h₀ : Run library (World.initial engine main poolSize others) before w₀)
    (h₁ : Run library w₀ during w₁) (hstart : w₀.asking? me = some (.join function place₀))
    (hknows : place₀.Cleared s me w₀.scene) (hreturn : w₁.returnsFromJoin me function = true)
    (hs : .pushed s ∈ (World.initial engine main poolSize others).deeds library before)
    (hf : s.function = function) : w₁.scene.Spared me s := by
  obtain ⟨seen, hplace⟩ := World.confirming_of_returnsFromJoin hreturn
  have hticket : s.ticket < w₀.scene.tickets := h₀.accounted.fresh _ hs
  have hknown : ∀ moves' v, moves' <+: during → Run library w₀ moves' v →
      Disciplined v.scene v.errand ∧ Posted v.scene ∧ s.ticket < v.scene.tickets := by
    intro moves' v _ hv
    have hreach := h₀.trans hv
    exact ⟨hreach.disciplined, hreach.posted, Nat.lt_of_lt_of_le hticket hv.tickets_le⟩
  have hcleared : ∀ a, w₁.asking? me = some a →
      ∀ place, a = .join function place → place.Cleared s me w₁.scene := by
    refine Run.watch (P := fun c a => ∀ place, a = .join function place → place.Cleared s me c)
      ?_ ?_ ?_ h₁ hknown ?_
    · intro c r source place hbegin
      cases r with
      | join => cases hbegin; trivial
      | acquire | release =>
          simp only [Request.begin] at hbegin
          split at hbegin
          · cases hbegin
          · cases hbegin
      | parallel | joinAll | resize => cases hbegin
    · rintro pick v u a a' ⟨-, hposted, -⟩ - hs' hc place rfl
      cases askingStep_goes hs' with
      | joins hstep => exact joinStep_cleared hposted hf (hc _ rfl) hstep
    · rintro pick thread v v' a hne ⟨hd, -, ht⟩ - hask hadv hc place rfl
      exact (hc place rfl).stride hd ht (World.errand_of_asking hask) hne
        (World.advance_stride hadv)
    · intro a ha place heq
      rw [hstart] at ha
      cases ha
      cases heq
      exact hknows
  exact hcleared _ hplace _ rfl

theorem Account.of_spared {deeds : List Deed} (ha : Account w.scene deeds s)
    (hspared : w.scene.Spared me s) (hme : ¬ w.Executes me s)
    (hout : ∀ {i : Nat} {hand : Hand}, w.scene.hands[i]? = some hand → i ∉ w.pool →
      hand.Resting) : Accomplished deeds s := by
  cases ha with
  | queued h => exact absurd h hspared.1
  | @held i hand once p hhand hplace hp =>
      have hi : w.scene.Holds i s := Account.holds hhand hplace hp
      have hne : me ≠ .worker i := by
        rintro rfl
        exact hme (World.scene_holds_iff.mp hi)
      by_cases hpool : i ∈ w.pool
      · exact absurd hi (hspared.2 i hpool hne)
      · refine absurd hi (Hand.Resting.not_holds fun hand' hhand' => hout hhand' hpool)
  | done h => exact h

/-- While the queue is unlocked, a task that was pushed and is not finished is in the queue or
shown by the worker that holds it. -/
theorem Run.shown (h : Run library (World.initial engine main poolSize others) moves w)
    (hfree : w.queueHolder? = none)
    (hs : .pushed s ∈ (World.initial engine main poolSize others).deeds library moves)
    (hopen : ¬ Accomplished ((World.initial engine main poolSize others).deeds library moves) s) :
    s ∈ w.queue ∨ ∃ (i : Nat) (worker : Worker), w.workers[i]? = some worker ∧
      worker.place.held? = some s ∧ worker.current? = some s.function := by
  cases h.accounted.account hs with
  | queued h => exact .inl h
  | @held i hand once p hhand hplace hp =>
      have hi : w.scene.Holds i s := Account.holds hhand hplace hp
      obtain ⟨j, worker, heq, hworker, hheld⟩ := World.scene_holds_iff.mp hi
      cases heq
      refine .inr ⟨i, worker, hworker, hheld, ?_⟩
      refine h.posted.shown hfree i worker.hand.bare (World.scene_hands_getElem? hworker) ?_
      rw [← hheld]
      exact WorkerPlace.held?_bare worker.place
  | done h => exact absurd h hopen

end ScriptPool
