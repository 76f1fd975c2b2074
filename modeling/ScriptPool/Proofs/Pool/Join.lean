import ScriptPool.Proofs.Pool.Watch

namespace ScriptPool

/-- While a thread looks at the workers, those that it has passed have a property. -/
def LookPlace.Passed (p : Nat → Prop) (pool : List Nat) (me : ThreadId) : LookPlace → Prop
  | .locking => True
  | .looking rest => ∃ passed, pool = passed ++ rest ∧ ∀ i ∈ passed, me ≠ .worker i → p i
  | .unlocking found => found = false → ∀ i ∈ pool, me ≠ .worker i → p i

section Look

variable {me : ThreadId} {question : Question} {w v : World} {place place' : LookPlace}
  {p q : Nat → Prop} {pool : List Nat}

theorem LookPlace.Passed.mono (h : place.Passed p pool me) (hpq : ∀ i ∈ pool, p i → q i) :
    place.Passed q pool me := by
  cases place with
  | locking => trivial
  | looking rest =>
      obtain ⟨passed, hpool, hpassed⟩ := h
      refine ⟨passed, hpool, fun i hi hme => hpq i ?_ (hpassed i hi hme)⟩
      rw [hpool]
      exact List.mem_append_left _ hi
  | unlocking found => exact fun hfound i hi hme => hpq i hi (h hfound i hi hme)

theorem lookStep_scene {stage : Stage LookPlace Bool}
    (h : lookStep me question w place = some (v, stage)) :
    v.scene = { w.scene with poolHolder? := v.poolHolder? } := by
  cases place with
  | locking =>
      simp only [lookStep, Option.map_eq_some_iff, World.lockPool_eq_some_iff, Prod.mk.injEq] at h
      obtain ⟨u, ⟨-, rfl⟩, rfl, -⟩ := h
      rfl
  | looking rest =>
      cases rest with
      | nil => cases h; rfl
      | cons serial rest =>
          simp only [lookStep] at h
          split at h
          · cases h; rfl
          · split at h
            · cases h
              rfl
            · cases h
              rfl
  | unlocking found => cases h; rfl

theorem lookStep_passed (h : lookStep me question w place = some (v, .going place'))
    (hq : ∀ i ∈ w.pool, question.holds w i = false → p i) (hp : place.Passed p w.pool me) :
    place'.Passed p w.pool me := by
  cases place with
  | locking =>
      simp only [lookStep, Option.map_eq_some_iff, World.lockPool_eq_some_iff, Prod.mk.injEq] at h
      obtain ⟨u, ⟨-, rfl⟩, rfl, heq⟩ := h
      cases heq
      exact ⟨[], rfl, by simp⟩
  | looking rest =>
      obtain ⟨passed, hpool, hpassed⟩ := hp
      cases rest with
      | nil =>
          cases h
          intro _ i hi hme
          rw [hpool, List.append_nil] at hi
          exact hpassed i hi hme
      | cons serial rest =>
          have hgo (hserial : me ≠ .worker serial → p serial) :
              (LookPlace.looking rest).Passed p w.pool me := by
            refine ⟨passed ++ [serial], by simp [hpool], fun i hi hme => ?_⟩
            rw [List.mem_append, List.mem_singleton] at hi
            rcases hi with hi | rfl
            · exact hpassed i hi hme
            · exact hserial hme
          simp only [lookStep] at h
          split at h
          · next hme =>
              cases h
              exact hgo fun hne => absurd hme hne
          · split at h
            · cases h
              intro hfound
              cases hfound
            · next hno =>
                cases h
                refine hgo fun _ => hq serial ?_ (by simpa using hno)
                rw [hpool]
                simp
  | unlocking found => cases h

theorem lookStep_over (h : lookStep me question w place = some (v, .over false))
    (hp : place.Passed p w.pool me) : ∀ i ∈ w.pool, me ≠ .worker i → p i := by
  cases place with
  | locking => simp [lookStep] at h
  | looking rest =>
      cases rest with
      | nil => cases h
      | cons serial rest =>
          simp only [lookStep] at h
          split at h
          · cases h
          · split at h
            · cases h
            · cases h
  | unlocking found =>
      cases h
      exact hp rfl

end Look

/-- Whoever holds the task shows its function. -/
def Crew.Shown (c : Crew) (s : Submission) : Prop :=
  ∀ (i : Nat) (hand : Hand), c.hands[i]? = some hand → hand.place.held? = some s →
    hand.current? = some s.function

/-- The task is not in the queue, and no other worker of the pool holds it. -/
def Crew.Spared (c : Crew) (me : ThreadId) (s : Submission) : Prop :=
  s ∉ c.queue ∧ ∀ i ∈ c.pool, me ≠ .worker i → ¬ c.Holds i s

/-- What a join of the task's function knows about the task. -/
def JoinPlace.Cleared (s : Submission) (me : ThreadId) (c : Crew) : JoinPlace → Prop
  | .looking _ false place =>
    s ∉ c.queue ∧ c.Shown s ∧ place.Passed (fun i => ¬ c.Holds i s) c.pool me
  | .confirming _ => c.Spared me s
  | _ => True

variable {me thread : ThreadId} {w w' v : World} {s : Submission} {function : String}
  {place place' : JoinPlace}

theorem Posted.shown (hp : Posted w.scene) (hfree : w.queueHolder? = none) : w.scene.Shown s := by
  intro i hand hhand hs
  have hclaim : hand.place.isClaiming = false := by
    cases hc : hand.place.isClaiming with
    | false => rfl
    | true =>
        have hholder : w.queueHolder? = some (.worker i) := hp.claiming hhand hc
        rw [hfree] at hholder
        cases hholder
  exact hp.named hhand (WorkerPlace.shown?_of_held? hs hclaim)

theorem Crew.Shown.not_holds {i : Nat} (hs : w.scene.Shown s)
    (hno : (Question.executing s.function).holds w i = false) : ¬ w.scene.Holds i s := by
  rintro ⟨hand, hhand, hheld⟩
  have hcurrent := hs i hand hhand hheld
  obtain ⟨worker, hworker, rfl⟩ := World.worker_of_scene_hands hhand
  have : worker.current? = some s.function := hcurrent
  simp [Question.holds, World.isExecuting, hworker, this] at hno

theorem joinStep_cleared (hp : Posted w.scene) (hf : s.function = function)
    (hc : place.Cleared s me w.scene)
    (h : joinStep function me w place = some (v, .going place')) : place'.Cleared s me v.scene := by
  have hq (hshown : w.scene.Shown s) : ∀ i ∈ w.pool,
      (Question.executing function).holds w i = false → ¬ w.scene.Holds i s :=
    fun i _ hno => hshown.not_holds (hf ▸ hno)
  cases joinStep_goes h with
  | searched seen hfree =>
      cases hany : w.queue.any fun s => s.function = function with
      | true => trivial
      | false =>
          refine ⟨fun hs => ?_, hp.shown hfree, trivial⟩
          rw [List.any_eq_false] at hany
          exact hany s hs (by simpa using hf)
  | look seen pending hs =>
      cases pending with
      | true => trivial
      | false =>
          obtain ⟨hgone, hshown, hpassed⟩ := hc
          rw [lookStep_scene hs]
          exact ⟨hgone, hshown, lookStep_passed hs (hq hshown) hpassed⟩
  | clear seen hs =>
      obtain ⟨hgone, -, hpassed⟩ := hc
      rw [lookStep_scene hs]
      exact ⟨hgone, lookStep_over hs hpassed⟩
  | checked | sampled | pending | executing | disturbed | drive | driven | rechecked | woke => trivial

theorem Crew.Own.shown {i : Nat} {c c₁ : Crew} {hand hand' : Hand}
    (h : Crew.Own i c hand c₁ hand') (hheld : hand.place.held? = some s)
    (hheld' : hand'.place.held? = some s) (hcurrent : hand.current? = some s.function) :
    hand'.current? = some s.function := by
  cases h with
  | publish once s' hplace =>
      rw [hplace] at hheld
      cases hheld
      rfl
  | clear => cases hheld'
  | move | receive | leave | pop | unlockQueue | fail | complete | report | rest | announce =>
      exact hcurrent

theorem Crew.Shown.stride (hshown : w.scene.Shown s) (hgone : s ∉ w.scene.queue)
    (h : Stride thread w w') : w'.scene.Shown s := by
  intro i hand' hi hheld
  obtain ⟨hand₀, hhand₀, hheld₀⟩ := h.flow.holds_of_gone hgone ⟨hand', hi, hheld⟩
  have hcurrent := hshown i hand₀ hhand₀ hheld₀
  cases h.touched hi with
  | same hi =>
      rw [hi] at hhand₀
      cases hhand₀
      exact hcurrent
  | raised hi _ _ _ _ heq | started hi _ _ _ heq | stopped hi _ _ heq =>
      rw [hi] at hhand₀
      cases hhand₀
      rw [heq]
      exact hcurrent
  | hired _ _ _ heq =>
      rw [heq] at hheld
      cases hheld
  | own hi _ _ _ hown =>
      rw [hi] at hhand₀
      cases hhand₀
      exact hown.shown hheld₀ hheld hcurrent

theorem Hand.Resting.not_holds {c : Crew} {i : Nat}
    (hr : ∀ hand, c.hands[i]? = some hand → hand.Resting) : ¬ c.Holds i s := by
  rintro ⟨hand, hhand, hheld⟩
  have hidle := (hr hand hhand).idle
  generalize hand.place = place at hheld hidle
  cases place with
  | executing => cases hidle
  | _ => cases hheld

theorem Stride.mem_pool (h : Stride thread w w') {i : Nat} (hi : i ∈ w'.scene.pool) :
    i ∈ w.scene.pool ∨ (w.errand thread).newcomer? = some i := by
  cases h with
  | own _ _ hown hscene =>
      rw [hscene, Crew.put, hown.pool_eq.1] at hi
      exact .inl hi
  | errand _ h _ =>
      rcases h.pool_cases with hp | hp | ⟨serial, he, -, hp⟩
      · exact .inl (hp ▸ hi)
      · simp [hp] at hi
      · rw [hp, List.mem_append, List.mem_singleton] at hi
        rcases hi with hi | rfl
        · exact .inl hi
        · exact .inr (by rw [he]; rfl)

theorem Crew.Spared.stride (hc : w.scene.Spared me s) (hd : Disciplined w.scene w.errand)
    (ht : s.ticket < w.scene.tickets) (h : Stride thread w w') : w'.scene.Spared me s := by
  obtain ⟨hgone, hfree⟩ := hc
  refine ⟨h.flow.gone ht hgone, fun i hi hme hholds => ?_⟩
  have hholds := h.flow.holds_of_gone hgone hholds
  rcases h.mem_pool hi with hi | hnew
  · exact hfree i hi hme hholds
  · exact Hand.Resting.not_holds (hd.newcomer hnew).2.2 hholds

theorem JoinPlace.Cleared.stride (hc : place.Cleared s me w.scene)
    (hd : Disciplined w.scene w.errand) (ht : s.ticket < w.scene.tickets)
    (herrand : w.errand me = place.errand) (hne : thread ≠ me) (h : Stride thread w w') :
    place.Cleared s me w'.scene := by
  unfold JoinPlace.Cleared at hc ⊢
  split
  · next seen look =>
      obtain ⟨hgone, hshown, hpassed⟩ := hc
      refine ⟨h.flow.gone ht hgone, hshown.stride hgone h, ?_⟩
      have hmono : look.Passed (fun i => ¬ w'.scene.Holds i s) w.scene.pool me :=
        hpassed.mono fun i _ hno hholds => hno (h.flow.holds_of_gone hgone hholds)
      cases look with
      | locking => trivial
      | looking | unlocking =>
          -- The pool is locked, so it is still the one that the look started with.
          have hpool : w'.scene.pool = w.scene.pool :=
            hd.locked.pool_eq h (Ne.symm hne) (by rw [herrand]; rfl)
          rw [hpool]
          exact hmono
  · exact hc.stride hd ht h
  · trivial

end ScriptPool
