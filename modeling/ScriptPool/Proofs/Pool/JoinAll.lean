import ScriptPool.Proofs.Pool.Join
import ScriptPool.Proofs.Pool.Procedures

namespace ScriptPool

/-- Another worker of the pool runs and has not ended its run. -/
def Crew.Eager (c : Crew) (me : ThreadId) : Prop :=
  ∃ (i : Nat) (hand : Hand), i ∈ c.pool ∧ me ≠ .worker i ∧ c.hands[i]? = some hand ∧
    hand.running = true ∧ hand.place ≠ .resting

/-- The worker runs, or is about to announce that it has stopped. -/
def Crew.Tired (c : Crew) (i : Nat) : Prop :=
  ∀ hand, c.hands[i]? = some hand → hand.running = true ∨ hand.place = .announcing

/-- The worker does not run. -/
def Crew.Stopped (c : Crew) (i : Nat) : Prop :=
  ∀ hand, c.hands[i]? = some hand → hand.running = false

/-- If the task is in the queue, then some worker was started or all were running. -/
def Crew.Served (c : Crew) (me : ThreadId) (s : Submission) : Prop :=
  s ∈ c.queue → c.Eager me ∨ ∀ i ∈ c.pool, me ≠ .worker i → c.Tired i

/-- The task is in the queue, and all other workers of the pool are about to announce that they
have stopped. -/
def Crew.Stalled (c : Crew) (me : ThreadId) (s : Submission) : Prop :=
  s ∈ c.queue ∧ ∀ i ∈ c.pool, me ≠ .worker i →
    ∀ hand, c.hands[i]? = some hand → hand.place = .announcing

/-- What is known while idle workers are started. -/
def StartPlace.Known (me : ThreadId) (s : Submission) (c : Crew) : StartPlace → Prop
  | .locking limit => 1 ≤ limit
  | .trying rest limit started =>
    1 ≤ limit ∧ (s ∈ c.queue → c.Eager me ∨
      started = 0 ∧ ∃ tried, c.pool = tried ++ rest ∧ ∀ i ∈ tried, me ≠ .worker i → c.Tired i)
  | .sending _ _ limit _ => 1 ≤ limit ∧ (s ∈ c.queue → c.Eager me)
  | .unlocking _ => c.Served me s

/-- What is known while workers are started for the tasks in the queue. -/
def DrivePlace.Known (me : ThreadId) (s : Submission) (c : Crew) : DrivePlace → Prop
  | .measuring => True
  | .starting place => place.Known me s c

/-- What a join of all tasks knows about a task, if nothing was announced since it looked. -/
def JoinAllPlace.Cleared (s : Submission) (me : ThreadId) (c : Crew) : JoinAllPlace → Prop
  | .driving seen place =>
    seen ≤ c.generation ∧ (c.generation = seen → place.Known me s c)
  | .looking seen place =>
    seen ≤ c.generation ∧
      (c.generation = seen → c.Served me s ∧ place.Passed c.Stopped c.pool me)
  | .searching seen =>
    seen ≤ c.generation ∧ (c.generation = seen → c.Stalled me s ∨ c.Spared me s)
  | .confirming seen => seen ≤ c.generation ∧ (c.generation = seen → c.Spared me s)
  | _ => True

section Own

variable {me : ThreadId} {w v : World} {s : Submission}

theorem Crew.Eager.modify {c : Crew} {f : Hand → Hand} (h : c.Eager me)
    (hf : ∀ hand, hand.running = true → (f hand).running = true ∧ (f hand).place = hand.place)
    (serial : Nat) : (c.modify serial f).Eager me := by
  obtain ⟨i, hand, hi, hme, hhand, hr, hp⟩ := h
  refine ⟨i, if serial = i then f hand else hand, hi, hme, ?_, ?_⟩
  · rw [Crew.hands_modify_getElem?, hhand]
    rfl
  · split
    · obtain ⟨hr', hp'⟩ := hf hand hr
      exact ⟨hr', hp' ▸ hp⟩
    · exact ⟨hr, hp⟩

theorem World.isRunning_scene (w : World) (i : Nat) :
    w.scene.isRunning i = w.isRunning i := by
  rw [World.scene, Crew.isRunning_scene, World.isRunning_crew]

theorem Crew.Stopped.of_isRunning {i : Nat} (h : w.isRunning i = false) : w.scene.Stopped i := by
  intro hand hhand
  rw [← World.isRunning_scene] at h
  simpa [Crew.isRunning, hhand] using h

theorem Crew.Tired.of_isRunning {i : Nat} (h : w.isRunning i = true) : w.scene.Tired i := by
  intro hand hhand
  rw [← World.isRunning_scene] at h
  exact .inl (by simpa [Crew.isRunning, hhand] using h)

theorem Crew.Eager.raised {i : Nat} (hd : Disciplined w.scene w.errand) (hi : i ∈ w.scene.pool)
    (hme : me ≠ .worker i) (hidle : w.isRunning i = false) :
    (w.modifyWorker i fun worker => { worker with running := true }).scene.Eager me := by
  obtain ⟨hand, hhand⟩ : ∃ hand, w.scene.hands[i]? = some hand :=
    ⟨_, List.getElem?_eq_getElem (hd.known hi)⟩
  have hrest := (hd.sound hhand).resting (Crew.Stopped.of_isRunning hidle _ hhand)
  have hscene : (w.modifyWorker i fun worker => { worker with running := true }).scene =
      w.scene.modify i fun hand => { hand with running := true } := by
    apply World.scene_modifyWorker_of_comm
    intro worker
    rfl
  refine ⟨i, { hand with running := true }, hi, hme, ?_, rfl, ?_⟩
  · rw [hscene, Crew.hands_modify_getElem?, hhand]
    simp
  · intro hresting
    have hidle := hrest.idle
    rw [show hand.place = .resting from hresting] at hidle
    cases hidle

theorem startStep_known {place : StartPlace} {stage : Stage StartPlace Nat}
    (hd : Disciplined w.scene w.errand) (herrand : w.errand me = place.errand)
    (hk : place.Known me s w.scene) (h : startStep me w place = some (v, stage)) :
    match stage with
    | .going place' => place'.Known me s v.scene
    | .over _ => v.scene.Served me s := by
  cases place with
  | locking limit =>
      simp only [startStep, Option.map_eq_some_iff, World.lockPool_eq_some_iff, Prod.mk.injEq] at h
      obtain ⟨u, ⟨-, rfl⟩, rfl, rfl⟩ := h
      exact ⟨hk, fun _ => .inr ⟨rfl, [], rfl, by simp⟩⟩
  | trying rest limit started =>
      obtain ⟨hlimit, hk⟩ := hk
      cases rest with
      | nil =>
          cases h
          intro hs
          rcases hk hs with heager | ⟨-, tried, hpool, htired⟩
          · exact .inl heager
          · rw [List.append_nil] at hpool
            exact .inr fun i hi hme => htired i (hpool ▸ hi) hme
      | cons i rest =>
          simp only [startStep] at h
          split at h
          · next hstarted =>
              cases h
              intro hs
              rcases hk hs with heager | ⟨hzero, -⟩
              · exact .inl heager
              · omega
          · split at h
            · next hskip =>
                cases h
                refine ⟨hlimit, fun hs => ?_⟩
                rcases hk hs with heager | ⟨hzero, tried, hpool, htired⟩
                · exact .inl heager
                · refine .inr ⟨hzero, tried ++ [i], by simp [hpool], fun j hj hme => ?_⟩
                  rw [List.mem_append, List.mem_singleton] at hj
                  rcases hj with hj | rfl
                  · exact htired j hj hme
                  · rcases hskip with hself | hrunning
                    · exact absurd hself hme
                    · exact .of_isRunning hrunning
            · next hstart =>
                cases h
                rw [not_or, Bool.not_eq_true] at hstart
                have hi : i ∈ w.scene.pool :=
                  hd.targets me (by rw [herrand]; exact List.mem_cons_self)
                exact ⟨hlimit, fun _ => Crew.Eager.raised hd hi hstart.1 hstart.2⟩
  | sending i rest limit started =>
      obtain ⟨hlimit, hk⟩ := hk
      cases h
      have hscene : ((w.send i .run).report .runRequested).scene =
          w.scene.modify i fun hand => { hand with mailbox := hand.mailbox ++ [.run] } := by
        change (w.modifyWorker i fun worker =>
          { worker with mailbox := worker.mailbox ++ [.run] }).scene = _
        apply World.scene_modifyWorker_of_comm
        intro worker
        rfl
      refine ⟨hlimit, fun hs => .inl ?_⟩
      rw [hscene] at hs ⊢
      apply (hk hs).modify
      exact fun _ hr => ⟨hr, rfl⟩
  | unlocking started =>
      cases h
      exact hk

theorem Oversees.generation (h : Oversees me w v) : v.generation = w.generation := by
  induction h with
  | refl => rfl
  | lock _ hlock ih =>
      obtain ⟨-, rfl⟩ := World.lockPool_eq_some_iff.mp hlock
      exact ih
  | unlock _ ih | raise _ _ ih | send _ _ ih | report _ _ ih => exact ih

theorem driveStep_known {place : DrivePlace} {stage : Stage DrivePlace Unit}
    (hd : Disciplined w.scene w.errand) (herrand : w.errand me = place.errand)
    (hk : place.Known me s w.scene) (h : driveStep me w place = some (v, stage)) :
    match stage with
    | .going place' => place'.Known me s v.scene
    | .over _ => v.scene.Served me s := by
  cases place with
  | measuring =>
      simp only [driveStep, World.onQueue_eq_some_iff] at h
      obtain ⟨-, h⟩ := h
      split at h
      · next hempty =>
          cases h
          intro hs
          have : s ∈ w.queue := hs
          rw [List.isEmpty_iff.mp hempty] at this
          cases this
      · next hsome =>
          cases h
          have : w.queue ≠ [] := by simpa using hsome
          exact List.length_pos_iff.mpr this
  | starting place =>
      simp only [driveStep, Option.map_eq_some_iff] at h
      obtain ⟨⟨u, stage⟩, hs, h⟩ := h
      have hu := startStep_known hd herrand hk hs
      cases stage with
      | going | «over» =>
          cases h
          exact hu

theorem Crew.Served.stalled_or_spared (hd : Disciplined w.scene w.errand)
    (hserved : w.scene.Served me s)
    (hstopped : ∀ i ∈ w.scene.pool, me ≠ .worker i → w.scene.Stopped i) :
    w.scene.Stalled me s ∨ w.scene.Spared me s := by
  by_cases hs : s ∈ w.scene.queue
  · refine .inl ⟨hs, fun i hi hme hand hhand => ?_⟩
    have hno := hstopped i hi hme hand hhand
    rcases hserved hs with ⟨j, hand', hj, hme', hhand', hr, -⟩ | htired
    · rw [hstopped j hj hme' hand' hhand'] at hr
      cases hr
    · rcases htired i hi hme hand hhand with hr | hp
      · rw [hno] at hr
        cases hr
      · exact hp
  · refine .inr ⟨hs, fun i hi hme => Hand.Resting.not_holds fun hand hhand => ?_⟩
    exact (hd.sound hhand).resting (hstopped i hi hme hand hhand)

theorem joinAllStep_cleared {place place' : JoinAllPlace} (hd : Disciplined w.scene w.errand)
    (herrand : w.errand me = place.errand) (hc : place.Cleared s me w.scene)
    (h : joinAllStep me w place = some (v, .going place')) : place'.Cleared s me v.scene := by
  cases joinAllStep_goes h with
  | sampled => exact ⟨Nat.le_refl _, fun _ => trivial⟩
  | drive seen hs =>
      obtain ⟨hseen, hk⟩ := hc
      have hgen : v.scene.generation = w.scene.generation := (driveStep_oversees hs).generation
      refine ⟨hgen ▸ hseen, fun hg => ?_⟩
      exact driveStep_known hd herrand (hk (hgen ▸ hg)) hs
  | driven seen hs =>
      obtain ⟨hseen, hk⟩ := hc
      have hgen : v.scene.generation = w.scene.generation := (driveStep_oversees hs).generation
      refine ⟨hgen ▸ hseen, fun hg => ⟨?_, trivial⟩⟩
      exact driveStep_known hd herrand (hk (hgen ▸ hg)) hs
  | look seen hs =>
      obtain ⟨hseen, hk⟩ := hc
      rw [lookStep_scene hs]
      refine ⟨hseen, fun hg => ?_⟩
      obtain ⟨hserved, hpassed⟩ := hk hg
      exact ⟨hserved, lookStep_passed hs (fun i _ => .of_isRunning) hpassed⟩
  | idle seen hs =>
      obtain ⟨hseen, hk⟩ := hc
      rw [lookStep_scene hs]
      refine ⟨hseen, fun hg => ?_⟩
      obtain ⟨hserved, hpassed⟩ := hk hg
      exact hserved.stalled_or_spared hd (lookStep_over hs hpassed)
  | searched seen hfree hqueue =>
      obtain ⟨hseen, hk⟩ := hc
      refine ⟨hseen, fun hg => ?_⟩
      rcases hk hg with ⟨hs, -⟩ | hspared
      · have hmem : s ∈ w.queue := hs
        rw [hqueue] at hmem
        cases hmem
      · exact hspared
  | checked | locked | noticed | noticedAlone | busy | pending | disturbed | rechecked | woke => trivial

end Own

section Stride

variable {i : Nat} {c c₁ : Crew} {hand hand' : Hand}

theorem WorkerPlace.Moves.target {p p' : WorkerPlace} (h : p.Moves p') :
    p ≠ .announcing ∧ p' ≠ .resting := by
  cases h with
  | begin | measure | compare | check | task | exit => exact ⟨nofun, nofun⟩

theorem Crew.Own.eager (h : Crew.Own i c hand c₁ hand') (hqueue : c.queue ≠ [])
    (hgen : c₁.generation = c.generation) (hr : hand.running = true)
    (hp : hand.place ≠ .resting) : hand'.running = true ∧ hand'.place ≠ .resting := by
  cases h with
  | move p hm => exact ⟨hr, hm.target.2⟩
  | receive command =>
      cases command with
      | run | stop => exact ⟨hr, nofun⟩
  | leave _ _ hempty => exact absurd hempty hqueue
  | rest hplace => exact absurd hplace hp
  | report | announce => exact absurd hgen (Nat.succ_ne_self _)
  | pop | publish | unlockQueue | fail | complete | clear => exact ⟨hr, nofun⟩

theorem Crew.Own.announcing (h : Crew.Own i c hand c₁ hand')
    (hgen : c₁.generation = c.generation) : hand.place ≠ .announcing := by
  intro hp
  cases h with
  | move _ hm => exact hm.target.1 hp
  | leave _ hplace =>
      rcases hplace with h | h
      · rw [hp] at h
        cases h
      · rw [hp] at h
        cases h
  | announce => exact absurd hgen (Nat.succ_ne_self _)
  | receive _ _ hplace | pop _ _ _ hplace | publish _ _ hplace | unlockQueue _ _ hplace
  | fail _ _ _ hplace | complete _ _ _ hplace | clear _ _ hplace | report _ _ hplace
  | rest hplace =>
      rw [hp] at hplace
      cases hplace

theorem Crew.Own.tired (h : Crew.Own i c hand c₁ hand') (hgen : c₁.generation = c.generation)
    (ht : hand.running = true ∨ hand.place = .announcing) :
    hand'.running = true ∨ hand'.place = .announcing := by
  rcases ht with hr | hp
  · cases h with
    | rest => exact .inr rfl
    | move | receive | leave | pop | publish | unlockQueue | fail | complete | clear | report
    | announce => exact .inl hr
  · exact absurd hp (h.announcing hgen)

theorem Crew.Own.stopped (h : Crew.Own i c hand c₁ hand') (hr : hand.running = false) :
    hand'.running = false := by
  cases h with
  | rest => rfl
  | move | receive | leave | pop | publish | unlockQueue | fail | complete | clear | report
  | announce => exact hr

variable {me thread : ThreadId} {w w' : World} {s : Submission}

theorem Crew.Step.generation_le {e e' : Errand} {c' : Crew} (h : Crew.Step thread c e c' e') :
    c.generation ≤ c'.generation := by
  cases h with
  | notify => exact Nat.le_succ _
  | still | push | count | lock | lockHired | skip | stop | raise | send | hold | unlock | take
  | tell | hire | add => exact Nat.le_refl _

theorem Crew.Own.generation_le (h : Crew.Own i c hand c₁ hand') :
    c.generation ≤ c₁.generation := by
  cases h with
  | report | announce => exact Nat.le_succ _
  | move | receive | leave | pop | publish | unlockQueue | fail | complete | clear | rest =>
      exact Nat.le_refl _

theorem Stride.generation_le (h : Stride thread w w') :
    w.scene.generation ≤ w'.scene.generation := by
  cases h with
  | errand _ h => exact h.generation_le
  | own _ _ hown hscene =>
      rw [hscene]
      exact hown.generation_le

theorem Stride.hand_cases (h : Stride thread w w') (hhand : w.scene.hands[i]? = some hand) :
    ∃ hand', w'.scene.hands[i]? = some hand' ∧
      (hand'.place = hand.place ∧ (hand'.running = hand.running ∨ hand'.running = true ∧
          (w.errand thread).locks = true) ∨
        ∃ c₁, Crew.Own i w.scene hand c₁ hand' ∧ w'.scene.generation = c₁.generation) := by
  have hlt := (List.getElem?_eq_some_iff.mp hhand).1
  obtain ⟨hand', hhand'⟩ : ∃ hand', w'.scene.hands[i]? = some hand' :=
    ⟨_, List.getElem?_eq_getElem (Nat.lt_of_lt_of_le hlt h.hands_length_le)⟩
  refine ⟨hand', hhand', ?_⟩
  cases h with
  | errand _ h =>
      have htouched : Crew.Touched (.host 0) w.scene _ _ i hand' := h.touched hhand'
      cases htouched with
      | same hi =>
          rw [hi] at hhand
          cases hhand
          exact .inl ⟨rfl, .inl rfl⟩
      | raised hi _ he _ _ heq =>
          rw [hi] at hhand
          cases hhand
          rw [heq, he]
          exact .inl ⟨rfl, .inr ⟨rfl, rfl⟩⟩
      | started hi _ _ _ heq | stopped hi _ _ heq =>
          rw [hi] at hhand
          cases hhand
          rw [heq]
          exact .inl ⟨rfl, .inl rfl⟩
      | hired hlength => exact absurd hlength (Nat.ne_of_lt hlt)
      | own _ hme => cases hme
  | @own serial hand₁ hand₂ c₁ _ hhand₁ hown hscene =>
      rw [hscene, Crew.put, List.getElem?_set, hown.hands_eq] at hhand'
      by_cases hi : serial = i
      · subst hi
        rw [hhand₁] at hhand
        cases hhand
        rw [if_pos rfl, if_pos hlt] at hhand'
        cases hhand'
        exact .inr ⟨c₁, hown, by rw [hscene]; rfl⟩
      · rw [if_neg hi, hhand] at hhand'
        cases hhand'
        exact .inl ⟨rfl, .inl rfl⟩

theorem Crew.Stopped.stride (h : Stride thread w w') (hs : w.scene.Stopped i)
    (hi : i < w.scene.hands.length) (hunlocked : (w.errand thread).locks = false) :
    w'.scene.Stopped i := by
  intro hand' hhand'
  have hhand := List.getElem?_eq_getElem hi
  have hs := hs _ hhand
  obtain ⟨hand₁, hhand₁, hcases⟩ := h.hand_cases hhand
  rw [hhand'] at hhand₁
  cases hhand₁
  rcases hcases with ⟨-, hrunning⟩ | ⟨c₁, hown, -⟩
  · rcases hrunning with hr | ⟨-, hlocks⟩
    · exact hr.trans hs
    · rw [hunlocked] at hlocks
      cases hlocks
  · exact hown.stopped hs

variable (h : Stride thread w w') (hgen : w'.scene.generation = w.scene.generation)
  (hpool : w'.scene.pool = w.scene.pool)
include h hgen

theorem Crew.Tired.stride (ht : w.scene.Tired i) (hi : i < w.scene.hands.length) :
    w'.scene.Tired i := by
  intro hand' hhand'
  have hhand := List.getElem?_eq_getElem hi
  have ht := ht _ hhand
  obtain ⟨hand₁, hhand₁, hcases⟩ := h.hand_cases hhand
  rw [hhand'] at hhand₁
  cases hhand₁
  rcases hcases with ⟨hplace, hrunning⟩ | ⟨c₁, hown, hg⟩
  · rcases hrunning with hr | ⟨hr, -⟩
    · rw [hplace, hr]
      exact ht
    · exact .inl hr
  · exact hown.tired (hg.symm.trans hgen) ht

include hpool

theorem Crew.Eager.stride (he : w.scene.Eager me) (hqueue : w.scene.queue ≠ []) :
    w'.scene.Eager me := by
  obtain ⟨i, hand, hi, hme, hhand, hr, hp⟩ := he
  obtain ⟨hand', hhand', hcases⟩ := h.hand_cases hhand
  refine ⟨i, hand', hpool ▸ hi, hme, hhand', ?_⟩
  rcases hcases with ⟨hplace, hrunning⟩ | ⟨c₁, hown, hg⟩
  · rw [hplace]
    rcases hrunning with hr' | ⟨hr', -⟩
    · exact ⟨hr'.trans hr, hp⟩
    · exact ⟨hr', hp⟩
  · exact hown.eager hqueue (hg.symm.trans hgen) hr hp

variable (hd : Disciplined w.scene w.errand) (ht : s.ticket < w.scene.tickets)
include hd ht

theorem Crew.Served.stride (hserved : w.scene.Served me s) : w'.scene.Served me s := by
  intro hs'
  have hs : s ∈ w.scene.queue := by
    by_contra hgone
    exact h.flow.gone ht hgone hs'
  rcases hserved hs with heager | htired
  · exact .inl (heager.stride h hgen hpool (List.ne_nil_of_mem hs))
  · refine .inr fun i hi hme => ?_
    rw [hpool] at hi
    exact (htired i hi hme).stride h hgen (hd.known hi)

theorem StartPlace.Known.stride {place : StartPlace} (hk : place.Known me s w.scene) :
    place.Known me s w'.scene := by
  have hqueue (hs' : s ∈ w'.scene.queue) : s ∈ w.scene.queue := by
    by_contra hgone
    exact h.flow.gone ht hgone hs'
  cases place with
  | locking limit => exact hk
  | trying rest limit started =>
      obtain ⟨hlimit, hk⟩ := hk
      refine ⟨hlimit, fun hs' => ?_⟩
      have hs := hqueue hs'
      rcases hk hs with heager | ⟨hzero, tried, htried, htired⟩
      · exact .inl (heager.stride h hgen hpool (List.ne_nil_of_mem hs))
      · refine .inr ⟨hzero, tried, hpool.trans htried, fun i hi hme => ?_⟩
        have hmem : i ∈ w.scene.pool := htried ▸ List.mem_append_left _ hi
        exact (htired i hi hme).stride h hgen (hd.known hmem)
  | sending i rest limit started =>
      obtain ⟨hlimit, hk⟩ := hk
      refine ⟨hlimit, fun hs' => ?_⟩
      have hs := hqueue hs'
      exact (hk hs).stride h hgen hpool (List.ne_nil_of_mem hs)
  | unlocking started => exact Crew.Served.stride h hgen hpool hd ht hk

theorem stalled_or_spared_stride (hl : Ledger w'.scene)
    (hk : w.scene.Stalled me s ∨ w.scene.Spared me s) :
    w'.scene.Stalled me s ∨ w'.scene.Spared me s := by
  rcases hk with ⟨hs, hannouncing⟩ | hspared
  · by_cases hs' : s ∈ w'.scene.queue
    · refine .inl ⟨hs', fun i hi hme hand' hhand' => ?_⟩
      rw [hpool] at hi
      have hhand := List.getElem?_eq_getElem (hd.known hi)
      have hplace := hannouncing i hi hme _ hhand
      obtain ⟨hand₁, hhand₁, hcases⟩ := h.hand_cases hhand
      rw [hhand'] at hhand₁
      cases hhand₁
      rcases hcases with ⟨hsame, -⟩ | ⟨c₁, hown, hg⟩
      · rw [hsame, hplace]
      · exact absurd hplace (hown.announcing (hg.symm.trans hgen))
    · -- Whoever took the task was not about to announce.
      obtain ⟨j, once, hand, hhand, hpopping, hholds⟩ := h.flow.claimed hs hs'
      refine .inr ⟨hs', fun i hi hme hi' => ?_⟩
      rw [hpool] at hi
      cases hl.apart hi' hholds rfl
      rw [hannouncing _ hi hme hand hhand] at hpopping
      cases hpopping
  · exact .inr (hspared.stride hd ht h)

end Stride

variable {me thread : ThreadId} {w w' : World} {s : Submission}

theorem JoinAllPlace.Cleared.stride {place : JoinAllPlace} (hc : place.Cleared s me w.scene)
    (h : Stride thread w w') (hpool : w'.scene.pool = w.scene.pool)
    (hd : Disciplined w.scene w.errand) (hl : Ledger w'.scene) (ht : s.ticket < w.scene.tickets)
    (herrand : w.errand me = place.errand) (hne : thread ≠ me) : place.Cleared s me w'.scene := by
  have hle := h.generation_le
  have hstill {seen : Nat} (hseen : seen ≤ w.scene.generation)
      (hg : w'.scene.generation = seen) : w'.scene.generation = w.scene.generation ∧
        w.scene.generation = seen := by omega
  cases place with
  | driving seen drive =>
      obtain ⟨hseen, hk⟩ := hc
      refine ⟨Nat.le_trans hseen hle, fun hg => ?_⟩
      obtain ⟨hgen, hg⟩ := hstill hseen hg
      have hk := hk hg
      cases drive with
      | measuring => trivial
      | starting start => exact StartPlace.Known.stride h hgen hpool hd ht hk
  | looking seen look =>
      obtain ⟨hseen, hk⟩ := hc
      refine ⟨Nat.le_trans hseen hle, fun hg => ?_⟩
      obtain ⟨hgen, hg⟩ := hstill hseen hg
      obtain ⟨hserved, hpassed⟩ := hk hg
      refine ⟨hserved.stride h hgen hpool hd ht, ?_⟩
      rw [hpool]
      cases look with
      | locking => trivial
      | looking | unlocking =>
          have hlocks : (w.errand me).locks = true := by rw [herrand]; rfl
          have hunlocked := hd.locked.unlocked hlocks (Ne.symm hne)
          exact hpassed.mono fun i hi hs => hs.stride h (hd.known hi) hunlocked
  | searching seen =>
      obtain ⟨hseen, hk⟩ := hc
      refine ⟨Nat.le_trans hseen hle, fun hg => ?_⟩
      obtain ⟨hgen, hg⟩ := hstill hseen hg
      exact stalled_or_spared_stride h hgen hpool hd ht hl (hk hg)
  | confirming seen =>
      obtain ⟨hseen, hk⟩ := hc
      refine ⟨Nat.le_trans hseen hle, fun hg => ?_⟩
      exact (hk (hstill hseen hg).2).stride hd ht h
  | checking | locking | noticing | sampling | rechecking | waiting => trivial

end ScriptPool
