import ScriptPool.Proofs.Pool.JoinAll
import ScriptPool.Proofs.Pool.JoinBarrier

namespace ScriptPool

/-- The thread is about to take the first step of a join of all tasks. -/
def World.entersJoinAll (w : World) (me : ThreadId) : Bool :=
  match w.asking? me with
  | some (.joinAll .checking) => true
  | _ => false

/-- The next step of the thread returns from a join of all tasks. -/
def World.returnsFromJoinAll (w : World) (me : ThreadId) : Bool :=
  match w.asking? me with
  | some (.joinAll place) =>
    match joinAllStep me w place with
    | some (_, .over (.ok _)) => true
    | _ => false
  | _ => false

variable {library : Library} {engine : Engine} {main : ContextId} {poolSize others : Nat}
  {pool : List Nat} {before during moves : List Move} {me : ThreadId} {w w' w₀ w₁ : World}
  {s : Submission}

theorem World.entersJoinAll_iff :
    w.entersJoinAll me = true ↔ w.asking? me = some (.joinAll .checking) := by
  unfold World.entersJoinAll
  split
  · next h => simp [h]
  · next hno =>
      constructor
      · nofun
      · intro h
        exact absurd h hno

theorem joinAllStep_ok {place : JoinAllPlace} {v : World} {n : Nat}
    (h : joinAllStep me w place = some (v, .over (.ok n))) :
    place = .confirming w.generation := by
  cases joinAllStep_replies h with
  | done => rfl

theorem World.confirming_of_returnsFromJoinAll (h : w.returnsFromJoinAll me = true) :
    w.asking? me = some (.joinAll (.confirming w.generation)) := by
  unfold World.returnsFromJoinAll at h
  split at h
  · next place hask =>
      split at h
      · next v n hstep => rw [hask, joinAllStep_ok hstep]
      · cases h
  · cases h

theorem askingStep_joinAll {pick : Nat} {a : Asking} {place : JoinAllPlace} {v : World}
    (h : askingStep pick me w a = some (v, .going (.joinAll place))) :
    ∃ place₀, a = .joinAll place₀ ∧ joinAllStep me w place₀ = some (v, .going place) := by
  cases askingStep_goes h with
  | joinsAll hs => exact ⟨_, rfl, hs⟩

theorem Request.begin_joinAll {source : ContextId} {r : Request} {place : JoinAllPlace}
    (h : r.begin source = .joinAll place) : place = .checking := by
  cases r with
  | joinAll =>
      cases h
      rfl
  | acquire | release =>
      simp only [Request.begin] at h
      split at h
      · cases h
      · cases h
  | parallel | join | resize => cases h

/-- When a join of all tasks returns and the pool stayed as it was since it was entered, or since it
looked around, no task that was pushed before is in the queue or in the hands of another worker of
the pool. -/
theorem Run.joinAll_spares {place₀ : JoinAllPlace}
    (h₀ : Run library (World.initial engine main poolSize others) before w₀)
    (h₁ : Run library w₀ during w₁) (hstart : w₀.asking? me = some (.joinAll place₀))
    (hknows : place₀.Cleared s me w₀.scene) (hreturn : w₁.returnsFromJoinAll me = true)
    (hkept : w₀.throughout library (fun v => v.pool = pool) during = true)
    (hs : .pushed s ∈ (World.initial engine main poolSize others).deeds library before) :
    w₁.scene.Spared me s := by
  have hplace := World.confirming_of_returnsFromJoinAll hreturn
  have hticket : s.ticket < w₀.scene.tickets := h₀.accounted.fresh _ hs
  have hknown : ∀ moves' v, moves' <+: during → Run library w₀ moves' v →
      Disciplined v.scene v.errand ∧ Ledger v.scene ∧ s.ticket < v.scene.tickets ∧
        v.scene.pool = pool := by
    intro moves' v hbefore hv
    have hreach := h₀.trans hv
    exact ⟨hreach.disciplined, hreach.ledger, Nat.lt_of_lt_of_le hticket hv.tickets_le,
      of_decide_eq_true (hv.of_throughout hbefore hkept)⟩
  have hcleared : ∀ a, w₁.asking? me = some a →
      ∀ place, a = .joinAll place → place.Cleared s me w₁.scene := by
    refine Run.watch (P := fun c a => ∀ place, a = .joinAll place → place.Cleared s me c)
      ?_ ?_ ?_ h₁ hknown ?_
    · intro c r source place hbegin
      rw [Request.begin_joinAll hbegin]
      trivial
    · rintro pick v u a a' ⟨hd, -⟩ hask hs' hc place rfl
      obtain ⟨place₀, rfl, hstep⟩ := askingStep_joinAll hs'
      exact joinAllStep_cleared hd (World.errand_of_asking hask) (hc place₀ rfl) hstep
    · rintro pick thread v v' a hne ⟨hd, -, ht, hpool⟩ ⟨-, hl, -, hpool'⟩ hask hadv hc place rfl
      exact (hc place rfl).stride (World.advance_stride hadv) (hpool'.trans hpool.symm) hd hl ht
        (World.errand_of_asking hask) hne
    · intro a ha place heq
      rw [hstart] at ha
      cases ha
      cases heq
      exact hknows
  exact (hcleared _ hplace _ rfl).2 rfl

/-- Nobody on the crew runs or is going to. -/
def Crew.Quiet (c : Crew) : Prop :=
  ∀ {i : Nat} {hand : Hand}, c.hands[i]? = some hand → hand.Resting

/-- What a join of all tasks by the only thread of the host knows about the crew. -/
def JoinAllPlace.Quieted (c : Crew) (me : ThreadId) : JoinAllPlace → Prop
  | .looking _ place => place.Passed c.Stopped c.pool me
  | .searching _ => c.Quiet
  | .confirming _ => c.Quiet ∧ c.queue = []
  | _ => True

theorem Crew.Own.queue_eq {i : Nat} {c c₁ : Crew} {hand hand' : Hand}
    (h : Crew.Own i c hand c₁ hand') (hidle : hand.place.isBusy = false) : c₁.queue = c.queue := by
  cases h with
  | pop _ _ _ hplace =>
      rw [hplace] at hidle
      cases hidle
  | move | receive | leave | publish | unlockQueue | fail | complete | clear | report | rest
  | announce => rfl

theorem Crew.Quiet.stride {i : Nat} (hq : w.scene.Quiet) (h : Stride (.worker i) w w') :
    w'.scene.Quiet ∧ w'.scene.queue = w.scene.queue := by
  obtain ⟨haway, hand, hand', c, hhand, hown, hscene⟩ := h.away_of_resting hq
  refine ⟨h.resting_all (by rw [haway]; rfl) hq, ?_⟩
  rw [hscene]
  exact hown.queue_eq (hq hhand).idle

theorem joinAllStep_quieted {place place' : JoinAllPlace} {v : World}
    (hd : Disciplined w.scene w.errand)
    (hout : ∀ {i : Nat} {hand : Hand}, w.scene.hands[i]? = some hand → i ∉ w.pool → hand.Resting)
    (hme : ∀ i, me ≠ .worker i) (hc : place.Quieted w.scene me)
    (h : joinAllStep me w place = some (v, .going place')) : place'.Quieted v.scene me := by
  cases joinAllStep_goes h with
  | look seen hs =>
      rw [lookStep_scene hs]
      exact lookStep_passed hs (fun i _ => .of_isRunning) hc
  | idle seen hs =>
      rw [lookStep_scene hs]
      intro i hand hhand
      by_cases hi : i ∈ w.pool
      · have hstopped := lookStep_over hs hc i hi (hme i)
        exact (hd.sound hhand).resting (hstopped hand hhand)
      · exact hout hhand hi
  | searched seen hfree hqueue => exact ⟨hc, hqueue⟩
  | driven | checked | locked | noticed | noticedAlone | sampled | drive | busy | pending | disturbed
  | rechecked | woke => trivial

theorem JoinAllPlace.Quieted.stride {place : JoinAllPlace} {i : Nat}
    (hc : place.Quieted w.scene me) (h : Stride (.worker i) w w')
    (hd : Disciplined w.scene w.errand) (herrand : w.errand me = place.errand)
    (hme : me ≠ .worker i) : place.Quieted w'.scene me := by
  cases place with
  | looking seen look =>
      cases look with
      | locking => trivial
      | looking | unlocking =>
          have hlocks : (w.errand me).locks = true := by rw [herrand]; rfl
          have hunlocked := hd.locked.unlocked hlocks hme
          unfold JoinAllPlace.Quieted
          rw [hd.locked.pool_eq h hme hlocks]
          exact LookPlace.Passed.mono hc fun j hj hs => hs.stride h (hd.known hj) hunlocked
  | searching seen => exact (Crew.Quiet.stride hc h).1
  | confirming seen =>
      obtain ⟨hquiet, hqueue⟩ := hc
      obtain ⟨hquiet', hsame⟩ := hquiet.stride h
      exact ⟨hquiet', hsame.trans hqueue⟩
  | checking | locking | noticing | sampling | driving | rechecking | waiting => trivial

theorem World.worker_of_advance {pick : Nat} {thread : ThreadId} (hlength : w.hosts.length = 1)
    (hne : thread ≠ .host 0) (h : w.advance library pick thread = some w') :
    ∃ i, thread = .worker i := by
  cases thread with
  | worker i => exact ⟨i, rfl⟩
  | host host =>
      obtain ⟨place, hplace, -⟩ := World.advance_host_iff.mp h
      have hlt := (List.getElem?_eq_some_iff.mp hplace).1
      have hzero : host = 0 := by omega
      subst hzero
      exact absurd rfl hne

/-- When a join of all tasks returns to the only thread of the host and the pool was kept, the
queue is empty and all workers rest. -/
theorem Run.joinAll_quiet (h₀ : Run library (World.initial engine main poolSize 0) before w₀)
    (h₁ : Run library w₀ during w₁) (henter : w₀.entersJoinAll (.host 0) = true)
    (hreturn : w₁.returnsFromJoinAll (.host 0) = true)
    (hkeeps : (World.initial engine main poolSize 0).throughout library (World.keepsPool pool)
      (before ++ during) = true) : w₁.scene.Quiet ∧ w₁.scene.queue = [] := by
  have hplace := World.confirming_of_returnsFromJoinAll hreturn
  have hknown : ∀ moves' v, moves' <+: during → Run library w₀ moves' v →
      Disciplined v.scene v.errand ∧ v.hosts.length = 1 ∧ ∀ {i : Nat} {hand : Hand},
        v.scene.hands[i]? = some hand → i ∉ v.pool → hand.Resting := by
    rintro moves' v ⟨rest, rfl⟩ hv
    have hreach := h₀.trans hv
    rw [← List.append_assoc] at hkeeps
    exact ⟨hreach.disciplined, hreach.hosts_length,
      hreach.resting_of_not_mem (World.throughout_left hkeeps)⟩
  have hquieted : ∀ a, w₁.asking? (.host 0) = some a →
      ∀ place, a = .joinAll place → place.Quieted w₁.scene (.host 0) := by
    refine Run.watch (P := fun c a => ∀ place, a = .joinAll place → place.Quieted c (.host 0))
      ?_ ?_ ?_ h₁ hknown ?_
    · intro c r source place hbegin
      rw [Request.begin_joinAll hbegin]
      trivial
    · rintro pick v u a a' ⟨hd, -, hout⟩ hask hs' hc place rfl
      obtain ⟨place₀, rfl, hstep⟩ := askingStep_joinAll hs'
      exact joinAllStep_quieted hd hout nofun (hc place₀ rfl) hstep
    · rintro pick thread v v' a hne ⟨hd, hlength, -⟩ - hask hadv hc place rfl
      obtain ⟨i, rfl⟩ := World.worker_of_advance hlength hne hadv
      exact (hc place rfl).stride (World.advance_stride hadv) hd (World.errand_of_asking hask)
        nofun
    · intro a ha place heq
      rw [World.entersJoinAll_iff.mp henter] at ha
      cases ha
      cases heq
      trivial
  exact hquieted _ hplace _ rfl

theorem Run.counters_of_quiet (h : Run library (World.initial engine main poolSize 0) moves w)
    (hquiet : w.scene.Quiet) (hqueue : w.scene.queue = []) (haway : w.errand (.host 0) = .away) :
    w.submitted = w.completed + w.failed := by
  obtain ⟨owing, howing, hcount⟩ := h.counted
  obtain ⟨holders, hholders, hsum⟩ := h.balanced
  have hnobody : owing = ∅ := by
    refine Finset.eq_empty_of_forall_notMem fun thread hthread => ?_
    have herrand := (howing thread).mp hthread
    cases thread with
    | host host =>
        cases hhost : w.hosts[host]? with
        | none => simp [World.errand, Crew.errand, Crew.view, World.crew, hhost] at herrand
        | some place =>
            have hlt := (List.getElem?_eq_some_iff.mp hhost).1
            have hzero : host = 0 := by
              have := h.hosts_length
              omega
            rw [hzero, haway] at herrand
            cases herrand
    | worker i =>
        cases hworker : w.workers[i]? with
        | none =>
            simp [World.errand, Crew.errand, Crew.view, World.crew, hworker,
              WorkerPlace.errand] at herrand
        | some worker =>
            have hidle : worker.place.isBusy = false :=
              (hquiet (World.scene_hands_getElem? hworker)).of_bare.idle
            rw [World.errand_eq_view, World.view_worker hworker, WorkerPlace.errand_eq,
              WorkerPlace.asking?_of_idle hidle] at herrand
            cases herrand
  have hempty : holders = ∅ := by
    refine Finset.eq_empty_of_forall_notMem fun i hi => ?_
    obtain ⟨s, hs⟩ := (hholders i).mp hi
    exact Hand.Resting.not_holds (fun hand hhand => hquiet hhand) hs
  rw [hnobody, Finset.card_empty] at hcount
  rw [hempty, hqueue, Finset.card_empty, List.length_nil] at hsum
  have hsubmitted : w.scene.submitted = w.submitted := rfl
  have hcompleted : w.scene.completed = w.completed := rfl
  have hfailed : w.scene.failed = w.failed := rfl
  omega

end ScriptPool
