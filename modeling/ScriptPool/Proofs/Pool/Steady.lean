import ScriptPool.Proofs.Pool.History

namespace ScriptPool

/-- Once the coordinator is started, these are the workers of the pool. -/
def World.keepsPool (pool : List Nat) (w : World) : Bool :=
  w.isOpening || w.pool = pool

variable {library : Library} {pick : Nat} {thread : ThreadId} {w w' : World} {m : Move}

theorem World.isOpening_iff :
    w.isOpening = true ↔
      ∃ (host : Nat) (place : OpenPlace), w.hosts[host]? = some (.opening place) := by
  simp only [World.isOpening, List.any_eq_true]
  constructor
  · rintro ⟨place, hmem, hopen⟩
    obtain ⟨host, hhost⟩ := List.mem_iff_getElem?.mp hmem
    cases place with
    | opening place => exact ⟨host, place, hhost⟩
    | free | asking | closing | measuring | running => cases hopen
  · rintro ⟨host, place, hhost⟩
    exact ⟨_, List.mem_of_getElem? hhost, rfl⟩

theorem hostStep_hosts {host : Nat} {place : HostPlace}
    (h : hostStep library pick host place w = some w') :
    ∃ place', w'.hosts = w.hosts.set host place' ∧
      ∀ p', place' = .opening p' → ∃ p, place = .opening p := by
  obtain ⟨v, place', rfl, hgoes⟩ := hostStep_goes h
  refine ⟨place', ?_, ?_⟩
  · rw [World.placeHost, show v.hosts = w.hosts from hgoes.crew.hosts_eq]
  · rintro p' rfl
    cases hgoes with
    | opens => exact ⟨_, rfl⟩

theorem World.advance_hosts_of_ne (h : w.advance library pick thread = some w') {host : Nat}
    (hne : thread ≠ .host host) : w'.hosts[host]? = w.hosts[host]? :=
  (World.advance_stride h).view_eq (Ne.symm hne) id fun _ => none

theorem World.isOpening_of_move? (h : w.move? library m = some w') (ho : w'.isOpening = true) :
    w.isOpening = true := by
  rw [World.isOpening_iff] at ho ⊢
  obtain ⟨host, place, hplace⟩ := ho
  cases m with
  | step pick thread =>
      by_cases hthread : thread = .host host
      · subst hthread
        obtain ⟨place₀, hplace₀, h⟩ := World.advance_host_iff.mp h
        obtain ⟨place', hhosts, hopening⟩ := hostStep_hosts h
        have hlt := (List.getElem?_eq_some_iff.mp hplace₀).1
        rw [hhosts, List.getElem?_set_self hlt, Option.some.injEq] at hplace
        obtain ⟨p, rfl⟩ := hopening place hplace
        exact ⟨host, p, hplace₀⟩
      · exact ⟨host, place, by rw [← World.advance_hosts_of_ne h hthread, hplace]⟩
  | begin host' call =>
      obtain ⟨-, rfl⟩ := World.move?_begin_iff.mp h
      simp only [World.begin, World.placeHost, List.getElem?_set] at hplace
      split at hplace
      · split at hplace
        · cases call with
          | ask | shutDown | measure | invoke | load => cases hplace
        · cases hplace
      · exact ⟨host, place, hplace⟩
  | setGlobal =>
      obtain ⟨-, rfl⟩ := World.move?_setGlobal_iff.mp h
      exact ⟨host, place, hplace⟩
  | addContext | openGate | openAllGates | setBudget =>
      cases h
      exact ⟨host, place, hplace⟩

/-- Nobody but the first thread of the host is at work. -/
structure Unopened (w : World) : Prop where
  free : ∀ {host : Nat} {place : HostPlace}, w.hosts[host + 1]? = some place →
    ∃ last?, place = .free last?
  resting : ∀ {i : Nat} {hand : Hand}, w.scene.hands[i]? = some hand → hand.Resting

theorem OpenPlace.targets_eq_nil (place : OpenPlace) : place.errand.targets = [] := by
  cases place with
  | hiring place =>
      cases place with
      | creating | locking | pushing => rfl
  | closing e place =>
      cases place with
      | dismissing place =>
          cases place with
          | locking | taking | telling | awaiting => rfl
      | swapping | notifying | surveying => rfl

theorem Stride.resting_all (h : Stride thread w w') (ht : (w.errand thread).targets = [])
    (hr : ∀ {i : Nat} {hand : Hand}, w.scene.hands[i]? = some hand → hand.Resting)
    {i : Nat} {hand' : Hand} (hi : w'.scene.hands[i]? = some hand') : hand'.Resting := by
  cases h.touched hi with
  | same hi => exact hr hi
  | raised _ rest he | started _ rest he => simp [he, Errand.targets] at ht
  | stopped hi _ _ heq =>
      have hrest := hr hi
      rw [heq]
      exact ⟨hrest.running, by simpa using hrest.unmailed, hrest.idle⟩
  | hired _ _ _ heq => exact heq ▸ Crew.newHand_resting
  | own hi _ _ _ hown => exact hown.resting (hr hi)

theorem Stride.away_of_resting {i : Nat} (h : Stride (.worker i) w w')
    (hr : ∀ {hand : Hand}, w.scene.hands[i]? = some hand → hand.Resting) :
    w.errand (.worker i) = .away ∧ ∃ hand hand' c, w.scene.hands[i]? = some hand ∧
      Crew.Own i w.scene hand c hand' ∧ w'.scene = c.put i hand' := by
  cases h with
  | errand hcode =>
      obtain ⟨hand, once, s, activity, hhand, hplace⟩ := hcode
      have hidle := (hr hhand).idle
      rw [hplace] at hidle
      cases hidle
  | own hme hhand hown hscene haway =>
      cases hme
      exact ⟨haway, _, _, _, hhand, hown, hscene⟩

theorem Unopened.advance (hu : Unopened w) (ho : w.isOpening = true)
    (h : w.advance library pick thread = some w') : Unopened w' := by
  have hstride := World.advance_stride h
  have hhost : ∀ host, thread ≠ .host (host + 1) := by
    rintro host rfl
    obtain ⟨place, hplace, h⟩ := World.advance_host_iff.mp h
    obtain ⟨last?, rfl⟩ := hu.free hplace
    cases h
  have htargets : (w.errand thread).targets = [] := by
    cases thread with
    | worker i =>
        rw [(hstride.away_of_resting hu.resting).1]
        rfl
    | host host =>
        cases host with
        | succ host => exact absurd rfl (hhost host)
        | zero =>
            obtain ⟨host, place, hplace⟩ := World.isOpening_iff.mp ho
            cases host with
            | succ host =>
                obtain ⟨last?, hfree⟩ := hu.free hplace
                cases hfree
            | zero =>
                rw [World.errand_eq_view, World.view_host hplace]
                exact OpenPlace.targets_eq_nil place
  refine ⟨fun {host place} hplace => ?_, hstride.resting_all htargets hu.resting⟩
  rw [World.advance_hosts_of_ne h (hhost host)] at hplace
  exact hu.free hplace

/-- Only steps happen before the coordinator is started, besides things that nobody on the crew
notices. -/
theorem World.move?_of_opening (ho : w.isOpening = true) (h : w.move? library m = some w') :
    (∃ pick thread, w.advance library pick thread = some w') ∨ w'.crew = w.crew := by
  cases m with
  | step pick thread => exact .inl ⟨pick, thread, h⟩
  | begin host call => simp [World.move?, World.canBegin, ho] at h
  | setGlobal =>
      obtain ⟨-, rfl⟩ := World.move?_setGlobal_iff.mp h
      exact .inr rfl
  | addContext | openGate | openAllGates | setBudget =>
      cases h
      exact .inr rfl

variable {engine : Engine} {main : ContextId} {poolSize others : Nat} {moves : List Move}
  {pool : List Nat}

theorem Unopened.initial : Unopened (World.initial engine main poolSize others) := by
  constructor
  · intro host place hplace
    simp only [World.initial, List.getElem?_cons_succ, List.getElem?_replicate] at hplace
    split at hplace
    · cases hplace
      exact ⟨none, rfl⟩
    · cases hplace
  · intro i hand hi
    simp at hi

theorem Run.unopened (h : Run library (World.initial engine main poolSize others) moves w)
    (ho : w.isOpening = true) : Unopened w := by
  induction h with
  | start => exact .initial
  | @move moves v v' _ m hm ih =>
      have hv := World.isOpening_of_move? hm ho
      rcases World.move?_of_opening hv hm with ⟨pick, thread, hadv⟩ | hcrew
      · exact (ih hv).advance hv hadv
      · have hhosts : v'.hosts = v.hosts := congrArg (·.hosts) hcrew
        have hscene : v'.scene = v.scene := by rw [World.scene, World.scene, hcrew]
        refine ⟨fun {host place} hplace => ?_, fun {i hand} hi => ?_⟩
        · rw [hhosts] at hplace
          exact (ih hv).free hplace
        · rw [hscene] at hi
          exact (ih hv).resting hi

theorem Run.resting_outside (h : Run library (World.initial engine main poolSize others) moves w)
    (hkeeps : (World.initial engine main poolSize others).throughout library
      (World.keepsPool pool) moves = true)
    {i : Nat} {hand : Hand} (hi : w.scene.hands[i]? = some hand) (hout : i ∉ pool) :
    hand.Resting := by
  by_cases ho : w.isOpening = true
  · exact (h.unopened ho).resting hi
  induction h generalizing i hand with
  | start => exact Unopened.initial.resting hi
  | @move moves v v' hv m hm ih =>
      by_cases hopen : v.isOpening = true
      · -- The last step of starting the coordinator.
        rcases World.move?_of_opening hopen hm with ⟨pick, thread, hadv⟩ | hcrew
        · exact ((hv.unopened hopen).advance hopen hadv).resting hi
        · rw [World.scene, hcrew] at hi
          exact (hv.unopened hopen).resting hi
      · have hpool : v.pool = pool := by
          have hv := hv.of_throughout (List.prefix_append _ _) hkeeps
          simpa [World.keepsPool, hopen] using hv
        have ih {hand : Hand} (hi : v.scene.hands[i]? = some hand) : hand.Resting :=
          ih (World.throughout_left hkeeps) hi hout hopen
        rcases World.move?_stride hm with ⟨pick, thread, -, -, hstride⟩ | hstir
        · exact hv.disciplined.resting_stride hstride hi (by rw [← hpool] at hout; exact hout)
            fun hand hi => ih hi
        · rw [hstir.scene_eq] at hi
          exact ih hi

theorem Run.resting_of_not_mem (h : Run library (World.initial engine main poolSize others) moves w)
    (hkeeps : (World.initial engine main poolSize others).throughout library
      (World.keepsPool pool) moves = true)
    {i : Nat} {hand : Hand} (hi : w.scene.hands[i]? = some hand) (hout : i ∉ w.pool) :
    hand.Resting := by
  by_cases ho : w.isOpening = true
  · exact (h.unopened ho).resting hi
  · have hpool : w.pool = pool := by
      have hw := h.of_throughout (List.prefix_refl _) hkeeps
      simpa [World.keepsPool, ho] using hw
    exact h.resting_outside hkeeps hi (hpool ▸ hout)

theorem Run.isOpening_of {w₀ : World} (h : Run library w₀ moves w) (ho : w.isOpening = true) :
    w₀.isOpening = true := by
  induction h with
  | start => exact ho
  | move _ m hm ih => exact ih (World.isOpening_of_move? hm ho)

theorem Run.throughout_isOpening {w₀ : World} (h : Run library w₀ moves w)
    (hopen : w.isOpening = true) : w₀.throughout library World.isOpening moves = true := by
  induction h with
  | start => exact hopen
  | @move moves v v' h m hm ih =>
      have hv := World.isOpening_of_move? hm hopen
      apply h.throughout_append (ih hv)
      simp [World.throughout, hv, hm, hopen]

theorem Unopened.asking_eq_none (hu : Unopened w) (ho : w.isOpening = true) :
    w.asking? thread = none := by
  rw [World.asking?_eq_view]
  cases thread with
  | host host =>
      cases hhost : w.hosts[host]? with
      | none => simp [Crew.view, World.crew, hhost]
      | some place =>
          rw [World.view_host hhost]
          cases host with
          | succ host =>
              obtain ⟨last?, rfl⟩ := hu.free hhost
              rfl
          | zero =>
              obtain ⟨host, place', hplace⟩ := World.isOpening_iff.mp ho
              cases host with
              | succ host =>
                  obtain ⟨last?, hfree⟩ := hu.free hplace
                  cases hfree
              | zero =>
                  rw [hhost] at hplace
                  cases hplace
                  rfl
  | worker i =>
      cases hworker : w.workers[i]? with
      | none => simp [Crew.view, World.crew, hworker, WorkerPlace.asking?]
      | some worker =>
          rw [World.view_worker hworker]
          exact WorkerPlace.asking?_of_idle
            (hu.resting (World.scene_hands_getElem? hworker)).of_bare.idle

theorem Run.throughout_pool {w₀ : World} {before during : List Move} {me : ThreadId} {a : Asking}
    (h₀ : Run library (World.initial engine main poolSize others) before w₀)
    (hask : w₀.asking? me = some a)
    (hkeeps : (World.initial engine main poolSize others).throughout library
      (World.keepsPool pool) (before ++ during) = true) :
    w₀.throughout library (fun v => v.pool = pool) during = true := by
  refine World.throughout_mono (fun {before' v} hv hp => ?_) (h₀.throughout hkeeps)
  have hopen : v.isOpening = false := by
    cases ho : v.isOpening with
    | false => rfl
    | true =>
        have ho₀ := hv.isOpening_of ho
        rw [(h₀.unopened ho₀).asking_eq_none ho₀] at hask
        cases hask
  simpa [World.keepsPool, hopen] using hp

theorem World.move?_hosts_length (h : w.move? library m = some w') :
    w'.hosts.length = w.hosts.length := by
  cases m with
  | step pick thread =>
      cases thread with
      | host host =>
          obtain ⟨place, -, h⟩ := World.advance_host_iff.mp h
          obtain ⟨place', hhosts, -⟩ := hostStep_hosts h
          rw [hhosts, List.length_set]
      | worker i =>
          have hsame : w'.hosts = w.hosts := by
            apply List.ext_getElem?
            intro host
            have hadv : w.advance library pick (.worker i) = some w' := h
            apply World.advance_hosts_of_ne hadv
            intro hworker
            cases hworker
          rw [hsame]
  | begin host call =>
      obtain ⟨-, rfl⟩ := World.move?_begin_iff.mp h
      exact List.length_set
  | setGlobal =>
      obtain ⟨-, rfl⟩ := World.move?_setGlobal_iff.mp h
      rfl
  | addContext | openGate | openAllGates | setBudget =>
      cases h
      rfl

theorem Run.hosts_length (h : Run library (World.initial engine main poolSize others) moves w) :
    w.hosts.length = others + 1 := by
  induction h with
  | start => simp [World.initial]
  | move _ m hm ih => rw [World.move?_hosts_length hm, ih]

end ScriptPool