import ScriptPool.Proofs.Pool.Conservation
import ScriptPool.Proofs.Pool.Manning

namespace ScriptPool

/-- How far a task gets with changing the number of workers: beyond the check of its own thread only
if the coordinator is shut down meanwhile. -/
def ResizePlace.Early (down : Bool) : ResizePlace → Prop
  | .checking | .reading | .locking _ | .placing _ => True
  | .joining _ .checking => down = true
  | _ => False

/-- What the only thread of the host knows of the crew while it changes the number of workers. -/
def ResizePlace.Quieted (c : Crew) (me : ThreadId) : ResizePlace → Prop
  | .checking | .reading | .locking _ | .placing _ => True
  | .joining _ place => place.Quieted c me
  | .dismissing .. | .hiring .. | .storing _ | .failing _ | .surveying _ | .keeping ..
  | .driving _ .measuring | .drivingOn _ .measuring => c.Quiet ∧ c.queue = []
  | .driving _ (.starting _) | .drivingOn _ (.starting _) => False

/-- What holds between the steps of a coordinator with a single thread of the host. -/
structure World.Sole (w : World) : Prop where
  early : ∀ {i n : Nat} {place : ResizePlace}, w.asking? (.worker i) = some (.resize n place) →
    place.Early w.shutDown
  outside : w.shutDown = false → ∀ {i : Nat} {hand : Hand}, w.scene.hands[i]? = some hand →
    i ∉ w.pool → hand.Resting
  running : ∀ {n : Nat} {place : ResizePlace}, w.asking? (.host 0) = some (.resize n place) →
    place = .checking ∨ w.shutDown = false
  quieted : ∀ {n : Nat} {place : ResizePlace}, w.asking? (.host 0) = some (.resize n place) →
    place.Quieted w.scene (.host 0)
  manned : w.staff.Manned (w.duty (.host 0))

variable {library : Library} {pick : Nat} {me : ThreadId} {w v w' : World} {s s' : Staff}
  {d d' : Duty}

theorem Staff.Step.idle (h : Staff.Step me s .off s' .off) :
    s'.pool = s.pool ∧ s'.poolSize = s.poolSize ∧ s'.shutDown = s.shutDown := by
  cases h with
  | still | exit | replace => exact ⟨rfl, rfl, rfl⟩

theorem Staff.Step.shutDown_eq (h : Staff.Step me s d s' d') (hd : d ≠ .swapping) :
    s'.shutDown = s.shutDown := by
  cases h with
  | flag => exact absurd rfl hd
  | _ => rfl

theorem Staff.Step.shutDown_mono (h : Staff.Step me s d s' d') (hdown : s.shutDown = true) :
    s'.shutDown = true := by
  cases h with
  | flag => rfl
  | _ => exact hdown

theorem Staff.Step.mem_pool {i : Nat} (h : Staff.Step me s d s' d') (hi : i ∈ s.pool) :
    i ∈ s'.pool ∨ ∃ closing, d = .taking closing := by
  cases h with
  | take closing => exact .inr ⟨closing, rfl⟩
  | add => exact .inl (List.mem_append_left _ hi)
  | _ => exact .inl hi

theorem Request.begin_resize {source : ContextId} {r : Request} {n : Nat} {place : ResizePlace}
    (h : r.begin source = .resize n place) : place = .checking := by
  cases r with
  | resize =>
      cases h
      rfl
  | acquire | release =>
      simp only [Request.begin] at h
      split at h
      · cases h
      · cases h
  | parallel | join | joinAll => cases h

theorem World.advance_resize {n : Nat} {place : ResizePlace}
    (h : w.advance library pick me = some w') (ha : w'.asking? me = some (.resize n place)) :
    place = .checking ∨ ∃ place₀ v, w.asking? me = some (.resize n place₀) ∧
      resizeStep n me w place₀ = some (v, .going place) ∧ w'.scene = v.scene ∧
      w'.shutDown = v.shutDown := by
  cases hask : w.asking? me with
  | none =>
      left
      obtain ⟨r, source, hbegin⟩ := World.advance_fresh hask h ha
      exact Request.begin_resize hbegin.symm
  | some a =>
      right
      obtain ⟨v, stage, hs, hscene, hdown, hstage⟩ := World.advance_asking hask h
      rw [ha] at hstage
      cases stage with
      | «over» => cases hstage
      | going b =>
          cases hstage
          cases askingStep_goes hs with
          | resizes hstep => exact ⟨_, _, rfl, hstep, hscene, hdown⟩

theorem ResizePlace.Early.duty_eq {place : ResizePlace} {down : Bool} {n : Nat}
    (h : place.Early down) : place.duty n = .off := by
  cases place with
  | checking | reading | locking | placing | joining => rfl
  | _ => cases h

theorem ResizePlace.Early.mono {place : ResizePlace} {down down' : Bool} (h : place.Early down)
    (hdown : down = true → down' = true) : place.Early down' := by
  cases place with
  | joining size place =>
      cases place with
      | checking => exact hdown h
      | _ => cases h
  | checking | reading | locking | placing => trivial
  | _ => cases h

theorem ResizePlace.duty_ne_swapping (n : Nat) (place : ResizePlace) :
    place.duty n ≠ .swapping := by
  cases place with
  | dismissing size place =>
      cases place with
      | locking | taking | telling | awaiting => nofun
  | hiring size place =>
      cases place with
      | creating | locking | pushing => nofun
  | _ => nofun

theorem World.duty_of_asking {a : Asking} (ha : w.asking? me = some a) : w.duty me = a.duty := by
  cases me with
  | worker i =>
      rw [World.duty_worker, ha]
      rfl
  | host host =>
      rw [World.asking?_eq_view] at ha
      simp only [World.duty, Crew.view] at ha ⊢
      generalize w.crew.hosts[host]? = place? at ha ⊢
      rcases place? with _ | place
      · cases ha
      · cases place with
        | asking => cases ha; rfl
        | running activity =>
            obtain ⟨x, a?⟩ := activity
            cases ha
            rfl
        | free | opening | closing | measuring => cases ha

/-- Whether a duty is part of changing the number of workers. -/
def Duty.resizes : Duty → Bool
  | .taking closing | .telling closing _ | .awaiting closing _ _ => !closing
  | .hiring size? _ _ | .arriving size? _ _ _ => size?.isSome
  | .counting | .sizing _ => true
  | .off | .swapping => false

theorem World.asking?_of_resizes {host : Nat} (h : (w.duty (.host host)).resizes = true) :
    ∃ n place, w.asking? (.host host) = some (.resize n place) ∧
      place.duty n = w.duty (.host host) := by
  have hresize {a : Asking} (ha : a.duty.resizes = true) : ∃ n place, a = .resize n place := by
    cases a with
    | resize n place => exact ⟨n, place, rfl⟩
    | _ => cases ha
  have hclosing (place : ShutdownPlace) : place.duty.resizes = false := by
    cases place with
    | dismissing place =>
        cases place with
        | locking | taking | telling | awaiting => rfl
    | _ => rfl
  rw [World.asking?_eq_view]
  simp only [World.duty, Crew.view] at h ⊢
  generalize w.crew.hosts[host]? = place? at h ⊢
  rcases place? with _ | place
  · cases h
  · cases place with
    | asking a =>
        obtain ⟨n, place, rfl⟩ := hresize h
        exact ⟨n, place, rfl, rfl⟩
    | running activity =>
        obtain ⟨x, a?⟩ := activity
        cases a? with
        | none => cases h
        | some a =>
            obtain ⟨n, place, rfl⟩ := hresize h
            exact ⟨n, place, rfl, rfl⟩
    | opening place =>
        cases place with
        | hiring place =>
            cases place with
            | creating | locking | pushing => cases h
        | closing e place =>
            have hno : place.duty.resizes = true := h
            rw [hclosing] at hno
            cases hno
    | closing place =>
        have hno : place.duty.resizes = true := h
        rw [hclosing] at hno
        cases hno
    | free | measuring => cases h

theorem ResizePlace.targets_of_resizes {place : ResizePlace} {n : Nat}
    (h : (place.duty n).resizes = true) : place.errand.targets = [] := by
  cases place with
  | dismissing size place =>
      cases place with
      | locking | taking | telling | awaiting => rfl
  | hiring size place =>
      cases place with
      | creating | locking | pushing => rfl
  | storing | failing | surveying | keeping => rfl
  | _ => cases h

theorem ResizePlace.Quieted.quiet {place : ResizePlace} {n : Nat} {c : Crew}
    (hq : place.Quieted c me) (h : (place.duty n).resizes = true) : c.Quiet ∧ c.queue = [] := by
  cases place with
  | dismissing | hiring | storing | failing | surveying | keeping => exact hq
  | _ => cases h

theorem Crew.Step.queue_eq {c c' : Crew} {e e' : Errand} (h : Crew.Step me c e c' e')
    (hpush : e' ≠ .owing) : c'.queue = c.queue := by
  cases h with
  | push => exact absurd rfl hpush
  | _ => rfl

theorem World.quiet_advance {host n : Nat} {place : ResizePlace}
    (h : w.advance library pick (.host host) = some w')
    (ha : w'.asking? (.host host) = some (.resize n place))
    (htargets : (w.errand (.host host)).targets = [])
    (hquiet : w.scene.Quiet ∧ w.scene.queue = []) :
    w'.scene.Quiet ∧ w'.scene.queue = [] := by
  have hstride := World.advance_stride h
  refine ⟨hstride.resting_all htargets hquiet.1, ?_⟩
  cases hstride with
  | own hme => cases hme
  | errand _ hstep =>
      rw [hstep.queue_eq, hquiet.2]
      intro howing
      obtain ⟨source, hsubmit⟩ := World.asking?_of_owing howing
      rw [ha] at hsubmit
      cases hsubmit

theorem ResizePlace.Quieted.stride {place : ResizePlace} {n i : Nat}
    (hq : place.Quieted w.scene (.host 0)) (h : Stride (.worker i) w w')
    (hd : Disciplined w.scene w.errand) (ha : w.asking? (.host 0) = some (.resize n place)) :
    place.Quieted w'.scene (.host 0) := by
  have hstays (hquiet : w.scene.Quiet ∧ w.scene.queue = []) :
      w'.scene.Quiet ∧ w'.scene.queue = [] := by
    obtain ⟨hquiet, hempty⟩ := hquiet
    obtain ⟨hquiet', hqueue⟩ := hquiet.stride h
    exact ⟨hquiet', hqueue.trans hempty⟩
  cases place with
  | checking | reading | locking | placing => trivial
  | joining size place =>
      have herrand : w.errand (.host 0) = place.errand := World.errand_of_asking ha
      exact JoinAllPlace.Quieted.stride hq h hd herrand nofun
  | dismissing | hiring | storing | failing | surveying | keeping => exact hstays hq
  | driving size place | drivingOn e place =>
      cases place with
      | measuring => exact hstays hq
      | starting place => cases hq

theorem resizeStep_quieted {n : Nat} {place place' : ResizePlace}
    (hd : Disciplined w.scene w.errand)
    (hout : ∀ {i : Nat} {hand : Hand}, w.scene.hands[i]? = some hand → i ∉ w.pool → hand.Resting)
    (hq : place.Quieted w.scene (.host 0))
    (hstays : (w.errand (.host 0)).targets = [] → w.scene.Quiet ∧ w.scene.queue = [] →
      v.scene.Quiet ∧ v.scene.queue = [])
    (ha : w.asking? (.host 0) = some (.resize n place))
    (h : resizeStep n (.host 0) w place = some (v, .going place')) :
    place'.Quieted v.scene (.host 0) := by
  have herrand : w.errand (.host 0) = place.errand := World.errand_of_asking ha
  cases resizeStep_goes h with
  | checked | read | locked | placed => trivial
  | join size hs => exact joinAllStep_quieted hd hout nofun hq hs
  | joined size hs =>
      cases joinAllStep_replies hs with
      | done => exact hq
  | @dismiss size place | @dismissed size place =>
      refine hstays ?_ hq
      rw [herrand]
      cases place with
      | locking | taking | telling | awaiting => rfl
  | @hire size place | @hired size place | @lacking size place =>
      refine hstays ?_ hq
      rw [herrand]
      cases place with
      | creating | locking | pushing => rfl
  | stored | failed | surveyed | kept => exact hstays (by rw [herrand]; rfl) hq
  | @drive size place place' v hs | @driveOn e place place' v hs =>
      cases place with
      | starting place => cases hq
      | measuring =>
          have hempty : w.queue.isEmpty = true := List.isEmpty_iff.mpr hq.2
          simp only [driveStep, hempty, if_true, World.onQueue_eq_some_iff] at hs
          cases hs.2

theorem World.duty_worker_eq_off {i : Nat}
    (hearly : ∀ {n : Nat} {place : ResizePlace}, w.asking? (.worker i) = some (.resize n place) →
      place.Early w.shutDown) : w.duty (.worker i) = .off := by
  rw [World.duty_worker]
  cases hask : w.asking? (.worker i) with
  | none => rfl
  | some a =>
      cases a with
      | resize n place => exact (hearly hask).duty_eq
      | _ => rfl

namespace World.Sole

theorem duty_worker (hs : w.Sole) (i : Nat) : w.duty (.worker i) = .off :=
  World.duty_worker_eq_off hs.early

section Advance

variable (hs : w.Sole) (h : w.advance library pick me = some w')
include hs h

theorem early_advance {i n : Nat} {place : ResizePlace}
    (ha : w'.asking? (.worker i) = some (.resize n place)) : place.Early w'.shutDown := by
  have hmono : w.shutDown = true → w'.shutDown = true := (World.advance_staff h).shutDown_mono
  by_cases hme : me = .worker i
  · subst hme
    rcases World.advance_resize h ha with rfl | ⟨place₀, v, hask, hstep, -, -⟩
    · trivial
    · have hearly := hs.early hask
      cases resizeStep_goes hstep with
      | checked | read | locked => trivial
      | placed size hout =>
          -- A worker outside the pool that executes a task has been dismissed.
          refine hmono ?_
          obtain ⟨hand, once, s, activity, hhand, hplace⟩ := (World.inCode_of_asking hask h).1
          by_contra hrunning
          have hidle := (hs.outside (by simpa using hrunning) hhand
            (by simpa [isPoolThread] using hout)).idle
          rw [hplace] at hidle
          cases hidle
      | @join size place place' v hjoin =>
          cases place with
          | checking =>
              cases joinAllStep_goes hjoin with
              | checked hrunning => cases hrunning.symm.trans hearly
          | _ => cases hearly
      | @joined size place v m hjoin =>
          cases joinAllStep_ok hjoin
          cases hearly
      | _ => cases hearly
  · rw [(World.advance_stride h).asking?_of_ne (Ne.symm hme)] at ha
    exact (hs.early ha).mono hmono

theorem outside_advance (hd : Disciplined w.scene w.errand) (hthread : me = .host 0 ∨ ∃ i, me = .worker i)
    (hrunning : w'.shutDown = false) {i : Nat} {hand : Hand} (hhand : w'.scene.hands[i]? = some hand)
    (hout : i ∉ w'.pool) : hand.Resting := by
  have hstaff := World.advance_staff h
  have hstride := World.advance_stride h
  have hbefore : w.shutDown = false := by
    by_contra hdown
    have hdown' : w'.shutDown = true := hstaff.shutDown_mono (Bool.eq_true_of_not_eq_false hdown)
    rw [hrunning] at hdown'
    cases hdown'
  by_cases hin : i ∈ w.pool
  · obtain hin' | ⟨closing, htaking⟩ := hstaff.mem_pool hin
    · exact absurd hin' hout
    · rcases hthread with rfl | ⟨j, rfl⟩
      · have hclosing : w.shutDown = closing := by
          have hrecorded := hs.manned.recorded
          rw [htaking] at hrecorded
          exact hrecorded
        rw [hbefore] at hclosing
        subst hclosing
        have hresizes : (w.duty (.host 0)).resizes = true := by
          rw [htaking]
          rfl
        obtain ⟨n, place, hask, hduty⟩ := World.asking?_of_resizes hresizes
        rw [← hduty] at hresizes
        refine hstride.resting_all ?_ ((hs.quieted hask).quiet hresizes).1 hhand
        rw [World.errand_of_asking hask]
        exact ResizePlace.targets_of_resizes hresizes
      · rw [hs.duty_worker j] at htaking
        cases htaking
  · exact hd.resting_stride hstride hhand hin fun hand hhand => hs.outside hbefore hhand hin

theorem running_advance (hthread : me = .host 0 ∨ ∃ i, me = .worker i) {n : Nat}
    {place : ResizePlace} (ha : w'.asking? (.host 0) = some (.resize n place)) :
    place = .checking ∨ w'.shutDown = false := by
  have hstaff := World.advance_staff h
  rcases hthread with rfl | ⟨i, rfl⟩
  · rcases World.advance_resize h ha with rfl | ⟨place₀, v, hask, hstep, -, hdown⟩
    · exact .inl rfl
    · right
      have hrunning : w.shutDown = false := by
        rcases hs.running hask with rfl | hrunning
        · cases resizeStep_goes hstep with
          | checked hrunning => exact hrunning
        · exact hrunning
      have hduty : w.duty (.host 0) ≠ .swapping := by
        rw [World.duty_of_asking hask]
        exact place₀.duty_ne_swapping n
      exact (hstaff.shutDown_eq hduty).trans hrunning
  · have hother : ThreadId.host 0 ≠ .worker i := nofun
    rw [(World.advance_stride h).asking?_of_ne hother] at ha
    refine (hs.running ha).imp id fun hrunning => ?_
    have hduty : w.duty (.worker i) ≠ .swapping := by
      rw [hs.duty_worker]
      nofun
    exact (hstaff.shutDown_eq hduty).trans hrunning

theorem quieted_advance (hd : Disciplined w.scene w.errand)
    (hthread : me = .host 0 ∨ ∃ i, me = .worker i) {n : Nat} {place : ResizePlace}
    (ha : w'.asking? (.host 0) = some (.resize n place)) : place.Quieted w'.scene (.host 0) := by
  rcases hthread with rfl | ⟨i, rfl⟩
  · rcases World.advance_resize h ha with rfl | ⟨place₀, v, hask, hstep, hscene, -⟩
    · trivial
    · have hq := hs.quieted hask
      rcases hs.running hask with rfl | hrunning
      · cases resizeStep_goes hstep
        trivial
      · rw [hscene]
        refine resizeStep_quieted hd (hs.outside hrunning) hq ?_ hask hstep
        intro htargets hquiet
        rw [← hscene]
        exact World.quiet_advance h ha htargets hquiet
  · have hother : ThreadId.host 0 ≠ .worker i := nofun
    have hask := ha
    rw [(World.advance_stride h).asking?_of_ne hother] at hask
    exact (hs.quieted hask).stride (World.advance_stride h) hd hask

theorem manned_advance (hthread : me = .host 0 ∨ ∃ i, me = .worker i) :
    w'.staff.Manned (w'.duty (.host 0)) := by
  have hstaff := World.advance_staff h
  rcases hthread with rfl | ⟨i, rfl⟩
  · refine hs.manned.step hstaff nofun ?_
    intro htaking _
    obtain ⟨n, place, hask, hduty⟩ := World.asking?_of_resizes (by rw [htaking]; rfl)
    rcases hs.running_advance h (.inl rfl) hask with rfl | hrunning
    · rw [htaking] at hduty
      cases hduty
    · by_contra hdown
      have hdown' : w'.shutDown = true :=
        hstaff.shutDown_mono (Bool.eq_true_of_not_eq_false hdown)
      rw [hrunning] at hdown'
      cases hdown'
  · have hother : ThreadId.host 0 ≠ .worker i := nofun
    rw [(World.advance_stride h).duty_of_ne hother]
    rw [hs.duty_worker, World.duty_worker_eq_off (hs.early_advance h)] at hstaff
    exact hs.manned.step_worker hstaff

theorem advance (hd : Disciplined w.scene w.errand) (hlength : w.hosts.length = 1) : w'.Sole := by
  have hthread : me = .host 0 ∨ ∃ i, me = .worker i := by
    by_cases hme : me = .host 0
    · exact .inl hme
    · exact .inr (World.worker_of_advance hlength hme h)
  exact {
    early := hs.early_advance h
    outside := fun hrunning => hs.outside_advance h hd hthread hrunning
    running := hs.running_advance h hthread
    quieted := hs.quieted_advance h hd hthread
    manned := hs.manned_advance h hthread }

end Advance

theorem stir (hs : w.Sole) (h : Stir w w') (hstaff : Staff.Stir w w') : w'.Sole := by
  obtain ⟨⟨made, -, heq⟩, hduty⟩ := hstaff
  have hpool : w'.pool = w.pool := congrArg Staff.pool heq
  have hdown : w'.shutDown = w.shutDown := congrArg Staff.shutDown heq
  have hasked {thread : ThreadId} {n : Nat} {place : ResizePlace}
      (ha : w'.asking? thread = some (.resize n place)) :
      place = .checking ∨ w.asking? thread = some (.resize n place) := by
    rcases h.asking thread with hsame | ⟨-, r, source, hbegin⟩
    · exact .inr (hsame ▸ ha)
    · rw [ha, Option.some.injEq] at hbegin
      exact .inl (Request.begin_resize hbegin.symm)
  constructor
  case early =>
    intro i n place ha
    rcases hasked ha with rfl | ha
    · trivial
    · exact (hs.early ha).mono fun hdown' => hdown.trans hdown'
  case outside =>
    intro hrunning i hand hhand hout
    rw [h.scene_eq] at hhand
    rw [hpool] at hout
    exact hs.outside (hdown.symm.trans hrunning) hhand hout
  case running =>
    intro n place ha
    rcases hasked ha with rfl | ha
    · exact .inl rfl
    · exact (hs.running ha).imp id hdown.trans
  case quieted =>
    intro n place ha
    rcases hasked ha with rfl | ha
    · trivial
    · rw [h.scene_eq]
      exact hs.quieted ha
  case manned =>
    have hmanned : w'.staff.Manned (w.duty (.host 0)) := by
      rw [heq]
      obtain ⟨hcomplete, hrecorded, hclosed⟩ := hs.manned
      exact ⟨hcomplete, hrecorded.of_same rfl rfl rfl rfl rfl, hclosed⟩
    rcases hduty (.host 0) with hsame | ⟨hoff, hswapping⟩
    · rw [hsame]
      exact hmanned
    · rw [hoff] at hmanned
      rw [hswapping]
      refine ⟨hmanned.complete, trivial, fun hdown => ?_⟩
      rcases hmanned.closed hdown with hempty | htaking
      · exact .inl hempty
      · cases htaking

end World.Sole

theorem World.Sole.initial (engine : Engine) (main : ContextId) (poolSize : Nat) :
    (World.initial engine main poolSize 0).Sole := by
  have hasking (thread : ThreadId) : (World.initial engine main poolSize 0).asking? thread = none := by
    rw [World.asking?_eq_view]
    cases thread with
    | worker i => rfl
    | host host =>
        cases host with
        | zero | succ => rfl
  constructor
  case early =>
    intro i n place ha
    rw [hasking] at ha
    cases ha
  case outside =>
    intro _ i hand hhand
    cases hhand
  case running =>
    intro n place ha
    rw [hasking] at ha
    cases ha
  case quieted =>
    intro n place ha
    rw [hasking] at ha
    cases ha
  case manned =>
    constructor
    · constructor
      case held =>
        intro i post hpost
        cases hpost
      case nodup => exact List.nodup_nil
      case employed =>
        intro i hi
        cases hi
      case leaving =>
        intro i post hpost
        cases hpost
      case numbered => rfl
    · exact ⟨rfl, rfl, Nat.zero_le _, rfl⟩
    · nofun

theorem Run.sole {engine : Engine} {main : ContextId} {poolSize : Nat} {moves : List Move}
    (h : Run library (World.initial engine main poolSize 0) moves w) : w.Sole := by
  induction h with
  | start => exact .initial engine main poolSize
  | move h m hm ih =>
      rcases World.advance_or_stir hm with ⟨pick, me, hadv⟩ | ⟨hstir, hstaff⟩
      · exact ih.advance hadv h.disciplined h.hosts_length
      · exact ih.stir hstir hstaff

end ScriptPool
