import ScriptPool.Proofs.Pool.SoleHost

namespace ScriptPool

/-- The error names the first of `n` workers that is not in the pool. -/
def PoolError.Names (pool : List Nat) (n : Nat) (e : PoolError) : Prop :=
  pool.length < n ∧ ∃ message, e = .workerStart pool.length message

/-- What a thread that changes the number of workers to `n` knows of the pool. -/
def ResizePlace.Told (n : Nat) (pool : List Nat) : ResizePlace → Prop
  | .driving .. => pool.length = n
  | .failing e | .surveying e | .drivingOn e _ => e.Names pool n
  | .keeping e started => e.Names pool n ∧ started = pool.length
  | _ => True

/-- What the thread of the host was told, or is about to be told. -/
def HostPlace.Told (pool : List Nat) (down : Bool) : HostPlace → Prop
  | .asking (.refused e) => ∀ id message, e ≠ .workerStart id message
  | .opening (.closing _ place) | .closing place => place = .swapping ∨ down = true
  | .free (some (.opened (.error _))) | .free (some .closed) => down = true
  | .free (some (.replied (.error (.workerStart id _)))) => pool.length = id
  | _ => True

variable {library : Library} {pick n : Nat} {me : ThreadId} {w v w' : World}

theorem resizeStep_told {place place' : ResizePlace} (hr : (place.duty n).Recorded w.staff)
    (ht : place.Told n w.pool) (h : resizeStep n me w place = some (v, .going place')) :
    place'.Told n v.pool := by
  have hpool {u : World} (hsame : u.staff = w.staff) : u.pool = w.pool :=
    congrArg Staff.pool hsame
  cases resizeStep_goes h with
  | checked | read | locked | placed | join | joined | dismiss | dismissed | hire | hired => trivial
  | lacking size hs =>
      obtain ⟨hsame, id, count, message, rfl, hid, rfl⟩ := hireStep_staff (some n) hs
      obtain ⟨-, hlength, -, hcount⟩ := hr
      have hlength : v.pool.length = id := (congrArg List.length (hpool hsame)).trans hlength
      have hcount : n = count := hcount
      exact ⟨by rw [hlength, hcount]; exact hid, message, by rw [hlength]⟩
  | stored => exact hr.2
  | failed => exact ht
  | surveyed => exact ⟨ht, rfl⟩
  | kept => exact ht.1
  | drive _ hs | driveOn _ hs =>
      rw [ResizePlace.Told, hpool (driveStep_oversees hs).staff]
      exact ht

theorem World.Sole.pool_eq_of_worker (hs : w.Sole) (hs' : w'.Sole) {i : Nat}
    (h : w.advance library pick (.worker i) = some w') :
    w'.pool = w.pool ∧ w'.poolSize = w.poolSize ∧ w'.shutDown = w.shutDown := by
  have hstaff := World.advance_staff h
  rw [hs.duty_worker, hs'.duty_worker] at hstaff
  exact hstaff.idle

theorem Run.resize_told {engine : Engine} {main : ContextId} {poolSize : Nat} {moves : List Move}
    {place : ResizePlace} (h : Run library (World.initial engine main poolSize 0) moves w)
    (ha : w.asking? (.host 0) = some (.resize n place)) : place.Told n w.pool := by
  induction h generalizing place with
  | start => cases ha
  | @move moves u w h m hm ih =>
      rcases World.move?_stride hm with ⟨pick, me, rfl, hadv, hstride⟩ | hstir
      · have hsole := h.sole
        have hsole' := (h.move _ hm).sole
        by_cases hme : me = .host 0
        · subst hme
          rcases World.advance_resize hadv ha with rfl | ⟨place₀, v, hask, hstep, hscene, -⟩
          · trivial
          · have hrecorded := hsole.manned.recorded
            rw [World.duty_of_asking hask] at hrecorded
            have hpool : w.pool = v.pool := congrArg Crew.pool hscene
            rw [hpool]
            exact resizeStep_told hrecorded (ih hask) hstep
        · obtain ⟨i, rfl⟩ := World.worker_of_advance h.hosts_length hme hadv
          rw [hstride.asking?_of_ne (Ne.symm hme)] at ha
          rw [(hsole.pool_eq_of_worker hsole' hadv).1]
          exact ih ha
      · rcases hstir.asking (.host 0) with hsame | ⟨-, r, source, hbegin⟩
        · have hpool : w.pool = u.pool := congrArg Crew.pool hstir.scene_eq
          rw [hpool]
          exact ih (hsame ▸ ha)
        · rw [ha, Option.some.injEq] at hbegin
          rw [Request.begin_resize hbegin.symm]
          trivial

theorem shutdownStep_down {place : ShutdownPlace} {stage : Stage ShutdownPlace Unit}
    (hplace : place = .swapping ∨ w.shutDown = true)
    (h : shutdownStep me w place = some (v, stage)) : v.shutDown = true := by
  have hstaff := shutdownStep_staff h
  rcases hplace with rfl | hdown
  · simp only [shutdownStep] at h
    split at h
    · cases h
      next hdown => exact hdown
    · cases h
      rfl
  · exact hstaff.shutDown_mono hdown

/-- An error that only says that requests are no longer taken, or what is wrong with a request. -/
def PoolError.isRefusal : PoolError → Bool
  | .workerStart .. => false
  | _ => true

theorem submitStep_refusal {source : ContextId} {place : SubmitPlace} {e : PoolError}
    (h : submitStep source me w place = some (v, .over (.error e))) : e.isRefusal = true := by
  cases submitStep_replies h with
  | refused => rfl
  | misread _ hparse =>
      simp only [Call.parse] at hparse
      split at hparse
      · cases hparse
      · cases hparse
        rfl

theorem joinStep_refusal {function : String} {place : JoinPlace} {e : PoolError}
    (h : joinStep function me w place = some (v, .over (.error e))) : e.isRefusal = true := by
  cases joinStep_replies h with
  | refused | stopped => rfl

theorem joinAllStep_error {place : JoinAllPlace} {e : PoolError}
    (h : joinAllStep me w place = some (v, .over (.error e))) :
    e = .shutDown ∧ v = w ∧ w.shutDown = true := by
  cases joinAllStep_replies h with
  | refused hdown | stopped _ hdown => exact ⟨rfl, rfl, hdown⟩

theorem resizeStep_workerStart {place : ResizePlace} {id : Nat} {message : String}
    (h : resizeStep n me w place = some (v, .over (.error (.workerStart id message)))) :
    ∃ drive, place = .drivingOn (.workerStart id message) drive ∧ v.staff = w.staff := by
  cases resizeStep_replies h with
  | broken size hs => cases (joinAllStep_error hs).1
  | incomplete _ hs => exact ⟨_, rfl, (driveStep_oversees hs).staff⟩

theorem askingStep_workerStart {a : Asking} {id : Nat} {message : String}
    (hrefused : ∀ e, a = .refused e → e ≠ .workerStart id message)
    (h : askingStep pick me w a = some (v, .over (.error (.workerStart id message)))) :
    ∃ n drive, a = .resize n (.drivingOn (.workerStart id message) drive) ∧ v.staff = w.staff := by
  cases askingStep_goes h with
  | submitted hs => cases submitStep_refusal hs
  | joined hs => cases joinStep_refusal hs
  | joinedAll hs => cases (joinAllStep_error hs).1
  | resized hs =>
      obtain ⟨drive, rfl, hstaff⟩ := resizeStep_workerStart hs
      exact ⟨_, drive, rfl, hstaff⟩
  | refused => exact absurd rfl (hrefused _ rfl)

theorem askingStep_going {a : Asking} {e : PoolError} :
    askingStep pick me w a ≠ some (v, .going (.refused e)) :=
  fun h => nomatch askingStep_goes h

theorem openStep_told {place : OpenPlace} {stage : Stage OpenPlace (Except PoolError Unit)}
    (ht : (HostPlace.opening place).Told w.pool w.shutDown)
    (h : openStep me w place = some (v, stage)) :
    (match stage with
      | .going place' => HostPlace.opening place'
      | .over result => .free (some (.opened result))).Told v.pool v.shutDown := by
  cases place with
  | hiring place =>
      simp only [openStep, Option.map_eq_some_iff] at h
      obtain ⟨⟨t, stage'⟩, -, heq⟩ := h
      rcases stage' with place' | (e | m)
      · cases heq
        trivial
      · cases heq
        exact .inl rfl
      · cases heq
        trivial
  | closing e place =>
      simp only [openStep, Option.map_eq_some_iff] at h
      obtain ⟨⟨t, stage'⟩, hs, heq⟩ := h
      have hdown := shutdownStep_down ht hs
      cases stage' with
      | going place' =>
          cases heq
          exact .inr hdown
      | «over» =>
          cases heq
          exact hdown

theorem HostPlace.Goes.told {host : Nat} {place place' : HostPlace} {u : World}
    (h : place.Goes library pick host w u place') (ht : place.Told w.pool w.shutDown)
    (hresize : ∀ n p, place = .asking (.resize n p) → p.Told n w.pool) :
    place'.Told u.pool u.shutDown := by
  cases h with
  | opens hs | opened hs => exact openStep_told ht hs
  | closes hs => exact .inr (shutdownStep_down ht hs)
  | closed hs => exact shutdownStep_down ht hs
  | measures | measured | runs | ended => trivial
  | @asks a a' _ hs =>
      cases a' with
      | refused e => exact absurd hs askingStep_going
      | _ => trivial
  | @replied a reply _ hs =>
      rcases reply with e | m
      · cases e with
        | workerStart id message =>
            have hrefused : ∀ e, a = .refused e → e ≠ .workerStart id message := by
              rintro e rfl
              exact ht id message
            obtain ⟨n, drive, rfl, hstaff⟩ := askingStep_workerStart hrefused hs
            obtain ⟨-, message', heq⟩ := hresize n _ rfl
            have hpool : u.pool = w.pool := congrArg Staff.pool hstaff
            cases heq
            exact congrArg List.length hpool
        | _ => trivial
      · trivial

theorem hostStep_told {host : Nat} {place : HostPlace} (hplace : w.hosts[host]? = some place)
    (ht : place.Told w.pool w.shutDown)
    (hresize : ∀ n p, place = .asking (.resize n p) → p.Told n w.pool)
    (h : hostStep library pick host place w = some w') :
    ∃ place', w'.hosts[host]? = some place' ∧ place'.Told w'.pool w'.shutDown := by
  have hlt := (List.getElem?_eq_some_iff.mp hplace).1
  obtain ⟨u, place', rfl, hgoes⟩ := hostStep_goes h
  have hhosts : u.hosts = w.hosts := hgoes.crew.hosts_eq
  refine ⟨place', ?_, ?_⟩
  · rw [World.placeHost, List.getElem?_set_self (hhosts ▸ hlt)]
  · exact hgoes.told ht hresize

theorem HostCall.place_told (call : HostCall) (pool : List Nat) (down : Bool) :
    (call.place library).Told pool down := by
  cases call with
  | ask source r =>
      cases r with
      | acquire id | release id =>
          simp only [HostCall.place, Request.begin]
          split
          · trivial
          · next e hname =>
              simp only [sectionName] at hname
              split at hname
              · cases hname
              · cases hname
              · cases hname
                rintro id message ⟨⟩
      | parallel | join | joinAll | resize => trivial
  | shutDown => exact .inl rfl
  | measure | invoke | load => trivial

theorem Run.host_told {engine : Engine} {main : ContextId} {poolSize : Nat} {moves : List Move}
    {place : HostPlace} (h : Run library (World.initial engine main poolSize 0) moves w)
    (hplace : w.hosts[0]? = some place) : place.Told w.pool w.shutDown := by
  induction h generalizing place with
  | start =>
      cases hplace
      trivial
  | @move moves u w h m hm ih =>
      cases m with
      | step pick me =>
          have hadv : u.advance library pick me = some w := hm
          by_cases hme : me = .host 0
          · subst hme
            obtain ⟨before, hbefore, hstep⟩ := World.advance_host_iff.mp hadv
            have hresize (n : Nat) (p : ResizePlace) (heq : before = .asking (.resize n p)) :
                p.Told n u.pool := by
              apply h.resize_told
              rw [World.asking?_eq_view, World.view_host hbefore, heq]
              rfl
            obtain ⟨place', hplace', htold⟩ := hostStep_told hbefore (ih hbefore) hresize hstep
            rw [hplace] at hplace'
            cases hplace'
            exact htold
          · rw [World.advance_hosts_of_ne hadv hme] at hplace
            obtain ⟨i, rfl⟩ := World.worker_of_advance h.hosts_length hme hadv
            have hsame := h.sole.pool_eq_of_worker (h.move _ hm).sole hadv
            rw [hsame.1, hsame.2.2]
            exact ih hplace
      | begin host call =>
          obtain ⟨hbegin, rfl⟩ := World.move?_begin_iff.mp hm
          obtain ⟨last?, hfree⟩ := World.free_of_canBegin hbegin
          have hlt := (List.getElem?_eq_some_iff.mp hfree).1
          have hzero : host = 0 := by
            have := h.hosts_length
            omega
          subst hzero
          have hset : (u.hosts.set 0 (call.place library))[0]? = some place := hplace
          rw [List.getElem?_set_self hlt] at hset
          cases hset
          exact call.place_told _ _
      | setGlobal context name value =>
          obtain ⟨-, rfl⟩ := World.move?_setGlobal_iff.mp hm
          exact ih hplace
      | addContext | openGate | openAllGates | setBudget =>
          cases hm
          exact ih hplace

end ScriptPool
