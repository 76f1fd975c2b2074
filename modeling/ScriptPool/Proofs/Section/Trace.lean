import ScriptPool.Proofs.Pool.MainLock

namespace ScriptPool

namespace Registry

variable {r : Registry} {name other : String} {f : SectionLock → SectionLock}

/-- The names of the sections, oldest first. -/
def names (r : Registry) : List String :=
  r.entries.map (·.1)

theorem find?_isSome_iff : (r.find? name).isSome = true ↔ name ∈ r.names := by
  obtain ⟨entries⟩ := r
  simp only [find?, names]
  induction entries with
  | nil => simp
  | cons entry entries ih =>
      obtain ⟨key, lock⟩ := entry
      by_cases hkey : name = key
      · simp [hkey]
      · rw [List.lookup_cons, beq_false_of_ne hkey]
        simp [ih, hkey]

@[simp] theorem names_modify : (r.modify name f).names = r.names := by
  simp only [names, modify, List.map_map]
  refine List.map_congr_left fun entry _ => ?_
  rw [Function.comp_apply]
  split
  · rfl
  · rfl

@[simp] theorem names_create : (r.create name).names = r.names ++ [name] := by
  simp [names, create]

theorem find?_modify : (r.modify name f).find? other =
    if other = name then (r.find? other).map f else r.find? other := by
  obtain ⟨entries⟩ := r
  simp only [find?, modify]
  induction entries with
  | nil => simp
  | cons entry entries ih =>
      obtain ⟨key, lock⟩ := entry
      rw [List.map_cons, List.lookup_cons]
      by_cases hother : other = key
      · subst hother
        by_cases hname : other = name
        · simp [hname]
        · simp [hname]
      · have hkey : (if key = name then (key, f lock) else (key, lock)).1 = key := by
          split
          · rfl
          · rfl
        rw [List.lookup_cons, hkey, beq_false_of_ne hother]
        exact ih

theorem isHeld_modify (hf : ∀ lock, (f lock).held = lock.held) :
    (r.modify name f).isHeld other = r.isHeld other := by
  rw [isHeld, isHeld, find?_modify]
  split
  · rw [Option.any_map]
    exact congrArg (Option.any · _) (funext hf)
  · rfl

theorem isHeld_setHeld (held : Bool) (hname : name ∈ r.names) :
    (r.modify name fun lock => { lock with held := held }).isHeld other =
      if other = name then held else r.isHeld other := by
  rw [isHeld, find?_modify]
  split
  · next heq =>
      subst heq
      obtain ⟨lock, hlock⟩ := Option.isSome_iff_exists.mp (find?_isSome_iff.mpr hname)
      rw [hlock]
      rfl
  · rfl

theorem find?_create : (r.create name).find? other =
    (r.find? other).or (if other = name then some .fresh else none) := by
  rw [find?, create, List.lookup_append, List.lookup_cons]
  by_cases hother : other = name
  · simp [hother, find?]
  · simp [hother, beq_false_of_ne hother, find?]

theorem isHeld_create : (r.create name).isHeld other = r.isHeld other := by
  rw [isHeld, find?_create, isHeld]
  cases r.find? other with
  | none =>
      split
      · rfl
      · rfl
  | some lock => rfl

end Registry

/-- What threads do to sections. -/
inductive SectionDeed where
  /-- An acquire has found or created the section. -/
  | entered (name : String)
  /-- An acquire has found the section free, takes it and returns. -/
  | taken (name : String)
  /-- A release frees the section; it knows whether the section was taken. -/
  | freed (name : String) (wasHeld : Bool)
  deriving DecidableEq

/-- The section that a request has found in the registry. -/
def Asking.section? : Asking → Option String
  | .acquire name .trying | .acquire name .sleeping => some name
  | .release name .freeing | .release name (.waking _) => some name
  | _ => none

/-- What the next step of a request does to a section. -/
def Asking.sectionDeed? (r : Registry) : Asking → Option SectionDeed
  | .acquire name .entering => some (.entered name)
  | .acquire name .trying => if r.isHeld name then none else some (.taken name)
  | .release name .freeing => some (.freed name (r.isHeld name))
  | _ => none

/-- The sections after the next step of a request. -/
def Asking.sections (pick : Nat) (me : ThreadId) (r : Registry) : Asking → Registry
  | .acquire name place => (acquireStep name me r place).1
  | .release name place => (releaseStep name pick r place).1
  | _ => r

/-- What the next step of a thread does to a section. -/
def World.sectionDeed? (w : World) (thread : ThreadId) : Option SectionDeed :=
  (w.asking? thread).bind (·.sectionDeed? w.sections)

/-- What some moves do to sections, in order. -/
def World.sectionDeeds (library : Library) (w : World) (moves : List Move) : List SectionDeed :=
  w.notes library World.sectionDeed? moves

section Step

variable {pick : Nat} {me : ThreadId} {r : Registry} {a : Asking} {name : String}

theorem Asking.names_sections : (a.sections pick me r).names = r.names ∨
    ∃ name, a.sectionDeed? r = some (.entered name) ∧ name ∉ r.names ∧
      (a.sections pick me r).names = r.names ++ [name] := by
  cases a with
  | acquire name place =>
      cases place with
      | entering =>
          simp only [Asking.sections, acquireStep]
          split
          · exact .inl rfl
          · next hnew =>
              refine .inr ⟨name, rfl, ?_, Registry.names_create⟩
              rwa [Registry.find?_isSome_iff] at hnew
      | trying =>
          simp only [Asking.sections, acquireStep]
          split
          · exact .inl Registry.names_modify
          · exact .inl Registry.names_modify
      | sleeping => exact .inl Registry.names_modify
  | release name place =>
      cases place with
      | looking =>
          simp only [Asking.sections, releaseStep]
          split
          · exact .inl rfl
          · exact .inl rfl
      | freeing | waking => exact .inl Registry.names_modify
  | submit | join | joinAll | resize | refused => exact .inl rfl

theorem Asking.mem_names_of_entered (h : a.sectionDeed? r = some (.entered name)) :
    name ∈ (a.sections pick me r).names := by
  cases a with
  | acquire other place =>
      cases place with
      | entering =>
          cases h
          simp only [Asking.sections, acquireStep]
          split
          · next hfound => exact Registry.find?_isSome_iff.mp hfound
          · simp
      | trying =>
          simp only [Asking.sectionDeed?] at h
          split at h
          · cases h
          · cases h
      | sleeping => cases h
  | release other place =>
      cases place with
      | looking | freeing | waking => cases h
  | submit | join | joinAll | resize | refused => cases h

/-- Whether a section is taken after a deed. -/
def SectionDeed.leaves (name : String) (held : Bool) : SectionDeed → Bool
  | .entered _ => held
  | .taken other => if name = other then true else held
  | .freed other _ => if name = other then false else held

theorem Asking.isHeld_sections (hfound : ∀ other, a.section? = some other → other ∈ r.names) :
    (a.sections pick me r).isHeld name =
      (a.sectionDeed? r).elim (r.isHeld name) (·.leaves name (r.isHeld name)) := by
  cases a with
  | acquire other place =>
      cases place with
      | entering =>
          simp only [Asking.sections, acquireStep]
          split
          · rfl
          · exact Registry.isHeld_create
      | trying =>
          simp only [Asking.sections, Asking.sectionDeed?, acquireStep]
          split
          · exact Registry.isHeld_modify fun _ => rfl
          · exact Registry.isHeld_setHeld true (hfound other rfl)
      | sleeping => exact Registry.isHeld_modify fun _ => rfl
  | release other place =>
      cases place with
      | looking =>
          simp only [Asking.sections, releaseStep]
          split
          · rfl
          · rfl
      | freeing => exact Registry.isHeld_setHeld false (hfound other rfl)
      | waking => exact Registry.isHeld_modify fun _ => rfl
  | submit | join | joinAll | resize | refused => rfl

theorem Asking.eq_of_acquire_section? {other : String} {place : AcquirePlace}
    (h : (Asking.acquire other place).section? = some name) : other = name := by
  cases place with
  | entering => cases h
  | trying | sleeping => exact Option.some.inj h

theorem Asking.eq_of_release_section? {other : String} {place : ReleasePlace}
    (h : (Asking.release other place).section? = some name) : other = name := by
  cases place with
  | looking => cases h
  | freeing | waking => exact Option.some.inj h

theorem askingStep_section? {w v : World} {stage : Stage Asking Reply} {a' : Asking}
    (h : askingStep pick me w a = some (v, stage)) (ha' : stage.asking? = some a')
    (hname : a'.section? = some name) :
    a.section? = some name ∨ name ∈ (a.sections pick me w.sections).names := by
  cases askingStep_goes h with
  | submits | joins | joinsAll | resizes =>
      cases ha'
      cases hname
  | submitted | joined | joinedAll | acquired | released | resized | refused => cases ha'
  | @acquires other place =>
      cases ha'
      obtain rfl := Asking.eq_of_acquire_section? hname
      cases place with
      | entering => exact .inr (Asking.mem_names_of_entered rfl)
      | trying | sleeping => exact .inl rfl
  | @releases other place _ _ _ hs =>
      cases ha'
      obtain rfl := Asking.eq_of_release_section? hname
      cases place with
      | freeing | waking => exact .inl rfl
      | looking =>
          simp only [releaseStep] at hs
          cases hfound : (w.sections.find? other).isSome with
          | false =>
              rw [hfound] at hs
              cases hs
          | true =>
              simp only [Asking.sections, releaseStep, hfound]
              exact .inr (Registry.find?_isSome_iff.mp hfound)

end Step

variable {library : Library} {pick : Nat} {me : ThreadId} {w w' : World}

theorem privateContext_sections (w : World) : w.privateContext.2.sections = w.sections := by
  unfold World.privateContext
  split
  · rfl
  · rfl

theorem Oversees.sections (h : Oversees me w w') : w'.sections = w.sections := by
  induction h with
  | refl => rfl
  | lock _ hlock ih =>
      obtain ⟨-, rfl⟩ := World.lockPool_eq_some_iff.mp hlock
      exact ih
  | unlock _ ih | raise _ _ ih | send _ _ ih | report _ _ ih => exact ih

theorem Manages.sections (h : Manages me w w') : w'.sections = w.sections := by
  induction h with
  | refl => rfl
  | oversees _ hv ih => exact hv.sections.trans ih
  | regroup _ _ ih | dismiss _ _ ih | close _ ih | notify _ ih | size _ _ ih => exact ih

theorem Hires.sections (h : Hires me w w') : w'.sections = w.sections := by
  have hprivate := privateContext_sections w
  cases h with
  | manages h => exact h.sections
  | hire id hcontext h =>
      rw [hcontext] at hprivate
      exact h.sections.trans hprivate
  | fail hcontext =>
      rw [hcontext] at hprivate
      exact hprivate

theorem submitStep_sections {source : ContextId} {place : SubmitPlace}
    {stage : Stage SubmitPlace Reply} (h : submitStep source me w place = some (w', stage)) :
    w'.sections = w.sections := by
  cases stage with
  | going place' =>
      cases submitStep_goes h with
      | start hs => exact (startStep_oversees hs).sections
      | _ => rfl
  | «over» reply =>
      cases submitStep_replies h with
      | refused | misread => rfl
      | idle hs | started _ hs => exact (startStep_oversees hs).sections

theorem askingStep_sections {a : Asking} {stage : Stage Asking Reply}
    (h : askingStep pick me w a = some (w', stage)) :
    w'.sections = a.sections pick me w.sections := by
  cases askingStep_goes h with
  | submits hs | submitted hs => exact submitStep_sections hs
  | joins hs | joined hs => exact (joinStep_oversees hs).sections
  | joinsAll hs | joinedAll hs => exact (joinAllStep_oversees hs).sections
  | resizes hs | resized hs => exact (resizeStep_hires hs).sections
  | acquires hs | acquired hs | releases hs | released hs => exact (congrArg Prod.fst hs).symm
  | refused => rfl

theorem activityStep_sections {activity : Activity} {stage : Stage Activity Ending}
    (h : activityStep library pick me w activity = some (w', stage)) :
    w'.sections = activity.asking?.elim w.sections (Asking.sections pick me w.sections) := by
  cases activityStep_goes h with
  | asks hs | replied hs => exact askingStep_sections hs
  | went | asked | ended => rfl

theorem hostStep_sections {host : Nat} {place : HostPlace}
    (h : hostStep library pick host place w = some w') :
    w'.sections = place.asking?.elim w.sections (Asking.sections pick (.host host) w.sections) := by
  obtain ⟨v, place', rfl, hgoes⟩ := hostStep_goes h
  have hplaced : (v.placeHost host place').sections = v.sections := rfl
  rw [hplaced]
  cases hgoes with
  | opens hs | opened hs => exact (openStep_hires hs).sections
  | asks hs | replied hs => exact askingStep_sections hs
  | closes hs | closed hs => exact (shutdownStep_manages hs).sections
  | measures hs | measured hs => exact (measureStep_oversees hs).sections
  | runs hs | ended hs => exact activityStep_sections hs

theorem TaskPlace.Goes.sections {i : Nat} {worker : Worker} (once : Bool) {s : Submission}
    {place place' : TaskPlace} (h : place.Goes library pick i worker s.task w w' place') :
    w'.sections = (WorkerPlace.executing once s place).asking?.elim w.sections
      (Asking.sections pick (.worker i) w.sections) := by
  cases h with
  | ran hs | ended _ hs => exact activityStep_sections hs
  | replaced hcontext | notReplaced hcontext =>
      have hsame := privateContext_sections w
      rw [hcontext] at hsame
      exact hsame
  | published | unlockedQueue | prepared | locked | lockedErrored | written | wrote | unlocked
  | counted | failed | completed | cleared => rfl

theorem workerStep_sections {i : Nat} {worker : Worker}
    (h : workerStep library pick i worker w = some w') :
    w'.sections = worker.place.asking?.elim w.sections
      (Asking.sections pick (.worker i) w.sections) := by
  obtain ⟨place, hplace, hgoes⟩ := workerStep_goes h
  rw [hplace]
  cases hgoes with
  | went once hs => exact hs.sections once
  | began | received | measured | compared | checkedEmpty | checked | missed | popped | finished
  | rested | announced | exited => rfl

theorem World.advance_sections (h : w.advance library pick me = some w') :
    w'.sections = (w.asking? me).elim w.sections (Asking.sections pick me w.sections) := by
  rw [World.asking?_eq_view]
  cases me with
  | host host =>
      obtain ⟨place, hplace, h⟩ := World.advance_host_iff.mp h
      rw [World.view_host hplace]
      exact hostStep_sections h
  | worker i =>
      obtain ⟨worker, hworker, h⟩ := World.advance_worker_iff.mp h
      rw [World.view_worker hworker]
      exact workerStep_sections h

theorem World.move?_sections {m : Move} (h : w.move? library m = some w') :
    (∃ pick thread, m = .step pick thread) ∨ w'.sections = w.sections := by
  cases m with
  | step pick thread => exact .inl ⟨pick, thread, rfl⟩
  | begin | setGlobal =>
      simp only [World.move?] at h
      split at h
      · cases h
        exact .inr rfl
      · cases h
  | addContext | openGate | openAllGates | setBudget =>
      cases h
      exact .inr rfl

end ScriptPool
