import ScriptPool.Proofs.Pool.Teardown
import ScriptPool.Proofs.Section.Exclusion

/-!
No waiter of a critical section is stranded.

A thread falls asleep only at a section that is taken, and whoever frees a section goes on to wake a
sleeper. A sleeper that was woken may find that a newcomer was faster, but then the section is taken and
is going to be freed again. So while a section is free and somebody is asleep at it, there is a thread
that is about to wake a sleeper, or a waiter that was woken and has not looked at the section since.
-/

namespace ScriptPool

variable {library : Library} {pick : Nat} {me thread : ThreadId} {start w w' : World} {m : Move}
  {name other : String} {moves : List Move} {r : Registry} {a : Asking}

namespace Registry

/-- The threads asleep at a section. -/
def sleepers (r : Registry) (name : String) : List ThreadId :=
  (r.find? name).elim [] (·.asleep)

theorem isAsleep_iff : r.isAsleep name thread = true ↔ thread ∈ r.sleepers name := by
  rw [isAsleep, sleepers]
  cases r.find? name with
  | none | some => simp

theorem sleepers_modify {f : SectionLock → SectionLock} {g : List ThreadId → List ThreadId}
    (hf : ∀ lock, (f lock).asleep = g lock.asleep) (hfound : name ∈ r.names ∨ g [] = []) :
    (r.modify name f).sleepers other =
      if other = name then g (r.sleepers other) else r.sleepers other := by
  rw [sleepers, sleepers, find?_modify]
  split
  · next hother =>
      subst hother
      cases hlock : r.find? other with
      | some lock => exact hf lock
      | none =>
          have hnew : other ∉ r.names := by
            rw [← find?_isSome_iff, hlock]
            exact Bool.false_ne_true
          exact (hfound.resolve_left hnew).symm
  · rfl

theorem sleepers_setHeld (held : Bool) :
    (r.modify name fun lock => { lock with held := held }).sleepers other = r.sleepers other := by
  rw [sleepers_modify (f := fun lock => { lock with held := held }) (g := id) (fun _ => rfl)
    (.inr rfl)]
  exact ite_self _

theorem sleepers_create : (r.create name).sleepers other = r.sleepers other := by
  rw [sleepers, find?_create, sleepers]
  cases r.find? other with
  | none =>
      split
      · rfl
      · rfl
  | some lock => rfl

theorem mem_names_of_isHeld (h : r.isHeld name = true) : name ∈ r.names := by
  obtain ⟨lock, hlock, -⟩ := (Option.any_eq_true _ _).mp h
  exact find?_isSome_iff.mp (by rw [hlock]; rfl)

end Registry

/-- Whether the next step of a request takes a thread from those asleep at a section, if it finds one. -/
def Asking.rouses (name : String) : Asking → Bool
  | .acquire other .sleeping | .release other (.waking _) => other = name
  | _ => false

/-- What a step of a request makes of the threads asleep at a section. -/
inductive Asking.Beds (pick : Nat) (me : ThreadId) (r : Registry) (name : String) (a : Asking)
    (sleepers : List ThreadId) : Prop where
  | same (ha : a.rouses name = false) (h : sleepers = r.sleepers name)
  | lies (ha : a = .acquire name .trying) (hheld : r.isHeld name = true)
      (h : sleepers = r.sleepers name ++ [me])
  | rises (ha : a = .acquire name .sleeping) (h : sleepers = (r.sleepers name).filter (· ≠ me))
  | wakes (wasHeld : Bool) (ha : a = .release name (.waking wasHeld))
      (h : sleepers = (r.sleepers name).eraseIdx (pick % (r.sleepers name).length))

theorem Asking.beds (pick : Nat) (me : ThreadId) (r : Registry) (name : String) (a : Asking) :
    a.Beds pick me r name ((a.sections pick me r).sleepers name) := by
  cases a with
  | acquire other place =>
      cases place with
      | entering =>
          simp only [Asking.sections, acquireStep]
          split
          · exact .same rfl rfl
          · exact .same rfl Registry.sleepers_create
      | trying =>
          simp only [Asking.sections, acquireStep]
          split
          · next hheld =>
              rw [Registry.sleepers_modify (g := (· ++ [me])) (fun _ => rfl)
                (.inl (Registry.mem_names_of_isHeld hheld))]
              split
              · next hname =>
                  subst hname
                  exact .lies rfl hheld rfl
              · exact .same rfl rfl
          · exact .same rfl (Registry.sleepers_setHeld true)
      | sleeping =>
          simp only [Asking.sections, acquireStep]
          rw [Registry.sleepers_modify (g := List.filter (· ≠ me)) (fun _ => rfl) (.inr rfl)]
          split
          · next hname =>
              subst hname
              exact .rises rfl rfl
          · next hname => exact .same (decide_eq_false (Ne.symm hname)) rfl
  | release other place =>
      cases place with
      | looking =>
          simp only [Asking.sections, releaseStep]
          split
          · exact .same rfl rfl
          · exact .same rfl rfl
      | freeing => exact .same rfl (Registry.sleepers_setHeld false)
      | waking wasHeld =>
          simp only [Asking.sections, releaseStep]
          rw [Registry.sleepers_modify (g := fun sleepers =>
            sleepers.eraseIdx (pick % sleepers.length)) (fun _ => rfl) (.inr rfl)]
          split
          · next hname =>
              subst hname
              exact .wakes wasHeld rfl rfl
          · next hname => exact .same (decide_eq_false (Ne.symm hname)) rfl
  | submit | join | joinAll | resize | refused => exact .same rfl rfl

theorem Asking.Beds.mem {sleepers : List ThreadId} (h : a.Beds pick me r name sleepers)
    (hmem : thread ∈ sleepers) :
    (thread ∈ r.sleepers name ∧ (a = .acquire name .sleeping → thread ≠ me)) ∨
      thread = me ∧ a = .acquire name .trying ∧ r.isHeld name = true := by
  cases h with
  | same ha h =>
      refine .inl ⟨h ▸ hmem, ?_⟩
      rintro rfl
      simp [Asking.rouses] at ha
  | lies ha hheld h =>
      rw [h] at hmem
      rcases List.mem_append.mp hmem with hmem | hmem
      · exact .inl ⟨hmem, by rw [ha]; nofun⟩
      · exact .inr ⟨List.mem_singleton.mp hmem, ha, hheld⟩
  | rises ha h =>
      rw [h, List.mem_filter] at hmem
      exact .inl ⟨hmem.1, fun _ => by simpa using hmem.2⟩
  | wakes wasHeld ha h =>
      rw [h] at hmem
      exact .inl ⟨List.mem_of_mem_eraseIdx hmem, by rw [ha]; nofun⟩

/-- Whoever is asleep at a section waits for it, and is asleep there once. -/
structure World.Bedded (w : World) : Prop where
  nodup : ∀ name, (w.sections.sleepers name).Nodup
  sleeping : ∀ name thread, thread ∈ w.sections.sleepers name →
    w.asking? thread = some (.acquire name .sleeping)

theorem World.advance_sleepers (h : w.advance library pick me = some w') (name : String) :
    (w.asking? me = none ∧ w'.sections.sleepers name = w.sections.sleepers name) ∨
      ∃ a, w.asking? me = some a ∧
        a.Beds pick me w.sections name (w'.sections.sleepers name) := by
  rw [World.advance_sections h]
  cases hask : w.asking? me with
  | none => exact .inl ⟨rfl, rfl⟩
  | some a => exact .inr ⟨a, rfl, a.beds pick me w.sections name⟩

theorem World.advance_place (h : w.advance library pick me = some w') :
    (w.asking? me = some (.acquire name .sleeping) → w'.asking? me = some (.acquire name .trying)) ∧
    (w.asking? me = some (.acquire name .trying) → w.sections.isHeld name = true →
      w'.asking? me = some (.acquire name .sleeping)) ∧
    (w.asking? me = some (.release name .freeing) →
      w'.asking? me = some (.release name (.waking (w.sections.isHeld name)))) := by
  refine ⟨fun hask => ?_, fun hask hheld => ?_, fun hask => ?_⟩
  · obtain ⟨v, stage, hs, -, -, hstage⟩ := World.advance_asking hask h
    cases hs
    exact hstage
  · obtain ⟨v, stage, hs, -, -, hstage⟩ := World.advance_asking hask h
    simp only [askingStep, acquireStep, hheld, if_true] at hs
    cases hs
    exact hstage
  · obtain ⟨v, stage, hs, -, -, hstage⟩ := World.advance_asking hask h
    cases hs
    exact hstage

theorem World.Bedded.advance (hb : w.Bedded) (h : w.advance library pick me = some w') :
    w'.Bedded := by
  constructor
  · intro name
    have hnodup := hb.nodup name
    rcases World.advance_sleepers h name with ⟨-, hsame⟩ | ⟨a, hask, hbeds⟩
    · rwa [hsame]
    · cases hbeds with
      | same ha hsame => rwa [hsame]
      | lies ha hheld hlies =>
          -- whoever lies down was still trying, so it was not asleep
          rw [hlies, List.nodup_append]
          refine ⟨hnodup, List.nodup_singleton me, ?_⟩
          rintro thread hmem _ hlast rfl
          rw [List.mem_singleton.mp hlast] at hmem
          have hsleeping := hb.sleeping name me hmem
          rw [hask, ha] at hsleeping
          cases hsleeping
      | rises ha hrises => exact hrises ▸ hnodup.filter _
      | wakes wasHeld ha hwakes => exact hwakes ▸ hnodup.eraseIdx _
  · intro name thread hmem
    have hawake (hold : thread ∈ w.sections.sleepers name)
        (hme : thread = me → w.asking? me ≠ some (.acquire name .sleeping)) :
        w'.asking? thread = some (.acquire name .sleeping) := by
      have hsleeping := hb.sleeping name thread hold
      rwa [(World.advance_stride h).asking?_of_ne fun heq => hme heq (heq ▸ hsleeping)]
    rcases World.advance_sleepers h name with ⟨hnone, hsame⟩ | ⟨a, hask, hbeds⟩
    · exact hawake (hsame ▸ hmem) fun _ => by rw [hnone]; nofun
    · rcases hbeds.mem hmem with ⟨hold, hrose⟩ | ⟨rfl, rfl, hheld⟩
      · refine hawake hold fun heq hsleeping => ?_
        rw [hask] at hsleeping
        exact hrose (Option.some.inj hsleeping) heq
      · exact (World.advance_place h).2.1 hask hheld

theorem World.move?_step_or_still (h : w.move? library m = some w') :
    (∃ pick thread, m = .step pick thread ∧ w.advance library pick thread = some w') ∨
      ((∀ pick thread, m ≠ .step pick thread) ∧ w'.sections = w.sections ∧
        ∀ thread a, w.asking? thread = some a → w'.asking? thread = some a) := by
  rcases World.move?_sections h with ⟨pick, thread, rfl⟩ | hsame
  · exact .inl ⟨pick, thread, rfl, h⟩
  · rcases World.move?_stride h with ⟨pick, thread, rfl, hadvance, -⟩ | hstir
    · exact .inl ⟨pick, thread, rfl, hadvance⟩
    · cases m with
      | step pick thread => exact .inl ⟨pick, thread, rfl, h⟩
      | begin | addContext | setGlobal | openGate | openAllGates | setBudget =>
          refine .inr ⟨nofun, hsame, fun thread a hask => ?_⟩
          rcases hstir.asking thread with heq | ⟨hnone, -⟩
          · rw [heq, hask]
          · rw [hask] at hnone
            cases hnone

theorem World.Bedded.move (hb : w.Bedded) (h : w.move? library m = some w') : w'.Bedded := by
  rcases World.move?_step_or_still h with ⟨pick, thread, -, hadvance⟩ | ⟨-, hsame, hkeeps⟩
  · exact hb.advance hadvance
  · constructor
    · intro name
      rw [hsame]
      exact hb.nodup name
    · intro name thread hmem
      rw [hsame] at hmem
      exact hkeeps thread _ (hb.sleeping name thread hmem)

theorem Run.bedded {engine : Engine} {main : ContextId} {poolSize others : Nat}
    (h : Run library (World.initial engine main poolSize others) moves w) : w.Bedded := by
  induction h with
  | start => exact ⟨fun _ => List.nodup_nil, fun _ _ hmem => absurd hmem List.not_mem_nil⟩
  | move _ m hm ih => exact ih.move hm

/-- The last step of a thread has ended its sleep at a section, whether or not it was woken. -/
def Risen (library : Library) (start : World) (moves : List Move) (name : String)
    (thread : ThreadId) : Prop :=
  ∃ before pick v after, moves = before ++ .step pick thread :: after ∧
    Run library start before v ∧ v.asking? thread = some (.acquire name .sleeping) ∧
    ∀ pick', .step pick' thread ∉ after

/-- A thread attends to those that are asleep at a free section. -/
inductive Attends (library : Library) (start : World) (moves : List Move) (w : World)
    (name : String) (thread : ThreadId) : Prop where
  /-- It has freed the section and is about to wake a sleeper. -/
  | waking (wasHeld : Bool) (hask : w.asking? thread = some (.release name (.waking wasHeld)))
  /-- It has waited and was woken, and it is not running yet. -/
  | woken (hask : w.asking? thread = some (.acquire name .sleeping))
      (hawake : w.sections.isAsleep name thread = false)
  /-- It has waited and risen, and it is about to look again whether the section is free. -/
  | looking (hask : w.asking? thread = some (.acquire name .trying))
      (hrisen : Risen library start moves name thread)

theorem Risen.append (h : Risen library start moves name thread)
    (hm : ∀ pick, m ≠ .step pick thread) : Risen library start (moves ++ [m]) name thread := by
  obtain ⟨before, pick, v, after, rfl, hrun, hask, hlast⟩ := h
  refine ⟨before, pick, v, after ++ [m], by simp, hrun, hask, fun pick' hmem => ?_⟩
  rcases List.mem_append.mp hmem with hmem | hmem
  · exact hlast pick' hmem
  · exact hm pick' (List.mem_singleton.mp hmem).symm

theorem World.advance_freed (hf : w.Founded) (h : w.advance library pick me = some w')
    (hheld : w.sections.isHeld name = true) (hfree : w'.sections.isHeld name = false) :
    w.asking? me = some (.release name .freeing) := by
  rw [World.advance_isHeld hf h, hheld, World.sectionDeed?] at hfree
  cases hask : w.asking? me with
  | none => simp [hask] at hfree
  | some a =>
      rw [hask, Option.bind_some] at hfree
      unfold Asking.sectionDeed? at hfree
      split at hfree
      · cases hfree
      · split at hfree
        · cases hfree
        · simp only [Option.elim_some, SectionDeed.leaves] at hfree
          split at hfree
          · cases hfree
          · cases hfree
      · simp only [Option.elim_some, SectionDeed.leaves] at hfree
        split at hfree
        · next hname => rw [hname]
        · cases hfree
      · cases hfree

theorem World.advance_taken (hf : w.Founded) (h : w.advance library pick me = some w')
    (hask : w.asking? me = some (.acquire name .trying)) (hfree : w.sections.isHeld name = false) :
    w'.sections.isHeld name = true := by
  rw [World.advance_isHeld hf h, World.sectionDeed?, hask]
  simp [Asking.sectionDeed?, hfree, SectionDeed.leaves]

theorem World.advance_wakes (hb : w.Bedded) (h : w.advance library pick me = some w')
    {wasHeld : Bool} (hask : w.asking? me = some (.release name (.waking wasHeld)))
    (hold : w.sections.sleepers name ≠ []) :
    ∃ thread, thread ≠ me ∧ w.asking? thread = some (.acquire name .sleeping) ∧
      thread ∉ w'.sections.sleepers name := by
  obtain ⟨hnone, -⟩ | ⟨a, ha, hbeds⟩ := World.advance_sleepers h name
  · rw [hask] at hnone
    cases hnone
  · obtain rfl := Option.some.inj (hask.symm.trans ha)
    cases hbeds with
    | same hrouses => simp [Asking.rouses] at hrouses
    | lies ha => cases ha
    | rises ha => cases ha
    | wakes _ _ hwakes =>
        have hlt : pick % (w.sections.sleepers name).length < (w.sections.sleepers name).length :=
          Nat.mod_lt _ (List.length_pos_iff.mpr hold)
        have hmem := List.getElem_mem hlt
        have hsleeping := hb.sleeping name _ hmem
        refine ⟨_, fun hme => ?_, hsleeping, ?_⟩
        · rw [hme, hask] at hsleeping
          cases hsleeping
        · rw [hwakes, ← (hb.nodup name).erase_getElem _ hlt]
          exact (hb.nodup name).not_mem_erase

theorem World.advance_attends (hf : w.Founded) (hb : w.Bedded) (hrun : Run library start moves w)
    (h : w.advance library pick me = some w') (hfree : w'.sections.isHeld name = false)
    (hasleep : w'.sections.sleepers name ≠ [])
    (ih : w.sections.isHeld name = false → w.sections.sleepers name ≠ [] →
      ∃ thread, Attends library start moves w name thread) :
    ∃ thread, Attends library start (moves ++ [.step pick me]) w' name thread := by
  have hstride := World.advance_stride h
  cases hheld : w.sections.isHeld name with
  | true =>
      have hask := World.advance_freed hf h hheld hfree
      exact ⟨me, .waking true (hheld ▸ (World.advance_place h).2.2 hask)⟩
  | false =>
      have hsub : w'.sections.sleepers name ⊆ w.sections.sleepers name := by
        intro thread hmem
        rcases World.advance_sleepers h name with ⟨-, hsame⟩ | ⟨a, -, hbeds⟩
        · exact hsame ▸ hmem
        · rcases hbeds.mem hmem with ⟨hold, -⟩ | ⟨-, -, hheld'⟩
          · exact hold
          · rw [hheld] at hheld'
            cases hheld'
      have hold : w.sections.sleepers name ≠ [] := fun hnil =>
        hasleep (List.subset_nil.mp (hnil ▸ hsub))
      obtain ⟨thread, hattends⟩ := ih hheld hold
      by_cases hme : thread = me
      -- the thread that attended hands over, to the sleeper that it wakes or to itself
      · subst hme
        cases hattends with
        | waking wasHeld hask =>
            obtain ⟨sleeper, hne, hsleeping, hup⟩ := World.advance_wakes hb h hask hold
            refine ⟨sleeper, .woken ((hstride.asking?_of_ne hne).trans hsleeping) ?_⟩
            rwa [Bool.eq_false_iff, Ne, Registry.isAsleep_iff]
        | woken hask hawake =>
            refine ⟨thread, .looking ((World.advance_place h).1 hask) ?_⟩
            exact ⟨moves, pick, w, [], rfl, hrun, hask, fun _ => List.not_mem_nil⟩
        | looking hask hrisen =>
            rw [World.advance_taken hf h hask hheld] at hfree
            cases hfree
      · have hsame := hstride.asking?_of_ne hme
        cases hattends with
        | waking wasHeld hask => exact ⟨thread, .waking wasHeld (hsame.trans hask)⟩
        | woken hask hawake =>
            refine ⟨thread, .woken (hsame.trans hask) ?_⟩
            rw [Bool.eq_false_iff, Ne, Registry.isAsleep_iff] at hawake ⊢
            exact fun hmem => hawake (hsub hmem)
        | looking hask hrisen =>
            refine ⟨thread, .looking (hsame.trans hask) (hrisen.append ?_)⟩
            exact fun pick' heq => hme (Move.step.inj heq).2.symm

theorem Run.attends {engine : Engine} {main : ContextId} {poolSize others : Nat}
    (h : Run library (World.initial engine main poolSize others) moves w)
    (hfree : w.sections.isHeld name = false) (hasleep : w.sections.sleepers name ≠ []) :
    ∃ thread, Attends library (World.initial engine main poolSize others) moves w name thread := by
  induction h with
  | start => exact absurd rfl hasleep
  | @move moves v w h m hm ih =>
      rcases World.move?_step_or_still hm with ⟨pick, me, rfl, hadvance⟩ | ⟨hstep, hsame, hkeeps⟩
      · have hfounded := (World.Founded.initial engine main poolSize others).run h
        exact World.advance_attends hfounded h.bedded h hadvance hfree hasleep ih
      · rw [hsame] at hfree hasleep
        obtain ⟨thread, hattends⟩ := ih hfree hasleep
        refine ⟨thread, ?_⟩
        cases hattends with
        | waking wasHeld hask => exact .waking wasHeld (hkeeps thread _ hask)
        | woken hask hawake => exact .woken (hkeeps thread _ hask) (by rwa [hsame])
        | looking hask hrisen =>
            exact .looking (hkeeps thread _ hask) (hrisen.append fun pick => hstep pick thread)

theorem Attends.advance_isSome (h : Attends library start moves w name thread) (pick : Nat) :
    (w.advance library pick thread).isSome = true := by
  cases h with
  | waking wasHeld hask => exact World.advance_isSome hask rfl
  | woken hask hawake => exact World.advance_isSome hask rfl
  | looking hask hrisen =>
      refine World.advance_isSome hask ?_
      simp only [askingStep, acquireStep]
      split
      · rfl
      · rfl

/-- No waiter of a critical section is stranded.

Whatever threads acquire and release, in any interleaving: whoever is asleep at a section waits for it, and
if the section is free, then some thread has freed it and is about to wake a sleeper, or some waiter
was woken or has risen and has not looked since whether the section is free. Nothing keeps that thread from
its next step. -/
theorem no_waiter_stranded (library : Library) (engine : Engine) (main : ContextId)
    (poolSize others : Nat) (moves : List Move) (w : World)
    (h : Run library (World.initial engine main poolSize others) moves w) (name : String)
    (sleeper : ThreadId) (hasleep : w.sections.isAsleep name sleeper = true) :
    w.asking? sleeper = some (.acquire name .sleeping) ∧
    (w.sections.isHeld name = false →
      ∃ thread, Attends library (World.initial engine main poolSize others) moves w name thread ∧
        ∀ pick, (w.advance library pick thread).isSome = true) := by
  rw [Registry.isAsleep_iff] at hasleep
  refine ⟨h.bedded.sleeping name sleeper hasleep, fun hfree => ?_⟩
  obtain ⟨thread, hattends⟩ := h.attends hfree (List.ne_nil_of_mem hasleep)
  exact ⟨thread, hattends, hattends.advance_isSome⟩

/-- A coordinator with three threads of the host and no workers. -/
def trioStart : World :=
  World.initial (Engine.initial "trio" none).createContext.2 0 0 2

/-- One thread takes a section, two others fall asleep at it, and the first one frees it and wakes one
of them. -/
def trioMoves : List Move :=
  [[.step 0 (.host 0), .begin 0 (.ask 0 (.acquire (.string "a")))],
    List.replicate 2 (.step 0 (.host 0)), [.begin 1 (.ask 0 (.acquire (.string "a")))],
    List.replicate 2 (.step 0 (.host 1)), [.begin 2 (.ask 0 (.acquire (.string "a")))],
    List.replicate 2 (.step 0 (.host 2)), [.begin 0 (.ask 0 (.release (.string "a")))],
    List.replicate 3 (.step 0 (.host 0))].flatten

/-- A thread is asleep at a free section, and another one attends to it. -/
theorem no_waiter_stranded_trio : ∃ w, Run soloLibrary trioStart trioMoves w ∧
    w.sections.isHeld "a" = false ∧ w.sections.isAsleep "a" (.host 2) = true ∧
    w.asking? (.host 2) = some (.acquire "a" .sleeping) ∧
    ∃ thread, Attends soloLibrary trioStart trioMoves w "a" thread ∧
      ∀ pick, (w.advance soloLibrary pick thread).isSome = true := by
  have hruns : (trioStart.follow soloLibrary trioMoves).any (fun w =>
      !w.sections.isHeld "a" && w.sections.isAsleep "a" (.host 2)) = true := by
    decide +kernel
  obtain ⟨w, hw, hend⟩ := (Option.any_eq_true _ _).mp hruns
  simp only [Bool.and_eq_true, Bool.not_eq_true'] at hend
  obtain ⟨hfree, hasleep⟩ := hend
  have hrun : Run soloLibrary trioStart trioMoves w := run_iff_follow.mpr hw
  obtain ⟨hsleeping, hattended⟩ := no_waiter_stranded _ _ _ _ _ _ w hrun "a" (.host 2) hasleep
  exact ⟨w, hrun, hfree, hasleep, hsleeping, hattended hfree⟩

end ScriptPool
