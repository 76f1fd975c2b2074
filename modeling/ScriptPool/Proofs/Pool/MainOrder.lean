import ScriptPool.Proofs.Pool.MainSerial

namespace ScriptPool

variable {library : Library} {me thread : ThreadId} {w v w' : World} {log : MainLog} {i : Nat}

theorem Move.log_blocks (w : World) (log : MainLog) (m : Move) :
    log.blocks <+: (m.log w log).blocks := by
  have hworker (own : Globals) (place : WorkerPlace) : log.blocks <+: (place.log own log).blocks := by
    unfold WorkerPlace.log
    split
    · exact List.prefix_refl _
    · exact List.prefix_append _ _
    · exact List.prefix_refl _
  cases m with
  | step pick thread =>
      simp only [Move.log, World.log]
      split
      · exact List.prefix_append _ _
      · exact List.prefix_refl _
      · split
        · exact List.prefix_refl _
        · next i hask =>
            cases w.workers[i]? with
            | none => exact List.prefix_refl _
            | some worker => exact hworker _ _
  | begin | addContext | setGlobal | openGate | openAllGates | setBudget => exact List.prefix_refl _

theorem World.logAll_blocks (w : World) (log : MainLog) (moves : List Move) :
    log.blocks <+: (w.logAll library log moves).blocks := by
  induction moves generalizing w log with
  | nil => exact List.prefix_refl _
  | cons m moves ih =>
      unfold World.logAll
      cases w.move? library m with
      | none => exact List.prefix_refl _
      | some v => exact (m.log_blocks w log).trans (ih v _)

theorem submitStep_pushing {source : ContextId} {place : SubmitPlace} {task : Task}
    (h : submitStep source me w place = some (v, .going (.pushing task))) (hsource : source = w.main) :
    place = .unlocking task := by
  cases submitStep_goes h with
  | unlocked => rfl
  | readApart _ _ hapart => exact absurd hsource hapart

theorem Move.captured {m : Move} {task : Task} (h : w.move? library m = some w')
    (hmain : w'.main = w.main)
    (hpush : w'.asking? thread = some (.submit w'.main (.pushing task))) :
    w.asking? thread = some (.submit w.main (.pushing task)) ∨
      .capture task.call task ∈ (m.log w log).blocks := by
  have hbegin (source : ContextId) (r : Request) : Request.begin source r ≠
      .submit w'.main (.pushing task) := by
    intro heq
    cases r with
    | acquire id | release id =>
        unfold Request.begin at heq
        dsimp only at heq
        split at heq
        · cases heq
        · cases heq
    | parallel | join | joinAll | resize => cases heq
  rcases World.move?_stride h with ⟨pick, me, rfl, hadvance, hstride⟩ | hstir
  · by_cases hthread : thread = me
    · subst hthread
      right
      cases hask : w.asking? thread with
      | none =>
          obtain ⟨r, source, heq⟩ := World.advance_fresh hask hadvance hpush
          exact absurd heq.symm (hbegin source r)
      | some a =>
          obtain ⟨v, stage, hs, -, -, hstage⟩ := World.advance_asking hask hadvance
          rw [hpush] at hstage
          cases stage with
          | «over» reply => cases hstage
          | going a' =>
              obtain rfl : .submit w'.main (.pushing task) = a' := Option.some.inj hstage
              obtain ⟨place, rfl, hsubmit⟩ := askingStep_submit hs
              obtain rfl := submitStep_pushing hsubmit hmain
              simp only [Move.log, World.log, hask]
              exact List.mem_append_right _ (List.mem_singleton_self _)
    · rw [hstride.asking?_of_ne hthread, hmain] at hpush
      exact .inl hpush
  · rcases hstir.asking thread with heq | ⟨-, r, source, heq⟩
    · rw [heq, hmain] at hpush
      exact .inl hpush
    · rw [heq] at hpush
      exact absurd (Option.some.inj hpush) (hbegin source r)

/-- Whether a worker is about to count the outcome of a task. -/
def World.Counts (w : World) (i : Nat) (s : Submission) (outcome : Invocation) : Prop :=
  ∃ worker once, w.workers[i]? = some worker ∧ worker.place = .executing once s (.counting outcome)

theorem Crew.Own.before_counting {c c' : Crew} {hand hand' : Hand} {once : Bool} {s : Submission}
    {outcome : Invocation} (h : Crew.Own i c hand c' hand')
    (hplace : hand'.place = .executing once s (.counting outcome)) :
    hand.place = .executing once s (.unlockingMain outcome) := by
  cases h with
  | move q hq =>
      obtain rfl : q = _ := hplace
      generalize hand.place = place at hq ⊢
      cases hq with
      | task _ _ hmoves =>
          cases hmoves
          rfl
  | receive command =>
      cases command with
      | run | stop => cases hplace
  | report once' =>
      cases once' with
      | false | true => cases hplace
  | leave | pop | publish | unlockQueue | fail | complete | clear | rest | announce => cases hplace

theorem WorkerPlace.of_bare_unlockingMain {place : WorkerPlace} {once : Bool} {s : Submission}
    {outcome : Invocation} (h : place.bare = .executing once s (.unlockingMain outcome)) :
    place = .executing once s (.unlockingMain outcome) := by
  cases place with
  | executing once' s' place =>
      cases place with
      | unlockingMain =>
          cases h
          rfl
      | _ => cases h
  | _ => cases h

/-- An outcome that is about to be counted was so before the move, or its write-back has just
ended. -/
theorem Move.delivered {m : Move} {s : Submission} {outcome : Invocation}
    (h : w.move? library m = some w') (hcounts : w'.Counts i s outcome) :
    w.Counts i s outcome ∨ ∃ own own', .deliver s outcome own own' ∈ (m.log w log).blocks := by
  obtain ⟨worker', once, hworker', hplace'⟩ := hcounts
  cases m with
  | step pick me =>
      have hstride := World.advance_stride h
      by_cases hthread : .worker i = me
      · subst hthread
        right
        cases hstride with
        | errand hcode hstep =>
            obtain ⟨hand, _, _, _, hhand, hcoded⟩ := hcode
            obtain ⟨hand', hhand', hsame⟩ := hstep.place_eq hhand
            rw [World.scene_hands_getElem? hworker', Option.some.injEq] at hhand'
            rw [hcoded, ← hhand'] at hsame
            have hbare : worker'.place.bare = _ := hsame
            rw [hplace'] at hbare
            cases hbare
        | own hme hhand hown hscene _ _ hidle =>
            cases hme
            have hlt := (List.getElem?_eq_some_iff.mp hhand).1
            have hput := World.scene_hands_getElem? hworker'
            rw [hscene, Crew.put, hown.hands_eq, List.getElem?_set_self hlt,
              Option.some.injEq] at hput
            subst hput
            have hplaced : worker'.hand.bare.place = .executing once s (.counting outcome) :=
              congrArg WorkerPlace.bare hplace'
            have hbefore := hown.before_counting hplaced
            have hworker := World.worker_of_scene_hands hhand
            obtain ⟨worker, hworker, rfl⟩ := hworker
            have hplace : worker.place = .executing once s (.unlockingMain outcome) :=
              WorkerPlace.of_bare_unlockingMain hbefore
            rw [Move.log, World.log_of_worker hworker hidle, hplace]
            exact ⟨_, _, List.mem_append_right _ (List.mem_singleton_self _)⟩
      · have hsame := hstride.place_of_ne hthread hworker'
        rw [hplace'] at hsame
        cases hworker : w.workers[i]? with
        | none =>
            rw [hworker] at hsame
            cases hsame
        | some worker =>
            rw [hworker] at hsame
            exact .inl ⟨worker, once, hworker, hsame.symm⟩
  | begin host call =>
      obtain ⟨-, rfl⟩ := World.move?_begin_iff.mp h
      exact .inl ⟨worker', once, hworker', hplace'⟩
  | setGlobal context name value =>
      obtain ⟨-, rfl⟩ := World.move?_setGlobal_iff.mp h
      exact .inl ⟨worker', once, hworker', hplace'⟩
  | addContext | openGate | openAllGates | setBudget =>
      cases h
      exact .inl ⟨worker', once, hworker', hplace'⟩

theorem World.move?_main {m : Move} (hm : MainLocked w) (h : w.move? library m = some w') :
    w'.main = w.main := by
  cases m with
  | step pick thread => exact (World.advance_main (hm.apt thread) h).1.main_eq
  | begin | setGlobal =>
      simp only [World.move?] at h
      split at h
      · cases h
        rfl
      · cases h
  | addContext | openGate | openAllGates | setBudget =>
      cases h
      rfl

theorem Run.main_eq {moves : List Move} (hm : MainLocked w) (h : Run library w moves w') :
    w'.main = w.main := by
  induction h using Run.head_induction with
  | nil => rfl
  | cons hv _ ih => rw [ih (hm.move hv), World.move?_main hm hv]

theorem Run.captured {moves : List Move} {task : Task} (hm : MainLocked w)
    (h : Run library w moves w')
    (hpush : w'.asking? thread = some (.submit w'.main (.pushing task))) :
    w.asking? thread = some (.submit w.main (.pushing task)) ∨
      .capture task.call task ∈ (w.logAll library log moves).blocks := by
  induction h using Run.head_induction generalizing log with
  | nil => exact .inl hpush
  | @cons w v m moves hv _ ih =>
      have hmain := World.move?_main hm hv
      simp only [World.logAll, hv, Option.elim_some]
      rcases ih (hm.move hv) with hbefore | hlogged
      · rcases Move.captured hv hmain hbefore with hbefore | hlogged
        · exact .inl hbefore
        · exact .inr ((World.logAll_blocks v _ moves).subset hlogged)
      · exact .inr hlogged

theorem Run.delivered {moves : List Move} {s : Submission} {outcome : Invocation}
    (h : Run library w moves w') (hcounts : w'.Counts i s outcome) :
    w.Counts i s outcome ∨
      ∃ own own', .deliver s outcome own own' ∈ (w.logAll library log moves).blocks := by
  induction h using Run.head_induction generalizing log with
  | nil => exact .inl hcounts
  | @cons w v m moves hv _ ih =>
      simp only [World.logAll, hv, Option.elim_some]
      rcases ih with hbefore | hlogged
      · rcases Move.delivered hv hbefore with hbefore | ⟨own, own', hlogged⟩
        · exact .inl hbefore
        · exact .inr ⟨own, own', (World.logAll_blocks v _ moves).subset hlogged⟩
      · exact .inr hlogged

/-- While the main context is only captured from and written back to, both happen as if one at a
time: there are blocks, one for each task that is captured and one for each outcome that is written
back, and executing them in their order gives what every one of them has read and written, the marks
of captured handles, and the globals in the end. So names that each task writes together or not at
all come from one task in the end and in each snapshot. -/
theorem main_serializable (library : Library) (engine : Engine) (main : ContextId)
    (hmain : main < engine.contexts.length) (poolSize others : Nat) (before during : List Move)
    (start w : World)
    (h₀ : Run library (World.initial engine main poolSize others) before start)
    (hfree : start.mainHolder? = none) (h : Run library start during w)
    (halone : start.undisturbed library during = true) :
    ∃ g, Serial (start.mainBlocks library during) (start.engine.globals main) g ∧
      (w.mainHolder? = none → w.engine.globals main = g) ∧
      (∀ thread task, w.asking? thread = some (.submit main (.pushing task)) →
        start.asking? thread = some (.submit main (.pushing task)) ∨
          .capture task.call task ∈ start.mainBlocks library during) ∧
      (∀ i s outcome, w.Counts i s outcome → start.Counts i s outcome ∨
        ∃ own own', .deliver s outcome own own' ∈ start.mainBlocks library during) ∧
      ∀ names : List String, (∀ b ∈ start.mainBlocks library during, b.WritesWhole names) →
        FromOne names (start.engine.globals main) (start.mainBlocks library during) g ∧
        ∀ pre call task post,
          start.mainBlocks library during = pre ++ .capture call task :: post →
          ∃ mid, FromOne names (start.engine.globals main) pre mid ∧
            ∀ name ∈ call.parameters,
              (task.snapshot?.getD []).get? name = some (mid.get name).transfer.1 := by
  have hlocked := (MainLocked.initial engine main poolSize others).run h₀
  have hsecluded := (World.Secluded.initial hmain poolSize others).run h₀
  have henclosed := World.Enclosed.run (World.Enclosed.initial hmain poolSize others)
    (World.Secluded.initial hmain poolSize others) (MainLocked.initial engine main poolSize others) h₀
  have hstart : start.main = main := h₀.main_eq (MainLocked.initial engine main poolSize others)
  have hend : w.main = main := (h.main_eq hlocked).trans hstart
  subst hstart
  -- Nobody has the main context locked at the start, so no block is in progress there.
  have hbegins : MainLog.Explains ⟨[], .empty⟩ (start.engine.globals start.main) start
      (start.engine.globals start.main) :=
    ⟨rfl, fun _ => rfl, fun thread hheld => by rw [hfree] at hheld; cases hheld⟩
  obtain ⟨g, hg⟩ := hbegins.run hlocked hsecluded henclosed h halone
  refine ⟨g, hg.serial, fun hnone => hend ▸ hg.free hnone, fun thread task hpush => ?_,
    fun i s outcome hcounts => h.delivered hcounts, fun names hwhole =>
      ⟨hg.serial.fromOne hwhole, fun pre call task post hsplit => ?_⟩⟩
  · rw [← hend] at hpush
    exact h.captured hlocked hpush
  · have hserial := hg.serial
    rw [World.mainBlocks] at hsplit hwhole
    rw [hsplit] at hserial hwhole
    obtain ⟨mid, hmid, rfl⟩ := hserial.capture
    exact ⟨mid, hmid.fromOne fun b hb => hwhole b (List.mem_append_left _ hb),
      fun name hname => Task.get?_capture hname mid⟩

/-- A library with a function of two results. -/
def twoLibrary : Library :=
  ⟨[("g", constantFunction [.boolean true, .boolean false])]⟩

/-- A call with two return names is submitted, and a worker executes it. -/
def twoMoves : List Move :=
  List.replicate 4 (.step 0 (.host 0)) ++ [.begin 0 (.ask 0 (.parallel "a, b = g(x)"))] ++
    List.replicate 12 (.step 0 (.host 0)) ++ List.replicate 20 (.step 0 (.worker 0))

/-- The capture and the write-back of a call are the two blocks of its run, and its two results come
to the main context together. -/
theorem main_serializable_two : ∃ w, Run twoLibrary soloStart twoMoves w ∧
    (soloStart.mainBlocks twoLibrary twoMoves).length = 2 ∧
    Serial (soloStart.mainBlocks twoLibrary twoMoves) (soloStart.engine.globals 0)
      (w.engine.globals 0) ∧
    FromOne ["a", "b"] (soloStart.engine.globals 0) (soloStart.mainBlocks twoLibrary twoMoves)
      (w.engine.globals 0) := by
  have hruns : (soloStart.follow twoLibrary twoMoves).any (·.mainHolder?.isNone) = true := by
    decide +kernel
  have halone : soloStart.undisturbed twoLibrary twoMoves = true := by
    decide +kernel
  have hlength : (soloStart.mainBlocks twoLibrary twoMoves).length = 2 := by
    decide +kernel
  have hwhole : ∀ b ∈ soloStart.mainBlocks twoLibrary twoMoves, b.WritesWhole ["a", "b"] := by
    decide +kernel
  obtain ⟨w, hw, hnone⟩ := (Option.any_eq_true _ _).mp hruns
  have h := run_iff_follow.mpr hw
  obtain ⟨g, hserial, hg, -, -, hfrom⟩ := main_serializable twoLibrary
    (Engine.initial "solo" none).createContext.2 0 (by decide +kernel) 1 0 [] twoMoves soloStart w
    .start rfl h halone
  rw [← hg (Option.isNone_iff_eq_none.mp hnone)] at hserial hfrom
  exact ⟨w, h, hlength, hserial, (hfrom ["a", "b"] hwhole).1⟩

end ScriptPool
