import ScriptPool.Proofs.Pool.JoinBarrier

namespace ScriptPool

/-- Whether the function of the task has been invoked. -/
def TaskPlace.hasStarted : TaskPlace → Bool
  | .publishing | .unlockingQueue | .preparing => false
  | _ => true

/-- The task that a worker holds, and whether it has started it. -/
def WorkerPlace.care? (p : WorkerPlace) : Option (Submission × Bool) :=
  match p with
  | .executing _ s place => if place.isOpen then some (s, place.hasStarted) else none
  | _ => none

def Crew.care? (c : Crew) (i : Nat) : Option (Submission × Bool) :=
  c.hands[i]?.bind (·.place.care?)

variable {library : Library} {pick : Nat} {me thread : ThreadId} {w w' : World} {c c' c₁ : Crew}
  {hand hand' : Hand} {i j : Nat} {s s' : Submission} {log : List Deed} {t : Deed}

theorem WorkerPlace.held?_eq_some_iff {p : WorkerPlace} :
    p.held? = some s ↔ ∃ started, p.care? = some (s, started) := by
  cases p with
  | executing once s' place =>
      simp only [held?, care?]
      split
      · simp
      · simp
  | _ => simp [held?, care?]

theorem Crew.holds_iff_care : c.Holds i s ↔ ∃ started, c.care? i = some (s, started) := by
  unfold Crew.Holds Crew.care?
  cases c.hands[i]? with
  | none => simp
  | some hand => simp [WorkerPlace.held?_eq_some_iff]

theorem Crew.Step.care_eq {e e' : Errand} (h : Crew.Step me c e c' e') : c'.care? = c.care? := by
  funext i
  unfold Crew.care?
  cases hi : c.hands[i]? with
  | some hand =>
      obtain ⟨hand', hi', hplace⟩ := h.place_eq hi
      simp [hi', hplace]
  | none =>
      cases hi' : c'.hands[i]? with
      | none => rfl
      | some hand' =>
          rcases h.place_back hi' with ⟨hand, hback, -⟩ | rfl
          · rw [hi] at hback
            cases hback
          · rfl

theorem Crew.put_care (hi : c.hands[i]? = some hand) (hand' : Hand) :
    (c.put i hand').care? = Function.update c.care? i hand'.place.care? := by
  have hlt := (List.getElem?_eq_some_iff.mp hi).1
  funext j
  unfold Crew.care? Crew.put
  rw [List.getElem?_set]
  by_cases hj : j = i
  · subst hj
    simp [hlt]
  · simp [hj, Ne.symm hj]

/-- What a step does to the tasks, by its deed. -/
inductive Crew.Carries (c c' : Crew) : Option Deed → Prop where
  | still (hqueue : c'.queue = c.queue) (htickets : c'.tickets = c.tickets)
      (hcare : c'.care? = c.care?) : Carries c c' none
  | push (task : Task) (hqueue : c'.queue = c.queue ++ [⟨c.tickets, task⟩])
      (htickets : c'.tickets = c.tickets + 1) (hcare : c'.care? = c.care?) :
      Carries c c' (some (.pushed ⟨c.tickets, task⟩))
  | claim (i : Nat) (s : Submission) (hqueue : c.queue = s :: c'.queue)
      (htickets : c'.tickets = c.tickets) (hfree : c.care? i = none)
      (hcare : c'.care? = Function.update c.care? i (some (s, false))) :
      Carries c c' (some (.claimed i s))
  | start (i : Nat) (s : Submission) (hqueue : c'.queue = c.queue)
      (htickets : c'.tickets = c.tickets) (hs : c.care? i = some (s, false))
      (hcare : c'.care? = Function.update c.care? i (some (s, true))) :
      Carries c c' (some (.started i s))
  | write (i : Nat) (s : Submission) (name : String) (value : Value) (hqueue : c'.queue = c.queue)
      (htickets : c'.tickets = c.tickets) (hs : c.care? i = some (s, true))
      (hcare : c'.care? = c.care?) : Carries c c' (some (.wrote s name value))
  | finish (i : Nat) (s : Submission) (outcome : Invocation) (hqueue : c'.queue = c.queue)
      (htickets : c'.tickets = c.tickets) (hs : c.care? i = some (s, true))
      (hcare : c'.care? = Function.update c.care? i none) :
      Carries c c' (some (.finished i s outcome))

theorem submitStep_counting {source : ContextId} {place : SubmitPlace}
    (h : submitStep source me w place = some (w', .going .counting)) :
    ∃ task, place = .pushing task := by
  cases submitStep_goes h with
  | pushed task => exact ⟨task, rfl⟩

theorem StartPlace.errand_ne_owing (place : StartPlace) : place.errand ≠ .owing := by
  cases place with
  | locking | trying | sending | unlocking => rintro ⟨⟩

theorem LookPlace.errand_ne_owing (place : LookPlace) : place.errand ≠ .owing := by
  cases place with
  | locking | looking | unlocking => rintro ⟨⟩

theorem DismissPlace.errand_ne_owing (place : DismissPlace) : place.errand ≠ .owing := by
  cases place with
  | locking | taking | telling | awaiting => rintro ⟨⟩

theorem HirePlace.errand_ne_owing (place : HirePlace) : place.errand ≠ .owing := by
  cases place with
  | creating | locking | pushing => rintro ⟨⟩

theorem DrivePlace.errand_ne_owing (place : DrivePlace) : place.errand ≠ .owing := by
  cases place with
  | measuring => rintro ⟨⟩
  | starting place => exact place.errand_ne_owing

theorem JoinAllPlace.errand_ne_owing (place : JoinAllPlace) : place.errand ≠ .owing := by
  cases place with
  | driving _ place => exact place.errand_ne_owing
  | looking _ place => exact place.errand_ne_owing
  | _ => rintro ⟨⟩

theorem ShutdownPlace.errand_ne_owing (place : ShutdownPlace) : place.errand ≠ .owing := by
  cases place with
  | dismissing place => exact place.errand_ne_owing
  | _ => rintro ⟨⟩

theorem Asking.of_owing {a : Asking} (h : a.errand = .owing) :
    ∃ source, a = .submit source .counting := by
  cases a with
  | submit source place =>
      cases place with
      | counting => exact ⟨source, rfl⟩
      | starting place => exact absurd h place.errand_ne_owing
      | checking | locking | reading | tagging | unlocking | pushing | notifying => cases h
  | join function place =>
      cases place with
      | looking _ _ place => exact absurd h place.errand_ne_owing
      | driving _ place => exact absurd h place.errand_ne_owing
      | checking | sampling | searching | confirming | rechecking | waiting => cases h
  | joinAll place => exact absurd h place.errand_ne_owing
  | resize count place =>
      cases place with
      | joining _ place => exact absurd h place.errand_ne_owing
      | dismissing _ place => exact absurd h place.errand_ne_owing
      | hiring _ place => exact absurd h place.errand_ne_owing
      | driving _ place | drivingOn _ place => exact absurd h place.errand_ne_owing
      | checking | reading | locking | placing | storing | failing | surveying | keeping => cases h
  | acquire | release | refused => cases h

theorem World.asking?_of_owing (h : w.errand me = .owing) :
    ∃ source, w.asking? me = some (.submit source .counting) := by
  cases hask : w.asking? me with
  | some a =>
      rw [World.errand_of_asking hask] at h
      obtain ⟨source, rfl⟩ := Asking.of_owing h
      exact ⟨source, rfl⟩
  | none =>
      exfalso
      rw [World.errand_eq_view] at h
      rw [World.asking?_eq_view] at hask
      cases me with
      | worker i =>
          simp only [Crew.view] at h hask
          rw [WorkerPlace.errand_eq, hask] at h
          cases h
      | host host =>
          simp only [Crew.view] at h hask
          generalize w.crew.hosts[host]? = place? at h hask
          rcases place? with _ | place
          · cases h
          · cases place with
            | free => cases h
            | asking => cases hask
            | opening place =>
                cases place with
                | hiring place => exact place.errand_ne_owing h
                | closing e place => exact place.errand_ne_owing h
            | closing place => exact place.errand_ne_owing h
            | measuring place =>
                cases place with
                | locking | counting | naming | unlocking | queue | sections | submitted
                | completed | failed | flag => cases h
            | running activity =>
                obtain ⟨x, a?⟩ := activity
                cases hask
                cases h

theorem askingStep_submit {source : ContextId} {place' : SubmitPlace} {a : Asking}
    (h : askingStep pick me w a = some (w', .going (.submit source place'))) :
    ∃ place, a = .submit source place ∧ submitStep source me w place = some (w', .going place') := by
  cases askingStep_goes h with
  | submits hs => exact ⟨_, rfl, hs⟩

theorem World.pushing_of_owing (h : w.advance library pick me = some w')
    (howing : w'.errand me = .owing) :
    ∃ source task, w.asking? me = some (.submit source (.pushing task)) := by
  obtain ⟨source, hcounting⟩ := World.asking?_of_owing howing
  cases hask : w.asking? me with
  | none =>
      obtain ⟨r, source', heq⟩ := World.advance_fresh hask h hcounting
      have haway := Request.begin_errand source' r
      rw [← heq] at haway
      cases haway
  | some a =>
      obtain ⟨v, stage, hs, -, -, hstage⟩ := World.advance_asking hask h
      rw [hcounting] at hstage
      cases stage with
      | «over» => cases hstage
      | going a' =>
          cases hstage
          obtain ⟨place, rfl, hplace⟩ := askingStep_submit hs
          obtain ⟨task, rfl⟩ := submitStep_counting hplace
          exact ⟨source, task, rfl⟩

theorem TaskPlace.Moves.deed (once : Bool) {p p' : TaskPlace} (h : p.Moves s p')
    (queue : List Submission) (i : Nat) :
    ((WorkerPlace.executing once s p).deed? queue i = none ∧
      p'.isOpen = p.isOpen ∧ p'.hasStarted = p.hasStarted) ∨
    ((WorkerPlace.executing once s p).deed? queue i = some (.started i s) ∧
      p.isOpen = true ∧ p.hasStarted = false ∧ p'.isOpen = true ∧ p'.hasStarted = true) ∨
    ((∃ name value, (WorkerPlace.executing once s p).deed? queue i = some (.wrote s name value)) ∧
      p.isOpen = true ∧ p.hasStarted = true ∧ p'.isOpen = true ∧ p'.hasStarted = true) := by
  cases h with
  | prepare activity => exact .inr (.inl ⟨rfl, rfl, rfl, rfl, rfl⟩)
  | write outcome name names results =>
      exact .inr (.inr ⟨⟨name, firstResult results, rfl⟩, rfl, rfl, rfl, rfl⟩)
  | finish | lock | lockErrored | written | unlock | count | replace => exact .inl ⟨rfl, rfl, rfl⟩

theorem Crew.Own.carries (h : Crew.Own i c hand c₁ hand') (hhand : c.hands[i]? = some hand) :
    Crew.Carries c (c₁.put i hand') (hand.place.deed? c.queue i) := by
  have hhand₁ : c₁.hands[i]? = some hand := by rw [h.hands_eq, hhand]
  have hcare₁ : c₁.care? = c.care? := by
    funext j
    rw [Crew.care?, Crew.care?, h.hands_eq]
  have hcare : c.care? i = hand.place.care? := by rw [Crew.care?, hhand, Option.bind_some]
  have hput : (c₁.put i hand').care? = Function.update c.care? i hand'.place.care? := by
    rw [Crew.put_care hhand₁, hcare₁]
  have hsame (heq : hand'.place.care? = hand.place.care?) : (c₁.put i hand').care? = c.care? := by
    rw [hput, heq, ← hcare, Function.update_eq_self]
  cases h with
  | move p hp =>
      revert hcare hsame
      generalize hand.place = place at hp
      intro hcare hsame
      cases hp with
      | begin | measure | compare | check | exit => exact .still rfl rfl (hsame rfl)
      | task once s hmoves =>
          rcases hmoves.deed once c.queue i with ⟨hnone, hopen, hstarted⟩ |
            ⟨hstart, hopen, hstarted, hopen', hstarted'⟩ |
            ⟨⟨name, value, hwrite⟩, hopen, hstarted, hopen', hstarted'⟩
          · rw [hnone]
            exact .still rfl rfl (hsame (by simp only [WorkerPlace.care?, hopen, hstarted]))
          · rw [hstart]
            refine .start i s rfl rfl ?_ ?_
            · simp [hcare, WorkerPlace.care?, hopen, hstarted]
            · simp [hput, WorkerPlace.care?, hopen', hstarted']
          · rw [hwrite]
            refine .write i s name value rfl rfl ?_ (hsame ?_)
            · simp [hcare, WorkerPlace.care?, hopen, hstarted]
            · simp [WorkerPlace.care?, hopen, hstarted, hopen', hstarted']
  | receive command rest hplace =>
      rw [hplace] at hsame ⊢
      refine .still rfl rfl (hsame ?_)
      cases command with
      | run | stop => rfl
  | leave once hplace hqueue =>
      rcases hplace with hplace | hplace
      · rw [hplace] at hsame ⊢
        exact .still rfl rfl (hsame rfl)
      · rw [hplace] at hsame ⊢
        rw [WorkerPlace.deed?, hqueue]
        exact .still rfl rfl (hsame rfl)
  | pop once s rest hplace _ hqueue =>
      rw [hplace, WorkerPlace.deed?, hqueue]
      refine .claim i s hqueue rfl ?_ hput
      rw [hcare, hplace]
      rfl
  | report once s hplace =>
      rw [hplace] at hsame ⊢
      refine .still rfl rfl (hsame ?_)
      cases once with
      | false | true => rfl
  | publish once s hplace | unlockQueue once s hplace | clear once s hplace | rest hplace
  | announce hplace =>
      rw [hplace] at hsame ⊢
      exact .still rfl rfl (hsame rfl)
  | fail once s outcome hplace | complete once s outcome hplace =>
      rw [hplace] at hcare ⊢
      exact .finish i s outcome rfl rfl hcare hput

theorem World.advance_carries (h : w.advance library pick thread = some w') :
    Crew.Carries w.scene w'.scene (w.deed? thread) := by
  cases World.advance_stride h with
  | own hme hhand hown hscene _ _ hidle =>
      subst hme
      rw [World.deed?_of_own hidle hhand, hscene]
      exact hown.carries hhand
  | errand hcode hstep =>
      rcases World.deed?_of_inCode hcode with hnone | ⟨source, task, hask, hpush⟩
      · rw [hnone]
        have hcare := hstep.care_eq
        have hpush (howing : w'.errand thread = .owing) :
            ∃ s, w.deed? thread = some (.pushed s) := by
          obtain ⟨source, task, hask⟩ := World.pushing_of_owing h howing
          refine ⟨⟨w.tickets, task⟩, ?_⟩
          simp only [World.deed?, hask]
        revert hstep hcare hpush
        generalize w.scene = c, w'.scene = c', w.errand thread = e, w'.errand thread = e'
        intro hstep hcare hpush
        cases hstep with
        | push task =>
            obtain ⟨s, hs⟩ := hpush rfl
            rw [hnone] at hs
            cases hs
        | still | count | notify | lock | lockHired | skip | stop | raise | send | hold | unlock
        | take | tell | hire | add => exact .still rfl rfl hcare
      · rw [hpush]
        have hscene := World.advance_push hask h
        exact .push task (by rw [hscene]; rfl) (by rw [hscene]; rfl) (by rw [hscene]; rfl)

/-- What happened to the tasks, by the places where they are now. -/
structure Kept (c : Crew) (log : List Deed) : Prop where
  tickets : (pushes log).map (·.ticket) = List.range c.tickets
  order : pushes log = claims log ++ c.queue
  known : ∀ t ∈ log, t.submission.ticket < c.tickets
  queued : ∀ s ∈ c.queue, life log s = [.pushed s]
  claimed : ∀ {i s}, c.care? i = some (s, false) → life log s = [.pushed s, .claimed i s]
  started : ∀ {i s}, c.care? i = some (s, true) →
    life log s = [.pushed s, .claimed i s, .started i s]
  covered : ∀ s ∈ pushes log, s ∈ c.queue ∨ (∃ i started, c.care? i = some (s, started)) ∨
    ∃ i outcome, life log s = [.pushed s, .claimed i s, .started i s, .finished i s outcome]

theorem Deed.isStageOf_congr (h : s'.ticket = s.ticket) (d : Deed) :
    d.isStageOf s' = d.isStageOf s := by
  cases d with
  | wrote => rfl
  | pushed | claimed | started | finished => simp only [Deed.isStageOf, h]

theorem life_congr (h : s'.ticket = s.ticket) : life log s' = life log s :=
  List.filter_congr fun d _ => d.isStageOf_congr h

theorem life_snoc (log : List Deed) (t : Deed) (s : Submission) :
    life (log ++ [t]) s = life log s ++ if t.isStageOf s then [t] else [] := by
  rw [life, List.filter_append, life]
  congr 1
  by_cases h : t.isStageOf s = true
  · rw [if_pos h, List.filter_cons_of_pos h, List.filter_nil]
  · rw [if_neg h, List.filter_cons_of_neg h, List.filter_nil]

theorem life_snoc_self (h : t.submission = s) (hpair : t.pair? = none) :
    life (log ++ [t]) s = life log s ++ [t] := by
  have hstage : t.isStageOf s = true := by
    cases t with
    | wrote => cases hpair
    | pushed | claimed | started | finished => exact decide_eq_true (congrArg (·.ticket) h)
  rw [life_snoc, if_pos hstage]

theorem Deed.isStageOf_of_ne (h : t.submission.ticket ≠ s.ticket) : t.isStageOf s = false := by
  cases t with
  | wrote => rfl
  | pushed | claimed | started | finished => exact decide_eq_false h

theorem life_snoc_of_ne (h : t.submission.ticket ≠ s.ticket) : life (log ++ [t]) s = life log s := by
  rw [life_snoc, Deed.isStageOf_of_ne h]
  exact List.append_nil _

theorem pushes_snoc (log : List Deed) (t : Deed) :
    pushes (log ++ [t]) = pushes log ++ t.pushed?.toList := by
  cases t with
  | pushed | claimed | started | wrote | finished => simp [pushes, Deed.pushed?]

theorem claims_snoc (log : List Deed) (t : Deed) :
    claims (log ++ [t]) = claims log ++ t.claimed?.toList := by
  cases t with
  | pushed | claimed | started | wrote | finished => simp [claims, Deed.claimed?]

theorem mem_of_life {rest : List Deed} (h : life log s = t :: rest) : t ∈ log := by
  have hmem : t ∈ life log s := by simp [h]
  exact (List.mem_filter.mp hmem).1

namespace Kept

variable (hk : Kept c log)
include hk

theorem known_snoc {tickets : Nat} (hle : c.tickets ≤ tickets) (ht : t.submission.ticket < tickets) :
    ∀ t' ∈ log ++ [t], t'.submission.ticket < tickets := by
  intro t' ht'
  rw [List.mem_append, List.mem_singleton] at ht'
  rcases ht' with ht' | rfl
  · exact (hk.known t' ht').trans_le hle
  · exact ht

theorem ticket_ne_of_queue {rest : List Submission} (hqueue : c.queue = s :: rest) :
    ∀ s' ∈ rest, s.ticket ≠ s'.ticket := by
  have hnodup : ((pushes log).map (·.ticket)).Nodup := hk.tickets ▸ List.nodup_range
  rw [hk.order, hqueue, List.map_append, List.map_cons, List.nodup_append,
    List.nodup_cons] at hnodup
  intro s' hs' heq
  exact hnodup.2.1.1 (List.mem_map.mpr ⟨s', hs', heq.symm⟩)

theorem care_life {started : Bool} (h : c.care? i = some (s, started)) :
    ∃ rest, life log s = .pushed s :: .claimed i s :: rest := by
  cases started with
  | false => exact ⟨[], hk.claimed h⟩
  | true => exact ⟨[.started i s], hk.started h⟩

theorem not_queued {started : Bool} (h : c.care? i = some (s, started)) :
    ∀ s' ∈ c.queue, s'.ticket ≠ s.ticket := by
  intro s' hs' heq
  obtain ⟨rest, hlife⟩ := hk.care_life h
  rw [← life_congr heq, hk.queued s' hs'] at hlife
  cases hlife

theorem care_unique {started started' : Bool} (h : c.care? i = some (s, started))
    (h' : c.care? j = some (s', started')) (heq : s'.ticket = s.ticket) : i = j := by
  obtain ⟨rest, hlife⟩ := hk.care_life h
  obtain ⟨rest', hlife'⟩ := hk.care_life h'
  rw [life_congr heq, hlife] at hlife'
  cases hlife'
  rfl

theorem not_counted {started : Bool} {outcome : Invocation} (h : c.care? i = some (s, started))
    (heq : s.ticket = s'.ticket) :
    life log s' ≠ [.pushed s', .claimed j s', .started j s', .finished j s' outcome] := by
  intro hlife
  rw [← life_congr heq] at hlife
  cases started with
  | false =>
      rw [hk.claimed h] at hlife
      cases hlife
  | true =>
      rw [hk.started h] at hlife
      cases hlife

theorem still (hqueue : c'.queue = c.queue) (htickets : c'.tickets = c.tickets)
    (hcare : c'.care? = c.care?) : Kept c' log := by
  constructor
  case tickets =>
    rw [htickets]
    exact hk.tickets
  case order =>
    rw [hqueue]
    exact hk.order
  case known =>
    rw [htickets]
    exact hk.known
  case queued =>
    rw [hqueue]
    exact hk.queued
  case claimed =>
    rw [hcare]
    exact hk.claimed
  case started =>
    rw [hcare]
    exact hk.started
  case covered =>
    rw [hqueue, hcare]
    exact hk.covered

theorem push (task : Task) (hqueue : c'.queue = c.queue ++ [⟨c.tickets, task⟩])
    (htickets : c'.tickets = c.tickets + 1) (hcare : c'.care? = c.care?) :
    Kept c' (log ++ [.pushed ⟨c.tickets, task⟩]) := by
  have hold {s : Submission} (h : .pushed s ∈ log) :
      life (log ++ [.pushed ⟨c.tickets, task⟩]) s = life log s := by
    have hlt : s.ticket < c.tickets := hk.known _ h
    exact life_snoc_of_ne (Nat.ne_of_gt hlt)
  have hnew : life log ⟨c.tickets, task⟩ = [] := by
    refine List.filter_eq_nil_iff.mpr fun t ht => ?_
    rw [Deed.isStageOf_of_ne (s := ⟨c.tickets, task⟩) (Nat.ne_of_lt (hk.known t ht))]
    exact Bool.false_ne_true
  constructor
  case tickets =>
    rw [pushes_snoc, List.map_append, hk.tickets, htickets, List.range_succ]
    rfl
  case order =>
    rw [pushes_snoc, claims_snoc, hk.order, hqueue]
    simp [Deed.pushed?, Deed.claimed?]
  case known =>
    rw [htickets]
    exact hk.known_snoc (Nat.le_succ _) (Nat.lt_succ_self _)
  case queued =>
    intro s hs
    rw [hqueue, List.mem_append, List.mem_singleton] at hs
    rcases hs with hs | rfl
    · rw [hold (mem_of_life (hk.queued s hs)), hk.queued s hs]
    · rw [life_snoc_self (s := ⟨c.tickets, task⟩) rfl rfl, hnew]
      rfl
  case claimed =>
    intro i s hs
    rw [hcare] at hs
    rw [hold (mem_of_life (hk.claimed hs)), hk.claimed hs]
  case started =>
    intro i s hs
    rw [hcare] at hs
    rw [hold (mem_of_life (hk.started hs)), hk.started hs]
  case covered =>
    intro s hs
    rw [pushes_snoc, List.mem_append] at hs
    rw [hqueue, hcare, List.mem_append]
    rcases hs with hs | hs
    · rw [hold (mem_pushes.mp hs)]
      rcases hk.covered s hs with h | h | h
      · exact .inl (.inl h)
      · exact .inr (.inl h)
      · exact .inr (.inr h)
    · simp only [Deed.pushed?, Option.toList_some] at hs
      exact .inl (.inr hs)

theorem claim (hqueue : c.queue = s :: c'.queue) (htickets : c'.tickets = c.tickets)
    (hfree : c.care? i = none) (hcare : c'.care? = Function.update c.care? i (some (s, false))) :
    Kept c' (log ++ [.claimed i s]) := by
  have hlife : life log s = [.pushed s] := hk.queued s (hqueue ▸ List.mem_cons_self)
  -- nothing but the push has happened to the task that is claimed
  have hother {s' : Submission} {t t' : Deed} {rest : List Deed}
      (h : life log s' = t :: t' :: rest) : life (log ++ [.claimed i s]) s' = life log s' := by
    refine life_snoc_of_ne fun heq => ?_
    have hsame : life log s = life log s' := life_congr heq
    rw [hlife, h] at hsame
    cases hsame
  constructor
  case tickets =>
    rw [pushes_snoc, htickets]
    simpa [Deed.pushed?] using hk.tickets
  case order =>
    rw [pushes_snoc, claims_snoc, hk.order, hqueue]
    simp [Deed.pushed?, Deed.claimed?]
  case known =>
    rw [htickets]
    exact hk.known_snoc le_rfl (hk.known (.pushed s) (mem_of_life hlife))
  case queued =>
    intro s' hs'
    rw [life_snoc_of_ne (t := .claimed i s) (hk.ticket_ne_of_queue hqueue s' hs')]
    exact hk.queued s' (hqueue ▸ List.mem_cons_of_mem _ hs')
  case claimed =>
    intro j s' hs'
    rw [hcare, Function.update_apply] at hs'
    split at hs'
    · next hj =>
        cases hs'
        rw [life_snoc_self (s := s) rfl rfl, hlife, hj]
        rfl
    · rw [hother (hk.claimed hs'), hk.claimed hs']
  case started =>
    intro j s' hs'
    rw [hcare, Function.update_apply] at hs'
    split at hs'
    · cases hs'
    · rw [hother (hk.started hs'), hk.started hs']
  case covered =>
    intro s' hs'
    have hs' : s' ∈ pushes log := by simpa [pushes_snoc, Deed.pushed?] using hs'
    rcases hk.covered s' hs' with h | ⟨j, started, h⟩ | ⟨j, outcome, h⟩
    · rw [hqueue, List.mem_cons] at h
      rcases h with rfl | h
      · exact .inr (.inl ⟨i, false, by rw [hcare, Function.update_self]⟩)
      · exact .inl h
    · refine .inr (.inl ⟨j, started, ?_⟩)
      rw [hcare, Function.update_of_ne, h]
      rintro rfl
      rw [hfree] at h
      cases h
    · exact .inr (.inr ⟨j, outcome, by rw [hother h, h]⟩)

theorem write {name : String} {value : Value} (hqueue : c'.queue = c.queue)
    (htickets : c'.tickets = c.tickets) (hs : c.care? i = some (s, true))
    (hcare : c'.care? = c.care?) : Kept c' (log ++ [.wrote s name value]) := by
  have hk' := hk.still hqueue htickets hcare
  have hlife (s' : Submission) : life (log ++ [.wrote s name value]) s' = life log s' := by
    rw [life_snoc]
    exact List.append_nil _
  have hpushes : pushes (log ++ [.wrote s name value]) = pushes log := by
    rw [pushes_snoc]
    exact List.append_nil _
  have hclaims : claims (log ++ [.wrote s name value]) = claims log := by
    rw [claims_snoc]
    exact List.append_nil _
  constructor
  case tickets =>
    rw [hpushes]
    exact hk'.tickets
  case order =>
    rw [hpushes, hclaims]
    exact hk'.order
  case known =>
    obtain ⟨rest, hrest⟩ := hk.care_life hs
    rw [htickets]
    exact hk.known_snoc le_rfl (hk.known (.pushed s) (mem_of_life hrest))
  case queued =>
    intro s' hs'
    rw [hlife]
    exact hk'.queued s' hs'
  case claimed =>
    intro j s' hs'
    rw [hlife]
    exact hk'.claimed hs'
  case started =>
    intro j s' hs'
    rw [hlife]
    exact hk'.started hs'
  case covered =>
    intro s' hs'
    rw [hpushes] at hs'
    rw [hlife]
    exact hk'.covered s' hs'

theorem onward {next? : Option (Submission × Bool)} {started : Bool}
    (hqueue : c'.queue = c.queue) (htickets : c'.tickets = c.tickets)
    (hs : c.care? i = some (s, started)) (hcare : c'.care? = Function.update c.care? i next?)
    (ht : t.submission = s) (hpair : t.pair? = none) (hpushed : t.pushed? = none)
    (hclaimed : t.claimed? = none)
    (hnext : (next? = some (s, true) ∧
        life log s ++ [t] = [.pushed s, .claimed i s, .started i s]) ∨
      (next? = none ∧ ∃ outcome,
        life log s ++ [t] = [.pushed s, .claimed i s, .started i s, .finished i s outcome])) :
    Kept c' (log ++ [t]) := by
  have hpushes : pushes (log ++ [t]) = pushes log := by
    rw [pushes_snoc, hpushed, Option.toList_none, List.append_nil]
  have hclaims : claims (log ++ [t]) = claims log := by
    rw [claims_snoc, hclaimed, Option.toList_none, List.append_nil]
  have hother {j : Nat} {s' : Submission} {started' : Bool} (hj : j ≠ i)
      (h : c.care? j = some (s', started')) : life (log ++ [t]) s' = life log s' := by
    refine life_snoc_of_ne fun heq => ?_
    rw [ht] at heq
    exact hj (hk.care_unique hs h heq.symm).symm
  have hself : life (log ++ [t]) s = life log s ++ [t] := life_snoc_self ht hpair
  constructor
  case tickets => rw [hpushes, htickets, hk.tickets]
  case order => rw [hpushes, hclaims, hqueue, hk.order]
  case known =>
    obtain ⟨rest, hlife⟩ := hk.care_life hs
    rw [htickets]
    refine hk.known_snoc le_rfl ?_
    rw [ht]
    exact hk.known (.pushed s) (mem_of_life hlife)
  case queued =>
    intro s' hs'
    rw [hqueue] at hs'
    rw [life_snoc_of_ne (ht ▸ (hk.not_queued hs s' hs').symm), hk.queued s' hs']
  case claimed =>
    intro j s' hs'
    rw [hcare, Function.update_apply] at hs'
    split at hs'
    · rcases hnext with ⟨rfl, -⟩ | ⟨rfl, -⟩
      · cases hs'
      · cases hs'
    · next hj => rw [hother hj hs', hk.claimed hs']
  case started =>
    intro j s' hs'
    rw [hcare, Function.update_apply] at hs'
    split at hs'
    · next hj =>
        subst hj
        rcases hnext with ⟨rfl, hlife⟩ | ⟨rfl, -⟩
        · cases hs'
          rw [hself, hlife]
        · cases hs'
    · next hj => rw [hother hj hs', hk.started hs']
  case covered =>
    intro s' hs'
    rw [hpushes] at hs'
    rw [hqueue, hcare]
    rcases hk.covered s' hs' with h | ⟨j, started', h⟩ | ⟨j, outcome, h⟩
    · exact .inl h
    · by_cases hj : j = i
      · subst hj
        rw [hs] at h
        cases h
        rcases hnext with ⟨rfl, -⟩ | ⟨-, outcome, hlife⟩
        · exact .inr (.inl ⟨j, true, Function.update_self ..⟩)
        · exact .inr (.inr ⟨j, outcome, by rw [hself, hlife]⟩)
      · exact .inr (.inl ⟨j, started', by rw [Function.update_of_ne hj, h]⟩)
    · refine .inr (.inr ⟨j, outcome, ?_⟩)
      rw [life_snoc_of_ne fun heq => hk.not_counted hs (ht ▸ heq) h, h]

theorem carries {m : Option Deed} (h : Crew.Carries c c' m) : Kept c' (log ++ m.toList) := by
  cases h with
  | still hqueue htickets hcare =>
      rw [Option.toList_none, List.append_nil]
      exact hk.still hqueue htickets hcare
  | push task hqueue htickets hcare => exact hk.push task hqueue htickets hcare
  | claim i s hqueue htickets hfree hcare => exact hk.claim hqueue htickets hfree hcare
  | start i s hqueue htickets hs hcare =>
      exact hk.onward hqueue htickets hs hcare rfl rfl rfl rfl
        (.inl ⟨rfl, by rw [hk.claimed hs]; rfl⟩)
  | write i s name value hqueue htickets hs hcare => exact hk.write hqueue htickets hs hcare
  | finish i s outcome hqueue htickets hs hcare =>
      exact hk.onward hqueue htickets hs hcare rfl rfl rfl rfl
        (.inr ⟨rfl, outcome, by rw [hk.started hs]; rfl⟩)

end Kept

/-- The counters of the coordinator say what was counted. -/
structure Tallied (w : World) (log : List Deed) : Prop where
  completed : w.completed = log.countP Deed.completes
  failed : w.failed = log.countP Deed.fails

theorem WorkerPlace.of_bare_countingTotal {p : WorkerPlace} {once : Bool} {outcome : Invocation}
    (h : p.bare = .executing once s (.countingTotal outcome)) :
    p = .executing once s (.countingTotal outcome) := by
  cases p with
  | executing once' s' p =>
      cases p with
      | countingTotal =>
          cases h
          rfl
      | _ => cases h
  | _ => cases h

theorem World.advance_countingTotal {worker : Worker} {once : Bool} {outcome : Invocation}
    (hworker : w.workers[i]? = some worker)
    (hplace : worker.place = .executing once s (.countingTotal outcome))
    (h : w.advance library pick (.worker i) = some w') :
    w'.completed = w.completed + [Deed.finished i s outcome].countP Deed.completes ∧
      w'.failed = w.failed + [Deed.finished i s outcome].countP Deed.fails := by
  simp only [World.advance, hworker, Option.bind_some, workerStep, hplace] at h
  cases outcome with
  | completed | suspended | errored =>
      cases h
      exact ⟨rfl, rfl⟩

theorem Crew.Step.counters_eq {e e' : Errand} (h : Crew.Step me c e c' e') :
    c'.completed = c.completed ∧ c'.failed = c.failed := by
  cases h with
  | still | push | count | notify | lock | lockHired | skip | stop | raise | send | hold
  | unlock | take | tell | hire | add => exact ⟨rfl, rfl⟩

theorem World.advance_tally (h : w.advance library pick thread = some w') :
    w'.completed = w.completed + (w.deed? thread).toList.countP Deed.completes ∧
      w'.failed = w.failed + (w.deed? thread).toList.countP Deed.fails := by
  cases World.advance_stride h with
  | errand hcode hstep =>
      have hcounters : w'.completed = w.completed ∧ w'.failed = w.failed := hstep.counters_eq
      rcases World.deed?_of_inCode hcode with hm | ⟨_, _, -, hm⟩
      · rw [hm]
        exact hcounters
      · rw [hm]
        exact hcounters
  | @own i hand hand' c₁ hme hhand hown hscene _ _ hidle =>
      subst hme
      have hm := World.deed?_of_own hidle hhand
      have hcompleted : w'.completed = c₁.completed := congrArg Crew.completed hscene
      have hfailed : w'.failed = c₁.failed := congrArg Crew.failed hscene
      by_cases hcounting : ∃ once s outcome,
          hand.place = .executing once s (.countingTotal outcome)
      · obtain ⟨once, s, outcome, hplace⟩ := hcounting
        rw [hm, hplace]
        obtain ⟨worker, hworker, rfl⟩ := World.worker_of_scene_hands hhand
        exact World.advance_countingTotal hworker (WorkerPlace.of_bare_countingTotal hplace) h
      · have hnone : (hand.place.deed? w.queue i).toList.countP Deed.completes = 0 ∧
            (hand.place.deed? w.queue i).toList.countP Deed.fails = 0 := by
          unfold WorkerPlace.deed?
          split
          · cases w.queue with
            | nil | cons => exact ⟨rfl, rfl⟩
          · exact ⟨rfl, rfl⟩
          · exact ⟨rfl, rfl⟩
          · next heq => exact absurd ⟨_, _, _, heq⟩ hcounting
          · exact ⟨rfl, rfl⟩
        rw [hm, hnone.1, hnone.2, hcompleted, hfailed]
        cases hown with
        | fail once s outcome hplace | complete once s outcome hplace =>
            exact absurd ⟨once, s, outcome, hplace⟩ hcounting
        | move | receive | leave | pop | publish | unlockQueue | clear | report | rest
        | announce => exact ⟨rfl, rfl⟩

variable {u v : World} {moves moves' : List Move} {engine : Engine} {main : ContextId}
  {poolSize others : Nat}

theorem Run.kept (h : Run library (World.initial engine main poolSize others) moves w) :
    Kept w.scene ((World.initial engine main poolSize others).deeds library moves) := by
  refine h.keeps_notes (P := fun w log => Kept w.scene log)
    (fun hk hadv => hk.carries (World.advance_carries hadv))
    (fun hk hstir => by rw [hstir.scene_eq]; exact hk) ?_
  have hcare (i : Nat) : (World.initial engine main poolSize others).scene.care? i = none := by
    simp [Crew.care?]
  constructor
  case tickets => rfl
  case order => rfl
  case known => rintro _ ⟨⟩
  case queued => rintro _ ⟨⟩
  case claimed =>
    intro i s hs
    rw [hcare] at hs
    cases hs
  case started =>
    intro i s hs
    rw [hcare] at hs
    cases hs
  case covered => rintro _ ⟨⟩

theorem Run.tally (h : Run library u moves w) :
    w.completed = u.completed + (u.deeds library moves).countP Deed.completes ∧
      w.failed = u.failed + (u.deeds library moves).countP Deed.fails := by
  refine h.keeps_notes (P := fun w log => w.completed = u.completed + log.countP
    Deed.completes ∧ w.failed = u.failed + log.countP Deed.fails) ?_ ?_ ⟨rfl, rfl⟩
  · rintro pick thread v v' log ⟨hcompleted, hfailed⟩ hadvance
    obtain ⟨hcompleted', hfailed'⟩ := World.advance_tally hadvance
    rw [List.countP_append, List.countP_append]
    omega
  · rintro v v' log ⟨hcompleted, hfailed⟩ hstir
    exact ⟨(congrArg Crew.completed hstir.scene_eq).trans hcompleted,
      (congrArg Crew.failed hstir.scene_eq).trans hfailed⟩

theorem Run.tallied (h : Run library (World.initial engine main poolSize others) moves w) :
    Tallied w ((World.initial engine main poolSize others).deeds library moves) := by
  obtain ⟨hcompleted, hfailed⟩ := h.tally
  exact ⟨hcompleted.trans (Nat.zero_add _), hfailed.trans (Nat.zero_add _)⟩

end ScriptPool
