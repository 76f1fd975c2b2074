import ScriptPool.Proofs.Pool.Stride

/-!
The discipline of the pool's lock and of the workers' flags.

`Disciplined` holds in every world that a coordinator reaches: whoever goes about the pool has it
locked, a worker that is in a run has its flag raised and no further run ahead of it, and a worker
that is being hired is at rest and in nobody else's hands.
-/

namespace ScriptPool

theorem Run.keeps {library : Library} {start w : World} {moves : List Move}
    {P : Crew → (ThreadId → Errand) → Prop} (hstart : P start.scene start.errand)
    (hstep : ∀ me v v', Stride me v v' → P v.scene v.errand → P v'.scene v'.errand)
    (h : Run library start moves w) : P w.scene w.errand := by
  induction h with
  | start => exact hstart
  | move _ m hm ih =>
      rcases World.move?_stride hm with ⟨pick, me, -, -, hstride⟩ | hstir
      · exact hstep me _ _ hstride ih
      · rw [hstir.scene_eq, funext hstir.errand_eq]
        exact ih

/-- What a stride can make of a worker: its flag is raised, it is sent a command, it is new, or it
goes through its own loop. -/
inductive Crew.Touched (me : ThreadId) (c : Crew) (e e' : Errand) (i : Nat) (hand' : Hand) :
    Prop where
  | same (h : c.hands[i]? = some hand')
  | raised {hand : Hand} (h : c.hands[i]? = some hand) (rest : List Nat)
      (he : e = .trying (i :: rest)) (he' : e' = .sending i rest) (hr : hand.running = false)
      (heq : hand' = { hand with running := true })
  | started {hand : Hand} (h : c.hands[i]? = some hand) (rest : List Nat)
      (he : e = .sending i rest) (he' : e' = .trying rest)
      (heq : hand' = { hand with mailbox := hand.mailbox ++ [.run] })
  | stopped {hand : Hand} (h : c.hands[i]? = some hand) (he : e = .away) (he' : e' = .away)
      (heq : hand' = { hand with mailbox := hand.mailbox ++ [.stop] })
  | hired (hi : i = c.hands.length) (he : e = .away) (he' : e' = .hired i)
      (heq : hand' = newHand)
  | own {hand : Hand} {c₁ : Crew} (h : c.hands[i]? = some hand) (hme : me = .worker i)
      (he : e = .away) (he' : e' = .away) (hown : Crew.Own i c hand c₁ hand')

theorem Crew.hands_modify_getElem? (c : Crew) (serial : Nat) (f : Hand → Hand) (i : Nat) :
    (c.modify serial f).hands[i]? =
      (c.hands[i]?).map fun hand => if serial = i then f hand else hand := by
  simp only [Crew.modify, List.getElem?_modify]
  rfl

theorem Crew.Step.touched {me thread : ThreadId} {c c' : Crew} {e e' : Errand} {i : Nat}
    {hand' : Hand} (h : Step me c e c' e') (hi : c'.hands[i]? = some hand') :
    Touched thread c e e' i hand' := by
  cases h with
  | raise serial rest hme hidle =>
      rw [hands_modify_getElem?, Option.map_eq_some_iff] at hi
      obtain ⟨hand, hhand, heq⟩ := hi
      split at heq
      · next hs =>
          subst hs
          refine .raised hhand rest rfl rfl ?_ heq.symm
          simpa [Crew.isRunning, hhand] using hidle
      · exact .same (heq ▸ hhand)
  | send serial rest =>
      rw [hands_modify_getElem?, Option.map_eq_some_iff] at hi
      obtain ⟨hand, hhand, heq⟩ := hi
      split at heq
      · next hs =>
          subst hs
          exact .started hhand rest rfl rfl heq.symm
      · exact .same (heq ▸ hhand)
  | tell serial =>
      rw [hands_modify_getElem?, Option.map_eq_some_iff] at hi
      obtain ⟨hand, hhand, heq⟩ := hi
      split at heq
      · exact .stopped hhand rfl rfl heq.symm
      · exact .same (heq ▸ hhand)
  | hire =>
      by_cases hlt : i < c.hands.length
      · rw [List.getElem?_append_left hlt] at hi
        exact .same hi
      · rw [List.getElem?_append_right (Nat.le_of_not_lt hlt)] at hi
        have hz := (List.getElem?_eq_some_iff.mp hi).1
        rw [List.length_singleton] at hz
        have hlength : i = c.hands.length := by omega
        subst hlength
        simp only [Nat.sub_self, List.getElem?_cons_zero, Option.some.injEq] at hi
        exact .hired rfl rfl rfl hi.symm
  | still | push | count | notify | lock | lockHired | skip | stop | hold | unlock | take | add =>
      exact .same hi

variable {me : ThreadId} {w w' : World} {i : Nat} {hand hand' : Hand}

theorem Crew.Own.hands_eq {serial : Nat} {c c₁ : Crew} (h : Crew.Own serial c hand c₁ hand') :
    c₁.hands = c.hands := by
  cases h with
  | move | receive | leave | pop | publish | unlockQueue | fail | complete | clear | report
  | rest | announce => rfl

theorem Stride.touched (h : Stride me w w') (hi : w'.scene.hands[i]? = some hand') :
    Crew.Touched me w.scene (w.errand me) (w'.errand me) i hand' := by
  cases h with
  | errand _ h _ => exact h.touched hi
  | @own serial _ _ _ hme hhand hown hscene haway herrand =>
      rw [hscene, Crew.put, List.getElem?_set, hown.hands_eq] at hi
      have haway' : w'.errand me = .away := by rw [herrand, haway]
      split at hi
      · next hs =>
          subst hs
          split at hi
          · cases hi
            exact .own hhand hme haway haway' hown
          · cases hi
      · exact .same hi

theorem Crew.Step.hands_length_le {c c' : Crew} {e e' : Errand} (h : Crew.Step me c e c' e') :
    c.hands.length ≤ c'.hands.length := by
  cases h with
  | raise | send | tell => simp [Crew.modify]
  | hire => simp
  | still | push | count | notify | lock | lockHired | skip | stop | hold | unlock | take | add =>
      exact Nat.le_refl _

theorem Stride.hands_length_le (h : Stride me w w') :
    w.scene.hands.length ≤ w'.scene.hands.length := by
  cases h with
  | errand _ h _ => exact h.hands_length_le
  | own _ _ hown hscene => simp [hscene, Crew.put, hown.hands_eq]

/-- Whoever goes about the pool has it locked. -/
def Locked (c : Crew) (errand : ThreadId → Errand) : Prop :=
  ∀ thread, (errand thread).locks = true → c.poolHolder? = some thread

section Lock

variable {c c' : Crew} {e e' : Errand}

theorem Crew.Step.holder (h : Crew.Step me c e c' e')
    (hme : e.locks = true → c.poolHolder? = some me) :
    e'.locks = true → c'.poolHolder? = some me := by
  cases h with
  | lock | lockHired => exact fun _ => rfl
  | skip | stop | raise | send | hold => exact fun _ => hme rfl
  | still | push | count | notify | unlock | take | tell | hire | add => nofun

theorem Crew.Step.holder_of_ne (h : Crew.Step me c e c' e')
    (hme : e.locks = true → c.poolHolder? = some me) {thread : ThreadId} (hne : thread ≠ me)
    (hholder : c.poolHolder? = some thread) : c'.poolHolder? = some thread := by
  have hfalse : c.poolHolder? = some me → c'.poolHolder? = some thread := by
    intro hm
    rw [hholder] at hm
    exact absurd (Option.some.inj hm) hne
  cases h with
  | lock _ hfree | lockHired _ hfree => simp [hholder] at hfree
  | unlock | take | add => exact hfalse (hme rfl)
  | still | push | count | notify | skip | stop | raise | send | hold | tell | hire =>
      exact hholder

theorem Crew.Own.pool_eq (h : Crew.Own i c hand c' hand') :
    c'.pool = c.pool ∧ c'.poolHolder? = c.poolHolder? := by
  cases h with
  | move | receive | leave | pop | publish | unlockQueue | fail | complete | clear | report
  | rest | announce => exact ⟨rfl, rfl⟩

theorem Locked.stride (hl : Locked w.scene w.errand) (h : Stride me w w') :
    Locked w'.scene w'.errand := by
  intro thread hthread
  have hsame : thread ≠ me → w'.errand thread = w.errand thread := h.errand_of_ne
  cases h with
  | errand _ h _ =>
      by_cases hme : thread = me
      · subst hme
        exact h.holder (hl thread) hthread
      · rw [hsame hme] at hthread
        exact h.holder_of_ne (hl me) hme (hl thread hthread)
  | own _ _ hown hscene _ herrand =>
      rw [herrand] at hthread
      rw [hscene, Crew.put, hown.pool_eq.2]
      exact hl thread hthread

theorem Locked.unique {errand : ThreadId → Errand} (hl : Locked c errand)
    {thread thread' : ThreadId} (h : (errand thread).locks = true)
    (h' : (errand thread').locks = true) : thread = thread' := by
  have hholder := hl thread h
  rw [hl thread' h'] at hholder
  exact (Option.some.inj hholder).symm

theorem Locked.unlocked {errand : ThreadId → Errand} (hl : Locked c errand)
    {thread thread' : ThreadId} (h : (errand thread).locks = true) (hne : thread ≠ thread') :
    (errand thread').locks = false := by
  cases hlocks : (errand thread').locks with
  | false => rfl
  | true => exact absurd (hl.unique h hlocks) hne

theorem Locked.pool_eq (hl : Locked w.scene w.errand) (h : Stride me w w')
    {thread : ThreadId} (hne : thread ≠ me) (hthread : (w.errand thread).locks = true) :
    w'.scene.pool = w.scene.pool := by
  have hunlocked := hl.unlocked hthread hne
  cases h with
  | own _ _ hown hscene => rw [hscene, Crew.put, hown.pool_eq.1]
  | errand _ h _ =>
      revert h hunlocked
      generalize w.scene = c, w'.scene = c', w.errand me = e, w'.errand me = e'
      intro hunlocked h
      cases h with
      | take | add => simp [Errand.locks] at hunlocked
      | still | push | count | notify | lock | lockHired | skip | stop | raise | send | hold
      | unlock | tell | hire => rfl

end Lock

/-- Whether the worker is in the middle of a run. -/
def WorkerPlace.isBusy : WorkerPlace → Bool
  | .measuring | .comparing _ | .checking _ | .popping _ | .executing .. | .resting => true
  | .beginning | .receiving | .announcing | .exiting | .gone => false

theorem WorkerPlace.isBusy_bare (p : WorkerPlace) : p.bare.isBusy = p.isBusy :=
  WorkerPlace.apply_bare (f := WorkerPlace.isBusy) (fun _ _ _ => rfl) p

theorem WorkerPlace.asking?_of_idle {p : WorkerPlace} (h : p.isBusy = false) :
    p.asking? = none := by
  cases p with
  | executing => cases h
  | _ => rfl

/-- A run has its flag raised and no other run ahead of it. -/
structure Hand.Sound (hand : Hand) : Prop where
  busy : hand.place.isBusy = true → hand.running = true ∧ .run ∉ hand.mailbox
  mailed : .run ∈ hand.mailbox → hand.running = true ∧ hand.mailbox.count .run = 1

/-- The flag is raised, and the run is still to be commanded. -/
structure Hand.Armed (hand : Hand) : Prop where
  running : hand.running = true
  unmailed : .run ∉ hand.mailbox
  idle : hand.place.isBusy = false

/-- The worker neither runs nor is going to. -/
structure Hand.Resting (hand : Hand) : Prop where
  running : hand.running = false
  unmailed : .run ∉ hand.mailbox
  idle : hand.place.isBusy = false

theorem Hand.Sound.resting (hs : hand.Sound) (hr : hand.running = false) : hand.Resting := by
  refine ⟨hr, fun hm => ?_, ?_⟩
  · have := (hs.mailed hm).1
    simp [hr] at this
  · cases hb : hand.place.isBusy with
    | false => rfl
    | true =>
        have := (hs.busy hb).1
        simp [hr] at this

theorem Hand.Resting.sound (hr : hand.Resting) : hand.Sound :=
  ⟨fun hb => by simp [hr.idle] at hb, fun hm => absurd hm hr.unmailed⟩

theorem Hand.Armed.sound (ha : hand.Armed) : hand.Sound :=
  ⟨fun hb => by simp [ha.idle] at hb, fun hm => absurd hm ha.unmailed⟩

theorem Hand.Sound.of_bare (hs : hand.bare.Sound) : hand.Sound :=
  ⟨fun hb => hs.busy ((WorkerPlace.isBusy_bare hand.place).trans hb), hs.mailed⟩

theorem Hand.Armed.of_bare (ha : hand.bare.Armed) : hand.Armed :=
  ⟨ha.running, ha.unmailed, (WorkerPlace.isBusy_bare hand.place).symm.trans ha.idle⟩

theorem Hand.Resting.of_bare (hr : hand.bare.Resting) : hand.Resting :=
  ⟨hr.running, hr.unmailed, (WorkerPlace.isBusy_bare hand.place).symm.trans hr.idle⟩

theorem Hand.Resting.raised (hr : hand.Resting) : Hand.Armed { hand with running := true } :=
  ⟨rfl, hr.unmailed, hr.idle⟩

theorem Hand.Armed.sent (ha : hand.Armed) :
    Hand.Sound { hand with mailbox := hand.mailbox ++ [.run] } := by
  have hcount := List.count_eq_zero.mpr ha.unmailed
  refine ⟨fun hb => ?_, fun _ => ⟨ha.running, ?_⟩⟩
  · simp [ha.idle] at hb
  · simp [List.count_append, hcount]

theorem Hand.Sound.stopped (hs : hand.Sound) :
    Hand.Sound { hand with mailbox := hand.mailbox ++ [.stop] } := by
  obtain ⟨busy, mailed⟩ := hs
  refine ⟨fun hb => ?_, fun hm => ?_⟩
  · exact ⟨(busy hb).1, by simpa using (busy hb).2⟩
  · obtain ⟨hr, hc⟩ := mailed (by simpa using hm)
    exact ⟨hr, by simpa [List.count_append] using hc⟩

theorem Hand.Armed.stopped (ha : hand.Armed) :
    Hand.Armed { hand with mailbox := hand.mailbox ++ [.stop] } :=
  ⟨ha.running, by simpa using ha.unmailed, ha.idle⟩

theorem Hand.Resting.stopped (hr : hand.Resting) :
    Hand.Resting { hand with mailbox := hand.mailbox ++ [.stop] } :=
  ⟨hr.running, by simpa using hr.unmailed, hr.idle⟩

theorem Crew.newHand_resting : Crew.newHand.Resting :=
  ⟨rfl, by simp [Crew.newHand], rfl⟩

theorem WorkerPlace.Moves.isBusy_eq {p p' : WorkerPlace} (h : p.Moves p') :
    p'.isBusy = p.isBusy := by
  cases h with
  | begin | measure | compare | check | task | exit => rfl

section Own

variable {c c₁ : Crew}

theorem Crew.Own.sound (h : Crew.Own i c hand c₁ hand') (hs : hand.Sound) : hand'.Sound := by
  obtain ⟨busy, mailed⟩ := hs
  cases h with
  | move p hp =>
      refine ⟨?_, mailed⟩
      rw [hp.isBusy_eq]
      exact busy
  | receive command rest hplace hmailbox =>
      rw [hmailbox] at mailed
      cases command with
      | run =>
          obtain ⟨hr, hc⟩ := mailed (by simp)
          rw [List.count_cons_self] at hc
          have hrest : .run ∉ rest := List.count_eq_zero.mp (by omega)
          exact ⟨fun _ => ⟨hr, hrest⟩, fun hm => absurd hm hrest⟩
      | stop =>
          refine ⟨nofun, fun hm => ?_⟩
          obtain ⟨hr, hc⟩ := mailed (List.mem_cons_of_mem _ hm)
          rw [List.count_cons_of_ne (by decide)] at hc
          exact ⟨hr, hc⟩
  | leave once hplace _ =>
      refine ⟨fun _ => busy ?_, mailed⟩
      rcases hplace with h | h
      · rw [h]
        rfl
      · rw [h]
        rfl
  | pop _ _ _ hplace | publish _ _ hplace | unlockQueue _ _ hplace | fail _ _ _ hplace
  | complete _ _ _ hplace | clear _ _ hplace =>
      exact ⟨fun _ => busy (by rw [hplace]; rfl), mailed⟩
  | report once s hplace => exact ⟨fun _ => busy (by rw [hplace]; rfl), mailed⟩
  | rest hplace =>
      obtain ⟨-, hm⟩ := busy (by rw [hplace]; rfl)
      exact ⟨nofun, fun h => absurd h hm⟩
  | announce hplace => exact ⟨nofun, mailed⟩

theorem Crew.Own.idle (h : Crew.Own i c hand c₁ hand') (hm : .run ∉ hand.mailbox)
    (hidle : hand.place.isBusy = false) :
    hand'.running = hand.running ∧ .run ∉ hand'.mailbox ∧ hand'.place.isBusy = false := by
  cases h with
  | move p hp => exact ⟨rfl, hm, by rw [hp.isBusy_eq, hidle]⟩
  | receive command rest hplace hmailbox =>
      rw [hmailbox, List.mem_cons, not_or] at hm
      cases command with
      | run => exact absurd rfl hm.1
      | stop => exact ⟨rfl, hm.2, rfl⟩
  | leave once hplace =>
      rcases hplace with h | h
      · simp [h, WorkerPlace.isBusy] at hidle
      · simp [h, WorkerPlace.isBusy] at hidle
  | pop _ _ _ hplace | publish _ _ hplace | unlockQueue _ _ hplace | fail _ _ _ hplace
  | complete _ _ _ hplace | clear _ _ hplace | report _ _ hplace | rest hplace =>
      simp [hplace, WorkerPlace.isBusy] at hidle
  | announce hplace => exact ⟨rfl, hm, rfl⟩

theorem Crew.Own.armed (h : Crew.Own i c hand c₁ hand') (ha : hand.Armed) : hand'.Armed := by
  obtain ⟨hr, hm, hp⟩ := h.idle ha.unmailed ha.idle
  exact ⟨hr.trans ha.running, hm, hp⟩

theorem Crew.Own.resting (h : Crew.Own i c hand c₁ hand') (hr : hand.Resting) :
    hand'.Resting := by
  obtain ⟨hr', hm, hp⟩ := h.idle hr.unmailed hr.idle
  exact ⟨hr'.trans hr.running, hm, hp⟩

end Own

/-- The workers that a thread may still start. -/
def Errand.targets : Errand → List Nat
  | .trying rest => rest
  | .sending serial rest => serial :: rest
  | _ => []

/-- The worker that a thread is hiring. -/
def Errand.newcomer? : Errand → Option Nat
  | .hired serial | .adding serial => some serial
  | _ => none

/-- What holds of the crew and of the errands of all threads between any two steps. -/
structure Disciplined (c : Crew) (errand : ThreadId → Errand) : Prop where
  locked : Locked c errand
  known : ∀ {i : Nat}, i ∈ c.pool → i < c.hands.length
  sound : ∀ {i : Nat} {hand : Hand}, c.hands[i]? = some hand → hand.Sound
  targets : ∀ thread, (errand thread).targets ⊆ c.pool
  armed : ∀ {thread : ThreadId} {i : Nat} {rest : List Nat} {hand : Hand},
    errand thread = .sending i rest → c.hands[i]? = some hand → hand.Armed
  newcomer : ∀ {thread : ThreadId} {i : Nat}, (errand thread).newcomer? = some i →
    i < c.hands.length ∧ i ∉ c.pool ∧ ∀ hand, c.hands[i]? = some hand → hand.Resting
  alone : ∀ {thread thread' : ThreadId} {i : Nat}, (errand thread).newcomer? = some i →
    (errand thread').newcomer? = some i → thread = thread'

theorem Errand.locks_of_mem_targets {e : Errand} (h : i ∈ e.targets) : e.locks = true := by
  cases e with
  | trying | sending => rfl
  | away | owing | holding | taking | hired | adding => exact absurd h List.not_mem_nil

section Step

variable {c c' : Crew} {e e' : Errand}

theorem Crew.Step.pool_cases (h : Crew.Step me c e c' e') :
    c'.pool = c.pool ∨ c'.pool = [] ∨
      ∃ serial, e = .adding serial ∧ e' = .away ∧ c'.pool = c.pool ++ [serial] := by
  cases h with
  | take => exact .inr (.inl rfl)
  | add serial => exact .inr (.inr ⟨serial, rfl, rfl, rfl⟩)
  | still | push | count | notify | lock | lockHired | skip | stop | raise | send | hold | unlock
  | tell | hire => exact .inl rfl

theorem Crew.Step.newcomer (h : Crew.Step me c e c' e') (hi : e'.newcomer? = some i) :
    (e.newcomer? = some i ∧ c'.hands = c.hands ∧ c'.pool = c.pool) ∨
      (i = c.hands.length ∧ c'.hands = c.hands ++ [newHand] ∧ c'.pool = c.pool) := by
  cases h with
  | lock _ _ he =>
      rcases he with rfl | rfl | rfl
      · simp [Errand.newcomer?] at hi
      · simp [Errand.newcomer?] at hi
      · simp [Errand.newcomer?] at hi
  | lockHired serial => exact .inl ⟨hi, rfl, rfl⟩
  | hire => exact .inr ⟨(Option.some.inj hi).symm, rfl, rfl⟩
  | still | push | count | notify | skip | stop | raise | send | hold | unlock | take | tell
  | add => simp [Errand.newcomer?] at hi

theorem Crew.Step.targets (h : Crew.Step me c e c' e') (ht : e.targets ⊆ c.pool) :
    e'.targets ⊆ c'.pool := by
  cases h with
  | lock _ _ he =>
      rcases he with rfl | rfl | rfl
      · simp [Errand.targets]
      · simp [Errand.targets]
      · simp [Errand.targets]
  | skip serial rest => exact fun i hi => ht (List.mem_cons_of_mem _ hi)
  | send serial rest => exact fun i hi => ht (List.mem_cons_of_mem _ hi)
  | raise => exact ht
  | still | push | count | notify | lockHired | stop | hold | unlock | take | tell | hire | add =>
      simp [Errand.targets]

theorem Crew.Step.sending {rest : List Nat} (h : Crew.Step me c e c' (.sending i rest)) :
    c.isRunning i = false ∧ c' = c.modify i fun hand => { hand with running := true } := by
  cases h with
  | lock _ _ he =>
      rcases he with h | h | h
      · simp at h
      · simp at h
      · simp at h
  | raise _ _ _ hidle => exact ⟨hidle, rfl⟩

end Step

theorem Stride.newcomer_of_own {thread : ThreadId} (h : Stride me w w')
    (hi : (w'.errand thread).newcomer? = some i) :
    (w.errand thread).newcomer? = some i ∨
      (thread = me ∧ i = w.scene.hands.length ∧
        w'.scene.hands = w.scene.hands ++ [Crew.newHand] ∧ w'.scene.pool = w.scene.pool) := by
  by_cases hthread : thread = me
  · subst hthread
    cases h with
    | own _ _ _ _ _ herrand => exact .inl (by rw [← herrand]; exact hi)
    | errand _ h _ =>
        rcases h.newcomer hi with ⟨he, -, -⟩ | hnew
        · exact .inl he
        · exact .inr ⟨rfl, hnew⟩
  · exact .inl (by rw [← h.errand_of_ne hthread]; exact hi)

namespace Disciplined

variable (hd : Disciplined w.scene w.errand) (h : Stride me w w')
include hd h

theorem known_stride (hi : i ∈ w'.scene.pool) : i < w'.scene.hands.length := by
  refine Nat.lt_of_lt_of_le ?_ h.hands_length_le
  cases h with
  | own _ _ hown hscene =>
      rw [hscene, Crew.put, hown.pool_eq.1] at hi
      exact hd.known hi
  | errand _ h _ =>
      rcases h.pool_cases with hp | hp | ⟨serial, he, -, hp⟩
      · exact hd.known (by rw [← hp]; exact hi)
      · simp [hp] at hi
      · rw [hp, List.mem_append, List.mem_singleton] at hi
        rcases hi with hi | rfl
        · exact hd.known hi
        · have hnew : (w.errand me).newcomer? = some i := by
            rw [he]
            rfl
          exact (hd.newcomer hnew).1

theorem sound_stride (hi : w'.scene.hands[i]? = some hand') : hand'.Sound := by
  cases h.touched hi with
  | same hi => exact hd.sound hi
  | raised hi rest _ _ hr heq => exact heq ▸ ((hd.sound hi).resting hr).raised.sound
  | started hi rest he _ heq => exact heq ▸ (hd.armed he hi).sent
  | stopped hi _ _ heq => exact heq ▸ (hd.sound hi).stopped
  | hired _ _ _ heq => exact heq ▸ Crew.newHand_resting.sound
  | own hi _ _ _ hown => exact hown.sound (hd.sound hi)

theorem targets_stride (thread : ThreadId) : (w'.errand thread).targets ⊆ w'.scene.pool := by
  by_cases hthread : thread = me
  · subst hthread
    cases h with
    | errand _ h _ => exact h.targets (hd.targets thread)
    | own _ _ hown hscene _ herrand =>
        rw [herrand, hscene, Crew.put, hown.pool_eq.1]
        exact hd.targets thread
  · rw [h.errand_of_ne hthread]
    intro i hi
    rw [hd.locked.pool_eq h hthread (Errand.locks_of_mem_targets hi)]
    exact hd.targets thread hi

theorem armed_stride {thread : ThreadId} {rest : List Nat}
    (he : w'.errand thread = .sending i rest) (hi : w'.scene.hands[i]? = some hand') :
    hand'.Armed := by
  by_cases hthread : thread = me
  · subst hthread
    cases h with
    | own _ _ _ _ haway herrand =>
        rw [herrand, haway] at he
        cases he
    | errand _ h _ =>
        rw [he] at h
        obtain ⟨hidle, hscene⟩ := h.sending
        rw [hscene, Crew.hands_modify_getElem?, Option.map_eq_some_iff] at hi
        obtain ⟨hand, hi, heq⟩ := hi
        rw [if_pos rfl] at heq
        have hr : hand.running = false := by simpa [Crew.isRunning, hi] using hidle
        exact heq ▸ ((hd.sound hi).resting hr).raised
  · rw [h.errand_of_ne hthread] at he
    have hlocks : (w.errand thread).locks = true := by rw [he]; rfl
    have hother := hd.locked.unlocked hlocks hthread
    cases h.touched hi with
    | same hi => exact hd.armed he hi
    | raised _ _ hme | started _ _ hme => simp [hme, Errand.locks] at hother
    | stopped hi _ _ heq => exact heq ▸ (hd.armed he hi).stopped
    | hired hlength =>
        have hpool : i ∈ w.scene.pool := hd.targets thread (by rw [he]; exact List.mem_cons_self)
        exact absurd (hd.known hpool) (by omega)
    | own hi _ _ _ hown => exact hown.armed (hd.armed he hi)

theorem resting_stride (hi : w'.scene.hands[i]? = some hand') (hpool : i ∉ w.scene.pool)
    (hrest : ∀ hand, w.scene.hands[i]? = some hand → hand.Resting) : hand'.Resting := by
  cases h.touched hi with
  | same hi => exact hrest _ hi
  | raised _ rest he | started _ rest he =>
      exact absurd (hd.targets me (by rw [he]; exact List.mem_cons_self)) hpool
  | stopped hi _ _ heq => exact heq ▸ (hrest _ hi).stopped
  | hired _ _ _ heq => exact heq ▸ Crew.newHand_resting
  | own hi _ _ _ hown => exact hown.resting (hrest _ hi)

theorem newcomer_stride {thread : ThreadId} (hi : (w'.errand thread).newcomer? = some i) :
    i < w'.scene.hands.length ∧ i ∉ w'.scene.pool ∧
      ∀ hand, w'.scene.hands[i]? = some hand → hand.Resting := by
  rcases h.newcomer_of_own hi with hold | ⟨-, rfl, hhands, hpool⟩
  · obtain ⟨hlt, hout, hrest⟩ := hd.newcomer hold
    refine ⟨Nat.lt_of_lt_of_le hlt h.hands_length_le, fun hin => ?_, fun hand hhand =>
      hd.resting_stride h hhand hout hrest⟩
    cases h with
    | own _ _ hown hscene =>
        rw [hscene, Crew.put, hown.pool_eq.1] at hin
        exact hout hin
    | errand _ h _ =>
        rcases h.pool_cases with hp | hp | ⟨serial, he, he', hp⟩
        · exact hout (by rw [← hp]; exact hin)
        · simp [hp] at hin
        · rw [hp, List.mem_append, List.mem_singleton] at hin
          rcases hin with hin | rfl
          · exact hout hin
          · -- Only the thread that hires a worker adds it, and that thread is done with it.
            have hme : thread = me := hd.alone hold (by rw [he]; rfl)
            rw [hme, he'] at hi
            cases hi
  · refine ⟨by rw [hhands]; simp, fun hin => ?_, fun hand hhand => ?_⟩
    · rw [hpool] at hin
      exact absurd (hd.known hin) (Nat.lt_irrefl _)
    · rw [hhands, List.getElem?_append_right (Nat.le_refl _), Nat.sub_self] at hhand
      cases hhand
      exact Crew.newHand_resting

theorem alone_stride {thread thread' : ThreadId} (hi : (w'.errand thread).newcomer? = some i)
    (hi' : (w'.errand thread').newcomer? = some i) : thread = thread' := by
  rcases h.newcomer_of_own hi with hold | ⟨hme, hlength, -⟩
  · rcases h.newcomer_of_own hi' with hold' | ⟨-, hlength, -⟩
    · exact hd.alone hold hold'
    · exact absurd (hd.newcomer hold).1 (by omega)
  · rcases h.newcomer_of_own hi' with hold' | ⟨hme', -, -⟩
    · exact absurd (hd.newcomer hold').1 (by omega)
    · rw [hme, hme']

theorem stride : Disciplined w'.scene w'.errand where
  locked := hd.locked.stride h
  known := hd.known_stride h
  sound := hd.sound_stride h
  targets := hd.targets_stride h
  armed := hd.armed_stride h
  newcomer := hd.newcomer_stride h
  alone := hd.alone_stride h

end Disciplined

section Initial

variable (engine : Engine) (main : ContextId) (poolSize others : Nat)

@[simp] theorem World.hands_initial :
    (World.initial engine main poolSize others).scene.hands = [] :=
  rfl

@[simp] theorem World.pool_initial :
    (World.initial engine main poolSize others).scene.pool = [] :=
  rfl

@[simp] theorem World.queue_initial :
    (World.initial engine main poolSize others).scene.queue = [] :=
  rfl

end Initial

theorem World.errand_initial (engine : Engine) (main : ContextId) (poolSize others : Nat)
    (thread : ThreadId) : (World.initial engine main poolSize others).errand thread = .away := by
  cases thread with
  | worker serial => rfl
  | host host =>
      cases host with
      | zero => rfl
      | succ host =>
          simp only [World.errand, Crew.errand, Crew.view, World.crew, World.initial,
            List.getElem?_cons_succ, List.getElem?_replicate]
          split
          · rfl
          · rfl

theorem Run.disciplined {library : Library} {engine : Engine} {main : ContextId}
    {poolSize others : Nat} {moves : List Move}
    (h : Run library (World.initial engine main poolSize others) moves w) :
    Disciplined w.scene w.errand := by
  refine h.keeps ?_ fun me v v' hstride hv => hv.stride hstride
  have haway := World.errand_initial engine main poolSize others
  constructor
  case locked =>
    intro thread hthread
    simp [haway, Errand.locks] at hthread
  case known =>
    intro i hi
    simp at hi
  case sound =>
    intro i hand hi
    simp at hi
  case targets =>
    intro thread
    simp [haway, Errand.targets]
  case armed =>
    intro thread i rest hand he
    simp [haway] at he
  case newcomer =>
    intro thread i hi
    simp [haway, Errand.newcomer?] at hi
  case alone =>
    intro thread thread' i hi
    simp [haway, Errand.newcomer?] at hi

end ScriptPool
