import Mathlib.Data.Finset.Card
import ScriptPool.Proofs.Pool.Discipline

namespace ScriptPool

/-- Whether the outcome of the task is not counted yet. -/
def TaskPlace.isOpen : TaskPlace → Bool
  | .replacing | .clearing | .notifying => false
  | .publishing | .unlockingQueue | .preparing | .running _ | .lockingMain _ | .writing ..
  | .unlockingMain _ | .counting _ | .countingTotal _ => true

/-- The task that a worker has claimed and not finished. -/
def WorkerPlace.held? : WorkerPlace → Option Submission
  | .executing _ s place => if place.isOpen then some s else none
  | _ => none

/-- Whether the queue is still locked by the worker that has claimed a task. -/
def WorkerPlace.isClaiming : WorkerPlace → Bool
  | .executing _ _ .publishing | .executing _ _ .unlockingQueue => true
  | _ => false

/-- Whether a worker holds a task. -/
def Crew.Holds (c : Crew) (i : Nat) (s : Submission) : Prop :=
  ∃ hand, c.hands[i]? = some hand ∧ hand.place.held? = some s

/-- What a stride does to the tasks. -/
inductive Crew.Flow (c c' : Crew) : Prop where
  | still (hqueue : c'.queue = c.queue) (htickets : c'.tickets = c.tickets)
      (hholds : ∀ i s, c'.Holds i s ↔ c.Holds i s)
      (hdone : c'.completed + c'.failed = c.completed + c.failed)
  | push (task : Task) (hqueue : c'.queue = c.queue ++ [⟨c.tickets, task⟩])
      (htickets : c'.tickets = c.tickets + 1) (hholds : ∀ i s, c'.Holds i s ↔ c.Holds i s)
      (hdone : c'.completed + c'.failed = c.completed + c.failed)
  | claim (i : Nat) (s : Submission) (once : Bool) (hand : Hand) (hhand : c.hands[i]? = some hand)
      (hplace : hand.place = .popping once) (hqueue : c.queue = s :: c'.queue)
      (htickets : c'.tickets = c.tickets)
      (hholds : ∀ j s', c'.Holds j s' ↔ c.Holds j s' ∨ j = i ∧ s' = s)
      (hdone : c'.completed + c'.failed = c.completed + c.failed)
  | finish (i : Nat) (s : Submission) (hs : c.Holds i s) (hqueue : c'.queue = c.queue)
      (htickets : c'.tickets = c.tickets)
      (hholds : ∀ j s', c'.Holds j s' ↔ c.Holds j s' ∧ j ≠ i)
      (hdone : c'.completed + c'.failed = c.completed + c.failed + 1)

section Flow

variable {me : ThreadId} {c c' c₁ : Crew} {e e' : Errand} {i : Nat} {hand hand' : Hand}

theorem Crew.Step.place_back (h : Crew.Step me c e c' e') (hi : c'.hands[i]? = some hand') :
    (∃ hand, c.hands[i]? = some hand ∧ hand'.place = hand.place ∧ hand'.current? = hand.current?) ∨
      hand' = newHand := by
  have htouched : Touched (.host 0) c e e' i hand' := h.touched hi
  cases htouched with
  | same hi => exact .inl ⟨hand', hi, rfl, rfl⟩
  | raised hi _ _ _ _ heq | started hi _ _ _ heq | stopped hi _ _ heq =>
      exact .inl ⟨_, hi, by rw [heq], by rw [heq]⟩
  | hired _ _ _ heq => exact .inr heq
  | own _ hme => cases hme

theorem Crew.Step.holds_iff (h : Crew.Step me c e c' e') (i : Nat) (s : Submission) :
    c'.Holds i s ↔ c.Holds i s := by
  constructor
  · rintro ⟨hand', hhand', hs⟩
    rcases h.place_back hhand' with ⟨hand, hhand, hplace, -⟩ | rfl
    · exact ⟨hand, hhand, by rw [← hplace, hs]⟩
    · cases hs
  · rintro ⟨hand, hhand, hs⟩
    obtain ⟨hand', hhand', hplace⟩ := h.place_eq hhand
    exact ⟨hand', hhand', by rw [hplace, hs]⟩

theorem Crew.Step.flow (h : Crew.Step me c e c' e') : Crew.Flow c c' := by
  have hholds := h.holds_iff
  cases h with
  | push task => exact .push task rfl rfl hholds rfl
  | still | count | notify | lock | lockHired | skip | stop | raise | send | hold | unlock | take
  | tell | hire | add => exact .still rfl rfl hholds rfl

theorem TaskPlace.Moves.isOpen_eq {s : Submission} {p p' : TaskPlace} (h : p.Moves s p') :
    p'.isOpen = p.isOpen := by
  cases h with
  | prepare | finish | lock | lockErrored | write | written | unlock | count | replace => rfl

theorem WorkerPlace.Moves.held?_eq {p p' : WorkerPlace} (h : p.Moves p') :
    p'.held? = p.held? := by
  cases h with
  | task once s h => simp only [WorkerPlace.held?, h.isOpen_eq]
  | begin | measure | compare | check | exit => rfl

theorem Crew.put_holds_iff (hhand : c₁.hands[i]? = some hand) (j : Nat) (s : Submission) :
    (c₁.put i hand').Holds j s ↔
      if j = i then hand'.place.held? = some s else c₁.Holds j s := by
  have hlt := (List.getElem?_eq_some_iff.mp hhand).1
  unfold Crew.Holds
  rw [Crew.put, List.getElem?_set]
  by_cases hj : j = i
  · subst hj
    simp [hlt]
  · simp [hj, Ne.symm hj]

theorem Crew.put_holds_of_eq (hhand : c₁.hands[i]? = some hand)
    (hheld : hand'.place.held? = hand.place.held?) (j : Nat) (s : Submission) :
    (c₁.put i hand').Holds j s ↔ c₁.Holds j s := by
  rw [Crew.put_holds_iff hhand]
  split
  · next hj =>
      subst hj
      simp [Crew.Holds, hhand, hheld]
  · rfl

theorem Crew.put_holds_of_none (hhand : c₁.hands[i]? = some hand)
    (hheld : hand'.place.held? = none) (j : Nat) (s : Submission) :
    (c₁.put i hand').Holds j s ↔ c₁.Holds j s ∧ j ≠ i := by
  rw [Crew.put_holds_iff hhand]
  split
  · next hj => simp [hheld, hj]
  · next hj => simp [hj]

theorem Crew.Own.flow (h : Crew.Own i c hand c₁ hand') (hhand : c.hands[i]? = some hand) :
    Crew.Flow c (c₁.put i hand') := by
  have hhand₁ : c₁.hands[i]? = some hand := by rw [h.hands_eq, hhand]
  have hsame (heq : hand'.place.held? = hand.place.held?) (j : Nat) (s : Submission) :
      (c₁.put i hand').Holds j s ↔ c₁.Holds j s := Crew.put_holds_of_eq hhand₁ heq j s
  cases h with
  | move p hp => exact .still rfl rfl (hsame hp.held?_eq) rfl
  | receive command _ hplace =>
      refine .still rfl rfl (hsame ?_) rfl
      cases command with
      | run | stop => simp [hplace, Command.place, WorkerPlace.held?]
  | leave once hplace =>
      refine .still rfl rfl (hsame ?_) rfl
      rcases hplace with h | h
      · simp [h, WorkerPlace.held?]
      · simp [h, WorkerPlace.held?]
  | pop once s rest hplace _ hqueue =>
      refine .claim i s once hand hhand hplace hqueue rfl (fun j s' => ?_) rfl
      rw [Crew.put_holds_iff hhand₁]
      split
      · next hj =>
          subst hj
          have hnone : ¬ c.Holds j s' := by simp [Crew.Holds, hhand, hplace, WorkerPlace.held?]
          simp [hnone, WorkerPlace.held?, TaskPlace.isOpen, eq_comm]
      · next hj => simp [hj, Crew.Holds]
  | publish once s hplace | unlockQueue once s hplace | clear once s hplace | rest hplace
  | announce hplace =>
      exact .still rfl rfl (hsame (by simp [hplace, WorkerPlace.held?, TaskPlace.isOpen])) rfl
  | report once s hplace =>
      refine .still rfl rfl (hsame ?_) rfl
      cases once with
      | false | true => simp [hplace, WorkerPlace.held?, TaskPlace.isOpen]
  | fail once s outcome hplace | complete once s outcome hplace =>
      have hs : c.Holds i s := ⟨hand, hhand, by simp [hplace, WorkerPlace.held?, TaskPlace.isOpen]⟩
      refine .finish i s hs rfl rfl (Crew.put_holds_of_none hhand₁ ?_) ?_
      · simp [WorkerPlace.held?, TaskPlace.isOpen]
      · simp only [Crew.put]
        omega

end Flow

variable {me : ThreadId} {w w' : World} {c c' : Crew} {i j : Nat} {s s' : Submission}

theorem Stride.flow (h : Stride me w w') : Crew.Flow w.scene w'.scene := by
  cases h with
  | errand _ h _ => exact h.flow
  | own _ hhand hown hscene =>
      rw [hscene]
      exact hown.flow hhand

/-- Every task is in one place, and its ticket is its own. -/
structure Ledger (c : Crew) : Prop where
  fresh : ∀ {s : Submission}, s ∈ c.queue → s.ticket < c.tickets
  nodup : (c.queue.map (·.ticket)).Nodup
  held : ∀ {i : Nat} {s : Submission}, c.Holds i s →
    s.ticket < c.tickets ∧ ∀ s' ∈ c.queue, s'.ticket ≠ s.ticket
  apart : ∀ {i j : Nat} {s s' : Submission}, c.Holds i s → c.Holds j s' →
    s.ticket = s'.ticket → i = j

namespace Ledger

variable (hl : Ledger c)
include hl

theorem still (hqueue : c'.queue = c.queue) (htickets : c'.tickets = c.tickets)
    (hholds : ∀ i s, c'.Holds i s → c.Holds i s) : Ledger c' where
  fresh := by
    intro s hs
    rw [hqueue] at hs
    rw [htickets]
    exact hl.fresh hs
  nodup := by
    rw [hqueue]
    exact hl.nodup
  held := by
    intro i s hs
    rw [hqueue, htickets]
    exact hl.held (hholds i s hs)
  apart := fun hs hs' => hl.apart (hholds _ _ hs) (hholds _ _ hs')

theorem push {task : Task} (hqueue : c'.queue = c.queue ++ [⟨c.tickets, task⟩])
    (htickets : c'.tickets = c.tickets + 1) (hholds : ∀ i s, c'.Holds i s ↔ c.Holds i s) :
    Ledger c' where
  fresh := by
    intro s hs
    rw [hqueue, List.mem_append, List.mem_singleton] at hs
    rw [htickets]
    rcases hs with hs | rfl
    · exact Nat.lt_succ_of_lt (hl.fresh hs)
    · exact Nat.lt_succ_self _
  nodup := by
    rw [hqueue, List.map_append, List.map_singleton, List.nodup_append]
    refine ⟨hl.nodup, by simp, ?_⟩
    intro ticket hticket ticket' hticket'
    obtain ⟨s, hs, rfl⟩ := List.mem_map.mp hticket
    rw [List.mem_singleton.mp hticket']
    exact Nat.ne_of_lt (hl.fresh hs)
  held := by
    intro i s hs
    obtain ⟨hlt, hne⟩ := hl.held ((hholds i s).mp hs)
    refine ⟨by omega, fun s' hs' => ?_⟩
    rw [hqueue, List.mem_append, List.mem_singleton] at hs'
    rcases hs' with hs' | rfl
    · exact hne s' hs'
    · exact Nat.ne_of_gt hlt
  apart := fun hs hs' => hl.apart ((hholds _ _).mp hs) ((hholds _ _).mp hs')

theorem claim (hqueue : c.queue = s :: c'.queue) (htickets : c'.tickets = c.tickets)
    (hholds : ∀ j s', c'.Holds j s' ↔ c.Holds j s' ∨ j = i ∧ s' = s) : Ledger c' := by
  have hs : s ∈ c.queue := by
    rw [hqueue]
    exact List.mem_cons_self
  have hrest : ∀ s' ∈ c'.queue, s' ∈ c.queue := by
    intro s' hs'
    rw [hqueue]
    exact List.mem_cons_of_mem _ hs'
  have hnodup := hl.nodup
  rw [hqueue, List.map_cons, List.nodup_cons] at hnodup
  refine ⟨fun hs' => ?_, hnodup.2, fun hs' => ?_, fun hs₁ hs₂ heq => ?_⟩
  · rw [htickets]
    exact hl.fresh (hrest _ hs')
  · rw [htickets]
    rcases (hholds _ _).mp hs' with hs' | ⟨rfl, rfl⟩
    · exact ⟨(hl.held hs').1, fun s'' hs'' => (hl.held hs').2 s'' (hrest s'' hs'')⟩
    · refine ⟨hl.fresh hs, fun s'' hs'' heq => hnodup.1 ?_⟩
      rw [← heq]
      exact List.mem_map_of_mem hs''
  · rcases (hholds _ _).mp hs₁ with hs₁ | ⟨rfl, rfl⟩
    · rcases (hholds _ _).mp hs₂ with hs₂ | ⟨rfl, rfl⟩
      · exact hl.apart hs₁ hs₂ heq
      · exact absurd heq.symm ((hl.held hs₁).2 _ hs)
    · rcases (hholds _ _).mp hs₂ with hs₂ | ⟨rfl, rfl⟩
      · exact absurd heq ((hl.held hs₂).2 _ hs)
      · rfl

theorem flow (h : Crew.Flow c c') : Ledger c' := by
  cases h with
  | still hqueue htickets hholds => exact hl.still hqueue htickets fun i s => (hholds i s).mp
  | push task hqueue htickets hholds => exact hl.push hqueue htickets hholds
  | claim i s once hand _ _ hqueue htickets hholds => exact hl.claim hqueue htickets hholds
  | finish i s _ hqueue htickets hholds =>
      exact hl.still hqueue htickets fun j s' hs => ((hholds j s').mp hs).1

end Ledger

theorem Crew.Flow.tickets_le (h : Crew.Flow c c') : c.tickets ≤ c'.tickets := by
  cases h with
  | still _ htickets | claim _ _ _ _ _ _ _ htickets | finish _ _ _ _ htickets =>
      exact Nat.le_of_eq htickets.symm
  | push _ _ htickets => exact htickets ▸ Nat.le_succ _

theorem Crew.Flow.gone (h : Crew.Flow c c') (hs : s.ticket < c.tickets) (hgone : s ∉ c.queue) :
    s ∉ c'.queue := by
  cases h with
  | still hqueue | finish _ _ _ hqueue =>
      rw [hqueue]
      exact hgone
  | push task hqueue =>
      rw [hqueue, List.mem_append, List.mem_singleton]
      rintro (hs' | rfl)
      · exact hgone hs'
      · exact absurd hs (Nat.lt_irrefl _)
  | claim _ _ _ _ _ _ hqueue =>
      rw [hqueue, List.mem_cons, not_or] at hgone
      exact hgone.2

theorem Crew.Flow.holds_of_gone (h : Crew.Flow c c') (hgone : s ∉ c.queue) (hs : c'.Holds i s) :
    c.Holds i s := by
  cases h with
  | still _ _ hholds | push _ _ _ hholds => exact (hholds i s).mp hs
  | claim _ _ _ _ _ _ hqueue _ hholds =>
      rcases (hholds i s).mp hs with hs | ⟨-, rfl⟩
      · exact hs
      · exact absurd (hqueue ▸ List.mem_cons_self) hgone
  | finish _ _ _ _ _ hholds => exact ((hholds i s).mp hs).1

theorem Crew.Flow.claimed (h : Crew.Flow c c') (hs : s ∈ c.queue) (hgone : s ∉ c'.queue) :
    ∃ i once hand, c.hands[i]? = some hand ∧ hand.place = .popping once ∧ c'.Holds i s := by
  cases h with
  | still hqueue | finish _ _ _ hqueue =>
      rw [hqueue] at hgone
      exact absurd hs hgone
  | push _ hqueue =>
      rw [hqueue] at hgone
      exact absurd (List.mem_append_left _ hs) hgone
  | claim i s' once hand hhand hplace hqueue _ hholds =>
      rw [hqueue, List.mem_cons] at hs
      rcases hs with rfl | hs
      · exact ⟨i, once, hand, hhand, hplace, (hholds i s).mpr (.inr ⟨rfl, rfl⟩)⟩
      · exact absurd hs hgone

/-- The task whose function a worker shows as the one it executes. -/
def WorkerPlace.shown? : WorkerPlace → Option Submission
  | .executing _ _ .publishing | .executing _ _ .notifying => none
  | .executing _ s _ => some s
  | _ => none

theorem WorkerPlace.shown?_bare (p : WorkerPlace) : p.bare.shown? = p.shown? :=
  WorkerPlace.apply_bare (f := WorkerPlace.shown?) (fun _ _ _ => rfl) p

/-- A task on its way from the queue to a worker is covered by the lock of the queue until the
worker shows its function. -/
structure Posted (c : Crew) : Prop where
  claiming : ∀ {i : Nat} {hand : Hand}, c.hands[i]? = some hand → hand.place.isClaiming = true →
    c.queueHolder? = some (.worker i)
  named : ∀ {i : Nat} {hand : Hand} {s : Submission}, c.hands[i]? = some hand →
    hand.place.shown? = some s → hand.current? = some s.function

theorem WorkerPlace.shown?_of_held? {p : WorkerPlace} (h : p.held? = some s)
    (hfree : p.isClaiming = false) : p.shown? = some s := by
  cases p with
  | executing once s' p =>
      cases p with
      | publishing => cases hfree
      | replacing | clearing | notifying => cases h
      | unlockingQueue | preparing | running | lockingMain | writing | unlockingMain | counting
      | countingTotal => exact h
  | _ => cases h

theorem WorkerPlace.Moves.shown?_eq {p p' : WorkerPlace} (h : p.Moves p') :
    p'.shown? = p.shown? ∧ p'.isClaiming = p.isClaiming := by
  cases h with
  | task once s h =>
      cases h with
      | prepare | finish | lock | lockErrored | write | written | unlock | count | replace =>
          exact ⟨rfl, rfl⟩
  | begin | measure | compare | check | exit => exact ⟨rfl, rfl⟩

variable {hand hand' : Hand} {c₁ : Crew}

theorem Crew.Own.named (h : Crew.Own i c hand c₁ hand')
    (hnamed : ∀ s, hand.place.shown? = some s → hand.current? = some s.function)
    (hs : hand'.place.shown? = some s) : hand'.current? = some s.function := by
  cases h with
  | move p hp =>
      rw [hp.shown?_eq.1] at hs
      exact hnamed s hs
  | receive command =>
      cases command with
      | run | stop => cases hs
  | publish => cases hs; rfl
  | report once =>
      cases once with
      | false | true => cases hs
  | leave | pop | clear | rest | announce => cases hs
  | unlockQueue _ _ hplace | fail _ _ _ hplace | complete _ _ _ hplace =>
      cases hs
      exact hnamed _ (by rw [hplace]; rfl)

theorem Crew.Own.queueHolder (h : Crew.Own i c hand c₁ hand') :
    (c₁.queueHolder? = c.queueHolder? ∧ hand'.place.isClaiming = hand.place.isClaiming) ∨
      (c.queueHolder? = none ∧ c₁.queueHolder? = some (.worker i) ∧
        hand'.place.isClaiming = true) ∨
      (hand.place.isClaiming = true ∧ hand'.place.isClaiming = false ∧ c₁.queueHolder? = none) := by
  cases h with
  | move p hp => exact .inl ⟨rfl, hp.shown?_eq.2⟩
  | receive command _ hplace =>
      refine .inl ⟨rfl, ?_⟩
      rw [hplace]
      cases command with
      | run | stop => rfl
  | leave once hplace =>
      refine .inl ⟨rfl, ?_⟩
      rcases hplace with h | h
      · rw [h]
        rfl
      · rw [h]
        rfl
  | pop _ _ _ _ hfree => exact .inr (.inl ⟨hfree, rfl, rfl⟩)
  | unlockQueue _ _ hplace => exact .inr (.inr ⟨by rw [hplace]; rfl, rfl, rfl⟩)
  | report once _ hplace =>
      refine .inl ⟨rfl, ?_⟩
      rw [hplace]
      cases once with
      | false | true => rfl
  | publish _ _ hplace | fail _ _ _ hplace | complete _ _ _ hplace | clear _ _ hplace
  | rest hplace | announce hplace => exact .inl ⟨rfl, by rw [hplace]; rfl⟩

theorem Crew.Own.put_getElem? {serial : Nat} (h : Crew.Own serial c hand c₁ hand')
    (hhand : c.hands[serial]? = some hand) (i : Nat) :
    (c₁.put serial hand').hands[i]? = if serial = i then some hand' else c.hands[i]? := by
  have hlt := (List.getElem?_eq_some_iff.mp hhand).1
  rw [Crew.put, h.hands_eq, List.getElem?_set]
  by_cases hi : serial = i
  · subst hi
    simp [hlt]
  · simp [hi]

theorem Crew.Step.queueHolder_eq {e e' : Errand} (h : Crew.Step me c e c' e') :
    c'.queueHolder? = c.queueHolder? := by
  cases h with
  | still | push | count | notify | lock | lockHired | skip | stop | raise | send | hold
  | unlock | take | tell | hire | add => rfl

theorem Posted.stride (hp : Posted w.scene) (h : Stride me w w') : Posted w'.scene := by
  cases h with
  | errand _ h _ =>
      constructor
      · intro i hand' hi hclaim
        rw [h.queueHolder_eq]
        rcases h.place_back hi with ⟨hand, hhand, hplace, -⟩ | rfl
        · exact hp.claiming hhand (by rw [← hplace, hclaim])
        · cases hclaim
      · intro i hand' s hi hs
        rcases h.place_back hi with ⟨hand, hhand, hplace, hcurrent⟩ | rfl
        · rw [hcurrent]
          exact hp.named hhand (by rw [← hplace, hs])
        · cases hs
  | @own serial hand hand' c₁ _ hhand hown hscene =>
      have hlookup (i : Nat) : w'.scene.hands[i]? =
          if serial = i then some hand' else w.scene.hands[i]? := by
        rw [hscene]
        exact hown.put_getElem? hhand i
      constructor
      · intro i hand₁ hi hclaim
        rw [hlookup] at hi
        rw [hscene]
        change c₁.queueHolder? = _
        split at hi
        · next hi' =>
            subst hi'
            cases hi
            rcases hown.queueHolder with ⟨hsame, hclaim'⟩ | ⟨-, hnew, -⟩ | ⟨-, hfree, -⟩
            · rw [hsame]
              exact hp.claiming hhand (by rw [← hclaim', hclaim])
            · exact hnew
            · rw [hclaim] at hfree
              cases hfree
        · next hi' =>
            have hholder := hp.claiming hi hclaim
            rcases hown.queueHolder with ⟨hsame, -⟩ | ⟨hfree, -⟩ | ⟨hclaim', -, -⟩
            · rw [hsame, hholder]
            · rw [hholder] at hfree
              cases hfree
            · -- The lock belongs to one worker only.
              have hother := hp.claiming hhand hclaim'
              rw [hholder] at hother
              cases hother
              exact absurd rfl hi'
      · intro i hand₁ s hi hs
        rw [hlookup] at hi
        split at hi
        · cases hi
          exact hown.named (fun s => hp.named hhand) hs
        · exact hp.named hi hs

variable {library : Library} {engine : Engine} {main : ContextId} {poolSize others : Nat}
  {moves : List Move}

theorem Crew.not_holds_initial :
    ¬ (World.initial engine main poolSize others).scene.Holds i s := by
  rintro ⟨hand, hhand, -⟩
  simp at hhand

theorem Run.ledger (h : Run library (World.initial engine main poolSize others) moves w) :
    Ledger w.scene := by
  refine h.keeps (P := fun c _ => Ledger c) ?_ fun me v v' hstride hv => hv.flow hstride.flow
  refine ⟨?_, List.nodup_nil, ?_, ?_⟩
  · intro s hs
    simp at hs
  · intro i s hs
    exact absurd hs Crew.not_holds_initial
  · intro i j s s' hs
    exact absurd hs Crew.not_holds_initial

theorem Run.tickets_le {w₀ : World} (h : Run library w₀ moves w) : w₀.scene.tickets ≤ w.scene.tickets := by
  induction h with
  | start => exact Nat.le_refl _
  | move _ m hm ih =>
      rcases World.move?_stride hm with ⟨_, _, -, -, hstride⟩ | hstir
      · exact Nat.le_trans ih hstride.flow.tickets_le
      · rw [hstir.scene_eq]
        exact ih

theorem Run.posted (h : Run library (World.initial engine main poolSize others) moves w) :
    Posted w.scene := by
  refine h.keeps (P := fun c _ => Posted c) ?_ fun me v v' hstride hv => hv.stride hstride
  constructor
  · intro i hand hi
    simp at hi
  · intro i hand s hi
    simp at hi

/-- The tasks that were pushed are counted as submitted, up to those whose submitters have not come
to that yet. -/
def Counted (c : Crew) (errand : ThreadId → Errand) : Prop :=
  ∃ owing : Finset ThreadId, (∀ thread, thread ∈ owing ↔ errand thread = .owing) ∧
    c.submitted + owing.card = c.tickets

/-- Every task that was pushed is in the queue, held by a worker, completed or failed. -/
def Balanced (c : Crew) : Prop :=
  ∃ holders : Finset Nat, (∀ i, i ∈ holders ↔ ∃ s, c.Holds i s) ∧
    c.tickets = c.queue.length + holders.card + c.completed + c.failed

theorem Crew.Step.counters {e e' : Errand} (h : Crew.Step me c e c' e') :
    (e ≠ .owing ∧ e' ≠ .owing ∧ c'.submitted = c.submitted ∧ c'.tickets = c.tickets) ∨
      (e ≠ .owing ∧ e' = .owing ∧ c'.submitted = c.submitted ∧ c'.tickets = c.tickets + 1) ∨
      (e = .owing ∧ e' ≠ .owing ∧ c'.submitted = c.submitted + 1 ∧ c'.tickets = c.tickets) := by
  cases h with
  | push => exact .inr (.inl ⟨nofun, rfl, rfl, rfl⟩)
  | count => exact .inr (.inr ⟨rfl, nofun, rfl, rfl⟩)
  | lock _ _ he =>
      refine .inl ⟨nofun, ?_, rfl, rfl⟩
      rcases he with rfl | rfl | rfl
      · nofun
      · nofun
      · nofun
  | still | notify | lockHired | skip | stop | raise | send | hold | unlock | take | tell | hire
  | add => exact .inl ⟨nofun, nofun, rfl, rfl⟩

theorem Crew.Own.counters (h : Crew.Own i c hand c₁ hand') :
    c₁.submitted = c.submitted ∧ c₁.tickets = c.tickets := by
  cases h with
  | move | receive | leave | pop | publish | unlockQueue | fail | complete | clear | report
  | rest | announce => exact ⟨rfl, rfl⟩

theorem Counted.stride (hc : Counted w.scene w.errand) (h : Stride me w w') :
    Counted w'.scene w'.errand := by
  obtain ⟨owing, howing, hcount⟩ := hc
  have hothers {thread : ThreadId} (hne : thread ≠ me) : w'.errand thread = w.errand thread :=
    h.errand_of_ne hne
  cases h with
  | own _ _ hown hscene _ herrand =>
      refine ⟨owing, fun thread => by rw [herrand]; exact howing thread, ?_⟩
      rw [hscene, Crew.put, hown.counters.1, hown.counters.2]
      exact hcount
  | errand _ h =>
      rcases h.counters with ⟨he, he', hs, ht⟩ | ⟨he, he', hs, ht⟩ | ⟨he, he', hs, ht⟩
      · refine ⟨owing, fun thread => ?_, by omega⟩
        by_cases hthread : thread = me
        · rw [hthread, howing]
          exact iff_of_false he he'
        · rw [hothers hthread, howing]
      · have hnew : me ∉ owing := fun hme => he ((howing me).mp hme)
        refine ⟨insert me owing, fun thread => ?_, ?_⟩
        · rw [Finset.mem_insert]
          by_cases hthread : thread = me
          · rw [hthread]
            exact iff_of_true (.inl rfl) he'
          · rw [hothers hthread, howing]
            exact or_iff_right hthread
        · rw [Finset.card_insert_of_notMem hnew]
          omega
      · have hold : me ∈ owing := (howing me).mpr he
        refine ⟨owing.erase me, fun thread => ?_, ?_⟩
        · rw [Finset.mem_erase]
          by_cases hthread : thread = me
          · rw [hthread]
            exact iff_of_false (fun h => h.1 rfl) he'
          · rw [hothers hthread, howing]
            exact and_iff_right hthread
        · have hcard := Finset.card_erase_add_one hold
          omega

theorem Balanced.flow (hb : Balanced c) (h : Crew.Flow c c') : Balanced c' := by
  obtain ⟨holders, hholders, hsum⟩ := hb
  cases h with
  | still hqueue htickets hholds hdone =>
      refine ⟨holders, fun i => by simp only [hholders, hholds], ?_⟩
      rw [hqueue, htickets]
      omega
  | push task hqueue htickets hholds hdone =>
      refine ⟨holders, fun i => by simp only [hholders, hholds], ?_⟩
      rw [hqueue, htickets, List.length_append, List.length_singleton]
      omega
  | claim i s once hand hhand hplace hqueue htickets hholds hdone =>
      have hnew : i ∉ holders := by
        rw [hholders]
        rintro ⟨s', hand', hhand', hheld⟩
        rw [hhand] at hhand'
        cases hhand'
        rw [hplace] at hheld
        cases hheld
      refine ⟨insert i holders, fun j => ?_, ?_⟩
      · rw [Finset.mem_insert, hholders]
        simp only [hholds]
        constructor
        · rintro (rfl | ⟨s', hs'⟩)
          · exact ⟨s, .inr ⟨rfl, rfl⟩⟩
          · exact ⟨s', .inl hs'⟩
        · rintro ⟨s', hs' | ⟨rfl, -⟩⟩
          · exact .inr ⟨s', hs'⟩
          · exact .inl rfl
      · rw [hqueue, List.length_cons] at hsum
        rw [Finset.card_insert_of_notMem hnew]
        omega
  | finish i s hs hqueue htickets hholds hdone =>
      have hold : i ∈ holders := (hholders i).mpr ⟨s, hs⟩
      refine ⟨holders.erase i, fun j => ?_, ?_⟩
      · rw [Finset.mem_erase, hholders]
        simp only [hholds]
        constructor
        · rintro ⟨hj, s', hs'⟩
          exact ⟨s', hs', hj⟩
        · rintro ⟨s', hs', hj⟩
          exact ⟨hj, s', hs'⟩
      · have hcard := Finset.card_erase_add_one hold
        rw [hqueue, htickets]
        omega

theorem Run.counted (h : Run library (World.initial engine main poolSize others) moves w) :
    Counted w.scene w.errand := by
  refine h.keeps ?_ fun me v v' hstride hv => hv.stride hstride
  refine ⟨∅, fun thread => ?_, rfl⟩
  rw [World.errand_initial]
  simp

theorem Run.balanced (h : Run library (World.initial engine main poolSize others) moves w) :
    Balanced w.scene := by
  refine h.keeps (P := fun c _ => Balanced c) ?_ fun me v v' hstride hv => hv.flow hstride.flow
  refine ⟨∅, fun i => ?_, rfl⟩
  simp [Crew.not_holds_initial]

end ScriptPool
