import ScriptPool.Proofs.Engine.Writes
import ScriptPool.Proofs.Pool.Deed

namespace ScriptPool

/-- The task was finished: it failed, or all its results were written into the main context. -/
def Accomplished (deeds : List Deed) (s : Submission) : Prop :=
  ∃ i outcome, .finished i s outcome ∈ deeds ∧
    (outcome.isHealthy = true →
      writes s deeds = resultPairs s.task.call.returns outcome.results)

/-- What is written for a task that a worker has claimed. -/
def TaskPlace.Progress (s : Submission) (written : List (String × Value)) : TaskPlace → Prop
  | .publishing | .unlockingQueue | .preparing | .running _ | .lockingMain _ => written = []
  | .writing outcome names results =>
    written ++ resultPairs names results = resultPairs s.task.call.returns outcome.results
  | .unlockingMain outcome | .counting outcome | .countingTotal outcome =>
    outcome.isHealthy = true → written = resultPairs s.task.call.returns outcome.results
  | .replacing | .clearing | .notifying => False

/-- Where a task is that was pushed. -/
inductive Account (c : Crew) (deeds : List Deed) (s : Submission) : Prop where
  | queued (h : s ∈ c.queue) (hw : writes s deeds = [])
  | held {i : Nat} {hand : Hand} {once : Bool} {p : TaskPlace} (hhand : c.hands[i]? = some hand)
      (hplace : hand.place = .executing once s p) (hp : p.Progress s (writes s deeds))
  | done (h : Accomplished deeds s) (hqueue : ∀ s' ∈ c.queue, s'.ticket ≠ s.ticket)
      (hholds : ∀ i s', c.Holds i s' → s'.ticket ≠ s.ticket)

/-- Every task that was pushed is accounted for. -/
structure Accounted (c : Crew) (deeds : List Deed) : Prop where
  fresh : ∀ d ∈ deeds, d.submission.ticket < c.tickets
  account : ∀ {s : Submission}, .pushed s ∈ deeds → Account c deeds s

variable {library : Library} {pick i : Nat} {thread : ThreadId} {w w' : World} {moves : List Move}
  {hand : Hand} {s s' : Submission} {deeds : List Deed} {c : Crew}

theorem TaskPlace.Progress.isOpen {p : TaskPlace} {written : List (String × Value)}
    (h : p.Progress s written) : p.isOpen = true := by
  cases p with
  | replacing | clearing | notifying => cases h
  | publishing | unlockingQueue | preparing | running | lockingMain | writing | unlockingMain
  | counting | countingTotal => rfl

theorem Account.holds {once : Bool} {p : TaskPlace} (hhand : c.hands[i]? = some hand)
    (hplace : hand.place = .executing once s p) (hp : p.Progress s (writes s deeds)) :
    c.Holds i s :=
  ⟨hand, hhand, by simp [hplace, WorkerPlace.held?, hp.isOpen]⟩

theorem writes_step_eq (hs : Stride thread w w')
    (hother : ∀ i s', thread = .worker i → w.scene.Holds i s' → s'.ticket ≠ s.ticket) :
    writes s (deeds ++ (w.deed? thread).toList) = writes s deeds := by
  have hnil : writes s (w.deed? thread).toList = [] := by
    refine writes_eq_nil fun s' name value hd => ?_
    rcases World.of_deed? hs (Option.mem_toList.mp hd) with
      ⟨task, ⟨⟩⟩ | ⟨i, s, rest, -, ⟨⟩⟩ | ⟨i, hme, hi⟩
    exact hother i _ hme hi
  rw [writes_append, hnil, List.append_nil]

theorem Accomplished.step (h : Accomplished deeds s)
    (hw : writes s (deeds ++ (w.deed? thread).toList) = writes s deeds) :
    Accomplished (deeds ++ (w.deed? thread).toList) s := by
  obtain ⟨i, outcome, hmem, hwrites⟩ := h
  exact ⟨i, outcome, List.mem_append_left _ hmem, fun hh => by rw [hw, hwrites hh]⟩

theorem Crew.Flow.away {c' : Crew} (h : Crew.Flow c c') (hticket : s.ticket < c.tickets)
    (hqueue : ∀ s' ∈ c.queue, s'.ticket ≠ s.ticket)
    (hholds : ∀ i s', c.Holds i s' → s'.ticket ≠ s.ticket) :
    (∀ s' ∈ c'.queue, s'.ticket ≠ s.ticket) ∧ ∀ i s', c'.Holds i s' → s'.ticket ≠ s.ticket := by
  cases h with
  | still hq _ hh =>
      exact ⟨fun s' hs' => hqueue s' (hq ▸ hs'), fun i s' hs' => hholds i s' ((hh i s').mp hs')⟩
  | push task hq _ hh =>
      refine ⟨fun s' hs' => ?_, fun i s' hs' => hholds i s' ((hh i s').mp hs')⟩
      rw [hq, List.mem_append, List.mem_singleton] at hs'
      rcases hs' with hs' | rfl
      · exact hqueue s' hs'
      · exact Nat.ne_of_gt hticket
  | claim j s₁ _ _ _ _ hq _ hh =>
      refine ⟨fun s' hs' => hqueue s' (hq ▸ List.mem_cons_of_mem _ hs'), fun i s' hs' => ?_⟩
      rcases (hh i s').mp hs' with hs' | ⟨-, rfl⟩
      · exact hholds i s' hs'
      · exact hqueue s' (hq ▸ List.mem_cons_self)
  | finish j s₁ _ hq _ hh =>
      exact ⟨fun s' hs' => hqueue s' (hq ▸ hs'), fun i s' hs' => hholds i s' ((hh i s').mp hs').1⟩

theorem Stride.place_eq (h : Stride thread w w') (hne : thread ≠ .worker i)
    (hhand : w.scene.hands[i]? = some hand) :
    ∃ hand', w'.scene.hands[i]? = some hand' ∧ hand'.place = hand.place := by
  cases h with
  | errand _ h => exact h.place_eq hhand
  | @own serial _ _ _ hme _ hown hscene =>
      subst hme
      have hi : serial ≠ i := fun hi => hne (by rw [hi])
      exact ⟨hand, by simp [hscene, Crew.put, hown.hands_eq, hi, hhand], rfl⟩

theorem Crew.Own.account {c₁ : Crew} {hand' : Hand} {once : Bool} {p : TaskPlace}
    (h : Crew.Own i c hand c₁ hand') (hhand : c.hands[i]? = some hand)
    (hplace : hand.place = .executing once s p) (hp : p.Progress s (writes s deeds)) :
    (∃ p', hand'.place = .executing once s p' ∧
      p'.Progress s (writes s (deeds ++ (hand.place.deed? c.queue i).toList))) ∨
    (hand'.place.held? = none ∧ Accomplished (deeds ++ (hand.place.deed? c.queue i).toList) s ∧
      (c₁.put i hand').queue = c.queue ∧
      ∀ j s', (c₁.put i hand').Holds j s' → c.Holds j s' ∧ j ≠ i) := by
  have hsame {d? : Option Deed} (hd : writes s d?.toList = []) :
      writes s (deeds ++ d?.toList) = writes s deeds := by
    rw [writes_append, hd, List.append_nil]
  cases h with
  | move q hq =>
      rw [hplace] at hq ⊢
      cases hq with
      | task _ _ hmoves =>
          refine .inl ⟨_, rfl, ?_⟩
          cases hmoves with
          | prepare | finish | unlock | count =>
              rw [hsame rfl]
              exact hp
          | lock outcome =>
              rw [hsame rfl, show writes s deeds = [] from hp]
              rfl
          | lockErrored outcome herrored =>
              intro hhealthy
              rw [herrored] at hhealthy
              cases hhealthy
          | write outcome name names results =>
              have hwrite : writes s [.wrote s name (firstResult results)] =
                  [(name, firstResult results)] := by
                simp [writes, Deed.write?]
              rw [TaskPlace.Progress, writes_append]
              change writes s deeds ++ writes s [_] ++ _ = _
              rw [hwrite, List.append_assoc]
              exact hp
          | written outcome results =>
              intro _
              rw [hsame rfl, ← List.append_nil (writes s deeds)]
              exact hp
          | replace => cases hp
  | publish _ _ hq | unlockQueue _ _ hq =>
      rw [hplace] at hq ⊢
      cases hq
      refine .inl ⟨_, rfl, ?_⟩
      rw [hsame rfl]
      exact hp
  | fail _ _ outcome hq | complete _ _ outcome hq =>
      rw [hplace] at hq ⊢
      cases hq
      refine .inr ⟨rfl, ⟨i, outcome, ?_, fun hhealthy => ?_⟩, rfl, ?_⟩
      · exact List.mem_append_right _ (List.mem_singleton_self _)
      · rw [hsame rfl]
        exact hp hhealthy
      · exact fun j s' hs' => (Crew.put_holds_of_none hhand rfl j s').mp hs'
  | clear _ _ hq | report _ _ hq =>
      rw [hplace] at hq
      cases hq
      cases hp
  | receive _ _ hq | pop _ _ _ hq | rest hq | announce hq =>
      rw [hplace] at hq
      cases hq
  | leave _ hq =>
      rcases hq with hq | hq
      · rw [hplace] at hq
        cases hq
      · rw [hplace] at hq
        cases hq

theorem Stride.publishing (hs : Stride thread w w') (hqueue : s ∈ w.scene.queue)
    (hgone : s ∉ w'.scene.queue) : ∃ (i : Nat) (hand : Hand) (once : Bool),
      w'.scene.hands[i]? = some hand ∧ hand.place = .executing once s .publishing := by
  cases hs with
  | errand _ h =>
      have hkept : s ∈ w'.scene.queue := by
        revert h hqueue
        generalize w.scene = c, w'.scene = c', w.errand thread = e, w'.errand thread = e'
        intro hqueue h
        cases h with
        | push => exact List.mem_append_left _ hqueue
        | still | count | notify | lock | lockHired | skip | stop | raise | send | hold
        | unlock | take | tell | hire | add => exact hqueue
      exact absurd hkept hgone
  | @own serial hand hand' c₁ _ hhand hown hscene =>
      have hlt := (List.getElem?_eq_some_iff.mp hhand).1
      rw [hscene] at hgone ⊢
      cases hown with
      | pop once s' rest _ _ hq =>
          rw [hq, List.mem_cons] at hqueue
          rcases hqueue with rfl | hqueue
          · refine ⟨serial, { hand with place := .executing once s .publishing }, once, ?_, rfl⟩
            simp [Crew.put, hlt]
          · exact absurd hqueue hgone
      | move | receive | leave | publish | unlockQueue | fail | complete | clear | report
      | rest | announce => exact absurd hqueue hgone

theorem Ledger.ticket_of_deed? (hl : Ledger w.scene) (h : w.advance library pick thread = some w')
    {d : Deed} (hd : w.deed? thread = some d) : d.submission.ticket < w'.scene.tickets := by
  have hs := World.advance_stride h
  rcases World.of_deed? hs hd with ⟨task, rfl⟩ | ⟨i, s, rest, hqueue, rfl⟩ | ⟨i, -, hi⟩
  · obtain ⟨source, task', hask, ⟨⟩⟩ := World.asking?_of_pushed hd
    rw [World.advance_push hask h]
    exact Nat.lt_succ_self _
  · have hmem : s ∈ w.scene.queue := by
      change s ∈ w.queue
      rw [hqueue]
      exact List.mem_cons_self
    exact (hl.fresh hmem).trans_le hs.flow.tickets_le
  · exact (hl.held hi).1.trans_le hs.flow.tickets_le

theorem Account.stride (ha : Account w.scene deeds s) (hl : Ledger w.scene)
    (hticket : s.ticket < w.tickets) (hs : Stride thread w w') :
    Account w'.scene (deeds ++ (w.deed? thread).toList) s := by
  cases ha with
  | queued hqueue hw =>
      have hw' : writes s (deeds ++ (w.deed? thread).toList) = [] := by
        rw [writes_step_eq hs fun i s' _ hi heq => (hl.held hi).2 s hqueue heq.symm, hw]
      by_cases hstill : s ∈ w'.scene.queue
      · exact .queued hstill hw'
      · obtain ⟨i, hand, once, hhand, hplace⟩ := hs.publishing hqueue hstill
        exact .held hhand hplace hw'
  | @held i hand once p hhand hplace hp =>
      have hi := Account.holds hhand hplace hp
      by_cases hme : thread = .worker i
      · subst hme
        cases hs with
        | errand hcode h =>
            obtain ⟨hand', hhand', hplace'⟩ := h.place_eq hhand
            have hw : writes s (deeds ++ (w.deed? (.worker i)).toList) = writes s deeds := by
              rcases World.deed?_of_inCode hcode with hnone | ⟨_, task, -, hpush⟩
              · rw [hnone, Option.toList_none, List.append_nil]
              · rw [hpush, writes_append]
                exact List.append_nil _
            exact .held hhand' (hplace'.trans hplace) (hw ▸ hp)
        | @own serial hand₁ hand' c₁ hserial hhand₁ hown hscene _ _ hidle =>
            cases hserial
            rw [hhand] at hhand₁
            cases hhand₁
            have hlt := (List.getElem?_eq_some_iff.mp hhand).1
            rw [World.deed?_of_own hidle hhand, hscene]
            rcases hown.account hhand hplace hp with ⟨p', hplace', hp'⟩ | ⟨-, hdone, hq, hh⟩
            · have hput : (c₁.put i hand').hands[i]? = some hand' := by
                simp [Crew.put, hown.hands_eq, hlt]
              exact .held hput hplace' hp'
            · refine .done hdone (fun s' hs' => ?_) fun j s' hs' heq => ?_
              · rw [hq] at hs'
                exact (hl.held hi).2 s' hs'
              · obtain ⟨hj, hne⟩ := hh j s' hs'
                exact hne (hl.apart hj hi heq)
      · obtain ⟨hand', hhand', hplace'⟩ := hs.place_eq hme hhand
        have hw : writes s (deeds ++ (w.deed? thread).toList) = writes s deeds := by
          refine writes_step_eq hs fun j s' hj hs' heq => ?_
          rw [hl.apart hs' hi heq] at hj
          exact hme hj
        exact .held hhand' (hplace'.trans hplace) (hw ▸ hp)
  | done h hqueue hholds =>
      obtain ⟨hqueue', hholds'⟩ := hs.flow.away hticket hqueue hholds
      have hw : writes s (deeds ++ (w.deed? thread).toList) = writes s deeds :=
        writes_step_eq hs fun i s' _ hs' => hholds i s' hs'
      exact .done (h.step hw) hqueue' hholds'

theorem Accounted.advance (ha : Accounted w.scene deeds) (hl : Ledger w.scene)
    (h : w.advance library pick thread = some w') :
    Accounted w'.scene (deeds ++ (w.deed? thread).toList) := by
  have hs := World.advance_stride h
  constructor
  · intro d hd
    rw [List.mem_append, Option.mem_toList] at hd
    rcases hd with hd | hd
    · exact (ha.fresh d hd).trans_le hs.flow.tickets_le
    · exact hl.ticket_of_deed? h hd
  · intro s hd
    rw [List.mem_append, Option.mem_toList] at hd
    rcases hd with hd | hd
    · exact (ha.account hd).stride hl (ha.fresh _ hd) hs
    · obtain ⟨source, task, hask, rfl⟩ := World.asking?_of_pushed hd
      refine .queued ?_ ?_
      · rw [World.advance_push hask h]
        exact List.mem_append_right _ (List.mem_singleton_self _)
      · have hnew : ∀ s' name value, Deed.wrote s' name value ∈ deeds → s'.ticket ≠ w.tickets :=
          fun s' name value hd' => Nat.ne_of_lt (ha.fresh _ hd')
        rw [writes_append, writes_eq_nil hnew, hd]
        rfl

theorem Run.accounted {engine : Engine} {main : ContextId} {poolSize others : Nat}
    (h : Run library (World.initial engine main poolSize others) moves w) :
    Accounted w.scene ((World.initial engine main poolSize others).deeds library moves) := by
  suffices hboth : Ledger w.scene ∧
      Accounted w.scene ((World.initial engine main poolSize others).deeds library moves) from hboth.2
  refine h.keeps_notes (P := fun w deeds => Ledger w.scene ∧ Accounted w.scene deeds) ?_ ?_ ?_
  · rintro pick thread v v' deeds ⟨hl, ha⟩ hstep
    exact ⟨hl.flow (World.advance_stride hstep).flow, ha.advance hl hstep⟩
  · rintro v v' deeds hv hstir
    rw [hstir.scene_eq]
    exact hv
  · have hempty : Run library (World.initial engine main poolSize others) []
        (World.initial engine main poolSize others) := .start
    refine ⟨hempty.ledger, ?_, ?_⟩
    · rintro d ⟨⟩
    · rintro s ⟨⟩

end ScriptPool
