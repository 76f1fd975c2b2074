import Mathlib.Logic.Function.Basic
import ScriptPool.Proofs.Pool.Survey

/-!
Runs in which workers are also called on one by one.

The coordinator starts a worker only while it has the pool locked, and stops a worker only after it
has taken it out of the pool. In a tended run any thread may besides try to start any worker, or
tell it to stop, at any time: between the two steps of such a call all other threads go on, other
calls on the same worker included. The lock of the pool is of no use here. What keeps the workers in
order is the flag: `Orderly` says that whoever has raised it is the only one to owe the worker a
command, and that the worker waits for this command.

If a worker that is still in the pool is told to stop, the coordinator may come to command it when
it is gone; the command stays in the mailbox then, where nobody reads it.
-/

namespace ScriptPool

/-- A world and, for every call that tried to start a single worker, the worker that it still owes
the command. -/
structure Tended where
  world : World
  calls : List (Option Nat)

/-- One thing that happens: a move, or a step of a call on a single worker. -/
inductive Tending where
  | move (m : Move)
  /-- A thread tries to start a worker: the flag is raised if it is down. -/
  | start (me : ThreadId) (serial : Nat)
  /-- A call that has raised a flag sends the command. -/
  | command (me : ThreadId) (call : Nat)
  /-- A thread tells a worker to stop. -/
  | stop (me : ThreadId) (serial : Nat)

/-- The worker whose flag a thread has raised and that it still owes the command. -/
def Errand.owed? : Errand → Option Nat
  | .sending serial _ => some serial
  | _ => none

/-- Who starts workers: a thread that goes about the pool, or a call on a single worker. -/
inductive Caller where
  | thread (me : ThreadId)
  | call (k : Nat)
  deriving DecidableEq

/-- The flag of a worker is lowered by somebody else. -/
def World.lower (w : World) (serial : Nat) : World :=
  w.modifyWorker serial fun worker => { worker with running := false }

namespace Tended

/-- What becomes of a tended world, or `none` if the tending is not possible. -/
def next? (library : Library) (t : Tended) : Tending → Option Tended
  | .move m => (t.world.move? library m).map fun w => ⟨w, t.calls⟩
  | .start me serial =>
    if serial < t.world.workers.length then
      (startStep me t.world (.trying [serial] 1 0)).map fun (w, stage) =>
        ⟨w, t.calls ++ [(stage.errand StartPlace.errand).owed?]⟩
    else none
  | .command me call => t.calls[call]?.join.bind fun serial =>
    -- a command for a thread that has ended cannot be sent, and the flag is lowered again
    if t.world.isGone serial then some ⟨t.world.lower serial, t.calls.set call none⟩
    else
      (startStep me t.world (.sending serial [] 1 0)).map fun (w, _) => ⟨w, t.calls.set call none⟩
  | .stop me serial =>
    (dismissStep me t.world (.telling [serial] 1)).map fun (w, _) => ⟨w, t.calls⟩

/-- The tended world after some tendings, or `none` if they are not possible one after another. -/
def follow (library : Library) (t : Tended) (tendings : List Tending) : Option Tended :=
  tendings.foldlM (next? library) t

/-- Nothing has happened. -/
def initial (engine : Engine) (main : ContextId) (poolSize others : Nat) : Tended :=
  ⟨World.initial engine main poolSize others, []⟩

/-- The worker that a caller owes the command. -/
def owed? (t : Tended) : Caller → Option Nat
  | .thread me => (t.world.errand me).owed?
  | .call k => t.calls[k]?.join

end Tended

theorem Run.tended {library : Library} {w w' : World} {moves : List Move}
    (h : Run library w moves w') (calls : List (Option Nat)) :
    Tended.follow library ⟨w, calls⟩ (moves.map .move) = some ⟨w', calls⟩ := by
  induction h using Run.head_induction with
  | nil => rfl
  | cons hv _ ih =>
      rw [List.map_cons, Tended.follow, List.foldlM_cons, Tended.next?, hv]
      exact ih

/-- What a tending does: a thread takes a stride, nothing happens to the crew, a call on a single
worker has a dealing with the crew, or a call gives up on a worker that is gone. -/
inductive Tended.Turn (t : Tended) : Tending → Tended → Prop where
  | stride {pick : Nat} {me : ThreadId} {w : World} (h : Stride me t.world w) :
      Turn t (.move (.step pick me)) ⟨w, t.calls⟩
  | stir {m : Move} {w : World} (h : Stir t.world w) : Turn t (.move m) ⟨w, t.calls⟩
  | call {tending : Tending} {t' : Tended} {me : ThreadId} {e e' : Errand} (k : Nat)
      (hm : ∀ m, tending ≠ .move m) (h : Crew.Step me t.world.scene e t'.world.scene e')
      (herrand : ∀ thread, t'.world.errand thread = t.world.errand thread)
      (hnew : e.newcomer? = none)
      (hknown : ∀ i rest, e = .trying (i :: rest) → i < t.world.scene.hands.length)
      (howed : t.owed? (.call k) = e.owed?)
      (howed' : t'.owed? = Function.update t.owed? (.call k) e'.owed?) : Turn t tending t'
  | withdraw {tending : Tending} {t' : Tended} (k serial : Nat) (hm : ∀ m, tending ≠ .move m)
      (hscene : t'.world.scene =
        t.world.scene.modify serial fun hand => { hand with running := false })
      (herrand : ∀ thread, t'.world.errand thread = t.world.errand thread)
      (howed : t.owed? (.call k) = some serial)
      (howed' : t'.owed? = Function.update t.owed? (.call k) none) : Turn t tending t'

variable {library : Library} {t t' : Tended} {tending : Tending} {me : ThreadId} {w w' : World}
  {c c' : Crew} {e e' : Errand} {i : Nat} {hand hand' : Hand} {owed owed' : Caller → Option Nat}
  {x : Caller}

theorem Crew.Step.errand_eq (h : Crew.Step me w.crew e w'.crew e') (thread : ThreadId) :
    w'.errand thread = w.errand thread := by
  rw [World.errand_eq_view, World.errand_eq_view, h.view_eq]

theorem World.scene_lower (w : World) (serial : Nat) :
    (w.lower serial).scene = w.scene.modify serial fun hand => { hand with running := false } :=
  World.scene_modifyWorker_of_comm (fun _ => rfl) w serial

theorem World.errand_lower (w : World) (serial : Nat) (thread : ThreadId) :
    (w.lower serial).errand thread = w.errand thread := by
  rw [World.errand_eq_view, World.errand_eq_view, World.lower, World.crew_modifyWorker
    (g := fun hand => { hand with running := false }) fun _ => rfl]
  apply Crew.view_modify
  intro hand
  rfl

theorem Tended.owed?_eq_update {k : Nat} {v : Option Nat}
    (herrand : ∀ thread, t'.world.errand thread = t.world.errand thread)
    (hcalls : ∀ j, t'.calls[j]?.join = if j = k then v else t.calls[j]?.join) :
    t'.owed? = Function.update t.owed? (.call k) v := by
  funext caller
  cases caller with
  | thread me => simp [owed?, herrand]
  | call j => simp [owed?, hcalls, Function.update_apply]

theorem join_append_getElem? (calls : List (Option Nat)) (v : Option Nat) (j : Nat) :
    (calls ++ [v])[j]?.join = if j = calls.length then v else calls[j]?.join := by
  rcases Nat.lt_trichotomy j calls.length with hj | rfl | hj
  · rw [List.getElem?_append_left hj, if_neg (Nat.ne_of_lt hj)]
  · simp
  · rw [if_neg (Nat.ne_of_gt hj), List.getElem?_eq_none (Nat.le_of_lt hj),
      List.getElem?_eq_none (by rwa [List.length_append, List.length_singleton])]

theorem join_set_getElem? (calls : List (Option Nat)) (k j : Nat) :
    (calls.set k none)[j]?.join = if j = k then none else calls[j]?.join := by
  rw [List.getElem?_set]
  by_cases hj : k = j
  · rw [if_pos hj, if_pos hj.symm]
    split
    · rfl
    · rfl
  · rw [if_neg hj, if_neg (Ne.symm hj)]

theorem Tended.next?_turn (h : t.next? library tending = some t') : t.Turn tending t' := by
  cases tending with
  | move m =>
      simp only [next?, Option.map_eq_some_iff] at h
      obtain ⟨w, hw, rfl⟩ := h
      rcases World.move?_stride hw with ⟨pick, me, rfl, -, hstride⟩ | hstir
      · exact .stride hstride
      · exact .stir hstir
  | start me serial =>
      simp only [next?] at h
      split at h
      · next hlt =>
          obtain ⟨⟨w, stage⟩, hs, rfl⟩ := Option.map_eq_some_iff.mp h
          have hstep := startStep_crew hs
          refine .call t.calls.length (by simp) hstep.scene hstep.errand_eq rfl
            (fun i rest he => ?_) ?_ (owed?_eq_update hstep.errand_eq (join_append_getElem? _ _))
          · cases he
            simpa [World.scene, Crew.scene, World.crew] using hlt
          · simp [owed?, StartPlace.errand, Errand.owed?]
      · cases h
  | command me call =>
      simp only [next?, Option.bind_eq_some_iff] at h
      obtain ⟨serial, hcall, h⟩ := h
      split at h
      · cases h
        have herrand := t.world.errand_lower serial
        exact .withdraw call serial (by simp) (t.world.scene_lower serial) herrand hcall
          (owed?_eq_update herrand (join_set_getElem? _ _))
      · obtain ⟨⟨w, stage⟩, hs, rfl⟩ := Option.map_eq_some_iff.mp h
        have hstep := startStep_crew hs
        have hstage : (stage.errand StartPlace.errand).owed? = none := by
          cases hs
          rfl
        refine .call call (by simp) hstep.scene hstep.errand_eq rfl (by simp [StartPlace.errand])
          hcall ?_
        rw [hstage]
        exact owed?_eq_update hstep.errand_eq (join_set_getElem? _ _)
  | stop me serial =>
      simp only [next?, Option.map_eq_some_iff] at h
      obtain ⟨⟨w, stage⟩, hs, rfl⟩ := h
      have hstep := dismissStep_crew hs
      have hnone : t.owed? (.call t.calls.length) = none := by simp [owed?]
      have hstage : (stage.errand DismissPlace.errand).owed? = none := by
        simp only [dismissStep] at hs
        split at hs
        · cases hs
          rfl
        · cases hs
          rfl
      refine .call t.calls.length (by simp) hstep.scene hstep.errand_eq rfl
        (by simp [DismissPlace.errand]) hnone ?_
      rw [hstage]
      refine owed?_eq_update hstep.errand_eq fun j => ?_
      split
      · next hj => rw [hj, List.getElem?_eq_none (Nat.le_refl _), Option.join_none]
      · rfl

/-- The workers that an errand is about. -/
def Errand.workers : Errand → List Nat
  | .trying rest => rest
  | .sending serial rest => serial :: rest
  | .hired serial | .adding serial => [serial]
  | .away | .owing | .holding | .taking => []

/-- All workers in the pool and in the errands of threads are on the books. -/
structure Known (c : Crew) (errand : ThreadId → Errand) : Prop where
  pool : ∀ i ∈ c.pool, i < c.hands.length
  workers : ∀ thread, ∀ i ∈ (errand thread).workers, i < c.hands.length

theorem Crew.Step.workers (h : Crew.Step me c e c' e') (hi : i ∈ c'.pool ∨ i ∈ e'.workers) :
    i ∈ c.pool ∨ i ∈ e.workers ∨ i = c.hands.length ∧ i < c'.hands.length := by
  cases h with
  | still | push | count | notify | hold | unlock | tell => exact hi.imp_right .inl
  | lockHired | raise => exact hi.imp_right .inl
  | lock _ _ hlock =>
      rcases hlock with rfl | rfl | rfl
      · exact .inl (hi.elim id id)
      · exact hi.imp_right .inl
      · exact hi.imp_right .inl
  | skip | send => exact hi.imp_right fun hi => .inl (List.mem_cons_of_mem _ hi)
  | stop => exact .inl (hi.resolve_right List.not_mem_nil)
  | take => exact absurd (hi.resolve_right List.not_mem_nil) List.not_mem_nil
  | hire =>
      refine hi.imp_right fun hi => .inr ⟨List.mem_singleton.mp hi, ?_⟩
      rw [List.mem_singleton.mp hi, List.length_append, List.length_singleton]
      exact Nat.lt_succ_self _
  | add =>
      rcases List.mem_append.mp (hi.resolve_right List.not_mem_nil) with hi | hi
      · exact .inl hi
      · exact .inr (.inl hi)

theorem Known.stride (hk : Known w.scene w.errand) (h : Stride me w w') :
    Known w'.scene w'.errand := by
  -- no other thread comes to know of a worker, and no worker leaves the books
  have hlength := h.hands_length_le
  have hothers {thread : ThreadId} (hne : thread ≠ me) : w'.errand thread = w.errand thread :=
    h.errand_of_ne hne
  cases h with
  | own _ _ hown hscene _ herrand =>
      constructor
      · rw [hscene, Crew.put, hown.pool_eq.1]
        exact fun i hi => Nat.lt_of_lt_of_le (hk.pool i hi) (by rwa [hscene] at hlength)
      · intro thread i hi
        rw [herrand] at hi
        exact Nat.lt_of_lt_of_le (hk.workers thread i hi) hlength
  | errand _ h =>
      have hme {i : Nat} (hi : i ∈ w'.scene.pool ∨ i ∈ (w'.errand me).workers) :
          i < w'.scene.hands.length := by
        rcases h.workers hi with hi | hi | ⟨-, hi⟩
        · exact Nat.lt_of_lt_of_le (hk.pool i hi) hlength
        · exact Nat.lt_of_lt_of_le (hk.workers me i hi) hlength
        · exact hi
      refine ⟨fun i hi => hme (.inl hi), fun thread i hi => ?_⟩
      by_cases hthread : thread = me
      · exact hme (.inr (hthread ▸ hi))
      · rw [hothers hthread] at hi
        exact Nat.lt_of_lt_of_le (hk.workers thread i hi) hlength

theorem Known.turn (hk : Known t.world.scene t.world.errand) (h : t.Turn tending t') :
    Known t'.world.scene t'.world.errand := by
  cases h with
  | stride h => exact hk.stride h
  | stir h =>
      rw [h.scene_eq, funext h.errand_eq]
      exact hk
  | call k _ h herrand hnew =>
      rw [funext herrand]
      have hlength := h.hands_length_le
      refine ⟨fun i hi => Nat.lt_of_lt_of_le (hk.pool i ?_) hlength, fun thread i hi =>
        Nat.lt_of_lt_of_le (hk.workers thread i hi) hlength⟩
      rcases h.pool_cases with hpool | hpool | ⟨serial, rfl, -⟩
      · rwa [hpool] at hi
      · simp [hpool] at hi
      · cases hnew
  | withdraw k serial _ hscene herrand =>
      rw [funext herrand, hscene]
      exact ⟨fun i hi => by simpa [Crew.modify] using hk.pool i hi,
        fun thread i hi => by simpa [Crew.modify] using hk.workers thread i hi⟩

theorem Hand.Armed.withdrawn (ha : hand.Armed) : Hand.Resting { hand with running := false } :=
  ⟨rfl, ha.unmailed, ha.idle⟩

/-- What can become of a worker whose flag nobody raises and whom nobody commands to run. -/
inductive Crew.Left (c : Crew) (i : Nat) (hand' : Hand) : Prop where
  | same (h : c.hands[i]? = some hand')
  | stopped {hand : Hand} (h : c.hands[i]? = some hand)
      (heq : hand' = { hand with mailbox := hand.mailbox ++ [.stop] })
  | hired (hi : i = c.hands.length) (heq : hand' = newHand)
  | own {hand : Hand} {c₁ : Crew} (h : c.hands[i]? = some hand) (hown : Own i c hand c₁ hand')

/-- What a tending does to the workers and to what callers owe them. -/
inductive Crew.Deal (c : Crew) (owed : Caller → Option Nat) :
    Crew → (Caller → Option Nat) → Prop where
  | raise (x : Caller) (i : Nat) (hx : owed x = none) (hi : i < c.hands.length)
      (hidle : c.isRunning i = false) :
      Deal c owed (c.modify i fun hand => { hand with running := true })
        (Function.update owed x (some i))
  | send (x : Caller) (i : Nat) (hx : owed x = some i) :
      Deal c owed (c.modify i fun hand => { hand with mailbox := hand.mailbox ++ [.run] })
        (Function.update owed x none)
  | withdraw (x : Caller) (i : Nat) (hx : owed x = some i) :
      Deal c owed (c.modify i fun hand => { hand with running := false })
        (Function.update owed x none)
  | leave (c' : Crew) (hlength : c.hands.length ≤ c'.hands.length)
      (hleft : ∀ i hand', c'.hands[i]? = some hand' → c.Left i hand') : Deal c owed c' owed

theorem Crew.Step.left (h : Crew.Step me c e c' e') (he : e.owed? = none) (he' : e'.owed? = none)
    (hi : c'.hands[i]? = some hand') : c.Left i hand' := by
  have htouched : Touched (.host 0) c e e' i hand' := h.touched hi
  cases htouched with
  | same h => exact .same h
  | raised _ _ _ hsending => simp [hsending, Errand.owed?] at he'
  | started _ _ hsending => simp [hsending, Errand.owed?] at he
  | stopped h _ _ heq => exact .stopped h heq
  | hired hi _ _ heq => exact .hired hi heq
  | own _ hme => cases hme

theorem Crew.Step.deal (h : Crew.Step me c e c' e')
    (hknown : ∀ i rest, e = .trying (i :: rest) → i < c.hands.length) (hx : owed x = e.owed?) :
    c.Deal owed c' (Function.update owed x e'.owed?) := by
  have hleave (he : e.owed? = none) (he' : e'.owed? = none) :
      c.Deal owed c' (Function.update owed x e'.owed?) := by
    have hsame : Function.update owed x e'.owed? = owed := by
      rw [he', ← he, ← hx, Function.update_eq_self]
    rw [hsame]
    exact .leave c' h.hands_length_le fun i hand' hi => h.left he he' hi
  cases h with
  | raise serial rest _ hidle => exact .raise x serial hx (hknown serial rest rfl) hidle
  | send serial rest => exact .send x serial hx
  | lock _ _ hlock =>
      refine hleave rfl ?_
      rcases hlock with rfl | rfl | rfl
      · rfl
      · rfl
      · rfl
  | still | push | count | notify | lockHired | skip | stop | hold | unlock | take | tell | hire
  | add => exact hleave rfl rfl

theorem Stride.deal (hk : Known t.world.scene t.world.errand)
    (h : Stride me t.world w) : t.world.scene.Deal t.owed? w.scene (Tended.owed? ⟨w, t.calls⟩) := by
  have howed : Tended.owed? ⟨w, t.calls⟩ =
      Function.update t.owed? (.thread me) (w.errand me).owed? := by
    funext caller
    cases caller with
    | call k => simp [Tended.owed?]
    | thread thread =>
        by_cases hthread : thread = me
        · simp [Tended.owed?, hthread]
        · simp [Tended.owed?, hthread, h.errand_of_ne hthread]
  rw [howed]
  cases h with
  | errand _ h =>
      refine h.deal (fun i rest he => hk.workers me i ?_) rfl
      rw [he]
      exact List.mem_cons_self
  | @own serial hand hand' c₁ _ hhand hown hscene haway herrand =>
      have hsame : (w.errand me).owed? = t.owed? (.thread me) := by rw [herrand, Tended.owed?]
      rw [hsame, Function.update_eq_self, hscene]
      refine .leave _ (by simp [Crew.put, hown.hands_eq]) fun i hand₁ hi => ?_
      rw [hown.put_getElem? hhand] at hi
      split at hi
      · next heq =>
          cases heq
          cases hi
          exact .own hhand hown
      · exact .same hi

theorem Tended.Turn.deal (hk : Known t.world.scene t.world.errand) (h : t.Turn tending t') :
    t.world.scene.Deal t.owed? t'.world.scene t'.owed? := by
  cases h with
  | stride h => exact h.deal hk
  | @stir m w h =>
      have howed : Tended.owed? ⟨w, t.calls⟩ = t.owed? := by
        funext caller
        cases caller with
        | call k => rfl
        | thread thread => simp [Tended.owed?, h.errand_eq]
      rw [h.scene_eq, howed]
      exact .leave _ (Nat.le_refl _) fun i hand hi => .same hi
  | call k _ h _ _ hknown howed howed' =>
      rw [howed']
      exact h.deal hknown howed
  | withdraw k serial _ hscene _ howed howed' =>
      rw [howed', hscene]
      exact .withdraw (.call k) serial howed

/-- What holds of the workers and of what callers owe them between any two tendings. -/
structure Orderly (c : Crew) (owed : Caller → Option Nat) : Prop where
  hands : ∀ {i : Nat} {hand : Hand}, c.hands[i]? = some hand → hand.Sound ∧ hand.Candid
  armed : ∀ {x : Caller} {i : Nat}, owed x = some i →
    ∃ hand, c.hands[i]? = some hand ∧ hand.Armed
  alone : ∀ {x y : Caller} {i : Nat}, owed x = some i → owed y = some i → x = y

theorem Orderly.modify (ho : Orderly c owed) {f : Hand → Hand} {v : Option Nat}
    (hhand : c.hands[i]? = some hand) (hothers : ∀ y, y ≠ x → owed y ≠ some i)
    (hf : (f hand).Sound ∧ (f hand).Candid) (hv : ∀ j, v = some j → j = i ∧ (f hand).Armed) :
    Orderly (c.modify i f) (Function.update owed x v) where
  hands := by
    intro j hand' hj
    rw [Crew.hands_modify_getElem?, Option.map_eq_some_iff] at hj
    obtain ⟨hand₁, hhand₁, rfl⟩ := hj
    split
    · next hij =>
        subst hij
        cases hhand.symm.trans hhand₁
        exact hf
    · exact ho.hands hhand₁
  armed := by
    intro y j hy
    rw [Crew.hands_modify_getElem?]
    by_cases hyx : y = x
    · rw [hyx, Function.update_self] at hy
      obtain ⟨rfl, harmed⟩ := hv j hy
      exact ⟨f hand, by simp [hhand], harmed⟩
    · rw [Function.update_of_ne hyx] at hy
      have hij : i ≠ j := by
        rintro rfl
        exact hothers y hyx hy
      obtain ⟨hand₁, hhand₁, harmed⟩ := ho.armed hy
      exact ⟨hand₁, by simp [hhand₁, hij], harmed⟩
  alone := by
    have hself {y : Caller} {j : Nat} (hy : Function.update owed x v y = some j) (hne : y ≠ x) :
        owed y = some j ∧ v ≠ some j := by
      rw [Function.update_of_ne hne] at hy
      refine ⟨hy, fun hj => hothers y hne ?_⟩
      rw [hy, (hv j hj).1]
    intro y z j hy hz
    by_cases hyx : y = x
    · by_cases hzx : z = x
      · rw [hyx, hzx]
      · rw [hyx, Function.update_self] at hy
        exact absurd hy (hself hz hzx).2
    · by_cases hzx : z = x
      · rw [hzx, Function.update_self] at hz
        exact absurd hz (hself hy hyx).2
      · exact ho.alone (hself hy hyx).1 (hself hz hzx).1

theorem Crew.Left.sound (h : c.Left i hand')
    (hc : ∀ {hand : Hand}, c.hands[i]? = some hand → hand.Sound ∧ hand.Candid) :
    hand'.Sound ∧ hand'.Candid := by
  cases h with
  | same h => exact hc h
  | stopped h heq => exact heq ▸ ⟨(hc h).1.stopped, (hc h).2⟩
  | hired _ heq => exact heq ▸ ⟨newHand_resting.sound, rfl⟩
  | own h hown => exact ⟨hown.sound (hc h).1, hown.candid (hc h).2⟩

theorem Crew.Left.armed (h : c.Left i hand') (hhand : c.hands[i]? = some hand)
    (ha : hand.Armed) : hand'.Armed := by
  cases h with
  | same h =>
      cases hhand.symm.trans h
      exact ha
  | stopped h heq =>
      cases hhand.symm.trans h
      exact heq ▸ ha.stopped
  | hired hi => exact absurd (List.getElem?_eq_some_iff.mp hhand).1 (by omega)
  | own h hown =>
      cases hhand.symm.trans h
      exact hown.armed ha

theorem Orderly.deal (ho : Orderly c owed) (h : c.Deal owed c' owed') : Orderly c' owed' := by
  cases h with
  | raise x i hx hi hidle =>
      have hhand := List.getElem?_eq_getElem hi
      have hdown : c.hands[i].running = false := by simpa [Crew.isRunning, hhand] using hidle
      obtain ⟨hsound, hcandid⟩ := ho.hands hhand
      have harmed := (hsound.resting hdown).raised
      refine ho.modify hhand (fun y _ hy => ?_) ⟨harmed.sound, hcandid⟩ fun j hj => ?_
      · -- whoever owes a worker a command has its flag raised
        obtain ⟨hand, hhand', harmed'⟩ := ho.armed hy
        cases hhand.symm.trans hhand'
        simp [harmed'.running] at hdown
      · exact ⟨(Option.some.inj hj).symm, harmed⟩
  | send x i hx =>
      obtain ⟨hand, hhand, harmed⟩ := ho.armed hx
      exact ho.modify hhand (fun y hne hy => hne (ho.alone hy hx))
        ⟨harmed.sent, (ho.hands hhand).2⟩ (by simp)
  | withdraw x i hx =>
      obtain ⟨hand, hhand, harmed⟩ := ho.armed hx
      exact ho.modify hhand (fun y hne hy => hne (ho.alone hy hx))
        ⟨harmed.withdrawn.sound, (ho.hands hhand).2⟩ (by simp)
  | leave _ hlength hleft =>
      refine ⟨fun hi => (hleft _ _ hi).sound ho.hands, fun {x i} hx => ?_, ho.alone⟩
      obtain ⟨hand, hhand, harmed⟩ := ho.armed hx
      have hlt := Nat.lt_of_lt_of_le (List.getElem?_eq_some_iff.mp hhand).1 hlength
      have hhand' := List.getElem?_eq_getElem hlt
      exact ⟨_, hhand', (hleft _ _ hhand').armed hhand harmed⟩

end ScriptPool
