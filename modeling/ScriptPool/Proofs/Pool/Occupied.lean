import ScriptPool.Proofs.Pool.Ledger

namespace ScriptPool

/-- Somebody answers for every lock and every flag. -/
structure Occupied (c : Crew) (errand : ThreadId → Errand) : Prop where
  pool : ∀ {thread : ThreadId}, c.poolHolder? = some thread → (errand thread).locks = true
  queue : ∀ {thread : ThreadId}, c.queueHolder? = some thread → ∃ (i : Nat) (hand : Hand),
    thread = .worker i ∧ c.hands[i]? = some hand ∧ hand.place.isClaiming = true
  running : ∀ {i : Nat} {hand : Hand}, c.hands[i]? = some hand → hand.running = true →
    hand.place.isBusy = true ∨ .run ∈ hand.mailbox ∨
      ∃ thread rest, errand thread = .sending i rest

variable {me thread : ThreadId} {c c' c₁ : Crew} {e e' : Errand} {i : Nat} {hand hand' : Hand}
  {w w' : World}

theorem Crew.Step.locks_of_holder (h : Crew.Step me c e c' e')
    (hme : c.poolHolder? = some me → e.locks = true) (hholder : c'.poolHolder? = some me) :
    e'.locks = true := by
  cases h with
  | lock _ _ he =>
      rcases he with rfl | rfl | rfl
      · rfl
      · rfl
      · rfl
  | lockHired | skip | stop | raise | send | hold => rfl
  | still | push | count | notify | tell | hire => exact hme hholder
  | unlock | take | add => cases hholder

theorem Crew.Step.holder_back (h : Crew.Step me c e c' e') (hne : thread ≠ me)
    (hholder : c'.poolHolder? = some thread) : c.poolHolder? = some thread := by
  cases h with
  | lock | lockHired =>
      cases hholder
      exact absurd rfl hne
  | still | push | count | notify | skip | stop | raise | send | hold | tell | hire => exact hholder
  | unlock | take | add => cases hholder

/-- What makes a worker answer for its flag, besides a command that is still to be sent to it. -/
def Hand.Roused (hand : Hand) : Prop :=
  hand.place.isBusy = true ∨ .run ∈ hand.mailbox

theorem Crew.Own.roused (h : Crew.Own i c hand c₁ hand') (hr : hand'.running = true) :
    hand.running = true ∧ (hand.Roused → hand'.Roused) := by
  cases h with
  | move p hp => exact ⟨hr, Or.imp (hp.isBusy_eq ▸ id) id⟩
  | receive command rest hplace hmailbox =>
      refine ⟨hr, fun hroused => ?_⟩
      cases command with
      | run => exact .inl rfl
      | stop =>
          rcases hroused with hbusy | hmailed
          · rw [hplace] at hbusy
            cases hbusy
          · rw [hmailbox] at hmailed
            exact .inr (by simpa using hmailed)
  | announce hplace =>
      refine ⟨hr, fun hroused => .inr (hroused.resolve_left ?_)⟩
      rw [hplace]
      nofun
  | report once =>
      refine ⟨hr, fun _ => .inl ?_⟩
      cases once with
      | false | true => rfl
  | leave | pop | publish | unlockQueue | fail | complete | clear => exact ⟨hr, fun _ => .inl rfl⟩
  | rest => cases hr

theorem Crew.Step.roused (h : Crew.Step me c e c' e') (hhand' : c'.hands[i]? = some hand')
    (hr : hand'.running = true) :
    hand'.Roused ∨ (∃ rest, e' = .sending i rest) ∨
      ∃ hand, c.hands[i]? = some hand ∧ hand.running = true ∧ (hand.Roused → hand'.Roused) ∧
        ∀ rest, e ≠ .sending i rest := by
  have hsame (hhands : c'.hands[i]? = c.hands[i]?) (he : ∀ rest, e ≠ .sending i rest) :
      ∃ hand, c.hands[i]? = some hand ∧ hand.running = true ∧ (hand.Roused → hand'.Roused) ∧
        ∀ rest, e ≠ .sending i rest :=
    ⟨hand', hhands ▸ hhand', hr, id, he⟩
  cases h with
  | raise serial rest =>
      by_cases hi : serial = i
      · subst hi
        exact .inr (.inl ⟨rest, rfl⟩)
      · exact .inr (.inr (hsame (by simp [Crew.modify, hi]) (by rintro rest ⟨⟩)))
  | send serial rest =>
      by_cases hi : serial = i
      · subst hi
        rw [Crew.hands_modify_getElem?, Option.map_eq_some_iff] at hhand'
        obtain ⟨hand, -, heq⟩ := hhand'
        rw [if_pos rfl] at heq
        exact .inl (.inr (by simp [← heq]))
      · refine .inr (.inr (hsame (by simp [Crew.modify, hi]) fun rest' heq => ?_))
        cases heq
        exact hi rfl
  | tell serial =>
      rw [Crew.hands_modify_getElem?, Option.map_eq_some_iff] at hhand'
      obtain ⟨hand, hhand, heq⟩ := hhand'
      refine .inr (.inr ⟨hand, hhand, ?_, ?_, by rintro rest ⟨⟩⟩)
      · split at heq
        · rw [← heq] at hr
          exact hr
        · rw [← heq] at hr
          exact hr
      · split at heq
        · rw [← heq]
          exact Or.imp id fun hm => List.mem_append_left _ hm
        · rw [← heq]
          exact id
  | hire =>
      refine .inr (.inr (hsame ?_ (by rintro rest ⟨⟩)))
      rw [List.getElem?_append] at hhand' ⊢
      split
      · rfl
      · next hlt =>
          rw [if_neg hlt, List.getElem?_singleton] at hhand'
          split at hhand'
          · cases hhand'
            cases hr
          · cases hhand'
  | lock | lockHired | still | push | count | notify | skip | stop | hold | unlock | take | add =>
      exact .inr (.inr (hsame rfl (by rintro rest ⟨⟩)))

theorem Crew.Own.claims (h : Crew.Own i c hand c₁ hand') (hhand : c.hands[i]? = some hand)
    (hholder : c₁.queueHolder? = some thread)
    (hold : c.queueHolder? = some thread → ∃ (j : Nat) (other : Hand), thread = .worker j ∧
      c.hands[j]? = some other ∧ other.place.isClaiming = true) :
    ∃ (j : Nat) (other : Hand), thread = .worker j ∧ (c₁.put i hand').hands[j]? = some other ∧
      other.place.isClaiming = true := by
  rcases h.queueHolder with ⟨hsame, hclaiming⟩ | ⟨-, hnew, hclaiming⟩ | ⟨-, -, hfree⟩
  · obtain ⟨j, other, rfl, hother, hclaims⟩ := hold (hsame ▸ hholder)
    by_cases hij : i = j
    · subst hij
      rw [hhand] at hother
      cases hother
      refine ⟨i, hand', rfl, ?_, hclaiming.trans hclaims⟩
      rw [h.put_getElem? hhand, if_pos rfl]
    · refine ⟨j, other, rfl, ?_, hclaims⟩
      rw [h.put_getElem? hhand, if_neg hij, hother]
  · rw [hnew] at hholder
    cases hholder
    refine ⟨i, hand', rfl, ?_, hclaiming⟩
    rw [h.put_getElem? hhand, if_pos rfl]
  · rw [hfree] at hholder
    cases hholder

theorem Occupied.stride (ho : Occupied w.scene w.errand) (h : Stride me w w') :
    Occupied w'.scene w'.errand := by
  have herrand {thread : ThreadId} (hne : thread ≠ me) : w'.errand thread = w.errand thread :=
    h.errand_of_ne hne
  cases h with
  | errand _ hstep =>
      constructor
      · intro thread hholder
        by_cases hme : thread = me
        · subst hme
          exact hstep.locks_of_holder ho.pool hholder
        · rw [herrand hme]
          exact ho.pool (hstep.holder_back hme hholder)
      · intro thread hholder
        rw [hstep.queueHolder_eq] at hholder
        obtain ⟨i, hand, rfl, hhand, hclaiming⟩ := ho.queue hholder
        obtain ⟨hand', hhand', hplace⟩ := hstep.place_eq hhand
        exact ⟨i, hand', rfl, hhand', hplace ▸ hclaiming⟩
      · intro i hand' hhand' hr
        rw [← or_assoc]
        rcases hstep.roused hhand' hr with hroused | ⟨rest, hsending⟩ | ⟨hand, hhand, hr, hgo, hnot⟩
        · exact .inl hroused
        · exact .inr ⟨me, rest, hsending⟩
        · rcases or_assoc.mpr (ho.running hhand hr) with hroused | ⟨thread, rest, hsending⟩
          · exact .inl (hgo hroused)
          · refine .inr ⟨thread, rest, ?_⟩
            rw [herrand, hsending]
            rintro rfl
            exact hnot rest hsending
  | @own serial hand hand' c₁ _ hhand hown hscene _ hsame =>
      have hlookup (i : Nat) : w'.scene.hands[i]? =
          if serial = i then some hand' else w.scene.hands[i]? := by
        rw [hscene]
        exact hown.put_getElem? hhand i
      constructor
      · intro thread hholder
        rw [hsame]
        rw [hscene, Crew.put, hown.pool_eq.2] at hholder
        exact ho.pool hholder
      · intro thread hholder
        rw [hscene] at hholder ⊢
        exact hown.claims hhand hholder ho.queue
      · intro i hand₁ hhand₁ hr
        simp only [hsame]
        rw [hlookup] at hhand₁
        split at hhand₁
        · next hi =>
            subst hi
            cases hhand₁
            obtain ⟨hr', hgo⟩ := hown.roused hr
            rw [← or_assoc]
            exact (or_assoc.mpr (ho.running hhand hr')).imp hgo id
        · exact ho.running hhand₁ hr

theorem Stride.holder_back (h : Stride me w w') (hne : thread ≠ me)
    (hholder : w'.poolHolder? = some thread) : w.poolHolder? = some thread := by
  cases h with
  | errand _ hstep => exact hstep.holder_back hne hholder
  | own _ _ hown hscene =>
      have hsame : w'.poolHolder? = w.poolHolder? :=
        (congrArg Crew.poolHolder? hscene).trans hown.pool_eq.2
      rw [← hsame]
      exact hholder

theorem Run.occupied {library : Library} {engine : Engine} {main : ContextId}
    {poolSize others : Nat} {moves : List Move}
    (h : Run library (World.initial engine main poolSize others) moves w) :
    Occupied w.scene w.errand := by
  refine h.keeps ?_ fun me v v' hstride hv => hv.stride hstride
  constructor
  · nofun
  · nofun
  · nofun

end ScriptPool
