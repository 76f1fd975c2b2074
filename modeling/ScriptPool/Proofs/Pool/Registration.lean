import ScriptPool.Proofs.Pool.Staff

namespace ScriptPool

/-- The registered contexts are those of the workers that have not left, each once. -/
structure Staff.Registered (s : Staff) : Prop where
  nodup : s.registered.Nodup
  held : ∀ c, c ∈ s.registered ↔
    ∃ (i : Nat) (post : Post), s.posts[i]? = some post ∧ post.gone = false ∧ post.context = c

/-- The contexts of workers have been made and differ from each other. -/
structure Staff.Secluded (s : Staff) : Prop where
  distinct : ∀ {i j : Nat} {post other : Post}, s.posts[i]? = some post → s.posts[j]? = some other →
    post.context = other.context → i = j
  known : ∀ {i : Nat} {post : Post}, s.posts[i]? = some post → post.context < s.made

variable {library : Library} {me : ThreadId} {s s' : Staff} {d d' : Duty} {w w' : World}

theorem Staff.getElem?_modify (s : Staff) (serial : Nat) (f : Post → Post) (i : Nat) :
    (s.modify serial f).posts[i]? =
      s.posts[i]?.map fun post => if serial = i then f post else post := by
  rw [Staff.modify, List.getElem?_modify]
  split
  · simp
  · simp

theorem World.Secluded.staff (h : w.Secluded) : w.staff.Secluded := by
  have hcontext {i : Nat} {post : Post} (hpost : w.staff.posts[i]? = some post) :
      w.homes[i + 1]? = some post.context := by
    simp only [World.staff, List.getElem?_map, Option.map_eq_some_iff] at hpost
    obtain ⟨worker, hworker, rfl⟩ := hpost
    simp [World.homes, hworker, Worker.post]
  constructor
  · intro i j post other hpost hother heq
    have hi := hcontext hpost
    have hj := hcontext hother
    rw [heq, ← hj] at hi
    have hlt := (List.getElem?_eq_some_iff.mp (hcontext hpost)).1
    exact Nat.succ_inj.mp ((List.getElem?_inj hlt h.distinct).mp hi)
  · intro i post hpost
    exact h.known _ (List.mem_of_getElem? (hcontext hpost))

namespace Staff.Registered

theorem of_same (hr : s.Registered) (hregistered : s'.registered = s.registered)
    (hposts : s'.posts.map (fun post => (post.gone, post.context)) =
      s.posts.map fun post => (post.gone, post.context)) : s'.Registered := by
  have hheld (t : Staff) (c : ContextId) :
      (∃ (i : Nat) (post : Post), t.posts[i]? = some post ∧ post.gone = false ∧
        post.context = c) ↔ (false, c) ∈ t.posts.map fun post => (post.gone, post.context) := by
    constructor
    · rintro ⟨i, post, hpost, hstays, rfl⟩
      exact List.mem_map.mpr ⟨post, List.mem_of_getElem? hpost, by rw [hstays]⟩
    · intro h
      obtain ⟨post, hmem, heq⟩ := List.mem_map.mp h
      obtain ⟨i, hpost⟩ := List.mem_iff_getElem?.mp hmem
      obtain ⟨hstays, hc⟩ := Prod.mk.inj heq
      exact ⟨i, post, hpost, hstays, hc⟩
  constructor
  · rw [hregistered]
    exact hr.nodup
  · intro c
    rw [hregistered, hr.held, hheld, hheld, hposts]

theorem hire (hr : s.Registered) (hs : s.Secluded) (id : Nat) :
    Registered { s.register with posts := s.posts ++ [newPost id s.made] } := by
  have hnew : s.made ∉ s.registered := by
    rw [hr.held]
    rintro ⟨i, post, hpost, -, hc⟩
    exact (hs.known hpost).ne hc
  have hregistered : s.register.registered = s.made :: s.registered := by
    rw [Staff.register, List.filter_eq_self.mpr]
    intro c hc
    rw [bne_iff_ne]
    rintro rfl
    exact hnew hc
  constructor
  · rw [hregistered]
    exact List.nodup_cons.mpr ⟨hnew, hr.nodup⟩
  · intro c
    rw [hregistered, List.mem_cons, hr.held]
    constructor
    · rintro (rfl | ⟨i, post, hpost, hstays, hc⟩)
      · exact ⟨s.posts.length, newPost id s.made, by simp, rfl, rfl⟩
      · refine ⟨i, post, ?_, hstays, hc⟩
        rw [List.getElem?_append_left (List.getElem?_eq_some_iff.mp hpost).1]
        exact hpost
    · rintro ⟨i, post, hpost, hstays, hc⟩
      rw [List.getElem?_append] at hpost
      split at hpost
      · exact .inr ⟨i, post, hpost, hstays, hc⟩
      · left
        rw [List.getElem?_singleton] at hpost
        split at hpost
        · cases hpost
          exact hc.symm
        · cases hpost

theorem exit (hr : s.Registered) (hs : s.Secluded) {serial : Nat} {post : Post}
    (hpost : s.posts[serial]? = some post) :
    Registered ((s.modify serial fun post => { post with gone := true }).unregister
      post.context) := by
  constructor
  · exact hr.nodup.filter _
  · intro c
    simp only [Staff.unregister, List.mem_filter, bne_iff_ne]
    rw [show (s.modify serial _).registered = s.registered from rfl, hr.held]
    constructor
    · rintro ⟨⟨i, other, hother, hstays, hc⟩, hne⟩
      have hi : serial ≠ i := by
        rintro rfl
        rw [hpost] at hother
        cases hother
        exact hne hc.symm
      refine ⟨i, other, ?_, hstays, hc⟩
      rw [getElem?_modify, hother, Option.map_some, if_neg hi]
    · rintro ⟨i, other, hother, hstays, hc⟩
      rw [getElem?_modify, Option.map_eq_some_iff] at hother
      obtain ⟨before, hbefore, rfl⟩ := hother
      split at hstays
      · cases hstays
      · next hi =>
          rw [if_neg hi] at hc
          refine ⟨⟨i, before, hbefore, hstays, hc⟩, ?_⟩
          rintro rfl
          exact hi (hs.distinct hpost hbefore hc.symm)

theorem replace (hr : s.Registered) (hs : s.Secluded) {serial : Nat} {post : Post}
    (hpost : s.posts[serial]? = some post) (hstays : post.gone = false) :
    Registered ((s.modify serial fun post => { post with context := s.made }).register.unregister
      post.context) := by
  have hnew : s.made ≠ post.context := (hs.known hpost).ne'
  constructor
  · have hfresh : s.made ∉ s.registered.filter (· != s.made) := by simp
    have hregistered := List.nodup_cons.mpr ⟨hfresh, hr.nodup.filter _⟩
    exact hregistered.filter (· != post.context)
  · intro c
    simp only [Staff.unregister, Staff.register, List.mem_filter, List.mem_cons, bne_iff_ne]
    rw [show (s.modify serial _).registered = s.registered from rfl,
      show (s.modify serial _).made = s.made from rfl, hr.held]
    constructor
    · rintro ⟨rfl | ⟨⟨i, other, hother, hleft, hc⟩, -⟩, hne⟩
      · refine ⟨serial, { post with context := s.made }, ?_, hstays, rfl⟩
        rw [getElem?_modify, hpost, Option.map_some, if_pos rfl]
      · have hi : serial ≠ i := by
          rintro rfl
          rw [hpost] at hother
          cases hother
          exact hne hc.symm
        refine ⟨i, other, ?_, hleft, hc⟩
        rw [getElem?_modify, hother, Option.map_some, if_neg hi]
    · rintro ⟨i, other, hother, hleft, hc⟩
      rw [getElem?_modify, Option.map_eq_some_iff] at hother
      obtain ⟨before, hbefore, rfl⟩ := hother
      by_cases hi : serial = i
      · rw [if_pos hi] at hc
        subst hc
        exact ⟨.inl rfl, hnew⟩
      · rw [if_neg hi] at hc hleft
        refine ⟨.inr ⟨⟨i, before, hbefore, hleft, hc⟩, ?_⟩, ?_⟩
        · rintro rfl
          exact (hs.known hbefore).ne hc
        · rintro rfl
          exact hi (hs.distinct hpost hbefore hc.symm)

theorem step (hr : s.Registered) (hs : s.Secluded) (h : Staff.Step me s d s' d') :
    s'.Registered := by
  have hdismiss (serial : Nat) :
      Registered (s.modify serial fun post => { post with dismissed := true }) := by
    refine hr.of_same rfl ?_
    apply List.ext_getElem?
    intro i
    rw [List.getElem?_map, List.getElem?_map, getElem?_modify, Option.map_map]
    congr 1
    funext post
    rw [Function.comp_apply]
    split
    · rfl
    · rfl
  cases h with
  | hire _ id => exact hr.hire hs id
  | exit _ _ _ hpost => exact hr.exit hs hpost
  | replace _ _ _ hpost hstays => exact hr.replace hs hpost hstays
  | tell _ serial | tellSelf _ serial => exact hdismiss serial
  | still | enter | already | flag | take | await | cleared | closed | add | opened | hired
  | lacking | short | count | size => exact hr.of_same rfl rfl

end Staff.Registered

theorem Run.registered {engine : Engine} {main : ContextId} {poolSize others : Nat}
    {moves : List Move} (h : Run library (World.initial engine main poolSize others) moves w)
    (hmain : main < engine.contexts.length) (hfresh : engine.registered = []) :
    w.staff.Registered := by
  have hinitial := World.Secluded.initial hmain poolSize others
  induction h with
  | start =>
      constructor
      · simp [World.staff, World.initial, hfresh]
      · simp [World.staff, World.initial, hfresh]
  | move h m hm ih =>
      rcases World.move?_staff hm with ⟨pick, me, -, -, hstep⟩ | hstir
      · exact ih.step (hinitial.run h).staff hstep
      · obtain ⟨made, -, heq⟩ := hstir.staff_eq
        exact ih.of_same (by rw [heq]) (by rw [heq])

/-- A worker of the later staff has the context that it had, or one made in the meantime. -/
structure Staff.Follows (s s' : Staff) : Prop where
  made_le : s.made ≤ s'.made
  context : ∀ {i : Nat} {post' : Post}, s'.posts[i]? = some post' → s.made ≤ post'.context ∨
    ∃ post, s.posts[i]? = some post ∧ post.context = post'.context

namespace Staff.Follows

theorem of_same (hmade : s.made ≤ s'.made) (hposts : s'.posts = s.posts) : s.Follows s' := by
  refine ⟨hmade, fun hpost => .inr ⟨_, ?_, rfl⟩⟩
  rw [← hposts]
  exact hpost

theorem modify {f : Post → Post} (hf : ∀ post, (f post).context = post.context) (serial : Nat) :
    s.Follows (s.modify serial f) := by
  refine ⟨Nat.le_refl _, fun {i post'} hpost => .inr ?_⟩
  rw [getElem?_modify, Option.map_eq_some_iff] at hpost
  obtain ⟨post, hpost, rfl⟩ := hpost
  refine ⟨post, hpost, ?_⟩
  split
  · exact (hf post).symm
  · rfl

theorem trans {t : Staff} (h : s.Follows s') (h' : s'.Follows t) : s.Follows t := by
  refine ⟨h.made_le.trans h'.made_le, fun hpost => ?_⟩
  rcases h'.context hpost with hfresh | ⟨post, hpost, heq⟩
  · exact .inl (h.made_le.trans hfresh)
  · rw [← heq]
    exact h.context hpost

theorem step (h : Staff.Step me s d s' d') : s.Follows s' := by
  cases h with
  | hire size? id count =>
      refine ⟨Nat.le_succ _, fun {i post'} hpost => ?_⟩
      rw [List.getElem?_append] at hpost
      split at hpost
      · exact .inr ⟨post', hpost, rfl⟩
      · rw [List.getElem?_singleton] at hpost
        split at hpost
        · cases hpost
          exact .inl (Nat.le_refl _)
        · cases hpost
  | replace serial post =>
      refine ⟨Nat.le_succ _, fun {i post'} hpost => ?_⟩
      have hmodified : (s.modify serial fun post => { post with context := s.made }).posts[i]? =
          some post' := hpost
      rw [getElem?_modify, Option.map_eq_some_iff] at hmodified
      obtain ⟨before, hbefore, rfl⟩ := hmodified
      split
      · exact .inl (Nat.le_refl _)
      · exact .inr ⟨before, hbefore, rfl⟩
  | tell _ serial | tellSelf _ serial =>
      apply modify
      intro post
      rfl
  | exit serial post =>
      have hfollows : s.Follows (s.modify serial fun post => { post with gone := true }) := by
        apply modify
        intro post
        rfl
      exact hfollows.trans (of_same (Nat.le_refl _) rfl)
  | still | enter | already | flag | take | await | cleared | closed | add | opened | hired
  | lacking | short | count | size => exact of_same (Nat.le_refl _) rfl

end Staff.Follows

theorem Run.follows {moves : List Move} (h : Run library w moves w') :
    w.staff.Follows w'.staff := by
  induction h with
  | start => exact .of_same (Nat.le_refl _) rfl
  | move _ m hm ih =>
      refine ih.trans ?_
      rcases World.move?_staff hm with ⟨pick, me, -, -, hstep⟩ | hstir
      · exact .step hstep
      · obtain ⟨made, hle, heq⟩ := hstir.staff_eq
        rw [heq]
        exact .of_same hle rfl

end ScriptPool
