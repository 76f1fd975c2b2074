import ScriptPool.Proofs.Pool.Registration

namespace ScriptPool

/-- The workers in the hands of a thread that have not been told to stop. -/
def Duty.untold : Duty → List Nat
  | .telling _ rest | .awaiting _ _ rest => rest
  | .arriving _ serial _ _ => [serial]
  | _ => []

/-- The worker that a thread waits for. -/
def Duty.awaited? : Duty → Option Nat
  | .awaiting _ serial _ => some serial
  | _ => none

/-- The number of a worker. -/
def idAt (posts : List Post) (i : Nat) : Option Nat :=
  posts[i]?.map (·.id)

/-- Besides a worker that is awaited, all workers that have not left are those of a pool, numbered
from zero, and those in the hands of a thread, and none of these has been told to stop. -/
structure Complete (posts : List Post) (pool untold : List Nat) (awaited? : Option Nat) : Prop where
  held : ∀ {i : Nat} {post : Post}, posts[i]? = some post →
    post.gone = true ∨ i ∈ pool ++ untold ∨ awaited? = some i
  nodup : (pool ++ untold).Nodup
  employed : ∀ {i : Nat}, i ∈ pool ++ untold → ∃ post, posts[i]? = some post ∧ post.dismissed = false
  leaving : ∀ {i : Nat} {post : Post}, posts[i]? = some post → post.gone = true →
    post.dismissed = true
  numbered : pool.map (idAt posts) = (List.range pool.length).map some

/-- Whether a worker has been told to stop. -/
def isTold (posts : List Post) (i : Nat) : Bool :=
  posts[i]?.any (·.dismissed)

theorem isTold_modify {f : Post → Post} (hf : ∀ post, (f post).dismissed = post.dismissed)
    (posts : List Post) (serial : Nat) : isTold (posts.modify serial f) = isTold posts := by
  funext i
  rw [isTold, List.getElem?_modify, isTold]
  cases posts[i]? with
  | none => rfl
  | some post =>
      simp only [Option.map_eq_map, Option.map_some, Option.any_some]
      split
      · exact hf post
      · rfl

theorem idAt_modify {f : Post → Post} (hf : ∀ post, (f post).id = post.id) (posts : List Post)
    (serial : Nat) : idAt (posts.modify serial f) = idAt posts := by
  funext i
  rw [idAt, List.getElem?_modify, Option.map_eq_map, Option.map_map, idAt]
  congr 1
  funext post
  rw [Function.comp_apply]
  split
  · exact hf post
  · rfl

namespace Complete

variable {posts : List Post} {pool untold : List Nat} {awaited? : Option Nat} {serial : Nat}

theorem take (h : Complete posts pool [] none) : Complete posts [] pool none where
  held := fun hpost => by simpa using h.held hpost
  nodup := by simpa using h.nodup
  employed := fun hi => h.employed (by simpa using hi)
  leaving := h.leaving
  numbered := rfl

theorem hire (h : Complete posts pool [] none) (id context : Nat) :
    Complete (posts ++ [Staff.newPost id context]) pool [posts.length] none := by
  have hknown {i : Nat} (hi : i ∈ pool) : i < posts.length := by
    obtain ⟨post, hpost, -⟩ := h.employed (by simpa using hi)
    exact (List.getElem?_eq_some_iff.mp hpost).1
  have hcases {i : Nat} {post : Post}
      (hpost : (posts ++ [Staff.newPost id context])[i]? = some post) :
      posts[i]? = some post ∨ i = posts.length ∧ post = Staff.newPost id context := by
    rw [List.getElem?_append] at hpost
    split at hpost
    · exact .inl hpost
    · rw [List.getElem?_singleton] at hpost
      split at hpost
      · cases hpost
        exact .inr ⟨by omega, rfl⟩
      · cases hpost
  constructor
  case held =>
    intro i post hpost
    rcases hcases hpost with hold | ⟨rfl, -⟩
    · rcases h.held hold with hgone | hin | hawaited
      · exact .inl hgone
      · exact .inr (.inl (List.mem_append_left _ (by simpa using hin)))
      · cases hawaited
    · exact .inr (.inl (by simp))
  case nodup =>
    have hout : posts.length ∉ pool := fun hmem => (hknown hmem).false
    rw [List.nodup_append]
    refine ⟨by simpa using h.nodup, List.nodup_singleton _, ?_⟩
    rintro i hi j hj rfl
    rw [List.mem_singleton] at hj
    exact hout (hj ▸ hi)
  case employed =>
    intro i hi
    rw [List.mem_append, List.mem_singleton] at hi
    rcases hi with hi | rfl
    · obtain ⟨post, hpost, htold⟩ := h.employed (by simpa using hi)
      exact ⟨post, by rw [List.getElem?_append_left (hknown hi), hpost], htold⟩
    · exact ⟨Staff.newPost id context, by simp, rfl⟩
  case leaving =>
    intro i post hpost hgone
    rcases hcases hpost with hold | ⟨-, rfl⟩
    · exact h.leaving hold hgone
    · cases hgone
  case numbered =>
    rw [← h.numbered]
    refine List.map_congr_left fun i hi => ?_
    rw [idAt, List.getElem?_append_left (hknown hi), idAt]

theorem add (h : Complete posts pool [serial] none)
    (hid : idAt posts serial = some pool.length) : Complete posts (pool ++ [serial]) [] none where
  held := fun hpost => by simpa using h.held hpost
  nodup := by simpa using h.nodup
  employed := fun hi => h.employed (by simpa using hi)
  leaving := h.leaving
  numbered := by
    rw [List.map_append, h.numbered, List.map_singleton, hid, List.length_append,
      List.length_singleton, List.range_succ, List.map_append, List.map_singleton]

/-- The post of a worker changes: a worker that has left stays away, only a dismissed one leaves, and
none is dismissed that is still employed. -/
theorem modify (h : Complete posts pool untold awaited?) {f : Post → Post}
    (hid : ∀ post, (f post).id = post.id)
    (hstays : ∀ post, post.gone = true → (f post).gone = true)
    (hleaves : ∀ post, posts[serial]? = some post → (f post).gone = true →
      (f post).dismissed = true)
    (hemployed : serial ∈ pool ++ untold → ∀ post, post.dismissed = false →
      (f post).dismissed = false) :
    Complete (posts.modify serial f) pool untold awaited? := by
  have hbefore {i : Nat} {post : Post} (hpost : (posts.modify serial f)[i]? = some post) :
      ∃ before, posts[i]? = some before ∧ (if serial = i then f before else before) = post := by
    rw [List.getElem?_modify] at hpost
    exact Option.map_eq_some_iff.mp hpost
  constructor
  case held =>
    intro i post hpost
    obtain ⟨before, hbefore, rfl⟩ := hbefore hpost
    rcases h.held hbefore with hgone | hrest
    · left
      split
      · exact hstays before hgone
      · exact hgone
    · exact .inr hrest
  case nodup => exact h.nodup
  case employed =>
    intro i hi
    obtain ⟨post, hpost, htold⟩ := h.employed hi
    refine ⟨_, by rw [List.getElem?_modify, hpost]; rfl, ?_⟩
    split
    · next heq => exact hemployed (heq ▸ hi) post htold
    · exact htold
  case leaving =>
    intro i post hpost hgone
    obtain ⟨before, hbefore, rfl⟩ := hbefore hpost
    by_cases hi : serial = i
    · rw [if_pos hi] at hgone ⊢
      exact hleaves before (hi ▸ hbefore) hgone
    · rw [if_neg hi] at hgone ⊢
      exact h.leaving hbefore hgone
  case numbered =>
    rw [idAt_modify hid]
    exact h.numbered

theorem tell {rest : List Nat} (h : Complete posts pool (serial :: rest) none) :
    Complete (posts.modify serial fun post => { post with dismissed := true }) pool rest
      (some serial) := by
  obtain ⟨hout, hnodup⟩ := List.nodup_cons.mp (List.nodup_middle.mp h.nodup)
  have hmem {i : Nat} : i ∈ pool ++ serial :: rest ↔ i = serial ∨ i ∈ pool ++ rest := by
    simp only [List.mem_append, List.mem_cons]
    tauto
  have hawaited : Complete posts pool rest (some serial) := by
    refine ⟨?_, hnodup, fun hi => h.employed (hmem.mpr (.inr hi)), h.leaving, h.numbered⟩
    intro i post hpost
    rcases h.held hpost with hgone | hin | hawaited
    · exact .inl hgone
    · rcases hmem.mp hin with rfl | hin
      · exact .inr (.inr rfl)
      · exact .inr (.inl hin)
    · cases hawaited
  apply hawaited.modify
  · exact fun post => rfl
  · exact fun post hgone => hgone
  · exact fun post _ _ => rfl
  · exact fun hi => absurd hi hout

theorem await (h : Complete posts pool untold (some serial))
    (hgone : posts[serial]?.any (·.gone) = true) : Complete posts pool untold none where
  held := by
    intro i post hpost
    rcases h.held hpost with hleft | hin | hawaited
    · exact .inl hleft
    · exact .inr (.inl hin)
    · cases hawaited
      rw [hpost] at hgone
      exact .inl hgone
  nodup := h.nodup
  employed := h.employed
  leaving := h.leaving
  numbered := h.numbered

theorem exit (h : Complete posts pool untold awaited?) {post : Post}
    (hpost : posts[serial]? = some post) (hdismissed : post.dismissed = true) :
    Complete (posts.modify serial fun post => { post with gone := true }) pool untold awaited? := by
  apply h.modify
  · exact fun post => rfl
  · exact fun post _ => rfl
  · intro other hother _
    rw [hpost] at hother
    cases hother
    exact hdismissed
  · exact fun _ post htold => htold

theorem replace (h : Complete posts pool untold awaited?) (serial context : Nat) :
    Complete (posts.modify serial fun post => { post with context := context }) pool untold
      awaited? := by
  apply h.modify
  · exact fun post => rfl
  · exact fun post hgone => hgone
  · intro post hpost hgone
    have hdismissed : post.dismissed = true := h.leaving hpost hgone
    exact hdismissed
  · exact fun _ post htold => htold

end Complete

/-- What is on record while a thread goes about its duty. -/
def Duty.Recorded (s : Staff) : Duty → Prop
  | .off => s.shutDown = false → s.poolSize = s.pool.length
  | .swapping => True
  | .taking closing => s.shutDown = closing
  | .telling closing _ => s.shutDown = closing ∧ s.pool = []
  | .awaiting closing serial _ =>
    s.shutDown = closing ∧ s.pool = [] ∧ isTold s.posts serial = true
  | .hiring size? id count =>
    s.shutDown = false ∧ s.pool.length = id ∧ id ≤ count ∧ size?.getD s.poolSize = count
  | .arriving size? serial id count =>
    s.shutDown = false ∧ s.pool.length = id ∧ id < count ∧ size?.getD s.poolSize = count ∧
      idAt s.posts serial = some id
  | .counting => s.shutDown = false
  | .sizing size => s.shutDown = false ∧ s.pool.length = size

/-- A staff in the hands of one thread with some duty. -/
structure Staff.Manned (s : Staff) (d : Duty) : Prop where
  complete : Complete s.posts s.pool d.untold d.awaited?
  recorded : d.Recorded s
  closed : s.shutDown = true → s.pool = [] ∨ d = .taking true

variable {me : ThreadId} {s s' : Staff} {d d' : Duty}

theorem Duty.Recorded.of_same (hr : d.Recorded s) (hpool : s'.pool = s.pool)
    (hsize : s'.poolSize = s.poolSize) (hdown : s'.shutDown = s.shutDown)
    (hnumber : idAt s'.posts = idAt s.posts) (htold : isTold s'.posts = isTold s.posts) :
    d.Recorded s' := by
  cases d with
  | off | taking | telling | awaiting | hiring | arriving | counting | sizing =>
      simp only [Duty.Recorded, hpool, hsize, hdown, hnumber, htold] at hr ⊢
      exact hr
  | swapping => trivial

namespace Staff.Manned

/-- A step of the thread itself, if it dismisses workers for a resize only before the coordinator is
shut down. -/
theorem step (hm : s.Manned d) (h : Staff.Step me s d s' d') (hme : ∀ i, me ≠ .worker i)
    (henter : d' = .taking false → d = .off → s.shutDown = false) : s'.Manned d' := by
  obtain ⟨hcomplete, hrecorded, hclosed⟩ := hm
  have hopen {t : Staff} {e : Duty} (h : t.shutDown = false) :
      t.shutDown = true → t.pool = [] ∨ e = .taking true := by
    rw [h]
    nofun
  cases h with
  | still => exact ⟨hcomplete, hrecorded, hclosed⟩
  | enter =>
      have hrunning := henter rfl rfl
      exact ⟨hcomplete, hrunning, hopen hrunning⟩
  | already hdown =>
      refine ⟨hcomplete, ?_, ?_⟩
      · intro hrunning
        rw [hdown] at hrunning
        cases hrunning
      · intro _
        rcases hclosed hdown with hempty | hother
        · exact .inl hempty
        · cases hother
  | flag => exact ⟨hcomplete, rfl, fun _ => .inr rfl⟩
  | take closing => exact ⟨hcomplete.take, ⟨hrecorded, rfl⟩, fun _ => .inl rfl⟩
  | tell closing serial rest =>
      obtain ⟨hdown, hempty⟩ := hrecorded
      refine ⟨hcomplete.tell, ⟨hdown, hempty, ?_⟩, fun _ => .inl hempty⟩
      have hserial : serial ∈ s.pool ++ serial :: rest := by simp
      obtain ⟨post, hpost, -⟩ := hcomplete.employed hserial
      simp [isTold, modify, hpost]
  | tellSelf _ serial _ hself | exit serial _ hself | replace serial _ hself =>
      exact absurd hself (hme serial)
  | await closing serial rest hgone =>
      obtain ⟨hdown, hempty, -⟩ := hrecorded
      exact ⟨hcomplete.await hgone, ⟨hdown, hempty⟩, fun _ => .inl hempty⟩
  | cleared count =>
      obtain ⟨hrunning, hempty⟩ := hrecorded
      refine ⟨hcomplete, ⟨hrunning, ?_, Nat.zero_le _, rfl⟩, fun _ => .inl hempty⟩
      rw [hempty]
      rfl
  | closed =>
      obtain ⟨hdown, hempty⟩ := hrecorded
      refine ⟨hcomplete, ?_, fun _ => .inl hempty⟩
      intro hrunning
      rw [hdown] at hrunning
      cases hrunning
  | hire size? id count hid =>
      obtain ⟨hrunning, hlength, -, hcount⟩ := hrecorded
      refine ⟨hcomplete.hire id s.made, ⟨hrunning, hlength, hid, hcount, ?_⟩, hopen hrunning⟩
      simp [idAt, newPost]
  | add size? serial id count =>
      obtain ⟨hrunning, hlength, hid, hcount, hnumber⟩ := hrecorded
      refine ⟨hcomplete.add (hlength ▸ hnumber), ⟨hrunning, ?_, hid, hcount⟩, hopen hrunning⟩
      simp [hlength]
  | opened id count hid =>
      obtain ⟨hrunning, hlength, hle, hcount⟩ := hrecorded
      refine ⟨hcomplete, fun _ => ?_, hopen hrunning⟩
      rw [hlength, ← Nat.le_antisymm hid hle]
      exact hcount
  | hired size id count hid =>
      obtain ⟨hrunning, hlength, hle, hcount⟩ := hrecorded
      refine ⟨hcomplete, ⟨hrunning, ?_⟩, hopen hrunning⟩
      rw [hlength, ← Nat.le_antisymm hid hle]
      exact hcount.symm
  | lacking id count => exact ⟨hcomplete, trivial, hopen hrecorded.1⟩
  | short size id count => exact ⟨hcomplete, hrecorded.1, hopen hrecorded.1⟩
  | count => exact ⟨hcomplete, ⟨hrecorded, rfl⟩, hopen hrecorded⟩
  | size n =>
      obtain ⟨hrunning, hlength⟩ := hrecorded
      exact ⟨hcomplete, fun _ => hlength.symm, hopen hrunning⟩

theorem step_worker (hm : s.Manned d) (h : Staff.Step me s .off s' .off) : s'.Manned d := by
  obtain ⟨hcomplete, hrecorded, hclosed⟩ := hm
  cases h with
  | still => exact ⟨hcomplete, hrecorded, hclosed⟩
  | exit serial post _ hpost hdismissed =>
      refine ⟨hcomplete.exit hpost hdismissed, hrecorded.of_same rfl rfl rfl ?_ ?_, hclosed⟩
      · exact idAt_modify (by intro; rfl) s.posts serial
      · exact isTold_modify (by intro; rfl) s.posts serial
  | replace serial post =>
      refine ⟨hcomplete.replace serial s.made, hrecorded.of_same rfl rfl rfl ?_ ?_, hclosed⟩
      · exact idAt_modify (by intro; rfl) s.posts serial
      · exact isTold_modify (by intro; rfl) s.posts serial

end Staff.Manned

end ScriptPool
