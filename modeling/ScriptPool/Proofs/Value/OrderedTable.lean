import Mathlib.Data.List.Induction
import ScriptPool.Value.Table
import ScriptPool.Proofs.Value.Equality

namespace ScriptPool

open ScriptPool.Number

/-- A call that changes a table. -/
inductive Table.Change where
  | set (key value : Value)
  | remove (key : Value)

namespace Table.Change

/-- The key that is changed. -/
def key : Change → Value
  | .set key _ => key
  | .remove key => key

/-- The value that the key has afterwards. -/
def value? : Change → Option Value
  | .set _ value => if value.isNil then none else some value
  | .remove _ => none

def apply (t : Table) : Change → Table
  | .set key value => t.set key value
  | .remove key => (t.remove key).2

/-- What becomes of an entry with an equal key. -/
def entryAt? (c : Change) (key : Value) : Option (Value × Value) :=
  c.value?.map fun value => (key, value)

/-- What becomes of an entry. -/
def amend? (c : Change) (entry : Value × Value) : Option (Value × Value) :=
  if entry.1.equal c.key then c.entryAt? entry.1 else some entry

end Table.Change

namespace Table

/-- The table that changes of the empty one lead to. -/
def ofChanges (changes : List Change) : Table :=
  changes.foldl Change.apply []

/-- The value that a key holds after changes: the one that the last change to an equal key gave
it. -/
def held? (changes : List Change) (key : Value) : Option Value :=
  (changes.reverse.find? fun c => c.key.equal key).bind Change.value?

/-- An entry is made for a key that had no value, and it lasts if no later change takes its value
away. -/
def lasts (past : List Change) (key : Value) (later : List Change) : Bool :=
  (held? past key).isNone && later.all fun d => !d.key.equal key || d.value?.isSome

/-- The entry that a change makes for good, between the changes before and after it. -/
def made? (past : List Change) (c : Change) (later : List Change) :
    Option (Value × Value) :=
  if lasts past c.key later then
    c.value?.map fun value => (c.key, (held? later c.key).getD value)
  else none

/-- The entries that changes leave, in the order in which they are made. -/
def lasting (past : List Change) : List Change → Table
  | [] => []
  | c :: later => (made? past c later).toList ++ lasting (past ++ [c]) later

/-- No two entries have equal keys. -/
def Distinct (t : Table) : Prop :=
  t.Pairwise fun entry later => entry.1.equal later.1 = false

/-- A table is the ordered map that changes lead to: what its entries are, what is found in it, and
what the next call does to it. -/
structure IsOrderedMap (changes : List Change) (t : Table) : Prop where
  /-- The entries are those made for good, each with the last value of its key. -/
  entries : t = lasting [] changes
  distinct : t.Distinct
  value_ne_nil : ∀ entry ∈ t, entry.2 ≠ .nil
  get? (key : Value) : t.get? key = held? changes key
  field? (name : String) : t.field? name = held? changes (.string name)
  /-- Without not-a-number in the keys, every entry is found under its own key. -/
  own : (∀ c ∈ changes, ¬ c.key.Reaches (.number .nan)) →
    ∀ entry ∈ t, t.get? entry.1 = some entry.2
  remove_fst (key : Value) : (t.remove key).1 = t.get? key
  remove_known {before after : Table} {k v key : Value} : t = before ++ (k, v) :: after →
    k.equal key = true → t.remove key = (some v, before ++ after)
  remove_unknown {key : Value} : t.get? key = none → t.remove key = (none, t)
  /-- Setting `nil` removes the key. -/
  set_nil (key : Value) : t.set key .nil = (t.remove key).2
  /-- A known key keeps its place and its first spelling. -/
  set_known {before after : Table} {k v key value : Value} : value ≠ .nil →
    t = before ++ (k, v) :: after → k.equal key = true →
    t.set key value = before ++ (k, value) :: after
  /-- An unknown key gets its entry at the end. -/
  set_unknown {key value : Value} : value ≠ .nil → t.get? key = none →
    t.set key value = t ++ [(key, value)]
  /-- So does a key that was removed. -/
  set_removed {key value : Value} : value ≠ .nil →
    (t.remove key).2.set key value = (t.remove key).2 ++ [(key, value)]

variable {t s before after : Table} {key k v value : Value} {c : Change} {changes : List Change}

theorem contains_append : (s ++ t).contains key = (s.contains key || t.contains key) :=
  List.any_append

theorem contains_eq_false_iff :
    t.contains key = false ↔ ∀ entry ∈ t, entry.1.equal key = false := by
  simp [contains]

theorem get?_append : (s ++ t).get? key = (s.get? key).or (t.get? key) := by
  rw [get?, get?, get?, List.find?_append, Option.map_or]

theorem get?_cons : get? ((k, v) :: t) key = if k.equal key then some v else t.get? key := by
  rw [get?, List.find?_cons]
  cases k.equal key with
  | false | true => rfl

theorem get?_eq_none_iff : t.get? key = none ↔ t.contains key = false := by
  simp [get?, contains]

theorem contains_congr (h : k.equal key = true) : t.contains k = t.contains key := by
  simp only [contains, Value.equal_comm _ k, Value.equal_comm _ key, Value.equal_congr h]

theorem exists_split (h : t.contains key = true) : ∃ before k v after,
    t = before ++ (k, v) :: after ∧ k.equal key = true ∧ Table.contains before key = false := by
  obtain ⟨⟨k, v⟩, hfirst⟩ := Option.isSome_iff_exists.mp (List.find?_isSome.mpr
    (List.any_eq_true.mp h))
  obtain ⟨hkey, before, after, rfl, hbefore⟩ := List.find?_eq_some_iff_append.mp hfirst
  exact ⟨before, k, v, after, rfl, hkey,
    contains_eq_false_iff.mpr fun entry hentry => by simpa using hbefore entry hentry⟩

theorem Distinct.absent_around (h : Distinct (before ++ (k, v) :: after))
    (hkey : k.equal key = true) : before.contains key = false ∧ after.contains key = false := by
  obtain ⟨-, hafter, hbefore⟩ := List.pairwise_append.mp h
  rw [← contains_congr hkey, ← contains_congr hkey, contains_eq_false_iff, contains_eq_false_iff]
  refine ⟨fun entry hentry => hbefore entry hentry (k, v) List.mem_cons_self,
    fun entry hentry => ?_⟩
  rw [Value.equal_comm]
  exact List.rel_of_pairwise_cons hafter hentry

theorem get?_split (hbefore : before.contains key = false) (hkey : k.equal key = true) :
    get? (before ++ (k, v) :: after) key = some v := by
  rw [get?_append, get?_eq_none_iff.mpr hbefore, Option.none_or, get?_cons, if_pos hkey]

theorem contains_split (hkey : k.equal key = true) :
    contains (before ++ (k, v) :: after) key = true := by
  simp [contains, hkey]

theorem erase_split (hbefore : before.contains key = false) (hkey : k.equal key = true) :
    erase (before ++ (k, v) :: after) key = before ++ after := by
  induction before with
  | nil => rw [List.nil_append, erase, if_pos hkey, List.nil_append]
  | cons entry before ih =>
      obtain ⟨hentry, hbefore⟩ := Bool.or_eq_false_iff.mp hbefore
      rw [List.cons_append, erase, if_neg (by simp [hentry]), ih hbefore, List.cons_append]

theorem replace_split (hbefore : before.contains key = false) (hkey : k.equal key = true) :
    replace (before ++ (k, v) :: after) key value = before ++ (k, value) :: after := by
  induction before with
  | nil => rw [List.nil_append, replace, if_pos hkey, List.nil_append]
  | cons entry before ih =>
      obtain ⟨hentry, hbefore⟩ := Bool.or_eq_false_iff.mp hbefore
      rw [List.cons_append, replace, if_neg (by simp [hentry]), ih hbefore, List.cons_append]

theorem Change.value?_ne_nil : c.value? ≠ some .nil := by
  cases c with
  | set key value =>
      cases value with
      | nil | boolean | number | string | lightRef | table | handle => simp [value?, Value.isNil]
  | remove key => simp [value?]

theorem Change.entryAt?_set (h : value ≠ .nil) (k : Value) :
    (set key value).entryAt? k = some (k, value) := by
  rw [entryAt?, value?, if_neg (by simpa using h), Option.map_some]

theorem Change.apply_eq (t : Table) (c : Change) : c.apply t = match c.value? with
    | none => t.erase c.key
    | some value => if t.contains c.key then t.replace c.key value else t.push c.key value := by
  cases c with
  | remove key => rfl
  | set key value =>
      cases hcontains : t.contains key with
      | false =>
          cases hnil : value.isNil with
          | false => simp [apply, Table.set, value?, Change.key, hcontains, hnil]
          | true =>
              simp [apply, Table.set, value?, Change.key, hcontains, hnil]
              exact (erase_of_not_contains hcontains).symm
      | true =>
          cases hnil : value.isNil with
          | false | true => simp [apply, Table.set, value?, Change.key, hcontains, hnil]

theorem Change.apply_split (hbefore : before.contains c.key = false)
    (hkey : k.equal c.key = true) :
    c.apply (before ++ (k, v) :: after) = before ++ (c.entryAt? k).toList ++ after := by
  rw [apply_eq, contains_split hkey, entryAt?]
  cases c.value? with
  | none => simp [erase_split hbefore hkey]
  | some value => simp [replace_split hbefore hkey]

theorem Change.apply_absent (h : t.contains c.key = false) :
    c.apply t = t ++ (c.entryAt? c.key).toList := by
  rw [apply_eq, h, entryAt?]
  cases c.value? with
  | none => simp [erase_of_not_contains h]
  | some value => simp [push]

theorem amend?_of_ne (h : k.equal c.key = false) : c.amend? (k, v) = some (k, v) := by
  simp [Change.amend?, h]

theorem amend?_of_equal (h : k.equal c.key = true) : c.amend? (k, v) = c.entryAt? k := by
  simp [Change.amend?, h]

theorem eq_or_of_amend? {entry entry' : Value × Value} (h : c.amend? entry = some entry') :
    entry' = entry ∨ ∃ value, c.value? = some value ∧ entry' = (entry.1, value) := by
  rw [Change.amend?] at h
  split at h
  · obtain ⟨value, hvalue, rfl⟩ := Option.map_eq_some_iff.mp h
    exact .inr ⟨value, hvalue, rfl⟩
  · cases h
    exact .inl rfl

theorem filterMap_amend?_of_absent (h : t.contains c.key = false) : t.filterMap c.amend? = t := by
  rw [contains_eq_false_iff] at h
  calc t.filterMap c.amend? = t.filterMap some :=
        List.filterMap_congr fun entry hentry => amend?_of_ne (h entry hentry)
    _ = t := List.filterMap_some

theorem Distinct.apply_eq (h : t.Distinct) (c : Change) : c.apply t =
    t.filterMap c.amend? ++ if t.contains c.key then [] else (c.entryAt? c.key).toList := by
  cases hcontains : t.contains c.key with
  | false => rw [Change.apply_absent hcontains, filterMap_amend?_of_absent hcontains]; rfl
  | true =>
      obtain ⟨before, k, v, after, rfl, hkey, hbefore⟩ := exists_split hcontains
      rw [Change.apply_split hbefore hkey, List.filterMap_append, List.filterMap_cons,
        amend?_of_equal hkey, filterMap_amend?_of_absent hbefore,
        filterMap_amend?_of_absent (h.absent_around hkey).2]
      cases c.entryAt? k with
      | none | some => simp

theorem Distinct.apply (h : t.Distinct) (c : Change) : (c.apply t).Distinct := by
  have hkey {entry entry' : Value × Value} (hamend : c.amend? entry = some entry') :
      entry'.1 = entry.1 := by
    rcases eq_or_of_amend? hamend with rfl | ⟨value, -, rfl⟩
    · rfl
    · rfl
  have hamended : Distinct (t.filterMap c.amend?) :=
    List.Pairwise.filterMap _ (fun a b hab a' ha b' hb => by rw [hkey ha, hkey hb, hab]) h
  rw [h.apply_eq]
  refine List.pairwise_append.mpr ⟨hamended, ?_, ?_⟩
  · split
    · exact .nil
    · cases hentry : c.entryAt? c.key with
      | none => exact .nil
      | some entry => exact List.pairwise_singleton _ _
  · intro a' ha entry hentry
    obtain ⟨a, ha, ha'⟩ := List.mem_filterMap.mp ha
    split at hentry
    · cases hentry
    · next habsent =>
        obtain ⟨value, -, rfl⟩ := Option.map_eq_some_iff.mp (Option.mem_toList.mp hentry)
        rw [hkey ha']
        exact contains_eq_false_iff.mp (by simpa using habsent) a ha

theorem Distinct.get?_apply (h : t.Distinct) (c : Change) (key : Value) :
    (c.apply t).get? key = if c.key.equal key then c.value? else t.get? key := by
  have hentry (k : Value) :
      get? (c.entryAt? k).toList key = if k.equal key then c.value? else none := by
    rw [Change.entryAt?]
    cases c.value? with
    | none => exact (ite_self _).symm
    | some value => exact get?_cons
  cases hcontains : t.contains c.key with
  | false =>
      rw [Change.apply_absent hcontains, get?_append, hentry]
      split
      · next hkey =>
          rw [get?_eq_none_iff.mpr ((contains_congr hkey).symm.trans hcontains), Option.none_or]
      · rw [Option.or_none]
  | true =>
      obtain ⟨before, k, v, after, rfl, hk, hbefore⟩ := exists_split hcontains
      have hafter := (h.absent_around hk).2
      rw [Change.apply_split hbefore hk, get?_append, get?_append, hentry, get?_append, get?_cons,
        Value.equal_congr hk]
      split
      · next hkey =>
          -- No other entry has an equal key, so nothing comes to light behind a removed one.
          rw [contains_congr hkey, ← get?_eq_none_iff] at hbefore hafter
          rw [hbefore, hafter, Option.none_or, Option.or_none]
      · rw [Option.or_none]

theorem ofChanges_concat (changes : List Change) (c : Change) :
    ofChanges (changes ++ [c]) = c.apply (ofChanges changes) := by
  rw [ofChanges, List.foldl_append]
  rfl

theorem held?_concat (changes : List Change) (c : Change) (key : Value) :
    held? (changes ++ [c]) key = if c.key.equal key then c.value? else held? changes key := by
  rw [held?, List.reverse_append, List.reverse_singleton, List.singleton_append, List.find?_cons]
  cases c.key.equal key with
  | false | true => rfl

theorem distinct_ofChanges (changes : List Change) : (ofChanges changes).Distinct := by
  induction changes using List.reverseRecOn with
  | nil => exact .nil
  | append_singleton changes c ih =>
      rw [ofChanges_concat]
      exact ih.apply c

theorem get?_ofChanges (changes : List Change) (key : Value) :
    (ofChanges changes).get? key = held? changes key := by
  induction changes using List.reverseRecOn with
  | nil => rfl
  | append_singleton changes c ih =>
      rw [ofChanges_concat, (distinct_ofChanges changes).get?_apply, ih, held?_concat]

theorem lasts_concat (past : List Change) (key : Value) (later : List Change) (c : Change) :
    lasts past key (later ++ [c]) =
      (lasts past key later && (!c.key.equal key || c.value?.isSome)) := by
  simp [lasts, Bool.and_assoc]

theorem made?_concat (past : List Change) (d : Change) (later : List Change) (c : Change) :
    made? past d (later ++ [c]) = (made? past d later).bind c.amend? := by
  rw [made?, made?, lasts_concat, held?_concat]
  cases lasts past d.key later with
  | false => rfl
  | true =>
      rw [Bool.true_and, if_pos rfl]
      cases d.value? with
      | none => exact ite_self _
      | some value =>
          rw [Option.map_some, Option.map_some, Option.bind_some]
          cases hkey : c.key.equal d.key with
          | false =>
              rw [amend?_of_ne (by rw [Value.equal_comm, hkey])]
              rfl
          | true =>
              rw [amend?_of_equal (by rw [Value.equal_comm, hkey]), Change.entryAt?]
              cases c.value? with
              | none | some => rfl

theorem lasting_concat (past changes : List Change) (c : Change) :
    lasting past (changes ++ [c]) = (lasting past changes).filterMap c.amend? ++
      (made? (past ++ changes) c []).toList := by
  induction changes generalizing past with
  | nil => simp [lasting]
  | cons d changes ih =>
      rw [List.cons_append, lasting, ih, lasting, made?_concat, List.filterMap_append,
        List.append_assoc, List.append_assoc, List.singleton_append]
      cases h : made? past d changes with
      | none => simp
      | some entry =>
          cases hm : c.amend? entry with
          | none | some => simp [hm]

theorem made?_last (changes : List Change) (c : Change) :
    (made? changes c []).toList =
      if (ofChanges changes).contains c.key then [] else (c.entryAt? c.key).toList := by
  have hlasts : lasts changes c.key [] = !(ofChanges changes).contains c.key := by
    rw [lasts, ← get?_ofChanges, List.all_nil, Bool.and_true]
    cases hcontains : (ofChanges changes).contains c.key with
    | false => rw [get?_eq_none_iff.mpr hcontains]; rfl
    | true =>
        rw [Bool.not_true, Option.isNone_eq_false_iff, ← Option.ne_none_iff_isSome, Ne,
          get?_eq_none_iff, hcontains]
        nofun
  rw [made?, hlasts]
  cases (ofChanges changes).contains c.key with
  | false | true => rfl

theorem ofChanges_eq_lasting (changes : List Change) : ofChanges changes = lasting [] changes := by
  induction changes using List.reverseRecOn with
  | nil => rfl
  | append_singleton changes c ih =>
      rw [ofChanges_concat, (distinct_ofChanges changes).apply_eq, lasting_concat, List.nil_append,
        made?_last, ih]

theorem exists_change_of_mem {entry : Value × Value} (h : entry ∈ ofChanges changes) :
    (∃ c ∈ changes, c.key = entry.1) ∧ ∃ c ∈ changes, c.value? = some entry.2 := by
  induction changes using List.reverseRecOn generalizing entry with
  | nil => cases h
  | append_singleton changes c ih =>
      have hlast : c ∈ changes ++ [c] := List.mem_append_right _ List.mem_cons_self
      have hearlier {d : Change} : d ∈ changes → d ∈ changes ++ [c] := List.mem_append_left _
      rw [ofChanges_concat, (distinct_ofChanges changes).apply_eq, List.mem_append] at h
      rcases h with hold | hnew
      · obtain ⟨entry', hmem, hamend⟩ := List.mem_filterMap.mp hold
        obtain ⟨⟨d, hd, hkey⟩, ⟨d', hd', hvalue⟩⟩ := ih hmem
        rcases eq_or_of_amend? hamend with rfl | ⟨value, hvalue, rfl⟩
        · exact ⟨⟨d, hearlier hd, hkey⟩, d', hearlier hd', hvalue⟩
        · exact ⟨⟨d, hearlier hd, hkey⟩, c, hlast, hvalue⟩
      · split at hnew
        · cases hnew
        · obtain ⟨value, hvalue, rfl⟩ := Option.map_eq_some_iff.mp (Option.mem_toList.mp hnew)
          exact ⟨⟨c, hlast, rfl⟩, c, hlast, hvalue⟩

theorem Distinct.get?_of_mem (h : t.Distinct) (hentry : (k, v) ∈ t) (hself : k.equal k = true) :
    t.get? k = some v := by
  obtain ⟨before, after, rfl⟩ := List.append_of_mem hentry
  exact get?_split (h.absent_around hself).1 hself

theorem field?_eq_get? (t : Table) (name : String) : t.field? name = t.get? (.string name) := by
  rw [field?, get?]
  congr 2
  funext entry
  cases entry.1 with
  | string text => simp [Value.asString?, Value.equal]
  | nil | boolean | number | lightRef | table | handle => rfl

theorem set_nil (t : Table) (key : Value) : t.set key .nil = t.erase key :=
  Change.apply_eq t (.set key .nil)

theorem set_split (hvalue : value ≠ .nil) (hbefore : before.contains key = false)
    (hkey : k.equal key = true) :
    set (before ++ (k, v) :: after) key value = before ++ (k, value) :: after := by
  have hset : (Change.set key value).apply (before ++ (k, v) :: after) = _ :=
    Change.apply_split hbefore hkey
  rw [Change.entryAt?_set hvalue, Option.toList_some, List.append_assoc,
    List.singleton_append] at hset
  exact hset

theorem set_absent (hvalue : value ≠ .nil) (h : t.contains key = false) :
    t.set key value = t ++ [(key, value)] := by
  have hset : (Change.set key value).apply t = _ := Change.apply_absent h
  rw [Change.entryAt?_set hvalue, Option.toList_some] at hset
  exact hset

theorem Distinct.erase_absent (h : t.Distinct) (key : Value) :
    (t.erase key).contains key = false := by
  cases hcontains : t.contains key with
  | false => rw [erase_of_not_contains hcontains, hcontains]
  | true =>
      obtain ⟨before, k, v, after, rfl, hkey, hbefore⟩ := exists_split hcontains
      rw [erase_split hbefore hkey, contains_append, hbefore, (h.absent_around hkey).2]
      rfl

/-- Changes of the empty table lead to the ordered map that they stand for. Only that an entry is
found under its own key depends on what the keys are: a key with a not-a-number in it equals
nothing. -/
theorem ofChanges_isOrderedMap (changes : List Change) :
    IsOrderedMap changes (ofChanges changes) where
  entries := ofChanges_eq_lasting changes
  distinct := distinct_ofChanges changes
  value_ne_nil := by
    rintro entry hentry hnil
    obtain ⟨-, c, -, hvalue⟩ := exists_change_of_mem hentry
    exact Change.value?_ne_nil (hnil ▸ hvalue)
  get? := get?_ofChanges changes
  field? name := by rw [field?_eq_get?, get?_ofChanges]
  own := by
    rintro hkeys ⟨k, v⟩ hentry
    obtain ⟨⟨c, hc, rfl⟩, -⟩ := exists_change_of_mem hentry
    exact (distinct_ofChanges changes).get?_of_mem hentry (Value.equal_self (hkeys c hc))
  remove_fst key := rfl
  remove_known := by
    intro before after k v key hsplit hkey
    have hbefore := ((hsplit ▸ distinct_ofChanges changes).absent_around hkey).1
    rw [hsplit, remove, get?_split hbefore hkey, erase_split hbefore hkey]
  remove_unknown := by
    intro key hnone
    rw [remove, hnone, erase_of_not_contains (get?_eq_none_iff.mp hnone)]
  set_nil := set_nil _
  set_known := by
    intro before after k v key value hvalue hsplit hkey
    have hbefore := ((hsplit ▸ distinct_ofChanges changes).absent_around hkey).1
    rw [hsplit, set_split hvalue hbefore hkey]
  set_unknown hvalue hnone := set_absent hvalue (get?_eq_none_iff.mp hnone)
  set_removed hvalue := set_absent hvalue ((distinct_ofChanges changes).erase_absent _)

example : ofChanges [.set (.string "a") (.boolean true), .set (.string "b") (.boolean true),
    .set (.string "c") (.boolean true), .set (.string "a") (.boolean false),
    .remove (.string "b"), .set (.string "b") (.boolean false)] =
    [(.string "a", .boolean false), (.string "c", .boolean true),
      (.string "b", .boolean false)] := by
  rfl

end Table

end ScriptPool
