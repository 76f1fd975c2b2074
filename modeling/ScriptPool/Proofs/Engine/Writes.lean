import ScriptPool.Proofs.Value.Plain
import ScriptPool.Script.Meaning

namespace ScriptPool

/-- Every name with its result; names without a result get `nil`. -/
def resultPairs : List String → List Value → List (String × Value)
  | [], _ => []
  | name :: names, results => (name, firstResult results) :: resultPairs names results.tail

theorem firstResult_plain {results : List Value} (h : ∀ v ∈ results, v.Plain) :
    (firstResult results).Plain := by
  cases results with
  | nil => exact Value.plain_nil
  | cons v results => exact h v List.mem_cons_self

theorem resultPairs_plain {names : List String} {results : List Value}
    (h : ∀ v ∈ results, v.Plain) : ∀ pair ∈ resultPairs names results, pair.2.Plain := by
  induction names generalizing results with
  | nil => nofun
  | cons name names ih =>
      intro pair hpair
      rw [resultPairs, List.mem_cons] at hpair
      rcases hpair with rfl | hpair
      · exact firstResult_plain h
      · exact ih (fun v hv => h v (List.mem_of_mem_tail hv)) pair hpair

theorem resultPairs_names (names : List String) (results : List Value) :
    (resultPairs names results).map Prod.fst = names := by
  induction names generalizing results with
  | nil => rfl
  | cons name names ih => simp [resultPairs, ih]

namespace Globals

def setAll (g : Globals) (pairs : List (String × Value)) : Globals :=
  pairs.foldl (fun g pair => g.set pair.1 pair.2) g

variable {g g' : Globals} {name : String} {pairs pairs' : List (String × Value)}

theorem setAll_append (g : Globals) (pairs pairs' : List (String × Value)) :
    g.setAll (pairs ++ pairs') = (g.setAll pairs).setAll pairs' :=
  List.foldl_append

theorem Plain.setAll (hg : g.Plain) (h : ∀ pair ∈ pairs, pair.2.Plain) : (g.setAll pairs).Plain := by
  induction pairs generalizing g with
  | nil => exact hg
  | cons pair pairs ih =>
      apply ih
      · exact hg.set (h pair List.mem_cons_self)
      · exact fun pair' hpair => h pair' (List.mem_cons_of_mem _ hpair)

theorem get?_set_congr (h : g.get? name = g'.get? name) (other : String) (value : Value) :
    (g.set other value).get? name = (g'.set other value).get? name := by
  by_cases hname : name = other
  · subst hname
    rw [get?_set_self, get?_set_self]
  · rw [get?_set_of_ne g value hname, get?_set_of_ne g' value hname, h]

theorem get?_setAll_congr (h : g.get? name = g'.get? name) (pairs : List (String × Value)) :
    (g.setAll pairs).get? name = (g'.setAll pairs).get? name := by
  induction pairs generalizing g g' with
  | nil => exact h
  | cons pair pairs ih => exact ih (get?_set_congr h pair.1 pair.2)

theorem get?_setAll_filter (g : Globals) (name : String) (pairs : List (String × Value)) :
    (g.setAll pairs).get? name = (g.setAll (pairs.filter (·.1 = name))).get? name := by
  induction pairs generalizing g with
  | nil => rfl
  | cons pair pairs ih =>
      by_cases hname : pair.1 = name
      · rw [List.filter_cons_of_pos (by simpa using hname)]
        exact ih _
      · rw [List.filter_cons_of_neg (by simpa using hname), ← ih]
        exact get?_setAll_congr (get?_set_of_ne g pair.2 (Ne.symm hname)) pairs

theorem get?_setAll_of_filter_eq
    (h : pairs.filter (·.1 = name) = pairs'.filter (·.1 = name)) :
    (g.setAll pairs).get? name = (g.setAll pairs').get? name := by
  rw [get?_setAll_filter, h, ← get?_setAll_filter]

theorem get?_setAll_of_not_mem (h : name ∉ pairs.map Prod.fst) :
    (g.setAll pairs).get? name = g.get? name := by
  have hnone : pairs.filter (·.1 = name) = [] := by
    rw [List.filter_eq_nil_iff]
    intro pair hpair hname
    exact h (List.mem_map.mpr ⟨pair, hpair, of_decide_eq_true hname⟩)
  rw [get?_setAll_filter, hnone]
  rfl

end Globals

end ScriptPool
