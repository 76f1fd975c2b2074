import ScriptPool.Proofs.Value.Reached

namespace ScriptPool

open ScriptPool.Number

theorem Number.Double.equal_trans {a b c : Double} (hab : a.equal b = true)
    (hbc : b.equal c = true) : a.equal c = true := by
  cases a with
  | nan => cases hab
  | infinite =>
      cases b with
      | nan | finite => cases hab
      | infinite =>
          cases c with
          | nan | finite => cases hbc
          | infinite =>
              simp only [Double.equal, decide_eq_true_eq] at hab hbc ⊢
              exact hab.trans hbc
  | finite =>
      cases b with
      | nan | infinite => cases hab
      | finite =>
          cases c with
          | nan | infinite => cases hbc
          | finite =>
              simp only [Double.equal, Bool.and_eq_true, Bool.or_eq_true, decide_eq_true_eq]
                at hab hbc ⊢
              obtain ⟨rfl, hab⟩ := hab
              obtain ⟨rfl, hbc⟩ := hbc
              refine ⟨rfl, ?_⟩
              rcases hab with rfl | hzero
              · exact hbc
              · exact .inr hzero

namespace Value

variable {u v w : Value}

mutual

theorem equal_comm : ∀ v w : Value, v.equal w = w.equal v
  | .table s, w => by
      cases w with
      | table t => rw [equal, equal, equalEntries_comm s t]
      | _ => rfl
  | .number a, w => by
      cases w with
      | number b => rw [equal, equal, Double.equal_comm]
      | _ => rfl
  | .nil, w | .boolean _, w | .string _, w | .lightRef _, w | .handle _, w => by
      cases w with
      | nil | boolean | number | string | lightRef | table | handle => simp only [equal, eq_comm]

theorem equalEntries_comm : ∀ s t : Table, equalEntries s t = equalEntries t s
  | [], [] => rfl
  | [], _ :: _ => rfl
  | _ :: _, [] => rfl
  | (k, v) :: s, (l, w) :: t => by
      rw [equalEntries, equalEntries, equal_comm k l, equal_comm v w, equalEntries_comm s t]

end

theorem equal_symm (h : v.equal w = true) : w.equal v = true := by
  rw [equal_comm, h]

mutual

theorem equal_trans : ∀ u v w : Value, u.equal v = true → v.equal w = true → u.equal w = true
  | .table s, v, w => by
      intro huv hvw
      cases v with
      | table t =>
          cases w with
          | table r => exact equalEntries_trans s t r huv hvw
          | _ => cases hvw
      | _ => cases huv
  | .number a, v, w => by
      intro huv hvw
      cases v with
      | number b =>
          cases w with
          | number c => exact Double.equal_trans huv hvw
          | _ => cases hvw
      | _ => cases huv
  | .nil, v, w => by
      intro huv hvw
      cases v with
      | nil => exact hvw
      | _ => cases huv
  | .boolean a, v, w => by
      intro huv hvw
      cases v with
      | boolean b =>
          rw [equal, decide_eq_true_iff] at huv
          exact huv ▸ hvw
      | _ => cases huv
  | .string a, v, w => by
      intro huv hvw
      cases v with
      | string b =>
          rw [equal, decide_eq_true_iff] at huv
          exact huv ▸ hvw
      | _ => cases huv
  | .lightRef a, v, w => by
      intro huv hvw
      cases v with
      | lightRef b =>
          rw [equal, decide_eq_true_iff] at huv
          exact huv ▸ hvw
      | _ => cases huv
  | .handle a, v, w => by
      intro huv hvw
      cases v with
      | handle b =>
          cases w with
          | handle c =>
              rw [equal, decide_eq_true_iff] at huv hvw ⊢
              exact huv.trans hvw
          | _ => cases hvw
      | _ => cases huv

theorem equalEntries_trans : ∀ s t r : Table,
    equalEntries s t = true → equalEntries t r = true → equalEntries s r = true
  | [], [], _ => fun _ h => h
  | (k, v) :: s, (l, w) :: t, (m, x) :: r => by
      simp only [equalEntries, Bool.and_eq_true]
      rintro ⟨⟨hkey, hvalue⟩, hrest⟩ ⟨⟨hkey', hvalue'⟩, hrest'⟩
      exact ⟨⟨equal_trans k l m hkey hkey', equal_trans v w x hvalue hvalue'⟩,
        equalEntries_trans s t r hrest hrest'⟩
  | [], _ :: _, _ => nofun
  | _ :: _, [], _ => nofun
  | _ :: _, _ :: _, [] => nofun

end

theorem equal_self (h : ¬ v.Reaches (.number .nan)) : v.equal v = true := by
  have hleft : v.equal v.relinquished = true := (equal_relinquished_iff v).mpr h
  exact equal_trans _ _ _ hleft (equal_symm hleft)

theorem equal_congr (h : v.equal w = true) : v.equal u = w.equal u := by
  rw [Bool.eq_iff_iff]
  exact ⟨equal_trans _ _ _ (equal_symm h), equal_trans _ _ _ h⟩

end Value

end ScriptPool
