import Mathlib.Algebra.BigOperators.Group.List.Basic
import RealtimeFinance.Sql.GroupBy
import RealtimeFinance.Sql.Merge
/-!
# Rollup — aggregates of aggregates

Rows that are grouped by a key, and the groups' sums summed again: where each row is in one part, the parts' sums add up
to the rows' (`sum_parts`).  So an exact decimal sum rolls up with its NULL and its overflow (`sumDecimal_rollup`), and
so does a count (`sumBigint_rollup`).
-/
namespace Sql

variable {α β κ : Type} {p s : Nat}

/-- `sum` of a bigint column. -/
def sumBigint (xs : List Int) : Option Int := if xs.isEmpty then none else some (xs.foldr (· + ·) 0)

/-- A sum depends on whether there is anything to sum, and on the total. -/
theorem sumDecimal_congr {ds ds' : List (Decimal p s)} (hnil : ds = [] ↔ ds' = [])
    (hsum : (ds.map Decimal.unscaled).sum = (ds'.map Decimal.unscaled).sum) : sumDecimal ds = sumDecimal ds' := by
  have hfold : (ds.map Decimal.unscaled).foldr (· + ·) 0 = (ds'.map Decimal.unscaled).foldr (· + ·) 0 := hsum
  have hempty : ds.isEmpty = ds'.isEmpty := by
    rw [Bool.eq_iff_iff, List.isEmpty_iff, List.isEmpty_iff]
    exact hnil
  unfold sumDecimal
  rw [hempty, hfold]

theorem sumDecimal_perm_eq {ds ds' : List (Decimal p s)} (h : ds.Perm ds') : sumDecimal ds = sumDecimal ds' := by
  refine sumDecimal_congr ⟨fun hnil => ?_, fun hnil => ?_⟩ (h.map _).sum_eq
  · exact List.perm_nil.1 (hnil ▸ h.symm)
  · exact List.perm_nil.1 (hnil ▸ h)

/-- **A sum is NULL exactly where there is nothing to sum.** -/
theorem sumDecimal_none_iff {ds : List (Decimal p s)} {total : Option (Decimal p s)} (h : sumDecimal ds = .ok total) :
    total = none ↔ ds = [] := by
  unfold sumDecimal at h
  split at h
  · rename_i hnil
    cases h
    exact iff_of_true rfl (List.isEmpty_iff.1 hnil)
  · rename_i hne
    split at h
    · cases h
      refine iff_of_false (fun hnone => by cases hnone) (fun hnil => hne ?_)
      rw [hnil]
      rfl
    · cases h

/-! ## A `SELECT` list over other rows -/

/-- **The rows in another order.** -/
theorem mapM_perm {γ : Type} {f : α → Except γ β} {xs xs' : List α} (hp : xs.Perm xs') : ∀ {ys : List β},
    xs.mapM f = .ok ys → ∃ ys', xs'.mapM f = .ok ys' ∧ ys.Perm ys' := by
  induction hp with
  | nil => exact fun {ys} h => ⟨ys, h, List.Perm.refl ys⟩
  | cons x _ ih =>
    intro ys h
    rw [List.mapM_cons] at h
    obtain ⟨y, hy, h⟩ := bind_ok h
    obtain ⟨zs, hzs, h⟩ := bind_ok h
    cases h
    obtain ⟨zs', hzs', hperm⟩ := ih hzs
    refine ⟨y :: zs', ?_, hperm.cons y⟩
    rw [List.mapM_cons, hy, hzs']
    rfl
  | swap x x' xs =>
    intro ys h
    rw [List.mapM_cons, List.mapM_cons] at h
    obtain ⟨y, hy, h⟩ := bind_ok h
    obtain ⟨zs, hzs, h⟩ := bind_ok h
    obtain ⟨y', hy', hzs⟩ := bind_ok hzs
    obtain ⟨ws, hws, hzs⟩ := bind_ok hzs
    cases hzs
    cases h
    refine ⟨y' :: y :: ws, ?_, List.Perm.swap y' y ws⟩
    rw [List.mapM_cons, List.mapM_cons, hy', hy, hws]
    rfl
  | trans _ _ ih ih' =>
    intro ys h
    obtain ⟨zs, hzs, hperm⟩ := ih h
    obtain ⟨ws, hws, hperm'⟩ := ih' hzs
    exact ⟨ws, hws, hperm.trans hperm'⟩

/-- **Some of the rows**, told by what is selected of them. -/
theorem mapM_filter {γ : Type} {f : α → Except γ β} {p : α → Bool} {q : β → Bool} (hq : ∀ x y, f x = .ok y → q y = p x) :
    ∀ {xs : List α} {ys : List β}, xs.mapM f = .ok ys → (xs.filter p).mapM f = .ok (ys.filter q)
  | [], ys, h => by
    rw [List.mapM_nil] at h
    cases h
    rfl
  | x :: xs, ys, h => by
    rw [List.mapM_cons] at h
    obtain ⟨y, hy, h⟩ := bind_ok h
    obtain ⟨zs, hzs, h⟩ := bind_ok h
    cases h
    have ih := mapM_filter hq hzs
    have hxy := hq x y hy
    cases hx : p x with
    | true =>
      rw [hx] at hxy
      rw [List.filter_cons_of_pos hx, List.filter_cons_of_pos hxy, List.mapM_cons, hy, ih]
      rfl
    | false =>
      rw [hx] at hxy
      rw [List.filter_cons_of_neg (by simp [hx]), List.filter_cons_of_neg (by simp [hxy]), ih]

/-! ## Parts -/

section Parts

variable [DecidableEq κ] {key : α → κ} {of : β → κ} {parts : List β} {rows : List α}

/-- One part in a list of distinct ones. -/
theorem sum_indicator (v : Int) {k : κ} : ∀ {parts : List β}, (parts.map of).Nodup → k ∈ parts.map of →
    (parts.map (fun q => if k = of q then v else 0)).sum = v
  | [], _, hk           => by cases hk
  | q :: parts, hnodup, hk => by
    rw [List.map_cons, List.nodup_cons] at hnodup
    rw [List.map_cons, List.sum_cons]
    by_cases hq : k = of q
    · have hrest : ∀ x ∈ parts.map (fun q => if k = of q then v else 0), x = 0 := by
        intro x hx
        obtain ⟨q', hq', rfl⟩ := List.mem_map.1 hx
        refine if_neg (fun heq => hnodup.1 ?_)
        rw [← hq, heq]
        exact List.mem_map_of_mem hq'
      rw [if_pos hq, List.sum_eq_zero hrest, Int.add_zero]
    · have hk : k ∈ parts.map of := (List.mem_cons.1 hk).resolve_left hq
      rw [if_neg hq, Int.zero_add, sum_indicator v hnodup.2 hk]

/-- **The parts' sums add up to the rows'.** -/
theorem sum_parts (f : α → Int) (hnodup : (parts.map of).Nodup) : ∀ {rows : List α}, (∀ r ∈ rows, key r ∈ parts.map of) →
    (parts.map (fun q => ((groupRows key (of q) rows).map f).sum)).sum = (rows.map f).sum
  | [], _ => List.sum_eq_zero (fun x hx => by
      obtain ⟨q, -, rfl⟩ := List.mem_map.1 hx
      rfl)
  | r :: rows, hkeys => by
    obtain ⟨hr, hrows⟩ := List.forall_mem_cons.1 hkeys
    have hgroup : ∀ q, ((groupRows key (of q) (r :: rows)).map f).sum =
        (if key r = of q then f r else 0) + ((groupRows key (of q) rows).map f).sum := by
      intro q
      unfold groupRows
      by_cases hq : key r = of q
      · rw [List.filter_cons_of_pos (by simpa using hq), List.map_cons, List.sum_cons, if_pos hq]
      · rw [List.filter_cons_of_neg (by simpa using hq), if_neg hq, Int.zero_add]
    rw [List.map_congr_left (fun q _ => hgroup q), List.sum_map_add, sum_indicator (f r) hnodup hr,
      sum_parts f hnodup hrows, List.map_cons, List.sum_cons]

/-- **A decimal sum rolls up**: summing the parts' sums is summing the rows. -/
theorem sumDecimal_rollup {f : α → Option (Decimal p s)} {total : β → Option (Decimal p s)} (hnodup : (parts.map of).Nodup)
    (hrows : ∀ r ∈ rows, key r ∈ parts.map of)
    (hparts : ∀ q ∈ parts, sumDecimal ((groupRows key (of q) rows).filterMap f) = .ok (total q)) :
    sumDecimal (parts.filterMap total) = sumDecimal (rows.filterMap f) := by
  have hunits : ∀ q ∈ parts, unitsOf (total q) = ((groupRows key (of q) rows).map (fun r => unitsOf (f r))).sum := by
    intro q hq
    rw [sumDecimal_ok (hparts q hq), sum_unitsOf]
  refine sumDecimal_congr ?_ ?_
  · rw [List.filterMap_eq_nil_iff, List.filterMap_eq_nil_iff]
    constructor
    · intro hnone r hr
      obtain ⟨q, hq, hkey⟩ := List.mem_map.1 (hrows r hr)
      have hgroup := (sumDecimal_none_iff (hparts q hq)).1 (hnone q hq)
      exact List.filterMap_eq_nil_iff.1 hgroup r (mem_groupRows.2 ⟨hr, hkey.symm⟩)
    · intro hnone q hq
      refine (sumDecimal_none_iff (hparts q hq)).2 (List.filterMap_eq_nil_iff.2 (fun r hr => ?_))
      exact hnone r (mem_groupRows.1 hr).1
  · rw [sum_unitsOf, sum_unitsOf, List.map_congr_left hunits]
    exact sum_parts (fun r => unitsOf (f r)) hnodup hrows

/-- **Counts roll up.** -/
theorem sumBigint_rollup {total : β → Option Int} (hnodup : (parts.map of).Nodup)
    (hrows : ∀ r ∈ rows, key r ∈ parts.map of) (hne : rows ≠ [])
    (hparts : ∀ q ∈ parts, total q = some ((groupRows key (of q) rows).length : Int)) :
    sumBigint (parts.filterMap total) = some (rows.length : Int) := by
  have hmap : parts.filterMap total = parts.map (fun q => ((groupRows key (of q) rows).map (fun _ => (1 : Int))).sum) := by
    rw [← List.filterMap_eq_map]
    refine List.filterMap_congr (fun q hq => ?_)
    rw [hparts q hq]
    simp
  have hsum := sum_parts (fun _ : α => (1 : Int)) hnodup hrows
  rw [← hmap] at hsum
  obtain ⟨r, hr⟩ := List.exists_mem_of_ne_nil rows hne
  obtain ⟨q, hq, -⟩ := List.mem_map.1 (hrows r hr)
  have hsome : (parts.filterMap total).isEmpty = false := by
    rw [List.isEmpty_eq_false_iff_exists_mem]
    exact ⟨_, List.mem_filterMap.2 ⟨q, hq, hparts q hq⟩⟩
  have hfold : (parts.filterMap total).foldr (· + ·) 0 = (parts.filterMap total).sum := rfl
  unfold sumBigint
  rw [hsome, hfold, hsum]
  simp

end Parts

end Sql
