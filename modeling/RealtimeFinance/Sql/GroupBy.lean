import Mathlib.Algebra.Ring.Int.Defs
import Mathlib.Data.List.Dedup
import RealtimeFinance.Sql.Decimal
/-!
# GroupBy — groups of rows, and the aggregates over one group

`GROUP BY` makes one row of each distinct key.  The aggregates skip NULLs; a decimal sum is exact until its end, where
it must fit its type.
-/
namespace Sql

variable {α κ : Type} [DecidableEq κ]

def groupKeys (key : α → κ) (rows : List α) : List κ := (rows.map key).dedup

def groupRows (key : α → κ) (k : κ) (rows : List α) : List α := rows.filter (fun r => decide (key r = k))

theorem mem_groupKeys {key : α → κ} {rows : List α} {k : κ} : k ∈ groupKeys key rows ↔ ∃ r ∈ rows, key r = k := by
  unfold groupKeys
  rw [List.mem_dedup, List.mem_map]

theorem mem_groupRows {key : α → κ} {rows : List α} {k : κ} {r : α} :
    r ∈ groupRows key k rows ↔ r ∈ rows ∧ key r = k := by
  unfold groupRows
  rw [List.mem_filter, decide_eq_true_eq]

theorem groupRows_filter {key : α → κ} {rows : List α} {k : κ} {p : α → Bool} (h : ∀ r ∈ rows, key r = k → p r = true) :
    groupRows key k (rows.filter p) = groupRows key k rows := by
  unfold groupRows
  rw [List.filter_filter]
  refine List.filter_congr (fun r hr => ?_)
  by_cases hk : key r = k
  · simp [hk, h r hr hk]
  · simp [hk]

theorem groupRows_append {key : α → κ} {k : κ} (rows rows' : List α) :
    groupRows key k (rows ++ rows') = groupRows key k rows ++ groupRows key k rows' := List.filter_append rows rows'

theorem groupRows_perm {key : α → κ} {k : κ} {rows rows' : List α} (h : rows.Perm rows') :
    (groupRows key k rows).Perm (groupRows key k rows') := h.filter _

/-- **A group is as large as its key is frequent.** -/
theorem length_groupRows [BEq κ] [LawfulBEq κ] (key : α → κ) (rows : List α) (k : κ) :
    (groupRows key k rows).length = (rows.map key).count k := by
  unfold groupRows
  rw [List.count, List.countP_map, List.countP_eq_length_filter]
  refine congrArg List.length (List.filter_congr (fun r _ => ?_))
  rw [Function.comp_apply, beq_eq_decide]

theorem length_groupRows_le_one {key : α → κ} {rows : List α} (h : (rows.map key).Nodup) (k : κ) :
    (groupRows key k rows).length ≤ 1 := by
  rw [length_groupRows]
  exact List.nodup_iff_count_le_one.1 h k

variable {p s : Nat}

def sumDecimal (ds : List (Decimal p s)) : Except Error (Option (Decimal p s)) :=
  if ds.isEmpty then .ok none
  else match Decimal.ofUnscaled p s ((ds.map Decimal.unscaled).foldr (· + ·) 0) with
    | some d => .ok (some d)
    | none   => .error .numericValueOutOfRange

/-- A NULL adds nothing. -/
def unitsOf (d : Option (Decimal p s)) : Int := (d.map Decimal.unscaled).getD 0

theorem sum_unitsOf {β : Type} (f : β → Option (Decimal p s)) : ∀ xs : List β,
    ((xs.filterMap f).map Decimal.unscaled).sum = (xs.map (fun x => unitsOf (f x))).sum
  | []      => rfl
  | x :: xs => by
    rw [List.map_cons, List.sum_cons, ← sum_unitsOf f xs]
    cases hx : f x with
    | none => rw [List.filterMap_cons_none hx, unitsOf, Option.map_none, Option.getD_none, Int.zero_add]
    | some d => rw [List.filterMap_cons_some hx, List.map_cons, List.sum_cons]; rfl

/-- **A sum is exact, or out of range.** -/
theorem sumDecimal_ok {ds : List (Decimal p s)} {total : Option (Decimal p s)} (h : sumDecimal ds = .ok total) :
    unitsOf total = (ds.map Decimal.unscaled).sum := by
  unfold sumDecimal at h
  split at h
  · rename_i hnil
    cases h
    rw [List.isEmpty_iff.1 hnil]
    rfl
  · split at h
    · rename_i d hd
      cases h
      unfold Decimal.ofUnscaled at hd
      split at hd
      · cases hd
        rfl
      · cases hd
    · cases h

theorem sumDecimal_ok_iff {ds : List (Decimal p s)} :
    (∃ total, sumDecimal ds = .ok total) ↔ (ds.map Decimal.unscaled).sum.natAbs < 10 ^ p := by
  unfold sumDecimal
  by_cases hnil : ds.isEmpty = true
  · rw [if_pos hnil, List.isEmpty_iff.1 hnil]
    exact iff_of_true ⟨none, rfl⟩ (Nat.pow_pos (by decide))
  · have hsum : (ds.map Decimal.unscaled).foldr (· + ·) 0 = (ds.map Decimal.unscaled).sum := rfl
    rw [if_neg hnil, hsum]
    by_cases hfits : (ds.map Decimal.unscaled).sum.natAbs < 10 ^ p
    · rw [Decimal.ofUnscaled, dif_pos hfits]
      exact iff_of_true ⟨_, rfl⟩ hfits
    · rw [Decimal.ofUnscaled, dif_neg hfits]
      exact iff_of_false (fun ⟨_, h⟩ => by cases h) hfits

def maxDecimal : List (Decimal p s) → Option (Decimal p s)
  | []      => none
  | d :: ds => some (ds.foldl (fun m x => if m.unscaled < x.unscaled then x else m) d)

def minDecimal : List (Decimal p s) → Option (Decimal p s)
  | []      => none
  | d :: ds => some (ds.foldl (fun m x => if x.unscaled < m.unscaled then x else m) d)

/-- `min_by`, `max_by`: the first scanned row that no row scanned after it precedes in `lt`, which may fail. -/
def bestBy (lt : α → α → Except Error Bool) : List α → Except Error (Option α)
  | []      => .ok none
  | r :: rs => do
    let best ← rs.foldlM (fun best r => do return if ← lt r best then r else best) r
    return some best

def countDistinct (xs : List (Option κ)) : Nat := (xs.filterMap id).dedup.length

theorem countDistinct_le (xs : List (Option κ)) : countDistinct xs ≤ xs.length := by
  unfold countDistinct
  exact Nat.le_trans (List.dedup_sublist _).length_le (List.length_filterMap_le _ _)

end Sql
