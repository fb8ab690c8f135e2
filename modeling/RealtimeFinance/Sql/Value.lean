import Mathlib.Algebra.BigOperators.Group.List.Basic
import Mathlib.Algebra.Order.Field.Basic
import Mathlib.Algebra.Order.Ring.Rat
import Mathlib.Data.Rat.Cast.Defs
import Mathlib.Tactic.Positivity
import RealtimeFinance.Sql.GroupBy
/-!
# Value — the numbers that decimals and their aggregates stand for

A sum that fits is the sum of the values, the extremes are the extremes of the values.  A NULL has the value zero where
it only adds.
-/
namespace Sql

variable {p s : Nat}

def Decimal.value (d : Decimal p s) : ℚ := d.unscaled / 10 ^ s

def valueOf (d : Option (Decimal p s)) : ℚ := unitsOf d / 10 ^ s

theorem value_of_isSome {d : Option (Decimal p s)} (h : d.isSome = true) : d.map Decimal.value = some (valueOf d) := by
  cases d with
  | none => cases h
  | some d => rfl

theorem sum_unscaled_div (us : List Int) : ((us.sum : Int) : ℚ) / 10 ^ s = (us.map (fun u : Int => (u : ℚ) / 10 ^ s)).sum := by
  induction us with
  | nil => simp
  | cons u us ih =>
    rw [List.sum_cons, List.map_cons, List.sum_cons, ← ih, Int.cast_add, add_div]

theorem sum_valueOf {α : Type} (f : α → Option (Decimal p s)) (xs : List α) :
    (xs.map (fun x => valueOf (f x))).sum = (((xs.map (fun x => unitsOf (f x))).sum : Int) : ℚ) / 10 ^ s := by
  rw [sum_unscaled_div, List.map_map]
  rfl

/-- **A sum of decimals without NULLs has the sum of the values.** -/
theorem sumDecimal_value {ds : List (Option (Decimal p s))} (hne : ds ≠ []) (hsome : ∀ d ∈ ds, d.isSome = true)
    {total : Option (Decimal p s)} (h : sumDecimal (ds.filterMap id) = .ok total) :
    total.map Decimal.value = some ((((ds.map unitsOf).sum : Int) : ℚ) / 10 ^ s) := by
  have hunits : unitsOf total = (ds.map unitsOf).sum := (sumDecimal_ok h).trans (sum_unitsOf id ds)
  have hsome : total.isSome = true := by
    obtain ⟨d, hd⟩ := List.exists_mem_of_ne_nil ds hne
    obtain ⟨x, rfl⟩ := Option.isSome_iff_exists.1 (hsome d hd)
    have hmem : x ∈ ds.filterMap id := List.mem_filterMap.2 ⟨some x, hd, rfl⟩
    unfold sumDecimal at h
    rw [if_neg (by rw [List.isEmpty_iff]; exact List.ne_nil_of_mem hmem)] at h
    split at h <;> cases h
    rfl
  rw [value_of_isSome hsome, valueOf, hunits]

/-- A fold that keeps the lesser of two keys ends at the least. -/
theorem foldl_least {α β : Type} [LinearOrder β] (key : α → β) {before : α → α → Prop} [DecidableRel before]
    (hbefore : ∀ x m, before x m ↔ key x < key m) : ∀ (xs : List α) (x : α),
      IsLeast {k | k ∈ (x :: xs).map key} (key (xs.foldl (fun m y => if before y m then y else m) x))
  | [], x => ⟨List.mem_cons_self, fun k hk => (List.mem_singleton.1 hk).ge⟩
  | y :: ys, x => by
    rw [List.foldl_cons]
    by_cases hyx : before y x
    · rw [if_pos hyx]
      obtain ⟨hmem, hle⟩ := foldl_least key hbefore ys y
      refine ⟨List.mem_cons_of_mem _ hmem, fun k hk => ?_⟩
      rcases List.mem_cons.1 hk with rfl | hk
      · exact (hle List.mem_cons_self).trans ((hbefore y x).1 hyx).le
      · exact hle hk
    · rw [if_neg hyx]
      obtain ⟨hmem, hle⟩ := foldl_least key hbefore ys x
      refine ⟨?_, fun k hk => ?_⟩
      · rcases List.mem_cons.1 hmem with hmem | hmem
        · exact List.mem_cons.2 (Or.inl hmem)
        · exact List.mem_cons_of_mem _ (List.mem_cons_of_mem _ hmem)
      · rcases List.mem_cons.1 hk with rfl | hk
        · exact hle List.mem_cons_self
        · rcases List.mem_cons.1 hk with rfl | hk
          · exact (hle List.mem_cons_self).trans (not_lt.1 (fun h => hyx ((hbefore y x).2 h)))
          · exact hle (List.mem_cons_of_mem _ hk)

theorem Decimal.value_lt_value {a b : Decimal p s} : a.unscaled < b.unscaled ↔ a.value < b.value := by
  unfold Decimal.value
  rw [div_lt_div_iff_of_pos_right (by positivity), Int.cast_lt]

theorem Decimal.value_injective : Function.Injective (Decimal.value : Decimal p s → ℚ) := by
  intro a b h
  rcases lt_trichotomy a.unscaled b.unscaled with hlt | heq | hgt
  · exact absurd h (Decimal.value_lt_value.1 hlt).ne
  · cases a
    cases b
    cases heq
    rfl
  · exact absurd h (Decimal.value_lt_value.1 hgt).ne'

/-- **The extremes of decimals have the extreme values.** -/
theorem minDecimal_isLeast {ds : List (Decimal p s)} (hne : ds ≠ []) :
    ∃ m, minDecimal ds = some m ∧ IsLeast {q | q ∈ ds.map Decimal.value} m.value := by
  obtain ⟨d, ds, rfl⟩ := List.exists_cons_of_ne_nil hne
  exact ⟨_, rfl, foldl_least Decimal.value (fun _ _ => Decimal.value_lt_value) ds d⟩

theorem maxDecimal_isGreatest {ds : List (Decimal p s)} (hne : ds ≠ []) :
    ∃ m, maxDecimal ds = some m ∧ IsGreatest {q | q ∈ ds.map Decimal.value} m.value := by
  obtain ⟨d, ds, rfl⟩ := List.exists_cons_of_ne_nil hne
  exact ⟨_, rfl, @foldl_least (Decimal p s) ℚᵒᵈ _ Decimal.value (fun x m => m.unscaled < x.unscaled) _
    (fun _ _ => Decimal.value_lt_value) ds d⟩

end Sql
