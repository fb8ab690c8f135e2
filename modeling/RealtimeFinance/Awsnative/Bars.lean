import Mathlib.Algebra.BigOperators.Group.List.Basic
import Mathlib.Algebra.BigOperators.Ring.List
import Mathlib.Algebra.Order.BigOperators.Group.List
import Mathlib.Algebra.Order.Field.Basic
import Mathlib.Algebra.Order.Ring.Rat
import Mathlib.Data.List.MinMax
import Mathlib.Tactic.Linarith
import RealtimeFinance.Sql.Merge
/-!
# Bars — `awsnative.bars`

The additive-measure contract of `gold_bars_1m`, in exact arithmetic.  The columns in floats (`sq_log_return`,
`realized_vol`) are what the `math` module makes of them, which can raise.

A bar is a sum of its trades' measures and an extremum of their prices, so bars roll up to the measures of their trades
whatever their grain and order (`rollup_grainInvariant`).
-/
namespace Awsnative
namespace Bars

open Sql

inductive BarsError
  | noTrades
  | lengthMismatch
  | noBars
  | zeroVolume
  | mathDomain
  deriving DecidableEq

/-- `log(float(close) / float(open)) ** 2` and `sqrt(sum(…))`. -/
structure FloatMath (F : Type) where
  sqLogReturn : ℚ → ℚ → Except BarsError F
  sqrtSum : List F → F

structure Bar (F : Type) where
  opening : ℚ
  high : ℚ
  low : ℚ
  close : ℚ
  volume : ℚ
  notional : ℚ
  buyVol : ℚ
  sellVol : ℚ
  sqLogReturn : F
  tradeCount : Nat

structure Measures (F : Type) where
  vwap : ℚ
  high : ℚ
  low : ℚ
  realizedVol : F
  flowImbalance : ℚ
  volume : ℚ
  tradeCount : Nat

variable {F : Type} (math : FloatMath F)

/-- `sum(s for s, side in zip(sizes, sides, strict=True) if side == …)`. -/
def sideVolume (side : String) (sizes : List ℚ) (sides : List (Option String)) : ℚ :=
  (((sizes.zip sides).filter (fun p => decide (p.2 = some side))).map Prod.fst).sum

def barFromTrades (prices sizes : List ℚ) (sides : List (Option String)) : Except BarsError (Bar F) :=
  match prices with
  | [] => .error .noTrades
  | first :: rest =>
    if prices.length ≠ sizes.length ∨ sizes.length ≠ sides.length then .error .lengthMismatch
    else do
      let close := (first :: rest).getLast (List.cons_ne_nil first rest)
      let sqLogReturn ← math.sqLogReturn close first
      return { opening := first, high := rest.foldl max first, low := rest.foldl min first, close
               volume := sizes.sum, notional := (List.zipWith (· * ·) prices sizes).sum
               buyVol := sideVolume "BUY" sizes sides, sellVol := sideVolume "SELL" sizes sides
               sqLogReturn, tradeCount := prices.length }

def rollup : List (Bar F) → Except BarsError (Measures F)
  | [] => .error .noBars
  | b :: bs =>
    let volume := ((b :: bs).map Bar.volume).sum
    if volume ≤ 0 then .error .zeroVolume
    else
      let notional := ((b :: bs).map Bar.notional).sum
      let buyVol := ((b :: bs).map Bar.buyVol).sum
      let sellVol := ((b :: bs).map Bar.sellVol).sum
      .ok { vwap := notional / volume, high := (bs.map Bar.high).foldl max b.high
            low := (bs.map Bar.low).foldl min b.low, realizedVol := math.sqrtSum ((b :: bs).map Bar.sqLogReturn)
            flowImbalance := (buyVol - sellVol) / volume, volume
            tradeCount := ((b :: bs).map Bar.tradeCount).sum }

/-! ## The bar of a list of trades -/

structure Trade where
  price : ℚ
  size : ℚ
  side : Option String

def barOfTrades (trades : List Trade) : Except BarsError (Bar F) :=
  barFromTrades math (trades.map Trade.price) (trades.map Trade.size) (trades.map Trade.side)

/-- The size of a trade on the side, and nothing on the other. -/
def Trade.sizeOn (side : String) (t : Trade) : ℚ := if t.side = some side then t.size else 0

theorem sideVolume_eq (side : String) : ∀ trades : List Trade,
    sideVolume side (trades.map Trade.size) (trades.map Trade.side) = (trades.map (Trade.sizeOn side)).sum
  | []          => rfl
  | t :: trades => by
    have ih := sideVolume_eq side trades
    unfold sideVolume at ih ⊢
    rw [List.map_cons, List.map_cons, List.zip_cons_cons, List.filter_cons, List.map_cons, List.sum_cons, ← ih]
    unfold Trade.sizeOn
    by_cases hside : t.side = some side
    · rw [if_pos (decide_eq_true hside), if_pos hside, List.map_cons, List.sum_cons]
    · rw [if_neg (fun h => hside (of_decide_eq_true h)), if_neg hside, zero_add]

theorem zipWith_mul_sum : ∀ trades : List Trade,
    (List.zipWith (· * ·) (trades.map Trade.price) (trades.map Trade.size)).sum =
      (trades.map (fun t => t.price * t.size)).sum
  | []          => rfl
  | t :: trades => by
    rw [List.map_cons, List.map_cons, List.zipWith_cons_cons, List.sum_cons, zipWith_mul_sum trades, List.map_cons,
      List.sum_cons]

theorem foldl_max_isGreatest (x : ℚ) (xs : List ℚ) : IsGreatest {y | y ∈ x :: xs} (xs.foldl max x) :=
  List.max?_eq_some_iff.1 List.max?_cons'

theorem foldl_min_isLeast (x : ℚ) (xs : List ℚ) : IsLeast {y | y ∈ x :: xs} (xs.foldl min x) :=
  List.min?_eq_some_iff.1 List.min?_cons'

/-- **A bar holds the sums and the extremes of its trades.** -/
structure Sums (trades : List Trade) (b : Bar F) : Prop where
  high : IsGreatest {p | p ∈ trades.map Trade.price} b.high
  low : IsLeast {p | p ∈ trades.map Trade.price} b.low
  volume : b.volume = (trades.map Trade.size).sum
  notional : b.notional = (trades.map (fun t => t.price * t.size)).sum
  buyVol : b.buyVol = (trades.map (Trade.sizeOn "BUY")).sum
  sellVol : b.sellVol = (trades.map (Trade.sizeOn "SELL")).sum
  tradeCount : b.tradeCount = trades.length

/-- The logarithm that the bar of the trades asks for exists. -/
def Logs (trades : List Trade) : Prop :=
  ∀ first last, trades.head? = some first → trades.getLast? = some last →
    ∃ x, math.sqLogReturn last.price first.price = .ok x

/-- The bar of `first :: rest` but for its logarithm. -/
def barWith (first : Trade) (rest : List Trade) (x : F) : Bar F :=
  { opening := first.price, high := (rest.map Trade.price).foldl max first.price
    low := (rest.map Trade.price).foldl min first.price, close := ((first :: rest).getLast (List.cons_ne_nil _ _)).price
    volume := ((first :: rest).map Trade.size).sum, notional := ((first :: rest).map (fun t => t.price * t.size)).sum
    buyVol := ((first :: rest).map (Trade.sizeOn "BUY")).sum, sellVol := ((first :: rest).map (Trade.sizeOn "SELL")).sum
    sqLogReturn := x, tradeCount := (first :: rest).length }

theorem barOfTrades_cons (first : Trade) (rest : List Trade) : barOfTrades math (first :: rest) =
    (math.sqLogReturn ((first :: rest).getLast (List.cons_ne_nil _ _)).price first.price).map (barWith first rest) := by
  have hlengths : ¬ (((first :: rest).map Trade.price).length ≠ ((first :: rest).map Trade.size).length ∨
      ((first :: rest).map Trade.size).length ≠ ((first :: rest).map Trade.side).length) := by simp
  have hlast : ((first :: rest).map Trade.price).getLast (List.cons_ne_nil _ _) =
      ((first :: rest).getLast (List.cons_ne_nil _ _)).price := List.getLast_map _
  have hnotional := zipWith_mul_sum (first :: rest)
  have hbuy := sideVolume_eq "BUY" (first :: rest)
  have hsell := sideVolume_eq "SELL" (first :: rest)
  simp only [List.map_cons] at hlengths hlast hnotional hbuy hsell
  unfold barOfTrades
  simp only [List.map_cons, barFromTrades]
  rw [if_neg hlengths, hlast, hnotional, hbuy, hsell]
  cases math.sqLogReturn ((first :: rest).getLast (List.cons_ne_nil _ _)).price first.price with
  | error e => rfl
  | ok x =>
    change Except.ok _ = Except.ok _
    congr 1
    unfold barWith
    simp only [List.map_cons, List.length_cons, List.length_map]

/-- A bar is the sums and the extremes of its trades. -/
theorem barOfTrades_sums {trades : List Trade} {b : Bar F} (h : barOfTrades math trades = .ok b) : Sums trades b := by
  cases trades with
  | nil => cases h
  | cons first rest =>
    rw [barOfTrades_cons] at h
    cases hx : math.sqLogReturn ((first :: rest).getLast (List.cons_ne_nil _ _)).price first.price with
    | error e =>
      rw [hx] at h
      cases h
    | ok x =>
      rw [hx] at h
      cases h
      exact { high := foldl_max_isGreatest _ _, low := foldl_min_isLeast _ _, volume := rfl, notional := rfl
              buyVol := rfl, sellVol := rfl, tradeCount := rfl }

/-- The ends of a bar are those of its trades, and their logarithm exists. -/
theorem barOfTrades_ends {trades : List Trade} {b : Bar F} (h : barOfTrades math trades = .ok b) :
    ∃ first last, trades.head? = some first ∧ trades.getLast? = some last ∧ b.opening = first.price ∧ b.close = last.price ∧
      ∃ x, math.sqLogReturn last.price first.price = .ok x := by
  cases trades with
  | nil => cases h
  | cons first rest =>
    rw [barOfTrades_cons] at h
    cases hx : math.sqLogReturn ((first :: rest).getLast (List.cons_ne_nil _ _)).price first.price with
    | error e =>
      rw [hx] at h
      cases h
    | ok x =>
      rw [hx] at h
      cases h
      exact ⟨first, _, rfl, List.getLast?_eq_some_getLast _, rfl, rfl, x, hx⟩

/-- A bar is computed of one trade or more whose logarithm exists. -/
theorem barOfTrades_ok {trades : List Trade} (hne : trades ≠ []) (hlog : Logs math trades) :
    ∃ b, barOfTrades math trades = .ok b := by
  obtain ⟨first, rest, rfl⟩ := List.exists_cons_of_ne_nil hne
  obtain ⟨x, hx⟩ := hlog first ((first :: rest).getLast (List.cons_ne_nil _ _)) rfl (List.getLast?_eq_some_getLast _)
  exact ⟨barWith first rest x, by rw [barOfTrades_cons, hx]; rfl⟩

/-! ## Rolling up -/

/-- What a rollup of bars says of the trades under them. -/
structure Rolls (trades : List Trade) (m : Measures F) : Prop where
  high : IsGreatest {p | p ∈ trades.map Trade.price} m.high
  low : IsLeast {p | p ∈ trades.map Trade.price} m.low
  volume : m.volume = (trades.map Trade.size).sum
  vwap : m.vwap = (trades.map (fun t => t.price * t.size)).sum / (trades.map Trade.size).sum
  flowImbalance : m.flowImbalance = ((trades.map (Trade.sizeOn "BUY")).sum - (trades.map (Trade.sizeOn "SELL")).sum) /
    (trades.map Trade.size).sum
  tradeCount : m.tradeCount = trades.length

theorem forall₂_mem {α β : Type} {R : α → β → Prop} {xs : List α} {ys : List β} (h : List.Forall₂ R xs ys) :
    (∀ x ∈ xs, ∃ y ∈ ys, R x y) ∧ (∀ y ∈ ys, ∃ x ∈ xs, R x y) := by
  induction h with
  | nil => simp
  | cons hxy _ ih =>
    refine ⟨fun a ha => ?_, fun b hb => ?_⟩
    · rcases List.mem_cons.1 ha with rfl | ha
      · exact ⟨_, List.mem_cons_self, hxy⟩
      · obtain ⟨b, hb, hab⟩ := ih.1 a ha
        exact ⟨b, List.mem_cons_of_mem _ hb, hab⟩
    · rcases List.mem_cons.1 hb with rfl | hb
      · exact ⟨_, List.mem_cons_self, hxy⟩
      · obtain ⟨a, ha, hab⟩ := ih.2 b hb
        exact ⟨a, List.mem_cons_of_mem _ ha, hab⟩

theorem map_eq_map_of_forall₂ {α β γ : Type} {R : α → β → Prop} {f : α → γ} {g : β → γ} {xs : List α} {ys : List β}
    (h : List.Forall₂ R xs ys) (hfg : ∀ x y, R x y → f x = g y) : xs.map f = ys.map g := by
  rw [← List.forall₂_eq_eq_eq, List.forall₂_map_left_iff, List.forall₂_map_right_iff]
  exact h.imp hfg

/-- The sum over the bars of a measure that sums over a bar's trades. -/
theorem sum_bars {groups : List (List Trade)} {bars : List (Bar F)} (h : List.Forall₂ Sums groups bars) {f : Bar F → ℚ}
    {g : Trade → ℚ} (hfg : ∀ trades b, Sums trades b → f b = (trades.map g).sum) :
    (bars.map f).sum = (groups.flatten.map g).sum := by
  have hmap : groups.map (fun trades => (trades.map g).sum) = bars.map f :=
    map_eq_map_of_forall₂ h (fun trades b hb => (hfg trades b hb).symm)
  rw [← hmap, List.map_flatten, List.sum_flatten, List.map_map]
  rfl

/-- The greatest over the bars of a measure that is the greatest over a bar's trades. -/
theorem isGreatest_bars {α : Type} [Preorder α] {groups : List (List Trade)} {bars : List (Bar F)}
    (h : List.Forall₂ Sums groups bars) {f : Bar F → α} {g : Trade → α} {m : α}
    (hfg : ∀ trades b, Sums trades b → IsGreatest {x | x ∈ trades.map g} (f b)) (hm : IsGreatest {x | x ∈ bars.map f} m) :
    IsGreatest {x | x ∈ groups.flatten.map g} m := by
  obtain ⟨hto, hfrom⟩ := forall₂_mem h
  constructor
  · obtain ⟨b, hb, rfl⟩ := List.mem_map.1 hm.1
    obtain ⟨trades, htrades, hsums⟩ := hfrom b hb
    obtain ⟨t, ht, hfb⟩ := List.mem_map.1 (hfg trades b hsums).1
    exact List.mem_map.2 ⟨t, List.mem_flatten.2 ⟨trades, htrades, ht⟩, hfb⟩
  · intro x hx
    obtain ⟨t, ht, rfl⟩ := List.mem_map.1 hx
    obtain ⟨trades, htrades, ht⟩ := List.mem_flatten.1 ht
    obtain ⟨b, hb, hsums⟩ := hto trades htrades
    exact ((hfg trades b hsums).2 (List.mem_map_of_mem ht)).trans (hm.2 (List.mem_map_of_mem hb))

/-- **Bars roll up to the measures of their trades.** -/
theorem rollup_ok {groups : List (List Trade)} {bars : List (Bar F)} (h : List.Forall₂ Sums groups bars)
    (hvolume : 0 < (groups.flatten.map Trade.size).sum) : ∃ m, rollup math bars = .ok m ∧ Rolls groups.flatten m := by
  have hsum := sum_bars h (fun _ _ hb => hb.volume)
  have hcount : (bars.map Bar.tradeCount).sum = groups.flatten.length := by
    rw [List.length_flatten, map_eq_map_of_forall₂ h (fun _ _ hb => hb.tradeCount.symm)]
  cases bars with
  | nil =>
    rw [← hsum] at hvolume
    exact absurd hvolume (lt_irrefl 0)
  | cons b bs =>
    have hroll : rollup math (b :: bs) = .ok _ := if_neg (by rw [hsum]; exact not_le.2 hvolume)
    refine ⟨_, hroll, ?_⟩
    exact {
      high := isGreatest_bars h (fun _ _ hb => hb.high) (foldl_max_isGreatest _ _)
      low := @isGreatest_bars F ℚᵒᵈ _ _ _ h _ _ _ (fun _ _ hb => hb.low) (foldl_min_isLeast _ _)
      volume := hsum
      vwap := by rw [← hsum, ← sum_bars h (fun _ _ hb => hb.notional)]
      flowImbalance := by
        rw [← hsum, ← sum_bars h (fun _ _ hb => hb.buyVol), ← sum_bars h (fun _ _ hb => hb.sellVol)]
      tradeCount := hcount }

/-- Equal but for the measure in floats. -/
structure Measures.Agree (m n : Measures F) : Prop where
  vwap : m.vwap = n.vwap
  flowImbalance : m.flowImbalance = n.flowImbalance
  volume : m.volume = n.volume
  tradeCount : m.tradeCount = n.tradeCount
  high : m.high = n.high
  low : m.low = n.low

theorem Rolls.agree {ts us : List Trade} {m n : Measures F} (h : Rolls ts m) (h' : Rolls us n) (hperm : ts.Perm us) :
    m.Agree n := by
  have hprice : {p | p ∈ ts.map Trade.price} = {p | p ∈ us.map Trade.price} :=
    Set.ext (fun p => (hperm.map Trade.price).mem_iff)
  have hsize := (hperm.map Trade.size).sum_eq
  have hbuy := (hperm.map (Trade.sizeOn "BUY")).sum_eq
  have hsell := (hperm.map (Trade.sizeOn "SELL")).sum_eq
  have hnotional := (hperm.map (fun t => t.price * t.size)).sum_eq
  exact {
    vwap := by rw [h.vwap, h'.vwap, hnotional, hsize]
    flowImbalance := by rw [h.flowImbalance, h'.flowImbalance, hbuy, hsell, hsize]
    volume := by rw [h.volume, h'.volume, hsize]
    tradeCount := by rw [h.tradeCount, h'.tradeCount, hperm.length_eq]
    high := h.high.unique (hprice ▸ h'.high)
    low := h.low.unique (hprice ▸ h'.low) }

theorem Rolls.vwap_le_high {trades : List Trade} {m : Measures F} (h : Rolls trades m) (hsize : ∀ t ∈ trades, 0 < t.size)
    (hvolume : 0 < (trades.map Trade.size).sum) : m.vwap ≤ m.high := by
  rw [h.vwap, div_le_iff₀ hvolume, ← List.sum_map_mul_left]
  apply List.sum_le_sum
  intro t ht
  exact mul_le_mul_of_nonneg_right (h.high.2 (List.mem_map_of_mem ht)) (hsize t ht).le

theorem Rolls.low_le_vwap {trades : List Trade} {m : Measures F} (h : Rolls trades m) (hsize : ∀ t ∈ trades, 0 < t.size)
    (hvolume : 0 < (trades.map Trade.size).sum) : m.low ≤ m.vwap := by
  rw [h.vwap, le_div_iff₀ hvolume, ← List.sum_map_mul_left]
  apply List.sum_le_sum
  intro t ht
  exact mul_le_mul_of_nonneg_right (h.low.2 (List.mem_map_of_mem ht)) (hsize t ht).le

theorem Trade.sizeOn_nonneg {t : Trade} (h : 0 < t.size) (side : String) : 0 ≤ t.sizeOn side := by
  unfold Trade.sizeOn
  by_cases hside : t.side = some side
  · rw [if_pos hside]
    exact h.le
  · rw [if_neg hside]

theorem Trade.sizeOn_le {t : Trade} (h : 0 < t.size) (side : String) : t.sizeOn side ≤ t.size := by
  unfold Trade.sizeOn
  by_cases hside : t.side = some side
  · rw [if_pos hside]
  · rw [if_neg hside]
    exact h.le

theorem sum_sizeOn_mem {trades : List Trade} (hsize : ∀ t ∈ trades, 0 < t.size) (side : String) :
    0 ≤ (trades.map (Trade.sizeOn side)).sum ∧ (trades.map (Trade.sizeOn side)).sum ≤ (trades.map Trade.size).sum := by
  constructor
  · apply List.sum_nonneg
    intro x hx
    obtain ⟨t, ht, rfl⟩ := List.mem_map.1 hx
    exact Trade.sizeOn_nonneg (hsize t ht) side
  · apply List.sum_le_sum
    intro t ht
    exact Trade.sizeOn_le (hsize t ht) side

theorem Rolls.flowImbalance_mem {trades : List Trade} {m : Measures F} (h : Rolls trades m) (hsize : ∀ t ∈ trades, 0 < t.size)
    (hvolume : 0 < (trades.map Trade.size).sum) : -1 ≤ m.flowImbalance ∧ m.flowImbalance ≤ 1 := by
  obtain ⟨hbuy, hbuyLe⟩ := sum_sizeOn_mem hsize "BUY"
  obtain ⟨hsell, hsellLe⟩ := sum_sizeOn_mem hsize "SELL"
  rw [h.flowImbalance, le_div_iff₀ hvolume, div_le_iff₀ hvolume]
  constructor <;> linarith

theorem sum_size_pos {groups : List (List Trade)} (hne : groups ≠ []) (hgroups : ∀ g ∈ groups, g ≠ [])
    (hsize : ∀ t ∈ groups.flatten, 0 < t.size) : 0 < (groups.flatten.map Trade.size).sum := by
  apply List.sum_pos
  · intro x hx
    obtain ⟨t, ht, rfl⟩ := List.mem_map.1 hx
    exact hsize t ht
  · obtain ⟨g, hg⟩ := List.exists_mem_of_ne_nil groups hne
    obtain ⟨t, ht⟩ := List.exists_mem_of_ne_nil g (hgroups g hg)
    exact List.ne_nil_of_mem (List.mem_map_of_mem (List.mem_flatten.2 ⟨g, hg, ht⟩))

theorem bars_ok {groups : List (List Trade)} (hgroups : ∀ g ∈ groups, g ≠ []) (hlog : ∀ g ∈ groups, Logs math g) :
    ∃ bars, groups.mapM (barOfTrades math) = .ok bars ∧ List.Forall₂ Sums groups bars := by
  obtain ⟨bars, hbars⟩ := mapM_total (fun g hg => barOfTrades_ok math (hgroups g hg) (hlog g hg))
  exact ⟨bars, hbars, (mapM_forall₂ hbars).imp (fun _ _ hb => barOfTrades_sums math hb)⟩

/-- **The measures of a rollup are grain invariant.**  The bars of groups of trades roll up, in any order, to the measures
of the one bar of all the trades, which are the trades' own; the vwap lies between the extremes of the prices and the
imbalance between -1 and 1. -/
theorem rollup_grainInvariant (groups : List (List Trade)) (hne : groups ≠ []) (hgroups : ∀ g ∈ groups, g ≠ [])
    (hsize : ∀ t ∈ groups.flatten, 0 < t.size) (hlog : ∀ trades ∈ groups.flatten :: groups, Logs math trades) :
    ∃ whole bars m, barOfTrades math groups.flatten = .ok whole ∧ groups.mapM (barOfTrades math) = .ok bars ∧
      rollup math [whole] = .ok m ∧ Rolls groups.flatten m ∧
      (∀ order : List (Bar F), order.Perm bars → ∃ m', rollup math order = .ok m' ∧ m'.Agree m) ∧
      m.low ≤ m.vwap ∧ m.vwap ≤ m.high ∧ -1 ≤ m.flowImbalance ∧ m.flowImbalance ≤ 1 := by
  have hvolume := sum_size_pos hne hgroups hsize
  have hflatten : groups.flatten ≠ [] := by
    intro h
    rw [h] at hvolume
    exact absurd hvolume (lt_irrefl 0)
  obtain ⟨whole, hwhole⟩ := barOfTrades_ok math hflatten (hlog _ List.mem_cons_self)
  obtain ⟨bars, hbars, hsums⟩ := bars_ok math hgroups (fun g hg => hlog g (List.mem_cons_of_mem _ hg))
  have hone : [groups.flatten].flatten = groups.flatten := by simp
  obtain ⟨m, hm, hrolls⟩ := rollup_ok math (List.Forall₂.cons (barOfTrades_sums math hwhole) List.Forall₂.nil)
    (by rw [hone]; exact hvolume)
  rw [hone] at hrolls
  obtain ⟨hlow, hhigh⟩ := hrolls.flowImbalance_mem hsize hvolume
  refine ⟨whole, bars, m, hwhole, hbars, hm, hrolls, ?_, hrolls.low_le_vwap hsize hvolume,
    hrolls.vwap_le_high hsize hvolume, hlow, hhigh⟩
  intro order horder
  -- the groups of the bars, in the bars' order
  obtain ⟨groups', hgroups', hperm⟩ := List.perm_comp_forall₂ horder hsums.flip
  have hflat := hperm.flatten
  obtain ⟨m', hm', hrolls'⟩ := rollup_ok math hgroups'.flip (by rw [(hflat.map Trade.size).sum_eq]; exact hvolume)
  exact ⟨m', hm', hrolls'.agree hrolls hflat⟩

/-- Floats as rationals, the logarithm to first order on the domain it has. -/
def firstOrder : FloatMath ℚ where
  sqLogReturn close opening := if 0 < close * opening then .ok ((close / opening - 1) ^ 2) else .error .mathDomain
  sqrtSum xs := xs.sum

theorem rollup_grainInvariant_twoMinutes :
    let groups : List (List Trade) := [[⟨100, 1, some "BUY"⟩, ⟨101, 1, some "SELL"⟩], [⟨99, 2, none⟩]]
    ∃ whole bars m, barOfTrades firstOrder groups.flatten = .ok whole ∧ groups.mapM (barOfTrades firstOrder) = .ok bars ∧
      rollup firstOrder [whole] = .ok m ∧ Rolls groups.flatten m ∧
      (∀ order : List (Bar ℚ), order.Perm bars → ∃ m', rollup firstOrder order = .ok m' ∧ m'.Agree m) ∧
      m.low ≤ m.vwap ∧ m.vwap ≤ m.high ∧ -1 ≤ m.flowImbalance ∧ m.flowImbalance ≤ 1 := by
  refine rollup_grainInvariant firstOrder [[⟨100, 1, some "BUY"⟩, ⟨101, 1, some "SELL"⟩], [⟨99, 2, none⟩]] (by simp)
    (by simp) (by simp) ?_
  intro trades htrades first last hfirst hlast
  have hpositive : 0 < last.price * first.price := by
    simp only [List.flatten_cons, List.flatten_nil, List.cons_append, List.nil_append, List.mem_cons, List.not_mem_nil,
      or_false] at htrades
    rcases htrades with rfl | rfl | rfl <;> cases hfirst <;> cases hlast <;> norm_num
  exact ⟨_, if_pos hpositive⟩

end Bars
end Awsnative
