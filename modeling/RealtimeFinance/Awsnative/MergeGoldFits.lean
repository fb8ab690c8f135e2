import Mathlib.Algebra.Order.BigOperators.Group.List
import Mathlib.Algebra.Order.Group.Int
import RealtimeFinance.Awsnative.BarParts
/-!
# MergeGoldFits — when the measures of `merge_gold_bars_1m.sql` stay within their types

Silver holds what casts to `DECIMAL(38, 18)` and is positive.  The notional multiplies two `DECIMAL(29, 9)` into a
`DECIMAL(38, 18)`, so two factors that each fit may have a product that does not, and a row past the limits fails the
statement for every bar it rebuilds (`mergeGold_measures_iff`).
-/
namespace Awsnative

open Sql

/-- **What the validity expression admits.** -/
def SilverRow.Admitted (s : SilverRow) : Prop :=
  (∃ p, s.price = some p ∧ 0 < p.unscaled) ∧ ∃ z, s.size = some z ∧ 0 < z.unscaled

/-- **The stream's merge inserts only what the validity expression admits.** -/
theorem silverOf_admitted {now : Int} {b : BronzeRow} {s : SilverRow} (hvalid : valid now b = true)
    (h : silverOf b = .ok s) : s.Admitted := by
  obtain ⟨⟨p, hp, hppos⟩, ⟨z, hz, hzpos⟩, -⟩ := valid_casts hvalid
  unfold silverOf at h
  rw [castDecimal_eq_ok hp, castDecimal_eq_ok hz] at h
  cases h
  exact ⟨⟨p, rfl, hppos⟩, z, rfl, hzpos⟩

/-- **Silver holds only that**, as long as the stream's merge writes it. -/
theorem mergeSilverTrades_admitted {now : Int} {lookbackDays : Nat} {bronze : List BronzeRow}
    {silver silver' : List SilverRow} (hadmitted : ∀ s ∈ silver, s.Admitted)
    (h : mergeSilverTrades now lookbackDays bronze silver = .ok silver') : ∀ s ∈ silver', s.Admitted := by
  obtain ⟨source, hsource, -, hmerge⟩ := mergeSilverTrades_ok now lookbackDays bronze silver
  rw [hmerge] at h
  cases h
  intro s hs
  rcases List.mem_append.1 hs with hs | hs
  · exact hadmitted s hs
  · obtain ⟨b, -, haccepted, hof⟩ := accepted_of_mem_source hsource (MergeInto.mem_inserted.1 hs).1
    exact silverOf_admitted ((accepted_iff now lookbackDays b).1 haccepted).2 hof

/-- `CAST(… AS DECIMAL(29, 9))`, in units of its ninth place. -/
def ninePlaces (u : Int) : Int := setScale u (18 : Nat) 9

/-- The least `DECIMAL(38, 18)` that rounds to 21 digits before the point at nine places: `10^20 - 5·10^-10`. -/
def narrowed : Int := 10 ^ 38 - 5 * 10 ^ 8

theorem ninePlaces_pos {u : Int} (h : 0 < u) : 0 ≤ ninePlaces u ∧ (ninePlaces u < 10 ^ 29 ↔ u < narrowed) := by
  have hround : ninePlaces u = (((2 * u.natAbs + 10 ^ 9) / (2 * 10 ^ 9) : Nat) : Int) := by
    show u.sign * (((2 * u.natAbs + 10 ^ 9) / (2 * 10 ^ 9) : Nat) : Int) = _
    rw [Int.sign_eq_one_of_pos h, Int.one_mul]
  unfold narrowed
  rw [hround]
  omega

theorem cast_eq_ok {d : Decimal 38 18} {x : Decimal 29 9} (h : d.cast 29 9 = .ok x) :
    x.unscaled = ninePlaces d.unscaled := by
  unfold Decimal.cast Decimal.ofUnscaled at h
  split at h
  · rename_i y hy
    cases h
    split at hy
    · cases hy
      rfl
    · cases hy
  · cases h

/-- **The narrowing cast fails from 21 digits before the point on.** -/
theorem cast_ok_iff {d : Decimal 38 18} (hpos : 0 < d.unscaled) : (∃ x, d.cast 29 9 = .ok x) ↔ d.unscaled < narrowed := by
  obtain ⟨hnonneg, hlt⟩ := ninePlaces_pos hpos
  rw [← hlt]
  unfold ninePlaces at hnonneg ⊢
  unfold Decimal.cast Decimal.ofUnscaled
  by_cases hfits : (setScale d.unscaled (18 : Nat) 9).natAbs < 10 ^ 29
  · rw [dif_pos hfits]
    exact iff_of_true ⟨_, rfl⟩ (by omega)
  · rw [dif_neg hfits]
    exact iff_of_false (fun ⟨_, h⟩ => by cases h) (by omega)

/-- The product of a row's factors at nine places, in units of the eighteenth. -/
def SilverRow.product (s : SilverRow) : Int := ninePlaces (unitsOf s.price) * ninePlaces (unitsOf s.size)

theorem productOf_ok {s : SilverRow} {d : Option (Decimal 38 18)} (h : productOf s = .ok d) : unitsOf d = s.product := by
  unfold productOf at h
  unfold SilverRow.product
  split at h
  · rename_i p z hp hz
    obtain ⟨x, hx, h⟩ := bind_ok h
    obtain ⟨y, hy, h⟩ := bind_ok h
    rw [hp, hz]
    unfold Decimal.ofUnscaled at h
    split at h
    · rename_i d' hd'
      cases h
      split at hd'
      · cases hd'
        show x.unscaled * y.unscaled = ninePlaces p.unscaled * ninePlaces z.unscaled
        rw [cast_eq_ok hx, cast_eq_ok hy]
      · cases hd'
    · cases h
  · rename_i hnull
    cases h
    cases hp : s.price with
    | none => exact (Int.zero_mul _).symm
    | some p =>
      cases hz : s.size with
      | none => exact (Int.mul_zero _).symm
      | some z => exact absurd hz (hnull p z hp)

theorem productOf_ok_iff {s : SilverRow} (h : s.Admitted) : (∃ d, productOf s = .ok d) ↔
    unitsOf s.price < narrowed ∧ unitsOf s.size < narrowed ∧ s.product < 10 ^ 38 := by
  obtain ⟨⟨p, hp, hppos⟩, z, hz, hzpos⟩ := h
  have hprod : 0 ≤ s.product := by
    unfold SilverRow.product
    rw [hp, hz]
    exact Int.mul_nonneg (ninePlaces_pos hppos).1 (ninePlaces_pos hzpos).1
  have hfactors : s.product = ninePlaces p.unscaled * ninePlaces z.unscaled := by
    unfold SilverRow.product
    rw [hp, hz]
    rfl
  have hprice : unitsOf s.price = p.unscaled := by rw [hp]; rfl
  have hsize : unitsOf s.size = z.unscaled := by rw [hz]; rfl
  rw [hprice, hsize, ← cast_ok_iff hppos, ← cast_ok_iff hzpos]
  unfold productOf
  rw [hp, hz]
  constructor
  · rintro ⟨d, h⟩
    obtain ⟨x, hx, h⟩ := bind_ok h
    obtain ⟨y, hy, h⟩ := bind_ok h
    refine ⟨⟨x, hx⟩, ⟨y, hy⟩, ?_⟩
    unfold Decimal.ofUnscaled at h
    split at h
    · rename_i d' hd'
      split at hd'
      · rename_i hfits
        rw [cast_eq_ok hx, cast_eq_ok hy, ← hfactors] at hfits
        omega
      · cases hd'
    · cases h
  · rintro ⟨⟨x, hx⟩, ⟨y, hy⟩, hlt⟩
    have hfits : (x.unscaled * y.unscaled).natAbs < 10 ^ 38 := by
      rw [cast_eq_ok hx, cast_eq_ok hy, ← hfactors]
      omega
    refine ⟨some ⟨x.unscaled * y.unscaled, hfits⟩, ?_⟩
    simp only [hx, hy, bind, Except.bind, Decimal.ofUnscaled, dif_pos hfits]

/-! ## A group -/

/-- **The limits of a bar**: every price and size has twenty digits before the point once it is rounded to nine places,
and the sizes and the products of the rounded factors add up to less than `10^20`. -/
structure Fits (rows : List SilverRow) : Prop where
  price : ∀ r ∈ rows, unitsOf r.price < narrowed
  size : ∀ r ∈ rows, unitsOf r.size < narrowed
  volume : (rows.map (fun r => unitsOf r.size)).sum < 10 ^ 38
  notional : (rows.map SilverRow.product).sum < 10 ^ 38

section Group

variable {rows : List SilverRow} (hadmitted : ∀ r ∈ rows, r.Admitted)
include hadmitted

theorem size_pos : ∀ r ∈ rows, 0 < unitsOf r.size := by
  intro r hr
  obtain ⟨-, z, hz, hpos⟩ := hadmitted r hr
  rw [hz]
  exact hpos

theorem product_nonneg : ∀ r ∈ rows, 0 ≤ r.product := by
  intro r hr
  obtain ⟨⟨p, hp, hppos⟩, z, hz, hzpos⟩ := hadmitted r hr
  unfold SilverRow.product
  rw [hp, hz]
  exact Int.mul_nonneg (ninePlaces_pos hppos).1 (ninePlaces_pos hzpos).1

/-- What is bought or sold is not more than what is traded. -/
theorem sizeIfSide_le (side : String) : ∀ r ∈ rows,
    0 ≤ unitsOf (sizeIfSide side r) ∧ unitsOf (sizeIfSide side r) ≤ unitsOf r.size := by
  intro r hr
  have hpos := size_pos hadmitted r hr
  unfold sizeIfSide
  split
  · exact ⟨Int.le_of_lt hpos, Int.le_refl _⟩
  · exact ⟨Int.le_refl _, Int.le_of_lt hpos⟩

theorem sideSum_fits (side : String) (hvolume : (rows.map (fun r => unitsOf r.size)).sum < 10 ^ 38) :
    ∃ total, sumDecimal (rows.filterMap (sizeIfSide side)) = .ok total := by
  have hside := sizeIfSide_le hadmitted side
  rw [sumDecimal_ok_iff, sum_unitsOf]
  have hnonneg : 0 ≤ (rows.map (fun r => unitsOf (sizeIfSide side r))).sum := by
    refine List.sum_nonneg (fun u hu => ?_)
    obtain ⟨r, hr, rfl⟩ := List.mem_map.1 hu
    exact (hside r hr).1
  have hle : (rows.map (fun r => unitsOf (sizeIfSide side r))).sum ≤ (rows.map (fun r => unitsOf r.size)).sum :=
    List.sum_le_sum (fun r hr => (hside r hr).2)
  omega

/-- **The measures of a bar stay within their types exactly within its limits.** -/
theorem measured_iff : Measured rows ↔ Fits rows := by
  have hsum : 0 ≤ (rows.map (fun r => unitsOf r.size)).sum := by
    refine List.sum_nonneg (fun u hu => ?_)
    obtain ⟨r, hr, rfl⟩ := List.mem_map.1 hu
    exact Int.le_of_lt (size_pos hadmitted r hr)
  have hproducts : ∀ u ∈ rows.map SilverRow.product, 0 ≤ u := by
    intro u hu
    obtain ⟨r, hr, rfl⟩ := List.mem_map.1 hu
    exact product_nonneg hadmitted r hr
  have htotal : ∀ products, rows.mapM productOf = .ok products →
      ((products.filterMap id).map Decimal.unscaled).sum = (rows.map SilverRow.product).sum := by
    intro products h
    rw [sum_unitsOf]
    exact congrArg List.sum (mapM_map_eq (fun s d hd => productOf_ok hd) h)
  constructor
  · rintro ⟨hvolume, ⟨products, hmul, hnotional⟩, -, -⟩
    have hrow := fun r hr => (productOf_ok_iff (hadmitted r hr)).1 (((mapM_ok hmul).1 r hr).imp (fun d h => h.2))
    rw [sumDecimal_ok_iff, sum_unitsOf] at hvolume
    rw [sumDecimal_ok_iff, htotal products hmul] at hnotional
    exact ⟨fun r hr => (hrow r hr).1, fun r hr => (hrow r hr).2.1, by omega, by omega⟩
  · rintro ⟨hprice, hsize, hvolume, hnotional⟩
    refine ⟨?_, ?_, sideSum_fits hadmitted "BUY" hvolume, sideSum_fits hadmitted "SELL" hvolume⟩
    · rw [sumDecimal_ok_iff, sum_unitsOf]
      omega
    · obtain ⟨products, hmul⟩ := mapM_total (fun r hr => (productOf_ok_iff (hadmitted r hr)).2
        ⟨hprice r hr, hsize r hr,
          Int.lt_of_le_of_lt (List.single_le_sum hproducts _ (List.mem_map_of_mem hr)) hnotional⟩)
      refine ⟨products, hmul, ?_⟩
      have hnonneg := List.sum_nonneg hproducts
      rw [sumDecimal_ok_iff, htotal products hmul]
      omega

end Group

/-! ## The statement -/

/-- **Every bar that is rebuilt is within its limits.** -/
def BarsFit (dirty : List Partition) (silver : List SilverRow) : Prop :=
  ∀ s ∈ silver, rebuilt dirty s.barKey = true → Fits (groupRows SilverRow.barKey s.barKey silver)

/-- **The measures that the statement evaluates stay within their types exactly within the bars' limits.**  There it fails
at a NULL it compares, if at all; past them it fails. -/
theorem mergeGold_measures_iff (now : Int) (lookbackDays : Nat) (bronze : List BronzeRow) {silver : List SilverRow}
    (hadmitted : ∀ s ∈ silver, s.Admitted) (gold : List GoldRow) :
    ((∀ s ∈ silver, rebuilt (dirtyFromBronze now lookbackDays bronze) s.barKey = true →
        Measured (groupRows SilverRow.barKey s.barKey silver)) ↔
      BarsFit (dirtyFromBronze now lookbackDays bronze) silver) ∧
    (BarsFit (dirtyFromBronze now lookbackDays bronze) silver → ∀ e,
      mergeGoldBars1m now lookbackDays bronze silver gold = .error e → e = .rowComparisonOfNull) ∧
    (¬ BarsFit (dirtyFromBronze now lookbackDays bronze) silver →
      ∃ e, mergeGoldBars1m now lookbackDays bronze silver gold = .error e) := by
  have hgroup : ∀ k, Measured (groupRows SilverRow.barKey k silver) ↔ Fits (groupRows SilverRow.barKey k silver) :=
    fun k => measured_iff (fun r hr => hadmitted r (mem_groupRows.1 hr).1)
  rw [mergeGoldBars1m_eq]
  generalize dirtyFromBronze now lookbackDays bronze = dirty
  refine ⟨forall_congr' (fun s => forall_congr' (fun _ => forall_congr' (fun _ => hgroup s.barKey))), ?_, ?_⟩
  · intro hfits e h
    cases hsource : barsSource now dirty silver with
    | ok source =>
      rw [hsource] at h
      have hrun := goldMerge_keyed.run_eq_of_unique (barsSource_ok hsource).2 gold
      rw [show (Except.ok source >>= fun source => goldMerge.run source gold) = goldMerge.run source gold from rfl,
        hrun] at h
      cases h
    | error e' =>
      rw [hsource] at h
      cases h
      obtain ⟨k, hk, hgold⟩ := mapM_error hsource
      obtain ⟨s, hs, rfl⟩ := mem_groupKeys.1 hk
      obtain ⟨hs, hdirty⟩ := mem_joinDirty.1 hs
      rw [goldOf_joinDirty now hdirty] at hgold
      unfold goldOf at hgold
      cases hbar : barOf (groupRows SilverRow.barKey s.barKey silver) with
      | ok bar =>
        rw [hbar] at hgold
        cases hgold
      | error e' =>
        rw [hbar] at hgold
        cases hgold
        exact barOf_eq_error hbar ((hgroup s.barKey).2 (hfits s hs hdirty))
  · intro hno
    cases hmerge : barsSource now dirty silver >>= (fun source => goldMerge.run source gold) with
    | error e => exact ⟨e, rfl⟩
    | ok gold' =>
      obtain ⟨source, hsource, -⟩ := bind_ok hmerge
      refine absurd (fun s hs hdirty => ?_) hno
      obtain ⟨g, -, hgold⟩ := barsSource_covers hsource hs hdirty
      obtain ⟨first, last, products, hcomputed⟩ := barOf_ok (goldOf_ok hgold).2.2
      exact (hgroup s.barKey).1 hcomputed.measured

/-- A valid trade of `10^10` at `10^10`. -/
def largeTrade : BronzeRow := { firstTrade with price := some "10000000000", size := some "10000000000" }

def largeSilver : List SilverRow := (mergeSilverTrades 1728000900000 1 [largeTrade] []).toOption.getD []

theorem large_trade_wedges_gold : mergeSilverTrades 1728000900000 1 [largeTrade] [] = .ok largeSilver ∧
    (∀ s ∈ largeSilver, s.Admitted) ∧ ¬ (∀ s ∈ largeSilver, rebuilt (dirtyFromBronze 1728000900000 1 [largeTrade]) s.barKey = true →
      Measured (groupRows SilverRow.barKey s.barKey largeSilver)) ∧
    mergeGoldBars1m 1728000900000 1 [largeTrade] largeSilver [] = .error .numericValueOutOfRange := by
  have hproducts : ∃ s ∈ largeSilver, rebuilt (dirtyFromBronze 1728000900000 1 [largeTrade]) s.barKey = true ∧
      (groupRows SilverRow.barKey s.barKey largeSilver).mapM productOf = .error .numericValueOutOfRange := by decide +kernel
  have hmerge : mergeSilverTrades 1728000900000 1 [largeTrade] [] = .ok largeSilver := by decide +kernel
  refine ⟨hmerge, mergeSilverTrades_admitted (fun s hs => by cases hs) hmerge, fun h => ?_, by decide +kernel⟩
  obtain ⟨s, hs, hdirty, hfails⟩ := hproducts
  obtain ⟨products, hmul, -⟩ := (h s hs hdirty).notional
  rw [hfails] at hmul
  cases hmul

def firstSilver : List SilverRow := (mergeSilverTrades 1728000900000 1 [firstTrade] []).toOption.getD []

/-- The first trade is admitted, and the statement commits its bar. -/
theorem mergeGold_measures_iff_firstTrade :
    (∀ s ∈ firstSilver, rebuilt (dirtyFromBronze 1728000900000 1 [firstTrade]) s.barKey = true →
      Measured (groupRows SilverRow.barKey s.barKey firstSilver)) ↔
    BarsFit (dirtyFromBronze 1728000900000 1 [firstTrade]) firstSilver := by
  have hmerge : mergeSilverTrades 1728000900000 1 [firstTrade] [] = .ok firstSilver := by decide +kernel
  exact (mergeGold_measures_iff 1728000900000 1 [firstTrade]
    (mergeSilverTrades_admitted (fun s hs => by cases hs) hmerge) []).1

end Awsnative
