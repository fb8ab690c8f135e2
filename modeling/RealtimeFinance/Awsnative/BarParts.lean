import Mathlib.Data.String.Basic
import RealtimeFinance.Sql.BestBy
import RealtimeFinance.Awsnative.GoldFidelity
/-!
# BarParts — what the bar of a group is made of

`bars` in `merge_gold_bars_1m.sql` computes two scans and four measures.  `barOf_ok` unpacks a bar that was computed,
`barOf_eq_error` a bar that was not: a measure left its type, or a scan compared a NULL.
-/
namespace Awsnative

open Sql

/-- `max_by(…, ROW(event_ts_us, trade_id))` compares the other way round. -/
def rowGt (a b : SilverRow) : Except Error Bool := rowLt b a

theorem rowLt_eq_true {a b : SilverRow} : rowLt a b = .ok true ↔
    ∃ x y, a.eventTsUs = some x ∧ b.eventTsUs = some y ∧
      (x < y ∨ x = y ∧ ∃ s t, a.tradeId = some s ∧ b.tradeId = some t ∧ s < t) := by
  unfold rowLt
  cases a.eventTsUs with
  | none => simp
  | some x =>
    cases b.eventTsUs with
    | none => simp
    | some y =>
      rcases Int.lt_trichotomy x y with hlt | rfl | hgt
      · simp [hlt]
      · cases a.tradeId <;> cases b.tradeId <;> simp
      · simp [Int.not_lt.2 (Int.le_of_lt hgt), hgt, Int.ne_of_gt hgt]

theorem rowLt_eq_false {a b : SilverRow} : rowLt a b = .ok false ↔
    ∃ x y, a.eventTsUs = some x ∧ b.eventTsUs = some y ∧
      (y < x ∨ x = y ∧ ∃ s t, a.tradeId = some s ∧ b.tradeId = some t ∧ t ≤ s) := by
  unfold rowLt
  cases a.eventTsUs with
  | none => simp
  | some x =>
    cases b.eventTsUs with
    | none => simp
    | some y =>
      rcases Int.lt_trichotomy x y with hlt | rfl | hgt
      · simp [hlt, Int.not_lt.2 (Int.le_of_lt hlt), Int.ne_of_lt hlt]
      · cases a.tradeId with
        | none => simp
        | some s =>
          cases b.tradeId with
          | none => simp
          | some t =>
            simp only [Int.lt_irrefl, if_false, Except.ok.injEq, decide_eq_false_iff_not, not_lt]
            simp
      · simp [Int.not_lt.2 (Int.le_of_lt hgt), hgt]

/-- **The tie-break ranks the rows it compares.** -/
theorem rowLt_ranks : Ranks rowLt where
  asymm h := by
    obtain ⟨x, y, ha, hb, hlt⟩ := rowLt_eq_true.1 h
    refine rowLt_eq_false.2 ⟨y, x, hb, ha, ?_⟩
    rcases hlt with hlt | ⟨rfl, s, t, hs, ht, hlt⟩
    · exact Or.inl hlt
    · exact Or.inr ⟨rfl, t, s, ht, hs, le_of_lt hlt⟩
  comparable {a b x} h := by
    cases x with
    | true =>
      obtain ⟨x, y, ha, hb, hlt⟩ := rowLt_eq_true.1 h
      refine ⟨false, rowLt_eq_false.2 ⟨y, x, hb, ha, ?_⟩⟩
      rcases hlt with hlt | ⟨rfl, s, t, hs, ht, hlt⟩
      · exact Or.inl hlt
      · exact Or.inr ⟨rfl, t, s, ht, hs, le_of_lt hlt⟩
    | false =>
      obtain ⟨x, y, ha, hb, hle⟩ := rowLt_eq_false.1 h
      rcases hle with hlt | ⟨rfl, s, t, hs, ht, hle⟩
      · exact ⟨true, rowLt_eq_true.2 ⟨y, x, hb, ha, Or.inl hlt⟩⟩
      · rcases lt_or_eq_of_le hle with hlt | rfl
        · exact ⟨true, rowLt_eq_true.2 ⟨x, x, hb, ha, Or.inr ⟨rfl, t, s, ht, hs, hlt⟩⟩⟩
        · exact ⟨false, rowLt_eq_false.2 ⟨x, x, hb, ha, Or.inr ⟨rfl, t, t, ht, hs, le_refl t⟩⟩⟩
  trans {a b c} hab hbc := by
    obtain ⟨x, y, ha, hb, hyx⟩ := rowLt_eq_false.1 hab
    obtain ⟨y', z, hb', hc, hzy⟩ := rowLt_eq_false.1 hbc
    obtain rfl : y = y' := Option.some.inj (hb.symm.trans hb')
    refine rowLt_eq_false.2 ⟨x, z, ha, hc, ?_⟩
    rcases hyx with hyx | ⟨rfl, s, t, hs, ht, hts⟩
    · rcases hzy with hzy | ⟨rfl, -⟩
      · exact Or.inl (Int.lt_trans hzy hyx)
      · exact Or.inl hyx
    · rcases hzy with hzy | ⟨rfl, t', u, ht', hu, hut⟩
      · exact Or.inl hzy
      · obtain rfl : t = t' := Option.some.inj (ht.symm.trans ht')
        exact Or.inr ⟨rfl, s, u, hs, hu, le_trans hut hts⟩

theorem rowGt_ranks : Ranks rowGt := rowLt_ranks.flip

/-! ## The measures -/

/-- **Every cast, product and sum of the measures stays within its type.** -/
structure Measured (rows : List SilverRow) : Prop where
  volume : ∃ volume, sumDecimal (rows.filterMap SilverRow.size) = .ok volume
  notional : ∃ products, rows.mapM productOf = .ok products ∧ ∃ notional, sumDecimal (products.filterMap id) = .ok notional
  buyVol : ∃ buyVol, sumDecimal (rows.filterMap (sizeIfSide "BUY")) = .ok buyVol
  sellVol : ∃ sellVol, sumDecimal (rows.filterMap (sizeIfSide "SELL")) = .ok sellVol

/-- What is computed of a group. -/
structure Computed (rows : List SilverRow) (bar : Bar) (first last : Option SilverRow)
    (products : List (Option (Decimal 38 18))) : Prop where
  scansFirst : bestBy rowLt rows = .ok first
  scansLast : bestBy rowGt rows = .ok last
  opening : bar.opening = first.bind SilverRow.price
  close : bar.close = last.bind SilverRow.price
  high : bar.high = maxDecimal (rows.filterMap SilverRow.price)
  low : bar.low = minDecimal (rows.filterMap SilverRow.price)
  volume : sumDecimal (rows.filterMap SilverRow.size) = .ok bar.volume
  multiplies : rows.mapM productOf = .ok products
  notional : sumDecimal (products.filterMap id) = .ok bar.notional
  buyVol : sumDecimal (rows.filterMap (sizeIfSide "BUY")) = .ok bar.buyVol
  sellVol : sumDecimal (rows.filterMap (sizeIfSide "SELL")) = .ok bar.sellVol
  tradeCount : bar.tradeCount = some (rows.length : Int)

/-- **A bar that was computed, unpacked.** -/
theorem barOf_ok {rows : List SilverRow} {bar : Bar} (h : barOf rows = .ok bar) :
    ∃ first last products, Computed rows bar first last products := by
  obtain ⟨first, hfirst, h⟩ := bind_ok h
  obtain ⟨last, hlast, h⟩ := bind_ok h
  obtain ⟨volume, hvolume, h⟩ := bind_ok h
  obtain ⟨products, hproducts, h⟩ := bind_ok h
  obtain ⟨notional, hnotional, h⟩ := bind_ok h
  obtain ⟨buyVol, hbuyVol, h⟩ := bind_ok h
  obtain ⟨sellVol, hsellVol, h⟩ := bind_ok h
  cases h
  exact ⟨first, last, products, hfirst, hlast, rfl, rfl, rfl, rfl, hvolume, hproducts, hnotional, hbuyVol, hsellVol, rfl⟩

theorem Computed.measured {rows : List SilverRow} {bar : Bar} {first last : Option SilverRow}
    {products : List (Option (Decimal 38 18))} (h : Computed rows bar first last products) : Measured rows where
  volume := ⟨bar.volume, h.volume⟩
  notional := ⟨products, h.multiplies, bar.notional, h.notional⟩
  buyVol := ⟨bar.buyVol, h.buyVol⟩
  sellVol := ⟨bar.sellVol, h.sellVol⟩

/-- **Two scans and the measures make a bar.** -/
theorem barOf_of_measured {rows : List SilverRow} {first last : Option SilverRow} (hfirst : bestBy rowLt rows = .ok first)
    (hlast : bestBy rowGt rows = .ok last) (h : Measured rows) : ∃ bar, barOf rows = .ok bar := by
  obtain ⟨⟨volume, hvolume⟩, ⟨products, hproducts, notional, hnotional⟩, ⟨buyVol, hbuyVol⟩, sellVol, hsellVol⟩ := h
  have hlast' : bestBy (fun a b => rowLt b a) rows = .ok last := hlast
  unfold barOf
  rw [hfirst, hlast', hvolume, hproducts]
  show ∃ bar, (sumDecimal (products.filterMap id) >>= fun notional => _) = .ok bar
  rw [hnotional, hbuyVol, hsellVol]
  exact ⟨_, rfl⟩

theorem bestBy_error {lt : SilverRow → SilverRow → Except Error Bool} {e : Error}
    (hlt : ∀ a b e', lt a b = .error e' → e' = e) : ∀ {rs : List SilverRow} {r : SilverRow} {e' : Error},
      bestBy lt (r :: rs) = .error e' → e' = e
  | [], r, e', h => by cases h
  | s :: rs, r, e', h => by
    rw [bestBy_cons_cons] at h
    cases hs : lt s r with
    | error e'' =>
      rw [hs] at h
      cases h
      exact hlt s r _ hs
    | ok before =>
      rw [hs] at h
      exact bestBy_error hlt h

theorem rowLt_error {a b : SilverRow} {e : Error} (h : rowLt a b = .error e) : e = .rowComparisonOfNull := by
  unfold rowLt at h
  split at h
  · split at h
    · cases h
    · split at h
      · cases h
      · split at h
        · cases h
        · cases h
          rfl
  · cases h
    rfl

theorem scan_error {lt : SilverRow → SilverRow → Except Error Bool}
    (hlt : ∀ a b e', lt a b = .error e' → e' = .rowComparisonOfNull) {rows : List SilverRow} {e : Error}
    (h : bestBy lt rows = .error e) : e = .rowComparisonOfNull := by
  cases rows with
  | nil => cases h
  | cons r rs => exact bestBy_error hlt h

/-- **A bar whose measures fit fails at a NULL alone.** -/
theorem barOf_eq_error {rows : List SilverRow} {e : Error} (h : barOf rows = .error e) (hm : Measured rows) :
    e = .rowComparisonOfNull := by
  cases hfirst : bestBy rowLt rows with
  | error e' =>
    unfold barOf at h
    rw [hfirst] at h
    cases h
    exact scan_error (fun _ _ _ => rowLt_error) hfirst
  | ok first =>
    cases hlast : bestBy rowGt rows with
    | error e' =>
      have hlast' : bestBy (fun a b => rowLt b a) rows = .error e' := hlast
      unfold barOf at h
      rw [hfirst, hlast'] at h
      cases h
      exact scan_error (fun _ _ _ => rowLt_error) hlast
    | ok last =>
      obtain ⟨bar, hbar⟩ := barOf_of_measured hfirst hlast hm
      rw [hbar] at h
      cases h

end Awsnative
