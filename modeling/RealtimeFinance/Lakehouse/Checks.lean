import RealtimeFinance.Lakehouse.Transforms
import RealtimeFinance.Sql.GroupBy
import RealtimeFinance.Sql.RowNumber
/-!
# Checks — `lakehouse.trades.checks`

`find_immutability_violations` looks for a `(venue, trade_id)` whose rows disagree.  It looks in `silver_trades`, which
`cdc_trades_stream` keys by the same pair: a table that holds one row of each key has nothing to disagree with, whatever
the stream said (`findImmutabilityViolations_eq_nil`).
-/
namespace Lakehouse

open Sql

def SilverTrade.key (t : SilverTrade) : Option String × Option String := (t.venue, t.tradeId)

/-- The immutable facts. -/
def SilverTrade.facts (t : SilverTrade) : Option Int × Option (Decimal 38 18) × Option (Decimal 38 18) :=
  (t.eventTsUs, t.price, t.size)

/-! ## The check -/

structure Violation where
  venue : Option String
  tradeId : Option String
  distinctEventTs : Nat
  distinctPrice : Nat
  distinctSize : Nat
  deriving DecidableEq

def Violation.key (v : Violation) : Option String × Option String := (v.venue, v.tradeId)

/-- One row of the aggregation. -/
def violationOf (df : List SilverTrade) (k : Option String × Option String) : Violation :=
  let rows := groupRows SilverTrade.key k df
  { venue := k.1, tradeId := k.2, distinctEventTs := countDistinct (rows.map (·.eventTsUs))
    distinctPrice := countDistinct (rows.map (·.price)), distinctSize := countDistinct (rows.map (·.size)) }

/-- `HAVING`. -/
def Violation.disagrees (v : Violation) : Bool :=
  decide (1 < v.distinctEventTs) || decide (1 < v.distinctPrice) || decide (1 < v.distinctSize)

/-- `find_immutability_violations`, of which `IMMUTABILITY_SQL` is the text over `fdai.market.silver_trades`. -/
def findImmutabilityViolations (df : List SilverTrade) : List Violation :=
  ((groupKeys SilverTrade.key df).map (violationOf df)).filter Violation.disagrees

/-! ## The table -/

/-- A stream of valid records, in whatever order they come. -/
structure TradeStream where
  records : List SilverTrade
  valid : ∀ t ∈ records, ∃ now r, quarantineReason now r = none ∧ t = silverTrade r

/-- **`silver_trades` after the stream**: AUTO CDC of SCD type 1 leaves one row of each key, a record of it that no other
follows in `event_ts_us`. -/
structure SilverTrades (stream : TradeStream) where
  rows : List SilverTrade
  unique : (rows.map SilverTrade.key).Nodup
  covers : ∀ t ∈ stream.records, ∃ row ∈ rows, row.key = t.key
  applied : ∀ row ∈ rows, row ∈ stream.records
  last : ∀ row ∈ rows, ∀ t ∈ stream.records, t.key = row.key → ∀ e e', t.eventTsUs = some e → row.eventTsUs = some e' →
    e ≤ e'

/-- Rows of the stream from the last instant on. -/
def sequenceBy (t : SilverTrade) : Option Int := t.eventTsUs.map (fun e => -e)

theorem covers_latest {records : List SilverTrade} {t : SilverTrade} (ht : t ∈ records) :
    ∃ row ∈ rowNumberOne SilverTrade.key sequenceBy records, row.key = t.key := by
  obtain ⟨row, hrow, hkey, -⟩ := rowNumberOne_covers SilverTrade.key sequenceBy records t ht
  exact ⟨row, hrow, hkey⟩

theorem le_latest {records : List SilverTrade} {row t : SilverTrade}
    (hrow : row ∈ rowNumberOne SilverTrade.key sequenceBy records) (ht : t ∈ records) (hkey : t.key = row.key)
    {e e' : Int} (he : t.eventTsUs = some e) (he' : row.eventTsUs = some e') : e ≤ e' := by
  obtain ⟨first, hfirst, hfkey, hle⟩ := rowNumberOne_covers SilverTrade.key sequenceBy records t ht
  rw [eq_of_mem_rowNumberOne _ _ hfirst hrow (hfkey.trans hkey)] at hle
  unfold sequenceBy at hle
  rw [he, he'] at hle
  simp only [Option.map_some, ltNullsLast, decide_eq_false_iff_not] at hle
  omega

/-- Such a table exists: of each key the row numbered 1 from the last instant on. -/
def SilverTrades.latest (stream : TradeStream) : SilverTrades stream where
  rows := rowNumberOne SilverTrade.key sequenceBy stream.records
  unique := rowNumberOne_nodup _ _ _
  covers := fun _ ht => covers_latest ht
  applied := fun _ hrow => mem_of_mem_rowNumberOne _ _ hrow
  last := fun _ hrow _ ht hkey _ _ he he' => le_latest hrow ht hkey he he'

/-! ## What the check sees -/

theorem violationOf_quiet {df : List SilverTrade} (hu : (df.map SilverTrade.key).Nodup)
    (k : Option String × Option String) : (violationOf df k).disagrees = false := by
  have hgroup := length_groupRows_le_one hu k
  have hevent := countDistinct_le ((groupRows SilverTrade.key k df).map (·.eventTsUs))
  have hprice := countDistinct_le ((groupRows SilverTrade.key k df).map (·.price))
  have hsize := countDistinct_le ((groupRows SilverTrade.key k df).map (·.size))
  rw [List.length_map] at hevent hprice hsize
  unfold Violation.disagrees violationOf
  simp only [Bool.or_eq_false_iff, decide_eq_false_iff_not]
  omega

/-- **A table of unique keys has no violation.** -/
theorem findImmutabilityViolations_eq_nil {df : List SilverTrade} (hu : (df.map SilverTrade.key).Nodup) :
    findImmutabilityViolations df = [] := by
  unfold findImmutabilityViolations
  rw [List.filter_eq_nil_iff]
  intro v hv
  obtain ⟨k, -, rfl⟩ := List.mem_map.1 hv
  rw [violationOf_quiet hu k]
  exact Bool.false_ne_true

/-- No two records of one key disagree. -/
def Immutable (records : List SilverTrade) : Prop :=
  ∀ t ∈ records, ∀ t' ∈ records, t.key = t'.key → t.facts = t'.facts

/-- **The check is complete**: it returns every key whose records disagree, and nothing when they all agree. -/
structure CheckComplete (records df : List SilverTrade) : Prop where
  fires : ∀ t ∈ records, ∀ t' ∈ records, t.key = t'.key → t.facts ≠ t'.facts →
    t.key ∈ (findImmutabilityViolations df).map Violation.key
  quiet : Immutable records → findImmutabilityViolations df = []

/-- **The check is complete of the streams it has nothing to find in**, and of no other. -/
theorem checkComplete_iff (stream : TradeStream) (table : SilverTrades stream) :
    CheckComplete stream.records table.rows ↔ Immutable stream.records := by
  have hnil := findImmutabilityViolations_eq_nil table.unique
  constructor
  · intro hcomplete t ht t' ht' hkey
    by_contra hne
    have hfound := hcomplete.fires t ht t' ht' hkey hne
    rw [hnil] at hfound
    cases hfound
  · intro himmutable
    exact ⟨fun t ht t' ht' hkey hne => absurd (himmutable t ht t' ht' hkey) hne, fun _ => hnil⟩

/-! ## A trade that comes again at another price -/

def pricedTrade (price : String) : BronzeTrade :=
  { venue := some "binance", venueSymbol := some "BTCUSDT", instrumentId := some "BTC-USDT", tradeId := some "1"
    eventTsUs := some 1700000000000000, ingestTsUs := some 1700000000000000, price := some price, size := some "0.25"
    side := some "BUY", sequence := none, isBackfill := some false, source := some "stream"
    kafka := { value := none, key := none, topic := none, partition := none, offset := none, timestamp := none }
    ingestedAt := 1700000000000000 }

theorem pricedTrade_valid : quarantineReason 1700000000000000 (pricedTrade "100.5") = none ∧
    quarantineReason 1700000000000000 (pricedTrade "999.0") = none := by decide +kernel

def repricedStream : TradeStream where
  records := [silverTrade (pricedTrade "100.5"), silverTrade (pricedTrade "999.0")]
  valid := fun t ht => by
    simp only [List.mem_cons, List.not_mem_nil, or_false] at ht
    rcases ht with rfl | rfl
    · exact ⟨_, _, pricedTrade_valid.1, rfl⟩
    · exact ⟨_, _, pricedTrade_valid.2, rfl⟩

/-- **A price that was overwritten is not found.** -/
theorem repricedTrade_is_not_found :
    ¬ CheckComplete repricedStream.records (SilverTrades.latest repricedStream).rows := by
  intro hcomplete
  have hcopies : (silverTrade (pricedTrade "100.5")).key = (silverTrade (pricedTrade "999.0")).key ∧
      (silverTrade (pricedTrade "100.5")).facts ≠ (silverTrade (pricedTrade "999.0")).facts := by decide +kernel
  have hfound := hcomplete.fires (silverTrade (pricedTrade "100.5")) List.mem_cons_self
    (silverTrade (pricedTrade "999.0")) (List.mem_cons_of_mem _ List.mem_cons_self) hcopies.1 hcopies.2
  rw [findImmutabilityViolations_eq_nil (SilverTrades.latest repricedStream).unique] at hfound
  cases hfound

end Lakehouse
