import RealtimeFinance.Sql.GroupBy
import RealtimeFinance.Awsnative.SilverTrades
/-!
# GoldBars — the two writers of `gold_bars_1m`

`mergeGoldBars1m` rebuilds the bars of the `(instrument_id, day)` partitions that `dirtyFromBronze` names, from all of
their Silver rows; `mergeGoldFromArchive` writes the deep tier's klines and leaves every bar derived from trades alone.
`power(ln(close / open), 2)` is a double and stands here as the pair it is computed from.
-/
namespace Awsnative

open Sql

inductive SourceTier
  | derivedFromTrades
  | archiveKline
  deriving DecidableEq

inductive SqLogReturn
  | zero
  | squaredLnRatio (close opening : Decimal 38 18)
  deriving DecidableEq

structure Bar where
  opening : Option (Decimal 38 18)
  high : Option (Decimal 38 18)
  low : Option (Decimal 38 18)
  close : Option (Decimal 38 18)
  volume : Option (Decimal 38 18)
  notional : Option (Decimal 38 18)
  buyVol : Option (Decimal 38 18)
  sellVol : Option (Decimal 38 18)
  sqLogReturn : SqLogReturn
  tradeCount : Option Int
  venueCoverage : Nat
  deriving DecidableEq

structure GoldRow where
  instrumentId : Option String
  windowEndTs : Option Int
  bar : Bar
  sourceTier : SourceTier
  updatedTs : Int
  deriving DecidableEq

abbrev BarKey := Option String × Option Int

def GoldRow.key (g : GoldRow) : BarKey := (g.instrumentId, g.windowEndTs)

def fullBarKey (k : BarKey) : Bool := k.1.isSome && k.2.isSome

/-! ## The bars computation -/

def SilverRow.barKey (s : SilverRow) : BarKey := (s.instrumentId, s.eventTs.map (fun t => truncMinute t + microsPerMinute))

/-- `ROW(event_ts_us, trade_id)`, compared field by field; a NULL field reached fails the statement. -/
def rowLt (a b : SilverRow) : Except Error Bool :=
  match a.eventTsUs, b.eventTsUs with
  | some x, some y =>
    if x < y then .ok true
    else if y < x then .ok false
    else match a.tradeId, b.tradeId with
      | some s, some t => .ok (decide (s < t))
      | _, _           => .error .rowComparisonOfNull
  | _, _ => .error .rowComparisonOfNull

def productOf (s : SilverRow) : Except Error (Option (Decimal 38 18)) :=
  match s.price, s.size with
  | some p, some z => do
    let p ← p.cast 29 9
    let z ← z.cast 29 9
    match Decimal.ofUnscaled 38 18 (p.unscaled * z.unscaled) with
    | some d => .ok (some d)
    | none   => .error .numericValueOutOfRange
  | _, _ => .ok none

def zeroDecimal : Decimal 38 18 := ⟨0, by decide⟩

/-- `IF(s.side = '…', s."size", DECIMAL '0')`. -/
def sizeIfSide (side : String) (s : SilverRow) : Option (Decimal 38 18) :=
  if equals s.side (some side) = some true then s.size else some zeroDecimal

def sqLogReturnOf (opening close : Option (Decimal 38 18)) : SqLogReturn :=
  match opening, close with
  | some o, some c => if 0 < o.unscaled ∧ 0 < c.unscaled then .squaredLnRatio c o else .zero
  | _, _           => .zero

def barOf (rows : List SilverRow) : Except Error Bar := do
  let first ← bestBy rowLt rows
  let last ← bestBy (fun a b => rowLt b a) rows
  let volume ← sumDecimal (rows.filterMap SilverRow.size)
  let products ← rows.mapM productOf
  let notional ← sumDecimal (products.filterMap id)
  let buyVol ← sumDecimal (rows.filterMap (sizeIfSide "BUY"))
  let sellVol ← sumDecimal (rows.filterMap (sizeIfSide "SELL"))
  let opening := first.bind SilverRow.price
  let close := last.bind SilverRow.price
  return { opening, high := maxDecimal (rows.filterMap SilverRow.price)
           low := minDecimal (rows.filterMap SilverRow.price), close, volume, notional, buyVol, sellVol
           sqLogReturn := sqLogReturnOf opening close, tradeCount := some rows.length
           venueCoverage := countDistinct (rows.map SilverRow.venue) }

def goldOf (now : Int) (silver : List SilverRow) (k : BarKey) : Except Error GoldRow := do
  let bar ← barOf (groupRows SilverRow.barKey k silver)
  return { instrumentId := k.1, windowEndTs := k.2, bar, sourceTier := .derivedFromTrades, updatedTs := now }

/-! ## The stream's writer -/

abbrev Partition := Option String × Int

/-- `fragments/dirty_from_bronze.sql`. -/
def dirtyFromBronze (now : Int) (lookbackDays : Nat) (bronze : List BronzeRow) : List Partition :=
  (bronze.filterMap (fun b => do
    let us ← b.eventTsUs
    if inWindow now lookbackDays b ∧ 1500000000000000 ≤ us ∧ us ≤ 1900000000000000
    then some (b.instrumentId, millisDate (fromUnixtime (divDecimal us 0 10000000 1) 1)) else none)).dedup

/-- `ON s.instrument_id = d.instrument_id AND CAST(s.event_ts AS DATE) = d.dt`. -/
def inPartition (s : SilverRow) (d : Partition) : Bool :=
  decide (and3 (equals s.instrumentId d.1) (equals (s.eventTs.map microsDate) (some d.2)) = some true)

/-- `silver_trades s JOIN dirty d`: the dirty rows are distinct, so the join keeps a row once or not at all. -/
def joinDirty (dirty : List Partition) (silver : List SilverRow) : List SilverRow :=
  silver.filter (fun s => dirty.any (inPartition s))

/-- `WHEN MATCHED`: every column but the key is set. -/
def setBar (s g : GoldRow) : GoldRow := { g with bar := s.bar, sourceTier := s.sourceTier, updatedTs := s.updatedTs }

def goldOn (s g : GoldRow) : Option Bool :=
  and3 (equals g.instrumentId s.instrumentId) (equals g.windowEndTs s.windowEndTs)

def goldMerge : MergeInto GoldRow where
  on := goldOn
  whenMatched := setBar

def mergeGoldBars1m (now : Int) (lookbackDays : Nat) (bronze : List BronzeRow) (silver : List SilverRow)
    (gold : List GoldRow) : Except Error (List GoldRow) := do
  let joined := joinDirty (dirtyFromBronze now lookbackDays bronze) silver
  let source ← (groupKeys SilverRow.barKey joined).mapM (goldOf now joined)
  goldMerge.run source gold

/-! ## The archive's writer -/

structure StagedKline where
  instrumentId : Option String
  openTimeUs : Option String
  opening : Option String
  high : Option String
  low : Option String
  close : Option String
  volume : Option String
  quoteVolume : Option String
  tradeCount : Option String
  takerBuyBaseVolume : Option String
  deriving DecidableEq

def klineWindowEnd (openTimeUs : Int) : Int := truncMinute (timestampOf openTimeUs) + microsPerMinute

def subDecimal (a b : Option (Decimal 38 18)) : Except Error (Option (Decimal 38 18)) :=
  match a, b with
  | some x, some y => match Decimal.ofUnscaled 38 18 (x.unscaled - y.unscaled) with
    | some d => .ok (some d)
    | none   => .error .numericValueOutOfRange
  | _, _ => .ok none

/-- The `SELECT` lists of `merge_gold_from_archive.sql`, with the column its `row_number()` orders by. -/
def klineRow (now : Int) (k : StagedKline) : Except Error (Option Int × GoldRow) := do
  let openTime ← castBigint k.openTimeUs
  let opening ← castDecimal 38 18 k.opening
  let high ← castDecimal 38 18 k.high
  let low ← castDecimal 38 18 k.low
  let close ← castDecimal 38 18 k.close
  let volume ← castDecimal 38 18 k.volume
  let notional ← castDecimal 38 18 k.quoteVolume
  let buyVol ← castDecimal 38 18 k.takerBuyBaseVolume
  let sellVol ← subDecimal volume buyVol
  let tradeCount ← castBigint k.tradeCount
  let bar : Bar := { opening, high, low, close, volume, notional, buyVol, sellVol
                     sqLogReturn := sqLogReturnOf opening close, tradeCount, venueCoverage := 1 }
  return (openTime, { instrumentId := k.instrumentId, windowEndTs := openTime.map klineWindowEnd, bar
                      sourceTier := .archiveKline, updatedTs := now })

/-- `WHEN MATCHED AND g.source_tier <> 'DERIVED_FROM_TRADES'`. -/
def goldArchiveMerge : MergeInto GoldRow where
  on := goldOn
  whenMatched s g := if g.sourceTier = .derivedFromTrades then g else setBar s g

def mergeGoldFromArchive (now : Int) (staging : List StagedKline) (gold : List GoldRow) :
    Except Error (List GoldRow) := do
  let rows ← staging.mapM (fun k => do return ((k.instrumentId, k.openTimeUs), ← klineRow now k))
  goldArchiveMerge.run ((rowNumberOne Prod.fst (fun r => r.2.1) rows).map (fun r => r.2.2)) gold

end Awsnative
