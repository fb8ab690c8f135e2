import RealtimeFinance.Awsnative.PerpContext
import RealtimeFinance.Awsnative.SilverTrades
import RealtimeFinance.Sql.Printed
/-!
# SilverPerp — `merge_silver_perp_context.sql`

The inner query casts the text columns of the window and numbers the rows of an instrument's grid point by the poll
instant; the statement inserts the first where Silver has none.  Every row it adds is what it makes of one Bronze row
(`mem_mergeSilverPerpContext`).
-/
namespace Awsnative

open Sql Python

/-- A row of `bronze_perp_context`: a line as the SerDe reads it by column name, and its partition. -/
structure BronzePerpRow where
  line : Dict String
  ingestDate : Int
  deriving DecidableEq

def BronzePerpRow.column (b : BronzePerpRow) (name : String) : Option String := Dict.get? b.line name

structure SilverPerpRow where
  instrumentId : Option String
  venue : Option String
  venueSymbol : Option String
  snapshotTs : Option Int
  snapshotTsUs : Option Int
  knowledgeTsUs : Option Int
  markPrice : Option (Decimal 38 18)
  indexPrice : Option (Decimal 38 18)
  fundingRate : Option (Decimal 38 18)
  interestRate : Option (Decimal 38 18)
  nextFundingTs : Option Int
  openInterest : Option (Decimal 38 18)
  toptraderLongAccounts : Option (Decimal 38 18)
  toptraderShortAccounts : Option (Decimal 38 18)
  toptraderRatioAccounts : Option (Decimal 38 18)
  toptraderLongPositions : Option (Decimal 38 18)
  toptraderShortPositions : Option (Decimal 38 18)
  toptraderRatioPositions : Option (Decimal 38 18)
  globalLongAccounts : Option (Decimal 38 18)
  globalShortAccounts : Option (Decimal 38 18)
  globalRatioAccounts : Option (Decimal 38 18)
  takerBuyVol : Option (Decimal 38 18)
  takerSellVol : Option (Decimal 38 18)
  takerBuySellRatio : Option (Decimal 38 18)
  sourceTier : Option String
  deriving DecidableEq

def SilverPerpRow.key (s : SilverPerpRow) : Option String × Option Int := (s.instrumentId, s.snapshotTsUs)

/-- `try_cast(NULLIF(c, '') AS DECIMAL(38, 18))`. -/
def perpDecimal (c : Option String) : Option (Decimal 38 18) := tryCastDecimal 38 18 (nullif c "")

/-- The `SELECT` list. -/
def silverPerpOf (b : BronzePerpRow) : Except Error SilverPerpRow := do
  let snapshotTsUs ← castBigint (b.column "snapshot_ts_us")
  let knowledgeTsUs ← castBigint (b.column "poll_ts_us")
  let nextFundingTimeUs ← castBigint (nullif (b.column "next_funding_time_us") "")
  return { instrumentId := b.column "instrument_id", venue := b.column "venue", venueSymbol := b.column "venue_symbol"
           snapshotTs := snapshotTsUs.map timestampOf, snapshotTsUs, knowledgeTsUs
           markPrice := perpDecimal (b.column "mark_price")
           indexPrice := perpDecimal (b.column "index_price")
           fundingRate := perpDecimal (b.column "last_funding_rate")
           interestRate := perpDecimal (b.column "interest_rate")
           nextFundingTs := nextFundingTimeUs.map timestampOf
           openInterest := perpDecimal (b.column "open_interest")
           toptraderLongAccounts := perpDecimal (b.column "toptrader_accounts_long")
           toptraderShortAccounts := perpDecimal (b.column "toptrader_accounts_short")
           toptraderRatioAccounts := perpDecimal (b.column "toptrader_accounts_ratio")
           toptraderLongPositions := perpDecimal (b.column "toptrader_positions_long")
           toptraderShortPositions := perpDecimal (b.column "toptrader_positions_short")
           toptraderRatioPositions := perpDecimal (b.column "toptrader_positions_ratio")
           globalLongAccounts := perpDecimal (b.column "global_accounts_long")
           globalShortAccounts := perpDecimal (b.column "global_accounts_short")
           globalRatioAccounts := perpDecimal (b.column "global_accounts_ratio")
           takerBuyVol := perpDecimal (b.column "taker_volume_long")
           takerSellVol := perpDecimal (b.column "taker_volume_short")
           takerBuySellRatio := perpDecimal (b.column "taker_volume_ratio")
           sourceTier := some "LIVE_POLL" }

/-- The `WHERE` of the inner query. -/
def perpInWindow (now : Int) (lookbackDays : Nat) (b : BronzePerpRow) : Bool :=
  decide (currentDate now - lookbackDays ≤ b.ingestDate) && (b.column "instrument_id").isSome &&
    (b.column "snapshot_ts_us").isSome

/-- `PARTITION BY b.instrument_id, b.snapshot_ts_us`. -/
def perpPartition (r : BronzePerpRow × SilverPerpRow) : Option String × Option String :=
  (r.1.column "instrument_id", r.1.column "snapshot_ts_us")

def perpSource (now : Int) (lookbackDays : Nat) (bronze : List BronzePerpRow) : Except Error (List SilverPerpRow) := do
  let rows ← (bronze.filter (perpInWindow now lookbackDays)).mapM (fun b => (silverPerpOf b).map (fun s => (b, s)))
  return (rowNumberOne perpPartition (fun r => r.2.knowledgeTsUs) rows).map Prod.snd

/-- `ON t.instrument_id = s.instrument_id AND t.snapshot_ts_us = s.snapshot_ts_us`, and no `WHEN MATCHED`. -/
def perpMerge : MergeInto SilverPerpRow where
  on s t := and3 (equals t.instrumentId s.instrumentId) (equals t.snapshotTsUs s.snapshotTsUs)

def mergeSilverPerpContext (now : Int) (lookbackDays : Nat) (bronze : List BronzePerpRow) (silver : List SilverPerpRow) :
    Except Error (List SilverPerpRow) := do
  let source ← perpSource now lookbackDays bronze
  perpMerge.run source silver

/-! ## Where a row comes from -/

theorem perpSource_ok {now : Int} {lookbackDays : Nat} {bronze : List BronzePerpRow} {source : List SilverPerpRow}
    (h : perpSource now lookbackDays bronze = .ok source) {s : SilverPerpRow} (hs : s ∈ source) :
    ∃ b ∈ bronze, perpInWindow now lookbackDays b = true ∧ silverPerpOf b = .ok s := by
  obtain ⟨rows, hrows, h⟩ := bind_ok h
  cases h
  obtain ⟨r, hr, rfl⟩ := List.mem_map.1 hs
  obtain ⟨b, hb, hbr⟩ := (mapM_ok hrows).2 r (mem_of_mem_rowNumberOne _ _ hr)
  obtain ⟨hb, hwindow⟩ := List.mem_filter.1 hb
  cases hsel : silverPerpOf b with
  | error e => rw [hsel] at hbr; cases hbr
  | ok s =>
    rw [hsel] at hbr
    cases hbr
    exact ⟨b, hb, hwindow, hsel⟩

/-- **Every row of Silver was there, or is one Bronze row of the window.** -/
theorem mem_mergeSilverPerpContext {now : Int} {lookbackDays : Nat} {bronze : List BronzePerpRow}
    {silver silver' : List SilverPerpRow} (h : mergeSilverPerpContext now lookbackDays bronze silver = .ok silver')
    {s : SilverPerpRow} (hs : s ∈ silver') :
    s ∈ silver ∨ ∃ b ∈ bronze, perpInWindow now lookbackDays b = true ∧ silverPerpOf b = .ok s := by
  obtain ⟨source, hsource, hrun⟩ := bind_ok h
  rw [MergeInto.run_insert (fun _ _ => rfl) hrun] at hs
  rcases List.mem_append.1 hs with hs | hs
  · exact Or.inl hs
  · exact Or.inr (perpSource_ok hsource (MergeInto.mem_inserted.1 hs).1)

/-- **A row alone in its window goes into an empty Silver** as the `SELECT` makes it. -/
theorem mergeSilverPerpContext_singleton {now : Int} {lookbackDays : Nat} {b : BronzePerpRow}
    (hb : perpInWindow now lookbackDays b = true) :
    mergeSilverPerpContext now lookbackDays [b] [] = (silverPerpOf b).map (fun s => [s]) := by
  unfold mergeSilverPerpContext perpSource
  rw [List.filter_cons_of_pos hb, List.filter_nil, List.mapM_cons, List.mapM_nil]
  cases silverPerpOf b with
  | error e => rfl
  | ok s => rfl

end Awsnative
