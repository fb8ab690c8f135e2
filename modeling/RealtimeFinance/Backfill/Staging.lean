import RealtimeFinance.Backfill.Parsers
import RealtimeFinance.Awsnative.GoldBars
/-!
# Staging — `awsnative.backfill.staging`, and the external tables that read it

The loader writes a CSV line for each row, without quoting or header; Athena's `LazySimpleSerDe` gives a line's fields to
the columns by their place, so the order the writer and the DDL share is all that tells them apart.  A field `\N` is read
as NULL.  The compression is the identity here.
-/
namespace Backfill

open Ingest Awsnative

def archiveVenue : String := "binance"

def klineFields (instrumentId : String) (bar : ArchiveKline) : List String :=
  [instrumentId, toString bar.openTimeUs, toString bar.closeTimeUs, bar.opening, bar.high, bar.low, bar.close, bar.volume
    , bar.quoteVolume, toString bar.tradeCount, bar.takerBuyBaseVolume]

def tradeFields (instrumentId venueSymbol : String) (trade : ArchiveAggTrade) : List String :=
  [instrumentId, archiveVenue, venueSymbol, toString trade.aggTradeId, trade.price, trade.quantity
    , toString trade.firstTradeId, toString trade.lastTradeId, toString trade.eventTsUs, trade.side.text]

/-- `",".join(row)`. -/
def csvLine (row : List String) : String := String.ofList (List.intercalate [','] (row.map String.toList))

def klinesCsv (instrumentId : String) (bars : List ArchiveKline) : List String :=
  bars.map (fun bar => csvLine (klineFields instrumentId bar))

def tradesCsv (instrumentId venueSymbol : String) (trades : List ArchiveAggTrade) : List String :=
  trades.map (fun trade => csvLine (tradeFields instrumentId venueSymbol trade))

/-! ## The external tables -/

def columnOf (field : String) : Option String := if field = "\\N" then none else some field

/-- `ROW FORMAT DELIMITED FIELDS TERMINATED BY ','`. -/
def lazySimpleSerDe (line : String) : List (Option String) :=
  (line.toList.splitOn ',').map (fun field => columnOf (String.ofList field))

/-- `archive_staging_klines`, columns the line does not reach NULL. -/
def stagedKline (line : String) : StagedKline :=
  let column i := ((lazySimpleSerDe line)[i]?).join
  { instrumentId := column 0, openTimeUs := column 1, opening := column 3, high := column 4, low := column 5
    close := column 6, volume := column 7, quoteVolume := column 8, tradeCount := column 9
    takerBuyBaseVolume := column 10 }

/-- `archive_staging_trades`. -/
def stagedTrade (line : String) : StagedTrade :=
  let column i := ((lazySimpleSerDe line)[i]?).join
  { instrumentId := column 0, venue := column 1, venueSymbol := column 2, aggTradeId := column 3, price := column 4
    quantity := column 5, eventTsUs := column 8, side := column 9 }

/-- What `_stage` writes for a hot-tier file, as the merge reads it. -/
def stageTrades (instrumentId venueSymbol : String) (lines : List String) : Except ParseError (List StagedTrade) :=
  (parseAggTrades lines).map (fun trades => (tradesCsv instrumentId venueSymbol trades).map stagedTrade)

/-- What `_stage` writes for a deep-tier file, as the merge reads it. -/
def stageKlines (instrumentId : String) (lines : List String) : Except ParseError (List StagedKline) :=
  (parseKlines lines).map (fun bars => (klinesCsv instrumentId bars).map stagedKline)

/-- The columns of a row written without quotes: a comma in a value starts another one. -/
def columnsOf (row : List String) : List (Option String) :=
  row.flatMap (fun value => (value.toList.splitOn ',').map (fun part => columnOf (String.ofList part)))

theorem lazySimpleSerDe_csvLine_columns {row : List String} (hne : row ≠ []) :
    lazySimpleSerDe (csvLine row) = columnsOf row := by
  unfold lazySimpleSerDe csvLine columnsOf
  rw [String.toList_ofList]
  induction row with
  | nil => exact absurd rfl hne
  | cons value rest ih =>
    cases rest with
    | nil => simp
    | cons value' rest =>
      have hsplit : (List.intercalate [','] ((value :: value' :: rest).map String.toList)).splitOn ',' =
          value.toList.splitOn ',' ++ (List.intercalate [','] ((value' :: rest).map String.toList)).splitOn ',' := by
        rw [List.map_cons, List.map_cons, List.intercalate_cons_cons, List.append_assoc]
        exact List.splitOnP_append_cons _ _ (beq_self_eq_true _)
      rw [hsplit, List.map_append, ih (List.cons_ne_nil _ _)]
      rfl

theorem columnsOf_plain {row : List String} (hplain : ∀ value ∈ row, ',' ∉ value.toList) :
    columnsOf row = row.map columnOf := by
  unfold columnsOf
  induction row with
  | nil => rfl
  | cons value rest ih =>
    have hone : value.toList.splitOn ',' = [value.toList] := List.splitOn_eq_singleton (hplain value List.mem_cons_self)
    rw [List.flatMap_cons, hone, ih (fun v hv => hplain v (List.mem_cons_of_mem _ hv))]
    simp

/-- **A line is read into the fields it was joined from.** -/
theorem lazySimpleSerDe_csvLine {row : List String} (hne : row ≠ []) (hplain : ∀ field ∈ row, ',' ∉ field.toList) :
    lazySimpleSerDe (csvLine row) = row.map columnOf := by
  rw [lazySimpleSerDe_csvLine_columns hne, columnsOf_plain hplain]

theorem comma_not_in_toString (n : Int) : ',' ∉ (toString n).toList := by
  intro h
  rcases Python.mem_toString h with h | h
  · exact absurd h (by decide)
  · exact absurd h (by decide)

theorem columnOf_toString (n : Int) : columnOf (toString n) = some (toString n) := by
  unfold columnOf
  rw [if_neg]
  intro h
  have hmem : '\\' ∈ (toString n).toList := by
    rw [h]
    decide
  rcases Python.mem_toString hmem with h | h
  · exact absurd h (by decide)
  · exact absurd h (by decide)

/-- **A staged trade is the trade that was parsed**, whatever its texts, once they are the fields of a CSV line. -/
theorem stagedTrade_csvLine {instrumentId venueSymbol : String} {trade : ArchiveAggTrade}
    (hplain : ∀ field ∈ [instrumentId, venueSymbol, trade.price, trade.quantity], ',' ∉ field.toList) :
    stagedTrade (csvLine (tradeFields instrumentId venueSymbol trade)) =
      { instrumentId := columnOf instrumentId, venue := some archiveVenue, venueSymbol := columnOf venueSymbol
        aggTradeId := some (toString trade.aggTradeId), price := columnOf trade.price
        quantity := columnOf trade.quantity, eventTsUs := some (toString trade.eventTsUs)
        side := some trade.side.text } := by
  have hfields : ∀ field ∈ tradeFields instrumentId venueSymbol trade, ',' ∉ field.toList := by
    intro field hfield
    simp only [tradeFields, List.mem_cons, List.not_mem_nil, or_false] at hfield
    rcases hfield with rfl | rfl | rfl | rfl | rfl | rfl | rfl | rfl | rfl | rfl
    · exact hplain _ (by simp)
    · decide
    · exact hplain _ (by simp)
    · exact comma_not_in_toString _
    · exact hplain _ (by simp)
    · exact hplain _ (by simp)
    · exact comma_not_in_toString _
    · exact comma_not_in_toString _
    · exact comma_not_in_toString _
    · cases trade.side <;> decide
  have hside : columnOf trade.side.text = some trade.side.text := by cases trade.side <;> decide
  have hvenue : columnOf archiveVenue = some archiveVenue := by decide
  unfold stagedTrade
  rw [lazySimpleSerDe_csvLine (by simp [tradeFields]) hfields]
  simp only [tradeFields, List.map_cons, List.map_nil, columnOf_toString, hside, hvenue]
  rfl

/-- **A staged kline is the bar that was parsed.** -/
theorem stagedKline_csvLine {instrumentId : String} {bar : ArchiveKline}
    (hplain : ∀ field ∈ [instrumentId, bar.opening, bar.high, bar.low, bar.close, bar.volume, bar.quoteVolume,
      bar.takerBuyBaseVolume], ',' ∉ field.toList) :
    stagedKline (csvLine (klineFields instrumentId bar)) =
      { instrumentId := columnOf instrumentId, openTimeUs := some (toString bar.openTimeUs)
        opening := columnOf bar.opening, high := columnOf bar.high, low := columnOf bar.low, close := columnOf bar.close
        volume := columnOf bar.volume, quoteVolume := columnOf bar.quoteVolume
        tradeCount := some (toString bar.tradeCount), takerBuyBaseVolume := columnOf bar.takerBuyBaseVolume } := by
  have hfields : ∀ field ∈ klineFields instrumentId bar, ',' ∉ field.toList := by
    intro field hfield
    simp only [klineFields, List.mem_cons, List.not_mem_nil, or_false] at hfield
    rcases hfield with rfl | rfl | rfl | rfl | rfl | rfl | rfl | rfl | rfl | rfl | rfl
    · exact hplain _ (by simp)
    · exact comma_not_in_toString _
    · exact comma_not_in_toString _
    · exact hplain _ (by simp)
    · exact hplain _ (by simp)
    · exact hplain _ (by simp)
    · exact hplain _ (by simp)
    · exact hplain _ (by simp)
    · exact hplain _ (by simp)
    · exact comma_not_in_toString _
    · exact hplain _ (by simp)
  unfold stagedKline
  rw [lazySimpleSerDe_csvLine (by simp [klineFields]) hfields]
  simp only [klineFields, List.map_cons, List.map_nil, columnOf_toString]
  rfl

end Backfill
