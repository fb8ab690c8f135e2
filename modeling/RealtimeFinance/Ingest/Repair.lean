import RealtimeFinance.Ingest.Connectors
import RealtimeFinance.Ingest.Gaps
/-!
# Repair — `BinanceConnector.repair`

One request from the first missing id on, of at most `MAX_REPAIR_BATCH` trades, and of its rows those below the id the
stream resumed at.  So a repair returns the missing trades, each once and in order, exactly when they fit in one request
(`repairsExactly_iff`).
-/
namespace Ingest

def maxRepairBatch : Nat := 1000

/-- A row of `response.json()`: with the fields that `_to_trade` reads (a REST row has no `s`), or without one of them. -/
inductive RepairRow
  | aggTrade (data : AggTrade)
  | malformed

structure RepairRequest where
  symbol : String
  fromId : Int
  limit : Nat

def repairRequest (gap : Gap) : RepairRequest where
  symbol := gap.venueSymbol
  fromId := gap.lastSeen + 1
  limit := min maxRepairBatch (max gap.missingCount 1).toNat

/-- One row, at the clock it is converted at. -/
def repairedTrade (instruments : InstrumentMap) (gap : Gap) (now : Int) : RepairRow → Option Trade
  | .malformed     => none
  | .aggTrade data =>
    if gap.nextSeen ≤ data.aggTradeId then none
    -- `symbol or data["s"]` of an empty symbol: a KeyError, and the row counts as malformed
    else if gap.venueSymbol.isEmpty then none
    else toTrade instruments now (some gap.venueSymbol) .restRepair data

/-- `BinanceConnector.repair`, over an endpoint that answers; the clock is read once a row. -/
def repair (instruments : InstrumentMap) (clock : Nat → Int) (endpoint : RepairRequest → List RepairRow) (gap : Gap) :
    List Trade :=
  (endpoint (repairRequest gap)).zipIdx.filterMap (fun row => repairedTrade instruments gap (clock row.2) row.1)

/-- The ids `first`, `first + 1`, …. -/
def idsFrom (first : Int) (count : Nat) : List Int := (List.range count).map (fun k : Nat => first + k)

/-- The ids of a gap that exist, when the newest trade is `newest`. -/
def Gap.missing (gap : Gap) (newest : Int) : List Int :=
  (idsFrom (gap.lastSeen + 1) gap.missingCount.toNat).filter (fun i => decide (i ≤ newest))

/-- What `/api/v3/aggTrades` answers of a symbol whose trade of id `i` is `trade i`: consecutive trades from `fromId` on,
fewer only when later ones do not exist yet. -/
structure AnswersAggTrades (endpoint : RepairRequest → List RepairRow) (symbol : String) (trade : Int → AggTrade)
    (newest : Int) : Prop where
  aggTradeId : ∀ i, (trade i).aggTradeId = i
  answer : ∀ fromId limit, 1 ≤ limit → limit ≤ maxRepairBatch →
    endpoint ⟨symbol, fromId, limit⟩ =
      ((idsFrom fromId limit).filter (fun i => decide (i ≤ newest))).map (fun i => .aggTrade (trade i))

/-- **The repair returns the trades of the missing ids**, each once and in increasing order. -/
def RepairsExactly (instruments : InstrumentMap) (clock : Nat → Int) (endpoint : RepairRequest → List RepairRow)
    (trade : Int → AggTrade) (newest : Int) (gap : Gap) : Prop :=
  (repair instruments clock endpoint gap).map some =
    (gap.missing newest).zipIdx.map
      (fun i => toTrade instruments (clock i.2) (some gap.venueSymbol) .restRepair (trade i.1))

/-! ## Ids -/

@[simp] theorem length_idsFrom (first : Int) (count : Nat) : (idsFrom first count).length = count := by
  simp [idsFrom]

theorem mem_idsFrom {first i : Int} {count : Nat} : i ∈ idsFrom first count ↔ first ≤ i ∧ i < first + count := by
  unfold idsFrom
  rw [List.mem_map]
  constructor
  · rintro ⟨k, hk, rfl⟩
    have := List.mem_range.1 hk
    omega
  · rintro ⟨hlo, hhi⟩
    exact ⟨(i - first).toNat, List.mem_range.2 (by omega), by omega⟩

theorem idsFrom_succ (first : Int) (count : Nat) : idsFrom first (count + 1) = idsFrom first count ++ [first + count] := by
  simp [idsFrom, List.range_succ]

/-- **Consecutive ids up to a bound are consecutive ids.** -/
theorem filter_idsFrom (first newest : Int) (count : Nat) : (idsFrom first count).filter (fun i => decide (i ≤ newest)) =
    idsFrom first (min count (newest + 1 - first).toNat) := by
  induction count with
  | zero => simp [idsFrom]
  | succ count ih =>
    rw [idsFrom_succ, List.filter_append, ih]
    by_cases h : first + (count : Int) ≤ newest
    · rw [show min (count + 1) (newest + 1 - first).toNat = min count (newest + 1 - first).toNat + 1 by omega, idsFrom_succ,
        show min count (newest + 1 - first).toNat = count by omega]
      simp [h]
    · rw [show min (count + 1) (newest + 1 - first).toNat = min count (newest + 1 - first).toNat by omega]
      simp [h]

theorem toTrade_isSome {instruments : InstrumentMap} {symbol : String} (hne : symbol.isEmpty = false)
    (hmapped : (instruments.canonical "binance" symbol).isSome = true) (now : Int) (source : Source) (data : AggTrade) :
    (toTrade instruments now (some symbol) source data).isSome = true := by
  simp [toTrade, hne, hmapped]

theorem map_some_filterMap {α β : Type} {f : α → Option β} : ∀ {xs : List α}, (∀ x ∈ xs, (f x).isSome = true) →
    (xs.filterMap f).map some = xs.map f
  | [], _ => rfl
  | x :: xs, h => by
    obtain ⟨y, hy⟩ := Option.isSome_iff_exists.1 (h x List.mem_cons_self)
    rw [List.filterMap_cons_some hy, List.map_cons, List.map_cons, hy,
      map_some_filterMap (fun x hx => h x (List.mem_cons_of_mem _ hx))]

/-! ## What one request recovers -/

section Request

variable {instruments : InstrumentMap} {clock : Nat → Int} {endpoint : RepairRequest → List RepairRow}
  {trade : Int → AggTrade} {newest : Int} {gap : Gap}

theorem missing_eq_idsFrom : gap.missing newest =
    idsFrom (gap.lastSeen + 1) (min gap.missingCount.toNat (newest - gap.lastSeen).toNat) := by
  unfold Gap.missing
  rw [filter_idsFrom, show newest + 1 - (gap.lastSeen + 1) = newest - gap.lastSeen by omega]

/-- **The answer to the request** is the first missing trades that exist, `MAX_REPAIR_BATCH` of them at most. -/
theorem endpoint_repairRequest (h : AnswersAggTrades endpoint gap.venueSymbol trade newest) (hcount : 1 ≤ gap.missingCount) :
    endpoint (repairRequest gap) = (idsFrom (gap.lastSeen + 1)
      (min maxRepairBatch (min gap.missingCount.toNat (newest - gap.lastSeen).toNat))).map
        (fun i => .aggTrade (trade i)) := by
  have hlimit : min maxRepairBatch (max gap.missingCount 1).toNat = min maxRepairBatch gap.missingCount.toNat := by
    rw [Int.max_eq_left hcount]
  have hpos : 1 ≤ min maxRepairBatch gap.missingCount.toNat := by
    unfold maxRepairBatch
    omega
  unfold repairRequest
  rw [hlimit, h.answer _ _ hpos (Nat.min_le_left _ _), filter_idsFrom,
    show newest + 1 - (gap.lastSeen + 1) = newest - gap.lastSeen by omega, Nat.min_assoc]

/-- No row of the answer is at or past the id the stream resumed at. -/
theorem repairedTrade_of_lt (hne : gap.venueSymbol.isEmpty = false) {now : Int} {data : AggTrade}
    (hlt : data.aggTradeId < gap.nextSeen) :
    repairedTrade instruments gap now (.aggTrade data) = toTrade instruments now (some gap.venueSymbol) .restRepair data := by
  simp [repairedTrade, hne, Int.not_le.2 hlt]

theorem repair_eq (h : AnswersAggTrades endpoint gap.venueSymbol trade newest) (hcount : 1 ≤ gap.missingCount)
    (hne : gap.venueSymbol.isEmpty = false) (hmapped : (instruments.canonical "binance" gap.venueSymbol).isSome = true) :
    (repair instruments clock endpoint gap).map some =
      (idsFrom (gap.lastSeen + 1) (min maxRepairBatch (min gap.missingCount.toNat (newest - gap.lastSeen).toNat))).zipIdx.map
        (fun i => toTrade instruments (clock i.2) (some gap.venueSymbol) .restRepair (trade i.1)) := by
  unfold repair
  rw [endpoint_repairRequest h hcount, List.zipIdx_map, List.filterMap_map]
  have hrow : ∀ i ∈ (idsFrom (gap.lastSeen + 1)
      (min maxRepairBatch (min gap.missingCount.toNat (newest - gap.lastSeen).toNat))).zipIdx,
      repairedTrade instruments gap (clock i.2) (.aggTrade (trade i.1)) =
        toTrade instruments (clock i.2) (some gap.venueSymbol) .restRepair (trade i.1) := by
    intro i hi
    have hid := (mem_idsFrom.1 (List.fst_mem_of_mem_zipIdx hi)).2
    refine repairedTrade_of_lt hne ?_
    rw [h.aggTradeId]
    unfold Gap.missingCount at hid hcount
    omega
  rw [map_some_filterMap]
  · exact List.map_congr_left hrow
  · intro i hi
    show (repairedTrade instruments gap (clock i.2) (.aggTrade (trade i.1))).isSome = true
    rw [hrow i hi]
    exact toTrade_isSome hne hmapped _ _ _

theorem length_repair (h : AnswersAggTrades endpoint gap.venueSymbol trade newest) (hcount : 1 ≤ gap.missingCount)
    (hne : gap.venueSymbol.isEmpty = false) (hmapped : (instruments.canonical "binance" gap.venueSymbol).isSome = true) :
    (repair instruments clock endpoint gap).length =
      min maxRepairBatch (min gap.missingCount.toNat (newest - gap.lastSeen).toNat) := by
  calc (repair instruments clock endpoint gap).length
      = ((repair instruments clock endpoint gap).map some).length := (List.length_map some).symm
    _ = _ := by rw [repair_eq h hcount hne hmapped, List.length_map, List.length_zipIdx, length_idsFrom]

theorem repair_of_isEmpty (hempty : gap.venueSymbol.isEmpty = true) : repair instruments clock endpoint gap = [] := by
  unfold repair
  rw [List.filterMap_eq_nil_iff]
  intro row _
  cases hrow : row.1 with
  | malformed => rfl
  | aggTrade data => simp [repairedTrade, hempty]

end Request

/-- How many missing trades one repair can return. -/
def servable (gap : Gap) : Nat := if gap.venueSymbol.isEmpty then 0 else maxRepairBatch

/-- **A repair is exact exactly when the missing trades fit in one request.** -/
theorem repairsExactly_iff (instruments : InstrumentMap) (clock : Nat → Int) (endpoint : RepairRequest → List RepairRow)
    (trade : Int → AggTrade) (newest : Int) (gap : Gap) (hcount : 1 ≤ gap.missingCount)
    (hmapped : (instruments.canonical "binance" gap.venueSymbol).isSome = true)
    (h : AnswersAggTrades endpoint gap.venueSymbol trade newest) :
    RepairsExactly instruments clock endpoint trade newest gap ↔ (gap.missing newest).length ≤ servable gap := by
  unfold RepairsExactly servable
  by_cases hempty : gap.venueSymbol.isEmpty = true
  · rw [repair_of_isEmpty hempty, if_pos hempty, Nat.le_zero, List.length_eq_zero_iff]
    constructor
    · intro heq
      simpa using heq.symm
    · intro hnil
      rw [hnil]
      rfl
  · have hne : gap.venueSymbol.isEmpty = false := Bool.not_eq_true _ ▸ hempty
    rw [if_neg hempty]
    constructor
    · intro hexact
      have hlength := congrArg List.length hexact
      rw [List.length_map, List.length_map, List.length_zipIdx, length_repair h hcount hne hmapped] at hlength
      rw [missing_eq_idsFrom, length_idsFrom] at hlength ⊢
      omega
    · intro hle
      rw [missing_eq_idsFrom, length_idsFrom] at hle
      rw [repair_eq h hcount hne hmapped, missing_eq_idsFrom, Nat.min_eq_right hle]

def bitcoinTrade (id : Int) : AggTrade :=
  { symbol := "BTCUSDT", aggTradeId := id, tradeTimeMs := 1728000600000, price := "60000.5", quantity := "0.25"
    buyerIsMaker := false }

/-- The endpoint, of BTCUSDT, when `newest` is the newest trade. -/
def tradesUpTo (newest : Int) (request : RepairRequest) : List RepairRow :=
  ((idsFrom request.fromId request.limit).filter (fun i => decide (i ≤ newest))).map (fun i => .aggTrade (bitcoinTrade i))

theorem tradesUpTo_answers (newest : Int) : AnswersAggTrades (tradesUpTo newest) "BTCUSDT" bitcoinTrade newest :=
  ⟨fun _ => rfl, fun _ _ _ _ => rfl⟩

def bitcoinGap (lastSeen nextSeen : Int) : Gap := { venue := "binance", venueSymbol := "BTCUSDT", lastSeen, nextSeen }

theorem repairsExactly_iff_threeTrades :
    RepairsExactly bitcoin (fun _ => 1728000601000000) (tradesUpTo 105) bitcoinTrade 105 (bitcoinGap 100 104) :=
  (repairsExactly_iff bitcoin (fun _ => 1728000601000000) (tradesUpTo 105) bitcoinTrade 105 (bitcoinGap 100 104)
    (by decide) (by decide) (tradesUpTo_answers 105)).2 (by decide)

/-- A gap of 1001 trades: the last of them is not asked for. -/
theorem large_gap_is_partly_repaired : (bitcoinGap 0 1002).missingCount = 1001 ∧
    (repair bitcoin (fun _ => 1728000601000000) (tradesUpTo 1002) (bitcoinGap 0 1002)).length = 1000 ∧
    ¬ RepairsExactly bitcoin (fun _ => 1728000601000000) (tradesUpTo 1002) bitcoinTrade 1002 (bitcoinGap 0 1002) := by
  have hlength : (repair bitcoin (fun _ => 1728000601000000) (tradesUpTo 1002) (bitcoinGap 0 1002)).length = 1000 :=
    (length_repair (tradesUpTo_answers 1002) (by decide) (by decide) (by decide)).trans (by decide)
  refine ⟨by decide, hlength, fun hexact => ?_⟩
  have hall := congrArg List.length hexact
  rw [List.length_map, List.length_map, List.length_zipIdx, missing_eq_idsFrom, length_idsFrom, hlength] at hall
  exact absurd hall (by decide)

end Ingest
