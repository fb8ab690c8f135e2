import RealtimeFinance.Ingest.Connectors
import RealtimeFinance.Ingest.Gaps
import RealtimeFinance.Python.JsonTree
/-!
# JsonRows — the row loops of the connectors, over any JSON

`CoinbaseConnector.parse` and the two `repair`s turn row after row into trades, and pass over a row that raises a
`KeyError` or a `ValueError`.  Here a frame and an answer are any value that `json.loads` gives.
-/
namespace Ingest

open Python

/-! ## The loop -/

variable {ρ : Type}

/-- `for row in rows`, from row number `k` on: what is caught is passed over. -/
def collectFrom (convert : Int → ρ → Except Raised (Option Trade)) (clock : Nat → Int) :
    Nat → List ρ → Except Raised (List Trade)
  | _, []          => .ok []
  | k, row :: rows =>
    match convert (clock k) row with
    | .ok (some trade) => (collectFrom convert clock (k + 1) rows).map (trade :: ·)
    | .ok none         => collectFrom convert clock (k + 1) rows
    | .error raised    => if raised.isCaught then collectFrom convert clock (k + 1) rows else .error raised

/-- The trades that rows hold, in the rows' order. -/
def tradesOf (tradeOf : Int → ρ → Option Trade) (clock : Nat → Int) (k : Nat) (rows : List ρ) : List Trade :=
  (rows.zipIdx k).filterMap (fun row => tradeOf (clock row.2) row.1)

/-! ## The symbol -/

section Mapping

variable (instruments : InstrumentMap)

/-- `canonical` with a symbol of any type: the symbols of the map are texts, and a list or an object is no key. -/
def canonicalOf (venue : String) : JsonTree → Except Raised (Option (String × String))
  | .str symbol => .ok ((instruments.canonical venue symbol).map (fun instrumentId => (symbol, instrumentId)))
  | .list _     => .error .typeError
  | .object _   => .error .typeError
  | _           => .ok none

/-- The trade that is built of a symbol and its instrument; none for a symbol that is not mapped. -/
def mappedTrade (venue : String) (symbol : JsonTree) (build : String → String → Except Raised Trade) :
    Except Raised (Option Trade) := do
  match ← canonicalOf instruments venue symbol with
  | none                             => return none
  | some (venueSymbol, instrumentId) => return some (← build venueSymbol instrumentId)

end Mapping

/-! ## Coinbase -/

section Coinbase

variable (isPrintable : Char → Bool) (rfc3339ToUs : String → Option Int) (instruments : InstrumentMap)

/-- `_rfc3339_to_us`: only a text has a `replace`. -/
def instantOf : JsonTree → Except Raised Int
  | .str time => match rfc3339ToUs time with
    | some us => .ok us
    | none    => .error .valueError
  | _         => .error .attributeError

/-- `Side(side) if side in ("BUY", "SELL") else Side.UNKNOWN`. -/
def sideOf : Option JsonTree → Side
  | some (.str side) => if side = "BUY" then .buy else if side = "SELL" then .sell else .unknown
  | _                => .unknown

/-- `int(sequence) if sequence is not None else None`. -/
def sequenceOf : Option JsonTree → Except Raised (Option Int)
  | none          => .ok none
  | some .null    => .ok none
  | some sequence => sequence.toInt.map some

/-- The `Trade` that `_to_trade` makes of a row whose symbol is mapped. -/
def coinbaseRowFields (sequence : Option JsonTree) (source : Source) (now : Int) (row : JsonTree)
    (venueSymbol instrumentId : String) : Except Raised Trade := do
  let tradeId ← row.item "trade_id"
  let time ← row.item "time"
  let eventTsUs ← instantOf rfc3339ToUs time
  let price ← row.item "price"
  let size ← row.item "size"
  let side ← row.get "side"
  let sequence ← sequenceOf sequence
  return { venue := "coinbase", venueSymbol, instrumentId, tradeId := tradeId.text isPrintable, eventTsUs
           ingestTsUs := now, price := price.text isPrintable, size := size.text isPrintable, side := sideOf side
           sequence, isBackfill := decide (source ≠ .stream), source }

/-- `_to_trade`. -/
def coinbaseRowTrade (sequence : Option JsonTree) (source : Source) (now : Int) (row : JsonTree) :
    Except Raised (Option Trade) := do
  let productId ← row.item "product_id"
  mappedTrade instruments "coinbase" productId (coinbaseRowFields isPrintable rfc3339ToUs sequence source now row)

/-- The rows of an event, or of an answer: `.get("trades", [])`. -/
def tradesMember (value : JsonTree) : Except Raised (List JsonTree) := do
  ((← value.get "trades").getD (.list [])).iterate

/-- `for event in events`, when `k` rows have been read. -/
def parseEvents (sequence : Option JsonTree) (clock : Nat → Int) : Nat → List JsonTree → Except Raised (List Trade)
  | _, []              => .ok []
  | k, event :: events => do
    let rows ← tradesMember event
    let trades ← collectFrom (coinbaseRowTrade isPrintable rfc3339ToUs instruments sequence .stream) clock k rows
    return trades ++ (← parseEvents sequence clock (k + rows.length) events)

/-- `value == "market_trades"`. -/
def isMarketTrades : Option JsonTree → Bool
  | some (.str channel) => channel = "market_trades"
  | _                   => false

/-- `parse`, of what `json.loads` gives. -/
def parseJson (clock : Nat → Int) (frame : JsonTree) : Except Raised (List Trade) := do
  let channel ← frame.get "channel"
  if isMarketTrades channel then
    let sequence ← frame.get "sequence_num"
    let events ← frame.get "events"
    parseEvents isPrintable rfc3339ToUs instruments sequence clock 0 (← (events.getD (.list [])).iterate)
  else return []

/-- A row of `repair`, after its `setdefault`. -/
def repairRowTrade (productId : String) (now : Int) (row : JsonTree) : Except Raised (Option Trade) := do
  let row ← row.setdefault "product_id" (.str productId)
  coinbaseRowTrade isPrintable rfc3339ToUs instruments none .restRepair now row

/-- `for product_id in products`, each with what its request is answered. -/
def repairProducts (clock : Nat → Int) : Nat → List (String × JsonTree) → Except Raised (List Trade)
  | _, []                             => .ok []
  | k, (productId, answer) :: answers => do
    let rows ← tradesMember answer
    let trades ← collectFrom (repairRowTrade isPrintable rfc3339ToUs instruments productId) clock k rows
    return trades ++ (← repairProducts clock (k + rows.length) answers)

/-- The products that `repair` asks for, one request each; `symbols` are `symbols_for("coinbase")`. -/
def repairedProducts (symbols : List String) (gap : Gap) : List String :=
  if gap.venueSymbol = "*" then symbols else [gap.venueSymbol]

/-- `repair`, when request `i` is answered `answer i`. -/
def repairJson (symbols : List String) (clock : Nat → Int) (answer : Nat → JsonTree) (gap : Gap) :
    Except Raised (List Trade) :=
  repairProducts isPrintable rfc3339ToUs instruments clock 0
    ((repairedProducts symbols gap).zipIdx.map (fun product => (product.1, answer product.2)))

end Coinbase

/-! ## Binance -/

section Binance

variable (isPrintable : Char → Bool) (instruments : InstrumentMap)

/-- The `Trade` that `_to_trade` makes of a row whose symbol is mapped. -/
def binanceRowFields (source : Source) (now : Int) (data : JsonTree) (venueSymbol instrumentId : String) :
    Except Raised Trade := do
  let tradeId ← data.item "a"
  let tradeTime ← data.item "T"
  let tradeTimeMs ← tradeTime.toInt
  let price ← data.item "p"
  let size ← data.item "q"
  let buyerIsMaker ← data.item "m"
  let id ← data.item "a"
  let sequence ← id.toInt
  return { venue := "binance", venueSymbol, instrumentId, tradeId := tradeId.text isPrintable
           eventTsUs := tradeTimeMs * 1000, ingestTsUs := now, price := price.text isPrintable
           size := size.text isPrintable, side := if buyerIsMaker.isTrue then .sell else .buy
           sequence := some sequence, isBackfill := decide (source ≠ .stream), source }

/-- `symbol or data["s"]`. -/
def symbolOr (symbol : String) (data : JsonTree) : Except Raised JsonTree :=
  if symbol.isEmpty then data.item "s" else .ok (.str symbol)

/-- `_to_trade` of a repair. -/
def binanceRowTrade (symbol : String) (source : Source) (now : Int) (data : JsonTree) : Except Raised (Option Trade) := do
  let s ← symbolOr symbol data
  mappedTrade instruments "binance" s (binanceRowFields isPrintable source now data)

/-- A row of `repair`: the stream already delivered those from `next_seen` on. -/
def aggTradeRowTrade (gap : Gap) (now : Int) (row : JsonTree) : Except Raised (Option Trade) := do
  let id ← row.item "a"
  let aggTradeId ← id.toInt
  if gap.nextSeen ≤ aggTradeId then return none
  else binanceRowTrade isPrintable instruments gap.venueSymbol .restRepair now row

/-- The loop of `repair`, over the answer. -/
def repairAggTrades (clock : Nat → Int) (gap : Gap) (answer : JsonTree) : Except Raised (List Trade) := do
  collectFrom (aggTradeRowTrade isPrintable instruments gap) clock 0 (← answer.iterate)

end Binance

end Ingest
