import RealtimeFinance.Ingest.Connectors
import RealtimeFinance.Ingest.Gaps
/-!
# Coinbase — `ingest.connectors.coinbase`

`sequence_num` counts every frame of a connection; `parse` gives it to each trade of a `market_trades` frame, and gaps are
tracked under `*`.  A frame stands here as what `parse` reads of it, a field as the text that `str` makes of it.
-/
namespace Ingest

/-- A row of a frame's `trades`, or of a REST answer; a missing key is none. -/
structure CoinbaseRow where
  productId : Option String
  tradeId : Option String
  time : Option String
  price : Option String
  size : Option String
  side : Option String

inductive CoinbaseFrame
  | message (channel : Option String) (sequenceNum : Option Int) (events : List (List CoinbaseRow))
  /-- A text that `parse` fails on. -/
  | malformed

/-- What the loop of `parse` catches. -/
inductive MalformedTrade
  | keyError (field : String)
  | valueError (time : String)

def CoinbaseRow.key (field : String) : Option String → Except MalformedTrade String
  | some value => .ok value
  | none       => .error (.keyError field)

variable (rfc3339ToUs : String → Option Int) (instruments : InstrumentMap)

/-- `_to_trade`: none for an unmapped product, told before the other fields are read. -/
def coinbaseTrade (now : Int) (sequence : Option Int) (source : Source) (row : CoinbaseRow) :
    Except MalformedTrade (Option Trade) := do
  let venueSymbol ← CoinbaseRow.key "product_id" row.productId
  match instruments.canonical "coinbase" venueSymbol with
  | none              => return none
  | some instrumentId =>
    let tradeId ← CoinbaseRow.key "trade_id" row.tradeId
    let time ← CoinbaseRow.key "time" row.time
    match rfc3339ToUs time with
    | none           => .error (.valueError time)
    | some eventTsUs =>
      let price ← CoinbaseRow.key "price" row.price
      let size ← CoinbaseRow.key "size" row.size
      return some { venue := "coinbase", venueSymbol, instrumentId, tradeId, eventTsUs, ingestTsUs := now, price, size
                    side := if row.side = some "BUY" then .buy else if row.side = some "SELL" then .sell else .unknown
                    sequence, isBackfill := decide (source ≠ .stream), source }

/-- The trades of the rows that are well-formed and mapped. -/
def coinbaseTrades (now : Int) (sequence : Option Int) (source : Source) (rows : List CoinbaseRow) : List Trade :=
  rows.filterMap (fun row =>
    match coinbaseTrade rfc3339ToUs instruments now sequence source row with
    | .ok trade => trade
    | .error _  => none)

/-- The class has no `resets_sequence_on_reconnect`, and `getattr` answers True without one. -/
def coinbase : Connector CoinbaseFrame where
  venue := "coinbase"
  sequenceSymbol := some "*"
  resetsSequenceOnReconnect := true
  parse now frame :=
    match frame with
    | .message channel sequenceNum events =>
      if channel ≠ some "market_trades" then some []
      else some (coinbaseTrades rfc3339ToUs instruments now sequenceNum .stream events.flatten)
    | .malformed => none

/-- `symbols_for`: the symbols of a venue that the map holds. -/
def InstrumentMap.SymbolsFor (venue symbol : String) : Prop := (instruments.canonical venue symbol).isSome

/-- The products that `repair` asks for. -/
def coinbaseProducts (gap : Gap) (symbol : String) : Prop :=
  if gap.venueSymbol = "*" then instruments.SymbolsFor "coinbase" symbol else symbol = gap.venueSymbol

/-! ## What a frame's trades carry -/

theorem coinbaseTrade_ok {now : Int} {sequence : Option Int} {source : Source} {row : CoinbaseRow} {t : Trade}
    (h : coinbaseTrade rfc3339ToUs instruments now sequence source row = .ok (some t)) :
    t.venue = "coinbase" ∧ t.sequence = sequence ∧ instruments.SymbolsFor "coinbase" t.venueSymbol := by
  simp only [coinbaseTrade, bind, Except.bind] at h
  split at h
  · cases h
  split at h
  · cases h
  rename_i instrumentId hcanonical
  -- the fields that are left, each in the order it is read
  split at h
  · cases h
  split at h
  · cases h
  split at h
  · cases h
  split at h
  · cases h
  split at h
  · cases h
  cases h
  refine ⟨rfl, rfl, ?_⟩
  unfold InstrumentMap.SymbolsFor
  rw [hcanonical]
  rfl

/-- **The trades of one frame share its sequence number and the key `*`.** -/
theorem coinbase_parse {now : Int} {frame : CoinbaseFrame} {trades : List Trade}
    (h : (coinbase rfc3339ToUs instruments).parse now frame = some trades) {t : Trade} (ht : t ∈ trades) :
    ∃ channel sequenceNum events, frame = .message channel sequenceNum events ∧ t.venue = "coinbase" ∧
      t.sequence = sequenceNum ∧ instruments.SymbolsFor "coinbase" t.venueSymbol := by
  unfold coinbase at h
  cases frame with
  | malformed => cases h
  | message channel sequenceNum events =>
    simp only at h
    split at h
    · cases h
      cases ht
    · cases h
      obtain ⟨row, -, hrow⟩ := List.mem_filterMap.1 ht
      refine ⟨channel, sequenceNum, events, rfl, ?_⟩
      cases htrade : coinbaseTrade rfc3339ToUs instruments now sequenceNum .stream row with
      | error e =>
        rw [htrade] at hrow
        cases hrow
      | ok trade =>
        rw [htrade] at hrow
        simp only at hrow
        rw [hrow] at htrade
        exact coinbaseTrade_ok rfc3339ToUs instruments htrade

end Ingest
