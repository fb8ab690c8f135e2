import RealtimeFinance.Ingest.Models
/-!
# Connectors — `ingest.connectors`, and Binance's

A connector reads a venue's frames.  A frame stands here as what `parse` sees of it: an aggregate trade with the fields it
reads, another message, or a text it fails on.
-/
namespace Ingest

structure Connector (Frame : Type) where
  venue : String
  sequenceSymbol : Option String
  resetsSequenceOnReconnect : Bool
  /-- `parse`, at a clock in microseconds; `none` where it raises. -/
  parse : Int → Frame → Option (List Trade)

structure InstrumentMap where
  toCanonical : String × String → Option String

def InstrumentMap.canonical (m : InstrumentMap) (venue venueSymbol : String) : Option String :=
  m.toCanonical (venue, venueSymbol)

/-- The `data` of an `aggTrade` message, `s`, `a`, `T`, `p`, `q` and `m`. -/
structure AggTrade where
  symbol : String
  aggTradeId : Int
  tradeTimeMs : Int
  price : String
  quantity : String
  buyerIsMaker : Bool

inductive BinanceFrame
  | aggTrade (data : AggTrade)
  | other
  | malformed

/-- `_to_trade`: `none` for an unmapped symbol. -/
def toTrade (instruments : InstrumentMap) (now : Int) (symbol : Option String) (source : Source) (data : AggTrade) :
    Option Trade :=
  let venueSymbol := if (symbol.getD "").isEmpty then data.symbol else symbol.getD ""
  (instruments.canonical "binance" venueSymbol).map (fun instrumentId =>
    { venue := "binance", venueSymbol, instrumentId, tradeId := toString data.aggTradeId
      eventTsUs := data.tradeTimeMs * 1000, ingestTsUs := now, price := data.price, size := data.quantity
      side := if data.buyerIsMaker then .sell else .buy, sequence := some data.aggTradeId
      isBackfill := decide (source ≠ .stream), source })

def binance (instruments : InstrumentMap) : Connector BinanceFrame where
  venue := "binance"
  sequenceSymbol := none
  resetsSequenceOnReconnect := false
  parse now frame :=
    match frame with
    | .aggTrade data => some (toTrade instruments now none .stream data).toList
    | .other         => some []
    | .malformed     => none

def bitcoin : InstrumentMap where
  toCanonical key := if key = ("binance", "BTCUSDT") then some "BTC-USD" else none

def aggTrade (id : Int) : BinanceFrame :=
  .aggTrade { symbol := "BTCUSDT", aggTradeId := id, tradeTimeMs := 1728000600000, price := "60000.5"
              quantity := "0.25", buyerIsMaker := false }

end Ingest
