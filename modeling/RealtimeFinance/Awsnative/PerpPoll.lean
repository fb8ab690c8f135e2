import RealtimeFinance.Awsnative.PerpContext
import RealtimeFinance.Sql.Instant
/-!
# PerpPoll — `PerpCollector.collect` of `awsnative.enrichment.collect`

A poll asks `premiumIndex` once, and then five endpoints in a round for each pair, also where two pairs share a symbol.
An endpoint that is unavailable leaves its family out; whatever else a request raises ends the poll before it has written
anything.
-/
namespace Awsnative

open Python

variable {α : Type}

/-- What became of a request, its answer decoded.  An answer of `null` is like none. -/
inductive Fetched (α : Type)
  | answered (payload : α)
  | unavailable
  | raised (e : Exception)
  deriving DecidableEq

/-- `_json`. -/
def Fetched.json : Fetched α → Except Exception (Option α)
  | .answered payload => .ok (some payload)
  | .unavailable      => .ok none
  | .raised e         => .error e

/-- A pair of the loop, and the outcome of each request that its round makes. -/
structure PairPoll where
  instrumentId : String
  venueSymbol : String
  openInterest : Fetched JsonObject
  ratio : RatioFamily → Fetched (List JsonObject)

def PairPoll.pair (round : PairPoll) : String × String := (round.instrumentId, round.venueSymbol)

/-- A poll: the rounds of its loop in the order of the pairs, the instant it is called with, and the outcome of its first
request. -/
structure PerpPoll where
  rounds : List PairPoll
  pollTsUs : Int
  premiumIndex : Fetched (List JsonObject)

def PerpPoll.pairs (poll : PerpPoll) : List (String × String) := poll.rounds.map PairPoll.pair

/-- One round of the loop of `collect`: an empty list of readings is none. -/
def PairPoll.gather (round : PairPoll) :
    Except Exception (String × Option JsonObject × Families (Option (List JsonObject))) := do
  let interest ← round.openInterest.json
  let families ← Families.build (fun family => (round.ratio family).json)
  return (round.venueSymbol, interest,
    { toptraderAccounts := families.toptraderAccounts.filter (fun p => !p.isEmpty)
      toptraderPositions := families.toptraderPositions.filter (fun p => !p.isEmpty)
      globalAccounts := families.globalAccounts.filter (fun p => !p.isEmpty)
      takerVolume := families.takerVolume.filter (fun p => !p.isEmpty) })

/-- The rows that `collect` has built when it asks for the key.  A round under a symbol that an earlier one had sets the
symbol's readings again, and its open interest when that was answered. -/
def PerpPoll.rows (poll : PerpPoll) : Except Exception (List PerpContext) := do
  let premiumIndex ← poll.premiumIndex.json
  let gathered ← poll.rounds.mapM PairPoll.gather
  let openInterest := gathered.filterMap (fun g => g.2.1.map (fun interest => (g.1, interest)))
  let ratios := gathered.map (fun g => (g.1, g.2.2))
  buildRows poll.pairs (premiumIndex.getD []) openInterest ratios poll.pollTsUs

/-- The first microsecond that `datetime` does not have. -/
def endOfDatetime : Int := 253402300800000000

/-- The `ingest_date` of `perp_key`, as its day: until 2242 the double of its seconds keeps the microsecond. -/
def perpKeyDate (pollTsUs : Int) : Except Exception Int :=
  if pollTsUs < endOfDatetime then .ok (Sql.microsDate pollTsUs) else .error .yearOutOfRange

/-- One object of `bronze_perp_context`. -/
structure PerpObject where
  ingestDate : Int
  lines : List (Dict String)
  deriving DecidableEq

def PerpPoll.collect (poll : PerpPoll) : Except Exception PerpObject := do
  let rows ← poll.rows
  let ingestDate ← perpKeyDate poll.pollTsUs
  return { ingestDate, lines := rows.map PerpContext.toJson }

end Awsnative
