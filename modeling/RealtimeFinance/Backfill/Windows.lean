import RealtimeFinance.Backfill.Manifest
import RealtimeFinance.Python.Calendar
/-!
# Windows — `files_for_window`, and the pairs of a universe

A month that the window covers and that has been over for a week is one file; any other month is a file a day.  Where a
date runs past 9999 the planner raises (`none`).
-/
namespace Backfill

open Python

/-- An entry of `universe.yaml`: its id, and the symbol at each venue. -/
structure UniverseEntry where
  id : String
  venues : List (String × String)

abbrev Universe := List UniverseEntry

/-- `symbols_for(venue)`. -/
def Universe.symbolsFor (entries : Universe) (venue : String) : List String :=
  entries.flatMap (fun entry => (entry.venues.filter (fun v => decide (v.1 = venue))).map Prod.snd)

/-- `canonical(venue, venue_symbol)`: the last entry that has the symbol. -/
def Universe.canonical (entries : Universe) (venue venueSymbol : String) : Option String :=
  (entries.reverse.find? (fun entry => entry.venues.contains (venue, venueSymbol))).map UniverseEntry.id

/-- `instrument_pairs`. -/
def instrumentPairs (entries : Universe) : Option (List (String × String)) :=
  (entries.symbolsFor "binance").mapM (fun symbol => (entries.canonical "binance" symbol).map (fun id => (id, symbol)))

def monthlyPublicationLagDays : Nat := 7

/-- `_days_between` from the cursor on, with as many turns as there are days left. -/
def daysFrom (stop : Date) : Nat → Date → Option (List Date)
  | 0, _          => some []
  | n + 1, cursor =>
    if cursor ≤ stop then do
      let next ← cursor.tomorrow
      return cursor :: (← daysFrom stop n next)
    else some []

def daysBetween (start stop : Date) : Option (List Date) := daysFrom stop (stop.toOrdinal + 1 - start.toOrdinal) start

/-- `_months_between` from the cursor on, which is the first of a month. -/
def monthsFrom (stop : Date) : Nat → Date → Option (List (Date × Date))
  | 0, _          => some []
  | n + 1, cursor =>
    if cursor ≤ stop then do
      let last := cursor.lastOfMonth
      let next ← last.tomorrow
      return (cursor, last) :: (← monthsFrom stop n next)
    else some []

def monthsBetween (start stop : Date) : Option (List (Date × Date)) :=
  monthsFrom stop (12 * (stop.year + 1 - start.year)) start.firstOfMonth

def fileOf (tier : Tier) (pair : String × String) (granularity : Granularity) (period : String) (dt : Date) : ArchiveFile :=
  { tier, instrumentId := pair.1, venueSymbol := pair.2, granularity, period, dt := dt.toOrdinal }

/-- The body of the loop over months. -/
def filesForMonth (tier : Tier) (start stop today : Date) (pair : String × String) (month : Date × Date) :
    Option (List ArchiveFile) := do
  let windowCoversMonth := decide (start ≤ month.1 ∧ month.2 ≤ stop)
  let lagged ← month.2.addDays monthlyPublicationLagDays
  if windowCoversMonth && decide (lagged ≤ today) then
    return [fileOf tier pair .monthly month.1.monthText month.1]
  else
    let days ← daysBetween (month.1.latest start) (month.2.earliest stop)
    return days.map (fun day => fileOf tier pair .daily day.dayText day)

/-- `(f.instrument_id, f.dt, f.granularity.value)` of one file is not after that of another. -/
def sortsBefore (f g : ArchiveFile) : Bool :=
  decide (f.instrumentId < g.instrumentId ∨ f.instrumentId = g.instrumentId ∧
    (f.dt < g.dt ∨ f.dt = g.dt ∧ f.granularity.text ≤ g.granularity.text))

def filesForWindow (pairs : List (String × String)) (tier : Tier) (start stop today : Date) : Option (List ArchiveFile) :=
  if start ≤ stop then do
    let files ← pairs.mapM (fun pair => do
      let months ← monthsBetween start stop
      let monthFiles ← months.mapM (filesForMonth tier start stop today pair)
      return monthFiles.flatten)
    return files.flatten.mergeSort sortsBefore
  else some []

end Backfill
