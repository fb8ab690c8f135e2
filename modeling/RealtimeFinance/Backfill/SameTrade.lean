import Mathlib.Data.List.Forall2
import RealtimeFinance.Backfill.Staging
import RealtimeFinance.Ingest.Connectors
/-!
# SameTrade — one aggregate trade over the live path and over the archive

Binance knows a trade's instant to the microsecond.  A frame, and a REST row, carry it in whole milliseconds; the archive
did until its era of microseconds.  Everything else of the trade comes out alike from both parsers, so they describe it
identically exactly when the archive's timestamp has no more than the live one's milliseconds (`archive_agrees_iff`).
-/
namespace Backfill

open Ingest

structure BinanceTrade where
  aggTradeId : Int
  price : String
  quantity : String
  firstTradeId : Int
  lastTradeId : Int
  instantUs : Int
  buyerIsMaker : Bool
  isBestMatch : Bool
  /-- Prices and sizes are texts of a CSV without quoting. -/
  price_field : ',' ∉ price.toList
  quantity_field : ',' ∉ quantity.toList

/-- The `data` of the live frame, or the row that REST answers with. -/
def BinanceTrade.liveData (t : BinanceTrade) (symbol : String) : AggTrade :=
  { symbol, aggTradeId := t.aggTradeId, tradeTimeMs := t.instantUs / 1000, price := t.price, quantity := t.quantity
    buyerIsMaker := t.buyerIsMaker }

def pythonBool (b : Bool) : String := if b then "True" else "False"

/-- The archive's timestamp, in the era's unit. -/
def BinanceTrade.timestamp (t : BinanceTrade) : TimestampUnit → Int
  | .millis => t.instantUs / 1000
  | .micros => t.instantUs

def BinanceTrade.archiveFields (t : BinanceTrade) (era : TimestampUnit) : List String :=
  [toString t.aggTradeId, t.price, t.quantity, toString t.firstTradeId, toString t.lastTradeId
    , toString (t.timestamp era), pythonBool t.buyerIsMaker, pythonBool t.isBestMatch]

def BinanceTrade.archiveLine (t : BinanceTrade) (era : TimestampUnit) : String :=
  String.ofList (List.intercalate [','] ((t.archiveFields era).map String.toList))

/-- The same trade id, `event_ts_us`, price, size and side. -/
structure SameTrade (live : Trade) (row : ArchiveAggTrade) : Prop where
  tradeId : live.tradeId = toString row.aggTradeId
  eventTsUs : live.eventTsUs = row.eventTsUs
  price : live.price = row.price
  size : live.size = row.quantity
  side : live.side = row.side

/-! ## The archive's line is read back -/

theorem comma_not_in_archiveFields (t : BinanceTrade) (era : TimestampUnit) :
    ∀ cs ∈ (t.archiveFields era).map String.toList, ',' ∉ cs := by
  have hbool : ∀ b : Bool, ',' ∉ (pythonBool b).toList := by decide
  intro cs hcs
  obtain ⟨field, hfield, rfl⟩ := List.mem_map.1 hcs
  simp only [BinanceTrade.archiveFields, List.mem_cons, List.not_mem_nil, or_false] at hfield
  rcases hfield with rfl | rfl | rfl | rfl | rfl | rfl | rfl | rfl
  · exact comma_not_in_toString _
  · exact t.price_field
  · exact t.quantity_field
  · exact comma_not_in_toString _
  · exact comma_not_in_toString _
  · exact comma_not_in_toString _
  · exact hbool _
  · exact hbool _

/-- A line starts with a number and ends with a boolean: nothing is stripped. -/
theorem strip_archiveLine (t : BinanceTrade) (era : TimestampUnit) :
    Python.strip (t.archiveLine era).toList = List.intercalate [','] ((t.archiveFields era).map String.toList) := by
  unfold BinanceTrade.archiveLine
  rw [String.toList_ofList]
  have hbool : ∀ b : Bool, ∃ cs, (pythonBool b).toList = cs ++ ['e'] := fun b => by
    cases b
    · exact ⟨['F', 'a', 'l', 's'], by decide⟩
    · exact ⟨['T', 'r', 'u'], by decide⟩
  obtain ⟨last, hlast⟩ := hbool t.isBestMatch
  cases hid : (toString t.aggTradeId).toList with
  | nil =>
    have hread := Python.int_toString t.aggTradeId
    rw [hid] at hread
    cases hread
  | cons c cs =>
    have hc : Python.isSpace c = false := by
      have hmem : c ∈ (toString t.aggTradeId).toList := by
        rw [hid]
        exact List.mem_cons_self
      rcases Python.mem_toString hmem with rfl | hdigit
      · decide
      · exact Python.isSpace_of_isDigit hdigit
    have hshape : ∃ mid, List.intercalate [','] ((t.archiveFields era).map String.toList) = c :: (mid ++ ['e']) := by
      unfold BinanceTrade.archiveFields
      simp only [List.map_cons, List.map_nil, List.intercalate, List.intersperse, List.flatten_cons, List.flatten_nil, hid,
        hlast]
      exact ⟨cs ++ ([','] ++ (t.price.toList ++ ([','] ++ (t.quantity.toList ++ ([','] ++
        ((toString t.firstTradeId).toList ++ ([','] ++ ((toString t.lastTradeId).toList ++ ([','] ++
        ((toString (t.timestamp era)).toList ++ ([','] ++ ((pythonBool t.buyerIsMaker).toList ++ ([','] ++ last)))))))))))))
        , by simp⟩
    obtain ⟨mid, hmid⟩ := hshape
    rw [hmid]
    exact Python.stripBy_of_ends hc (by decide)

theorem fieldsOf_archiveLine (t : BinanceTrade) (era : TimestampUnit) :
    fieldsOf (t.archiveLine era) = some (t.archiveFields era) := by
  have hsplit := List.splitOn_intercalate ',' (comma_not_in_archiveFields t era) (by simp [BinanceTrade.archiveFields])
  have hne : (List.intercalate [','] ((t.archiveFields era).map String.toList)).isEmpty = false := by
    rw [List.isEmpty_eq_false_iff]
    intro hnil
    rw [hnil] at hsplit
    exact absurd (congrArg List.length hsplit) (by simp [BinanceTrade.archiveFields])
  unfold fieldsOf
  simp only [strip_archiveLine, hne, hsplit, List.map_map]
  have hid : String.ofList ∘ String.toList = id := funext (fun _ => String.ofList_toList)
  rw [hid, List.map_id]
  rfl

/-- The row of a trade whose timestamp was normalised to `us`. -/
def BinanceTrade.row (t : BinanceTrade) (us : Int) : ArchiveAggTrade :=
  { aggTradeId := t.aggTradeId, price := t.price, quantity := t.quantity, firstTradeId := t.firstTradeId
    lastTradeId := t.lastTradeId, eventTsUs := us, side := if t.buyerIsMaker then .sell else .buy }

theorem aggTradeOf_archiveFields (t : BinanceTrade) (era : TimestampUnit) (normalise : UnitNormaliser) :
    aggTradeOf normalise (t.archiveFields era) =
      (normalise.call (t.timestamp era)).map (fun called => (t.row called.1, called.2)) := by
  have hint : ∀ n : Int, int (toString n) = .ok n := fun n => by
    unfold int
    rw [Python.int_toString]
  have hside : sideFromBuyerMaker (pythonBool t.buyerIsMaker) = .ok (if t.buyerIsMaker then .sell else .buy) := by
    cases t.buyerIsMaker <;> rfl
  unfold BinanceTrade.archiveFields aggTradeOf
  simp only [hint, hside, bind, Except.bind]
  cases normalise.call (t.timestamp era) <;> rfl

/-! ## When both describe the trade alike -/

/-- Every live copy of the trade, over either transport and whatever its instrument map says, is the archive's. -/
def DescribedAlike (t : BinanceTrade) (row : ArchiveAggTrade) : Prop :=
  ∀ (instruments : InstrumentMap) (now : Int) (symbol : String) (named : Option String) (source : Source) (live : Trade),
    toTrade instruments now named source (t.liveData symbol) = some live → SameTrade live row

theorem describedAlike_row (t : BinanceTrade) (us : Int) : DescribedAlike t (t.row us) ↔ t.instantUs / 1000 * 1000 = us := by
  constructor
  · intro h
    have hmapped := h ⟨fun _ => some "BTC-USD"⟩ 0 "BTCUSDT" none .stream _ rfl
    exact hmapped.eventTsUs
  · intro hus instruments now symbol named source live hlive
    unfold toTrade at hlive
    obtain ⟨instrumentId, -, rfl⟩ := Option.map_eq_some_iff.1 hlive
    exact ⟨rfl, hus, rfl, rfl, rfl⟩

/-- **The archive's copy of the instant is the live one's**: it is in milliseconds, or has no finer digits. -/
def ToTheMilli (t : BinanceTrade) (era : TimestampUnit) : Prop :=
  Plausible t.instantUs ∧ (era = .millis ∨ t.instantUs % 1000 = 0)

theorem toTheMilli_of_row {t : BinanceTrade} {era : TimestampUnit} {normalise normalise' : UnitNormaliser} {us : Int}
    (hcall : normalise.call (t.timestamp era) = .ok (us, normalise')) (halike : DescribedAlike t (t.row us)) :
    ToTheMilli t era := by
  have hus := (describedAlike_row t us).1 halike
  obtain ⟨unit, -, hmicros, -, hspan⟩ := UnitNormaliser.call_ok hcall
  unfold ToTheMilli Plausible microsRange epochFloorS epochCeilS at *
  cases era <;> cases unit <;> simp only [BinanceTrade.timestamp, toMicros] at hmicros <;> simp <;> omega

theorem call_of_toTheMilli {t : BinanceTrade} {era : TimestampUnit} (h : ToTheMilli t era) {normalise : UnitNormaliser}
    (hunit : normalise.unit = none ∨ normalise.unit = some era) :
    normalise.call (t.timestamp era) = .ok (t.instantUs / 1000 * 1000, ⟨some era⟩) := by
  obtain ⟨hspan, hera⟩ := h
  cases era with
  | millis => exact UnitNormaliser.call_of_unit (unitOf_millis hspan) hunit
  | micros =>
    have hwhole : t.instantUs / 1000 * 1000 = t.instantUs := by
      rcases hera with hera | hmod
      · cases hera
      · omega
    rw [hwhole]
    exact UnitNormaliser.call_of_unit (unitOf_micros hspan) hunit

theorem parseLines_archiveLine (t : BinanceTrade) (era : TimestampUnit) (normalise : UnitNormaliser) (lines : List String) :
    parseLines aggTradeOf normalise (t.archiveLine era :: lines) = do
      let called ← normalise.call (t.timestamp era)
      return t.row called.1 :: (← parseLines aggTradeOf called.2 lines) := by
  rw [parseLines, fieldsOf_archiveLine]
  simp only [aggTradeOf_archiveFields]
  cases normalise.call (t.timestamp era) <;> rfl

theorem toTheMilli_of_parse {era : TimestampUnit} {ts : List BinanceTrade} {normalise : UnitNormaliser}
    {rows : List ArchiveAggTrade} (hparse : parseLines aggTradeOf normalise (ts.map (fun t => t.archiveLine era)) = .ok rows)
    (halike : List.Forall₂ DescribedAlike ts rows) : ∀ t ∈ ts, ToTheMilli t era := by
  induction ts generalizing normalise rows with
  | nil => exact fun t ht => by cases ht
  | cons t ts ih =>
    rw [List.map_cons, parseLines_archiveLine] at hparse
    cases hcall : normalise.call (t.timestamp era) with
    | error e => rw [hcall] at hparse; cases hparse
    | ok called =>
      obtain ⟨us, normalise'⟩ := called
      rw [hcall] at hparse
      cases hrest : parseLines aggTradeOf normalise' (ts.map (fun t => t.archiveLine era)) with
      | error e =>
        simp only [bind, Except.bind, hrest] at hparse
        cases hparse
      | ok rest =>
        simp only [bind, Except.bind, hrest, pure, Except.pure, Except.ok.injEq] at hparse
        rw [← hparse] at halike
        obtain ⟨hhead, htail⟩ := List.forall₂_cons.1 halike
        intro t' ht'
        rcases List.mem_cons.1 ht' with rfl | ht'
        · exact toTheMilli_of_row hcall hhead
        · exact ih hrest htail t' ht'

theorem parse_of_toTheMilli {era : TimestampUnit} {ts : List BinanceTrade} {normalise : UnitNormaliser}
    (hunit : normalise.unit = none ∨ normalise.unit = some era) (h : ∀ t ∈ ts, ToTheMilli t era) :
    ∃ rows, parseLines aggTradeOf normalise (ts.map (fun t => t.archiveLine era)) = .ok rows ∧
      List.Forall₂ DescribedAlike ts rows := by
  induction ts generalizing normalise with
  | nil => exact ⟨[], rfl, .nil⟩
  | cons t ts ih =>
    have hcall := call_of_toTheMilli (h t List.mem_cons_self) hunit
    obtain ⟨rest, hrest, halike⟩ := @ih ⟨some era⟩ (Or.inr rfl) (fun t' ht' => h t' (List.mem_cons_of_mem _ ht'))
    refine ⟨t.row (t.instantUs / 1000 * 1000) :: rest, ?_, .cons ((describedAlike_row t _).2 rfl) halike⟩
    rw [List.map_cons, parseLines_archiveLine, hcall]
    simp only [bind, Except.bind, hrest, pure, Except.pure]

/-- **The live path and an archive file of one era describe its trades identically exactly when** each instant is in
the range the archive's units are told apart in, and the file is in milliseconds or its instants have no finer digits. -/
theorem archive_agrees_iff (era : TimestampUnit) (ts : List BinanceTrade) :
    (∃ rows, parseAggTrades (ts.map (fun t => t.archiveLine era)) = .ok rows ∧ List.Forall₂ DescribedAlike ts rows) ↔
      ∀ t ∈ ts, ToTheMilli t era := by
  constructor
  · rintro ⟨rows, hparse, halike⟩
    exact toTheMilli_of_parse hparse halike
  · exact fun h => parse_of_toTheMilli (Or.inl rfl) h

/-- A trade of the microsecond era. -/
def microTrade : BinanceTrade :=
  { aggTradeId := 4033624493, price := "63043.56000000", quantity := "0.00007000", firstTradeId := 6575249309
    lastTradeId := 6575249309, instantUs := 1786752000286442, buyerIsMaker := false, isBestMatch := true
    price_field := by decide, quantity_field := by decide }

/-- The stream says `.286000` of it, the archive `.286442`. -/
theorem micro_trade_has_two_instants :
    ¬ ∀ (era : TimestampUnit) (ts : List BinanceTrade), ∃ rows,
      parseAggTrades (ts.map (fun t => t.archiveLine era)) = .ok rows ∧ List.Forall₂ DescribedAlike ts rows := by
  intro h
  obtain ⟨rows, hparse, halike⟩ := h .micros [microTrade]
  have hmilli := toTheMilli_of_parse hparse halike microTrade List.mem_cons_self
  exact absurd hmilli.2 (by decide)

end Backfill
