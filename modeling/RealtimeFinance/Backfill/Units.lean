import Mathlib.Data.List.Forall2
import RealtimeFinance.Backfill.Loader
/-!
# Units — the one unit of a file's timestamps

The unit is state that the parsers carry from row to row and, in a kline, from one column to the next.  On a line of the
right shape nothing but its times can be refused, and the first time of the file decides the unit of all
(`parseLines_unit`), so the files accepted are those of one unit.
-/
namespace Backfill

open Ingest Sql

def InRange (range : Int × Int) (value : Int) : Prop := range.1 ≤ value ∧ value < range.2

instance (range : Int × Int) (value : Int) : Decidable (InRange range value) := inferInstanceAs (Decidable (_ ∧ _))

/-- **One unit for all of them.** -/
def OneUnit (values : List Int) : Prop :=
  (∀ v ∈ values, InRange millisRange v) ∨ ∀ v ∈ values, InRange microsRange v

/-- Both are one instant, the second in microseconds. -/
def SameInstant (value us : Int) : Prop :=
  (InRange millisRange value → us = value * 1000) ∧ (InRange microsRange value → us = value)

/-- **What is emitted for the times of a file**: instants in microseconds, the same and in the same order. -/
structure Emits (values instants : List Int) : Prop where
  micros : ∀ us ∈ instants, InRange microsRange us
  same : List.Forall₂ SameInstant values instants
  ordered : ∀ p ∈ values.zip instants, ∀ q ∈ values.zip instants, p.2 < q.2 ↔ p.1 < q.1

theorem unitOf_eq_ok {value : Int} {unit : TimestampUnit} : unitOf value = .ok unit ↔
    match unit with
    | .millis => InRange millisRange value
    | .micros => InRange microsRange value := by
  unfold unitOf InRange millisRange microsRange epochFloorS epochCeilS
  by_cases hmillis : 1420070400 * 1000 ≤ value ∧ value < 2208988800 * 1000
  · rw [if_pos hmillis]
    cases unit
    · exact iff_of_true rfl hmillis
    · exact iff_of_false (fun h => by cases h) (fun h => by omega)
  · rw [if_neg hmillis]
    by_cases hmicros : 1420070400 * 1000000 ≤ value ∧ value < 2208988800 * 1000000
    · rw [if_pos hmicros]
      cases unit
      · exact iff_of_false (fun h => by cases h) hmillis
      · exact iff_of_true rfl hmicros
    · rw [if_neg hmicros]
      cases unit
      · exact iff_of_false (fun h => by cases h) hmillis
      · exact iff_of_false (fun h => by cases h) hmicros

theorem oneUnit_iff {values : List Int} : OneUnit values ↔ ∃ unit, ∀ v ∈ values, unitOf v = .ok unit := by
  constructor
  · rintro (h | h)
    · exact ⟨.millis, fun v hv => unitOf_eq_ok.2 (h v hv)⟩
    · exact ⟨.micros, fun v hv => unitOf_eq_ok.2 (h v hv)⟩
  · rintro ⟨unit, h⟩
    cases unit with
    | millis => exact Or.inl (fun v hv => unitOf_eq_ok.1 (h v hv))
    | micros => exact Or.inr (fun v hv => unitOf_eq_ok.1 (h v hv))

/-- A value in a unit, in microseconds. -/
theorem toMicros_same {value : Int} {unit : TimestampUnit} (h : unitOf value = .ok unit) :
    SameInstant value (toMicros value unit) ∧ InRange microsRange (toMicros value unit) := by
  have hrange := unitOf_eq_ok.1 h
  unfold SameInstant
  cases unit with
  | millis =>
    simp only [InRange, millisRange, microsRange, epochFloorS, epochCeilS, toMicros] at hrange ⊢
    exact ⟨⟨fun _ => trivial, fun _ => by omega⟩, by omega⟩
  | micros =>
    simp only [InRange, millisRange, microsRange, epochFloorS, epochCeilS, toMicros] at hrange ⊢
    exact ⟨⟨fun _ => by omega, fun _ => trivial⟩, by omega⟩

theorem toMicros_lt_iff (unit : TimestampUnit) (v w : Int) : toMicros v unit < toMicros w unit ↔ v < w := by
  cases unit with
  | millis =>
    simp only [toMicros]
    omega
  | micros => exact Iff.rfl

theorem zip_map_self {α β : Type} (f : α → β) (xs : List α) : xs.zip (xs.map f) = xs.map (fun x => (x, f x)) := by
  induction xs with
  | nil => rfl
  | cons x xs ih => rw [List.map_cons, List.zip_cons_cons, ih, List.map_cons]

theorem emits_of_unit {unit : TimestampUnit} {values : List Int} (h : ∀ v ∈ values, unitOf v = .ok unit) :
    Emits values (values.map (fun v => toMicros v unit)) where
  micros us hus := by
    obtain ⟨v, hv, rfl⟩ := List.mem_map.1 hus
    exact (toMicros_same (h v hv)).2
  same := by
    rw [List.forall₂_map_right_iff, List.forall₂_same]
    exact fun v hv => (toMicros_same (h v hv)).1
  ordered p hp q hq := by
    rw [zip_map_self, List.mem_map] at hp hq
    obtain ⟨v, -, rfl⟩ := hp
    obtain ⟨w, -, rfl⟩ := hq
    exact toMicros_lt_iff unit v w

/-! ## Rows and files -/

section Files

variable {α : Type} (rowOf : UnitNormaliser → List String → Except ParseError (α × UnitNormaliser))
  (times : List String → Option (List Int)) (instants : α → List Int)

/-- **What a row does with the times of a line of the right shape.** -/
structure ReadsTimes : Prop where
  accepts : ∀ {fields ts unit} {self : UnitNormaliser}, times fields = some ts → (∀ t ∈ ts, unitOf t = .ok unit) →
    (self.unit = none ∨ self.unit = some unit) → ∃ row self', rowOf self fields = .ok (row, self') ∧ self'.unit = some unit
  unit : ∀ {fields ts} {self self' : UnitNormaliser} {row}, times fields = some ts → rowOf self fields = .ok (row, self') →
    ∃ unit, self'.unit = some unit ∧ (self.unit = none ∨ self.unit = some unit) ∧ (∀ t ∈ ts, unitOf t = .ok unit) ∧
      instants row = ts.map (fun t => toMicros t unit)

/-- Every line that is not blank has the right shape. -/
def Shaped (lines : List String) : Prop := ∀ line ∈ lines, ∀ fields, fieldsOf line = some fields → ∃ ts, times fields = some ts

theorem shaped_of_all {lines : List String}
    (h : (lines.filterMap fieldsOf).all (fun fields => (times fields).isSome) = true) : Shaped times lines := by
  intro line hline fields hfields
  exact Option.isSome_iff_exists.1 (List.all_eq_true.1 h fields (List.mem_filterMap.2 ⟨line, hline, hfields⟩))

/-- The times of a file, in the order they are read. -/
def fileTimes (lines : List String) : List Int := lines.flatMap (fun line => ((fieldsOf line).bind times).getD [])

variable {rowOf times instants} (hreads : ReadsTimes rowOf times instants)
include hreads

theorem parseLines_accepts {unit : TimestampUnit} : ∀ {lines : List String} {self : UnitNormaliser}, Shaped times lines →
    (∀ t ∈ fileTimes times lines, unitOf t = .ok unit) → (self.unit = none ∨ self.unit = some unit) →
    ∃ rows, parseLines rowOf self lines = .ok rows
  | [], self, _, _, _ => ⟨[], rfl⟩
  | line :: lines, self, hshaped, hunit, hself => by
    have hshaped' : Shaped times lines := fun l hl => hshaped l (List.mem_cons_of_mem _ hl)
    have hunit' : ∀ t ∈ fileTimes times lines, unitOf t = .ok unit := fun t ht => hunit t (by
      unfold fileTimes at ht ⊢
      rw [List.flatMap_cons]
      exact List.mem_append_right _ ht)
    rw [parseLines]
    cases hfields : fieldsOf line with
    | none => exact parseLines_accepts hshaped' hunit' hself
    | some fields =>
      obtain ⟨ts, hts⟩ := hshaped line List.mem_cons_self fields hfields
      have hline : ∀ t ∈ ts, unitOf t = .ok unit := fun t ht => hunit t (by
        unfold fileTimes
        rw [List.flatMap_cons, hfields, Option.bind_some, hts]
        exact List.mem_append_left _ ht)
      obtain ⟨row, self', hrow, hself'⟩ := hreads.accepts hts hline hself
      obtain ⟨rows, hrows⟩ := parseLines_accepts hshaped' hunit' (Or.inr hself')
      refine ⟨row :: rows, ?_⟩
      show (rowOf self fields >>= fun p => parseLines rowOf p.2 lines >>= fun rows => pure (p.1 :: rows)) = _
      rw [hrow]
      show (parseLines rowOf self' lines >>= fun rows => pure (row :: rows)) = _
      rw [hrows]
      rfl

/-- **An accepted file has one unit**, the one it was held to, and its instants are its times in that unit. -/
theorem parseLines_unit : ∀ {lines : List String} {self : UnitNormaliser} {rows : List α}, Shaped times lines →
    parseLines rowOf self lines = .ok rows → ∃ unit, (self.unit = none ∨ self.unit = some unit) ∧
      (∀ t ∈ fileTimes times lines, unitOf t = .ok unit) ∧
      rows.flatMap instants = (fileTimes times lines).map (fun t => toMicros t unit)
  | [], self, rows, _, h => by
    cases h
    cases hself : self.unit with
    | none => exact ⟨.millis, Or.inl rfl, fun t ht => absurd ht List.not_mem_nil, rfl⟩
    | some unit => exact ⟨unit, Or.inr rfl, fun t ht => absurd ht List.not_mem_nil, rfl⟩
  | line :: lines, self, rows, hshaped, h => by
    have hshaped' : Shaped times lines := fun l hl => hshaped l (List.mem_cons_of_mem _ hl)
    rw [parseLines] at h
    unfold fileTimes
    rw [List.flatMap_cons]
    cases hfields : fieldsOf line with
    | none =>
      rw [hfields] at h
      exact parseLines_unit hshaped' h
    | some fields =>
      rw [hfields] at h
      obtain ⟨⟨row, self'⟩, hrow, h⟩ := bind_ok h
      obtain ⟨rest, hrest, h⟩ := bind_ok h
      cases h
      obtain ⟨ts, hts⟩ := hshaped line List.mem_cons_self fields hfields
      obtain ⟨unit, hself', hself, hline, hinstants⟩ := hreads.unit hts hrow
      obtain ⟨unit', hheld, hlines, hrestInstants⟩ := parseLines_unit hshaped' hrest
      obtain rfl : unit = unit' := by
        rcases hheld with hheld | hheld
        · rw [hself'] at hheld
          cases hheld
        · exact Option.some.inj (hself'.symm.trans hheld)
      refine ⟨unit, hself, fun t ht => ?_, ?_⟩
      · rw [Option.bind_some, hts, Option.getD_some] at ht
        exact (List.mem_append.1 ht).elim (hline t) (hlines t)
      · rw [Option.bind_some, hts, Option.getD_some, List.flatMap_cons, List.map_append, hinstants, hrestInstants]
        rfl

/-- **The files accepted are those of one unit**, and what is emitted for one are its instants. -/
theorem parseLines_units {lines : List String} (hshaped : Shaped times lines) :
    ((∃ rows, parseLines rowOf .new lines = .ok rows) ↔ OneUnit (fileTimes times lines)) ∧
    ∀ rows, parseLines rowOf .new lines = .ok rows → Emits (fileTimes times lines) (rows.flatMap instants) := by
  refine ⟨⟨?_, fun h => ?_⟩, fun rows h => ?_⟩
  · rintro ⟨rows, h⟩
    obtain ⟨unit, -, hunit, -⟩ := parseLines_unit hreads hshaped h
    exact oneUnit_iff.2 ⟨unit, hunit⟩
  · obtain ⟨unit, hunit⟩ := oneUnit_iff.1 h
    exact parseLines_accepts hreads hshaped hunit (Or.inl rfl)
  · obtain ⟨unit, -, hunit, hinstants⟩ := parseLines_unit hreads hshaped h
    rw [hinstants]
    exact emits_of_unit hunit

end Files

/-! ## The two parsers -/

/-- The times of an aggTrades line of the right shape: eight fields, its numbers and its flag readable. -/
def aggTradeTimes : List String → Option (List Int)
  | [id, _, _, first, last, timestamp, isBuyerMaker, _] => do
    let _ ← Python.int id.toList
    let _ ← Python.int first.toList
    let _ ← Python.int last.toList
    let time ← Python.int timestamp.toList
    if isBuyerMaker = "True" ∨ isBuyerMaker = "False" then some [time] else none
  | _ => none

/-- The times of a klines line of the right shape: twelve fields, its numbers readable. -/
def klineTimes : List String → Option (List Int)
  | [openTime, _, _, _, _, _, closeTime, _, tradeCount, _, _, _] => do
    let openTime ← Python.int openTime.toList
    let closeTime ← Python.int closeTime.toList
    let _ ← Python.int tradeCount.toList
    return [openTime, closeTime]
  | _ => none

theorem int_of_some {text : String} {n : Int} (h : Python.int text.toList = some n) : int text = .ok n := by
  unfold int
  rw [h]

/-- A normaliser that holds a unit keeps it. -/
theorem UnitNormaliser.call_held {self self' : UnitNormaliser} {value us : Int} (h : self.call value = .ok (us, self')) :
    self.unit = none ∨ self.unit = self'.unit := by
  obtain ⟨unit, hunit, -, -⟩ := UnitNormaliser.call_ok h
  unfold UnitNormaliser.call at h
  rw [hunit] at h
  cases hself : self.unit with
  | none => exact Or.inl rfl
  | some earlier =>
    simp only [hself, bind, Except.bind, pure, Except.pure] at h
    split at h
    · cases h
    · cases h
      exact Or.inr rfl

theorem aggTradeTimes_ok {fields : List String} {ts : List Int} (h : aggTradeTimes fields = some ts) :
    ∃ id price quantity first last timestamp isBuyerMaker isBestMatch aggTradeId firstTradeId lastTradeId time,
      fields = [id, price, quantity, first, last, timestamp, isBuyerMaker, isBestMatch] ∧ ts = [time] ∧
      int id = .ok aggTradeId ∧ int first = .ok firstTradeId ∧ int last = .ok lastTradeId ∧ int timestamp = .ok time ∧
      ∃ side, sideFromBuyerMaker isBuyerMaker = .ok side := by
  unfold aggTradeTimes at h
  split at h
  · rename_i id price quantity first last timestamp isBuyerMaker isBestMatch
    obtain ⟨aggTradeId, hid, h⟩ := Option.bind_eq_some_iff.1 h
    obtain ⟨firstTradeId, hfirst, h⟩ := Option.bind_eq_some_iff.1 h
    obtain ⟨lastTradeId, hlast, h⟩ := Option.bind_eq_some_iff.1 h
    obtain ⟨time, htime, h⟩ := Option.bind_eq_some_iff.1 h
    split at h
    · rename_i hflag
      cases h
      refine ⟨id, price, quantity, first, last, timestamp, isBuyerMaker, isBestMatch, aggTradeId, firstTradeId, lastTradeId,
        time, rfl, rfl, int_of_some hid, int_of_some hfirst, int_of_some hlast, int_of_some htime, ?_⟩
      rcases hflag with rfl | rfl
      · exact ⟨.sell, rfl⟩
      · exact ⟨.buy, rfl⟩
    · cases h
  · cases h

theorem aggTrade_readsTimes : ReadsTimes aggTradeOf aggTradeTimes (fun trade => [trade.eventTsUs]) where
  accepts {fields ts unit self} hts hunit hself := by
    obtain ⟨id, price, quantity, first, last, timestamp, isBuyerMaker, isBestMatch, aggTradeId, firstTradeId, lastTradeId,
      time, rfl, rfl, hid, hfirst, hlast, htime, side, hside⟩ := aggTradeTimes_ok hts
    have hcall := UnitNormaliser.call_of_unit (hunit time List.mem_cons_self) hself
    refine ⟨⟨aggTradeId, price, quantity, firstTradeId, lastTradeId, toMicros time unit, side⟩, ⟨some unit⟩, ?_, rfl⟩
    simp only [aggTradeOf, hid, hfirst, hlast, htime, hcall, hside, bind, Except.bind, pure, Except.pure]
  unit {fields ts self self' row} hts hrow := by
    obtain ⟨id, price, quantity, first, last, timestamp, isBuyerMaker, isBestMatch, _, _, _,
      time, rfl, rfl, -, -, -, htime, -⟩ := aggTradeTimes_ok hts
    unfold aggTradeOf at hrow
    obtain ⟨_, -, hrow⟩ := bind_ok hrow
    obtain ⟨_, -, hrow⟩ := bind_ok hrow
    obtain ⟨_, -, hrow⟩ := bind_ok hrow
    obtain ⟨value, hvalue, hrow⟩ := bind_ok hrow
    obtain ⟨⟨us, next⟩, hcall, hrow⟩ := bind_ok hrow
    obtain ⟨side, -, hrow⟩ := bind_ok hrow
    cases hrow
    rw [htime] at hvalue
    cases hvalue
    obtain ⟨unit, hunit, hmicros, hnext, -⟩ := UnitNormaliser.call_ok hcall
    refine ⟨unit, hnext, hnext ▸ UnitNormaliser.call_held hcall, List.forall_mem_singleton.2 hunit, ?_⟩
    rw [List.map_cons, List.map_nil, hmicros]

theorem klineTimes_ok {fields : List String} {ts : List Int} (h : klineTimes fields = some ts) :
    ∃ openTime opening high low close volume closeTime quoteVolume tradeCount takerBase takerQuote ignore openValue closeValue
        count,
      fields = [openTime, opening, high, low, close, volume, closeTime, quoteVolume, tradeCount, takerBase, takerQuote, ignore] ∧
      ts = [openValue, closeValue] ∧ int openTime = .ok openValue ∧ int closeTime = .ok closeValue ∧
      int tradeCount = .ok count := by
  unfold klineTimes at h
  split at h
  · obtain ⟨openValue, hopen, h⟩ := Option.bind_eq_some_iff.1 h
    obtain ⟨closeValue, hclose, h⟩ := Option.bind_eq_some_iff.1 h
    obtain ⟨count, hcount, h⟩ := Option.bind_eq_some_iff.1 h
    cases h
    exact ⟨_, _, _, _, _, _, _, _, _, _, _, _, openValue, closeValue, count, rfl, rfl, int_of_some hopen, int_of_some hclose,
      int_of_some hcount⟩
  · cases h

theorem kline_readsTimes : ReadsTimes klineOf klineTimes (fun bar => [bar.openTimeUs, bar.closeTimeUs]) where
  accepts {fields ts unit self} hts hunit hself := by
    obtain ⟨openTime, opening, high, low, close, volume, closeTime, quoteVolume, tradeCount, takerBase, takerQuote, ignore,
      openValue, closeValue, count, rfl, rfl, hopen, hclose, hcount⟩ := klineTimes_ok hts
    have hopened := UnitNormaliser.call_of_unit (hunit openValue List.mem_cons_self) hself
    have hclosed : UnitNormaliser.call ⟨some unit⟩ closeValue = .ok (toMicros closeValue unit, ⟨some unit⟩) :=
      UnitNormaliser.call_of_unit (hunit closeValue (List.mem_cons_of_mem _ List.mem_cons_self)) (Or.inr rfl)
    refine ⟨⟨toMicros openValue unit, toMicros closeValue unit, opening, high, low, close, volume, quoteVolume, count,
      takerBase, takerQuote⟩, ⟨some unit⟩, ?_, rfl⟩
    simp only [klineOf, hopen, hclose, hcount, hopened, hclosed, bind, Except.bind, pure, Except.pure]
  unit {fields ts self self' row} hts hrow := by
    obtain ⟨openTime, opening, high, low, close, volume, closeTime, quoteVolume, tradeCount, takerBase, takerQuote, ignore,
      openValue, closeValue, count, rfl, rfl, hopen, hclose, -⟩ := klineTimes_ok hts
    unfold klineOf at hrow
    obtain ⟨value, hvalue, hrow⟩ := bind_ok hrow
    obtain ⟨⟨openUs, opened⟩, hopened, hrow⟩ := bind_ok hrow
    obtain ⟨value', hvalue', hrow⟩ := bind_ok hrow
    obtain ⟨⟨closeUs, closed⟩, hclosed, hrow⟩ := bind_ok hrow
    obtain ⟨_, -, hrow⟩ := bind_ok hrow
    cases hrow
    rw [hopen] at hvalue
    rw [hclose] at hvalue'
    cases hvalue
    cases hvalue'
    obtain ⟨unit, hunit, hmicros, hheld, -⟩ := UnitNormaliser.call_ok hopened
    obtain ⟨unit', hunit', hmicros', hheld', -⟩ := UnitNormaliser.call_ok hclosed
    -- the close time is held to the unit of the open time
    obtain rfl : unit = unit' := by
      rcases UnitNormaliser.call_held hclosed with hnone | hsame
      · rw [hheld] at hnone
        cases hnone
      · rw [hheld, hheld'] at hsame
        exact Option.some.inj hsame
    refine ⟨unit, hheld', hheld ▸ UnitNormaliser.call_held hopened, ?_, ?_⟩
    · exact List.forall_mem_cons.2 ⟨hunit, List.forall_mem_singleton.2 hunit'⟩
    · rw [List.map_cons, List.map_cons, List.map_nil, hmicros, hmicros']

/-! ## A mixed file -/

def timesOf : Tier → List String → Option (List Int)
  | .deep => klineTimes
  | .hot  => aggTradeTimes

theorem stage_eq_error {tier : Tier} (instrumentId venueSymbol : String) {lines : List String}
    (hshaped : Shaped (timesOf tier) lines) (hmixed : ¬ OneUnit (fileTimes (timesOf tier) lines)) :
    ∃ e, stage tier instrumentId venueSymbol lines = .error e := by
  cases tier with
  | deep =>
    cases h : parseKlines lines with
    | error e => exact ⟨e, by unfold stage; rw [h]; rfl⟩
    | ok bars => exact absurd ((parseLines_units kline_readsTimes hshaped).1.1 ⟨bars, h⟩) hmixed
  | hot =>
    cases h : parseAggTrades lines with
    | error e => exact ⟨e, by unfold stage; rw [h]; rfl⟩
    | ok trades => exact absurd ((parseLines_units aggTrade_readsTimes hshaped).1.1 ⟨trades, h⟩) hmixed

/-- **Every timestamp of a file is read in one unit.**  On lines of the right shape either parser accepts the files whose
times are all in milliseconds or all in microseconds, and emits their instants; a file that mixes the units is recorded
as failed and stages nothing. -/
theorem file_units (lines : List String) :
    (Shaped aggTradeTimes lines →
      ((∃ trades, parseAggTrades lines = .ok trades) ↔ OneUnit (fileTimes aggTradeTimes lines)) ∧
      ∀ trades, parseAggTrades lines = .ok trades →
        Emits (fileTimes aggTradeTimes lines) (trades.flatMap (fun trade => [trade.eventTsUs]))) ∧
    (Shaped klineTimes lines →
      ((∃ bars, parseKlines lines = .ok bars) ↔ OneUnit (fileTimes klineTimes lines)) ∧
      ∀ bars, parseKlines lines = .ok bars →
        Emits (fileTimes klineTimes lines) (bars.flatMap (fun bar => [bar.openTimeUs, bar.closeTimeUs]))) ∧
    ∀ (lib : Stdlib) (archive : Archive) (answer : String → Answer) (item : WorkItem) (objects : Objects) (digest : String),
      readFile lib archive answer item.archiveKey = .ok (digest, lines) → Shaped (timesOf item.tier) lines →
        ¬ OneUnit (fileTimes (timesOf item.tier) lines) →
          ∃ reason, load lib archive answer item objects = some (objects, .ofFailed item.archiveKey reason) := by
  refine ⟨fun h => parseLines_units aggTrade_readsTimes h, fun h => parseLines_units kline_readsTimes h, ?_⟩
  intro lib archive answer item objects digest hread hshaped hmixed
  obtain ⟨e, he⟩ := stage_eq_error item.instrumentId item.venueSymbol hshaped hmixed
  refine ⟨.data (.parse e), ?_⟩
  simp only [load, loadItem, hread, he, bind, Except.bind, Except.mapError]

/-- Two trades in milliseconds, and the second of them in microseconds. -/
def millisLines : List String :=
  ["1,60000.0,0.5,1,1,1728000600000,True,True", "2,60001.0,0.5,2,2,1728000600001,False,True"]

def mixedLines : List String :=
  ["1,60000.0,0.5,1,1,1728000600000,True,True", "2,60001.0,0.5,2,2,1728000600001000,False,True"]

theorem file_units_twoTrades : (∃ trades, parseAggTrades millisLines = .ok trades ∧
      Emits [1728000600000, 1728000600001] (trades.flatMap (fun trade => [trade.eventTsUs]))) ∧
    ¬ ∃ trades, parseAggTrades mixedLines = .ok trades := by
  obtain ⟨hiff, hemits⟩ := (file_units millisLines).1 (shaped_of_all _ (by decide +kernel))
  obtain ⟨hiff', -⟩ := (file_units mixedLines).1 (shaped_of_all _ (by decide +kernel))
  have htimes : fileTimes aggTradeTimes millisLines = [1728000600000, 1728000600001] := by decide +kernel
  have htimes' : fileTimes aggTradeTimes mixedLines = [1728000600000, 1728000600001000] := by decide +kernel
  rw [htimes] at hiff hemits
  rw [htimes'] at hiff'
  obtain ⟨trades, htrades⟩ := hiff.2 (Or.inl (by decide))
  refine ⟨⟨trades, htrades, hemits trades htrades⟩, fun hmixed => ?_⟩
  rcases hiff'.1 hmixed with h | h
  · exact absurd (h 1728000600001000 (by decide)) (by decide)
  · exact absurd (h 1728000600000 (by decide)) (by decide)

end Backfill
