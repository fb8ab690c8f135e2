import RealtimeFinance.Python.Text
import RealtimeFinance.Backfill.Epoch
import RealtimeFinance.Ingest.Models
import RealtimeFinance.Sql.Merge
/-!
# Parsers — `awsnative.backfill.parsers`

Archive CSV to typed rows.  A file is parsed whole or not at all: the loader takes the list of its rows.  Prices and
sizes stay the texts they were.
-/
namespace Backfill

open Ingest Sql

def aggTradeColumns : Nat := 8

def klineColumns : Nat := 12

structure ArchiveAggTrade where
  aggTradeId : Int
  price : String
  quantity : String
  firstTradeId : Int
  lastTradeId : Int
  eventTsUs : Int
  side : Side
  deriving DecidableEq

structure ArchiveKline where
  openTimeUs : Int
  closeTimeUs : Int
  opening : String
  high : String
  low : String
  close : String
  volume : String
  quoteVolume : String
  tradeCount : Int
  takerBuyBaseVolume : String
  takerBuyQuoteVolume : String
  deriving DecidableEq

/-- `line.strip().split(",")`, or none where the line is blank. -/
def fieldsOf (line : String) : Option (List String) :=
  let stripped := Python.strip line.toList
  if stripped.isEmpty then none else some ((stripped.splitOn ',').map String.ofList)

def int (text : String) : Except ParseError Int :=
  match Python.int text.toList with
  | some n => .ok n
  | none   => .error (.notAnInteger text)

def sideFromBuyerMaker (text : String) : Except ParseError Side :=
  if text = "True" then .ok .sell
  else if text = "False" then .ok .buy
  else .error (.isBuyerMaker text)

def aggTradeOf (normalise : UnitNormaliser) : List String → Except ParseError (ArchiveAggTrade × UnitNormaliser)
  | [id, price, quantity, first, last, timestamp, isBuyerMaker, _] => do
    let aggTradeId ← int id
    let firstTradeId ← int first
    let lastTradeId ← int last
    let (eventTsUs, normalise) ← normalise.call (← int timestamp)
    let side ← sideFromBuyerMaker isBuyerMaker
    return ({ aggTradeId, price, quantity, firstTradeId, lastTradeId, eventTsUs, side }, normalise)
  | fields => .error (.columns "aggTrades" fields.length aggTradeColumns)

def klineOf (normalise : UnitNormaliser) : List String → Except ParseError (ArchiveKline × UnitNormaliser)
  | [openTime, opening, high, low, close, volume, closeTime, quoteVolume, tradeCount, takerBase, takerQuote, _] => do
    let (openTimeUs, normalise) ← normalise.call (← int openTime)
    let (closeTimeUs, normalise) ← normalise.call (← int closeTime)
    let tradeCount ← int tradeCount
    return ({ openTimeUs, closeTimeUs, opening, high, low, close, volume, quoteVolume, tradeCount
              takerBuyBaseVolume := takerBase, takerBuyQuoteVolume := takerQuote }, normalise)
  | fields => .error (.columns "klines" fields.length klineColumns)

/-- The loop of both parsers: a blank line is skipped, every other one is a row. -/
def parseLines {α : Type} (rowOf : UnitNormaliser → List String → Except ParseError (α × UnitNormaliser)) :
    UnitNormaliser → List String → Except ParseError (List α)
  | _, []                    => .ok []
  | normalise, line :: lines =>
    match fieldsOf line with
    | none        => parseLines rowOf normalise lines
    | some fields => do
      let (row, normalise) ← rowOf normalise fields
      return row :: (← parseLines rowOf normalise lines)

def parseAggTrades (lines : List String) : Except ParseError (List ArchiveAggTrade) := parseLines aggTradeOf .new lines

def parseKlines (lines : List String) : Except ParseError (List ArchiveKline) := parseLines klineOf .new lines

/-! ## What a parsed row is made of -/

/-- **What stands between two separators holds none.** -/
theorem not_mem_of_mem_splitOn {α : Type} [BEq α] [LawfulBEq α] {a : α} : ∀ {xs part : List α}, part ∈ xs.splitOn a →
    a ∉ part
  | [], part, h => by
    rw [List.splitOn_nil, List.mem_singleton] at h
    rw [h]
    exact List.not_mem_nil
  | x :: xs, part, h => by
    rw [List.splitOn_cons_eq_if_modifyHead] at h
    split at h
    · rcases List.mem_cons.1 h with rfl | h
      · exact List.not_mem_nil
      · exact not_mem_of_mem_splitOn h
    · rename_i hx
      have hne : a ≠ x := fun he => hx (by rw [he]; exact beq_self_eq_true x)
      have hparts : ∀ part ∈ xs.splitOn a, a ∉ part := fun part => not_mem_of_mem_splitOn
      generalize xs.splitOn a = parts at h hparts
      cases parts with
      | nil => cases h
      | cons first rest =>
        rcases List.mem_cons.1 h with rfl | h
        · exact fun hmem => (List.mem_cons.1 hmem).elim hne (hparts first List.mem_cons_self)
        · exact hparts part (List.mem_cons_of_mem _ h)

theorem fieldsOf_plain {line : String} {fields : List String} (h : fieldsOf line = some fields) {field : String}
    (hfield : field ∈ fields) : ',' ∉ field.toList := by
  unfold fieldsOf at h
  simp only at h
  split at h
  · cases h
  · cases h
    obtain ⟨part, hpart, rfl⟩ := List.mem_map.1 hfield
    rw [String.toList_ofList]
    exact not_mem_of_mem_splitOn hpart

/-- **Each row of a file is one of its lines.** -/
theorem mem_parseLines {α : Type} {rowOf : UnitNormaliser → List String → Except ParseError (α × UnitNormaliser)} :
    ∀ {lines : List String} {normalise : UnitNormaliser} {rows : List α}, parseLines rowOf normalise lines = .ok rows →
      ∀ row ∈ rows, ∃ line ∈ lines, ∃ fields, fieldsOf line = some fields ∧
        ∃ before after, rowOf before fields = .ok (row, after)
  | [], normalise, rows, h, row, hrow => by
    cases h
    cases hrow
  | line :: lines, normalise, rows, h, row, hrow => by
    rw [parseLines] at h
    cases hfields : fieldsOf line with
    | none =>
      rw [hfields] at h
      obtain ⟨line', hline', hof⟩ := mem_parseLines h row hrow
      exact ⟨line', List.mem_cons_of_mem _ hline', hof⟩
    | some fields =>
      rw [hfields] at h
      obtain ⟨⟨first, after⟩, hfirst, h⟩ := bind_ok h
      obtain ⟨rest, hrest, h⟩ := bind_ok h
      cases h
      rcases List.mem_cons.1 hrow with rfl | hrow
      · exact ⟨line, List.mem_cons_self, fields, hfields, normalise, after, hfirst⟩
      · obtain ⟨line', hline', hof⟩ := mem_parseLines hrest row hrow
        exact ⟨line', List.mem_cons_of_mem _ hline', hof⟩

/-- **The amounts of a trade are two of its line's texts**, and its instant is plausible. -/
theorem aggTradeOf_ok {normalise after : UnitNormaliser} {fields : List String} {trade : ArchiveAggTrade}
    (h : aggTradeOf normalise fields = .ok (trade, after)) :
    trade.price ∈ fields ∧ trade.quantity ∈ fields ∧ Plausible trade.eventTsUs := by
  unfold aggTradeOf at h
  split at h
  · obtain ⟨aggTradeId, -, h⟩ := bind_ok h
    obtain ⟨firstTradeId, -, h⟩ := bind_ok h
    obtain ⟨lastTradeId, -, h⟩ := bind_ok h
    obtain ⟨timestamp, -, h⟩ := bind_ok h
    obtain ⟨⟨eventTsUs, next⟩, hcall, h⟩ := bind_ok h
    obtain ⟨side, -, h⟩ := bind_ok h
    cases h
    obtain ⟨unit, -, -, -, hspan⟩ := UnitNormaliser.call_ok hcall
    exact ⟨by simp, by simp, hspan⟩
  · cases h

/-- **The amounts of a bar are texts of its line**, and its open time is plausible. -/
theorem klineOf_ok {normalise after : UnitNormaliser} {fields : List String} {bar : ArchiveKline}
    (h : klineOf normalise fields = .ok (bar, after)) :
    (∀ text ∈ [bar.opening, bar.high, bar.low, bar.close, bar.volume, bar.quoteVolume, bar.takerBuyBaseVolume],
      text ∈ fields) ∧ Plausible bar.openTimeUs := by
  unfold klineOf at h
  split at h
  · obtain ⟨openTime, -, h⟩ := bind_ok h
    obtain ⟨⟨openTimeUs, opened⟩, hcall, h⟩ := bind_ok h
    obtain ⟨closeTime, -, h⟩ := bind_ok h
    obtain ⟨⟨closeTimeUs, closed⟩, -, h⟩ := bind_ok h
    obtain ⟨tradeCount, -, h⟩ := bind_ok h
    cases h
    obtain ⟨unit, -, -, -, hspan⟩ := UnitNormaliser.call_ok hcall
    exact ⟨by simp, hspan⟩
  · cases h

end Backfill
