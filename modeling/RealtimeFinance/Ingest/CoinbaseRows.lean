import RealtimeFinance.Ingest.Coinbase
import RealtimeFinance.Ingest.RowLoop
/-!
# CoinbaseRows — what Coinbase's `_to_trade` makes of any JSON

A row holds a trade (`coinbaseTradeOf`) when its symbol is mapped, its time is an instant and its id, price and size are
texts or numbers.  A list for a symbol raises a `TypeError` and a null time an `AttributeError`, which the loop does not
catch (`CoinbaseBreaks`); a null price raises nothing, and becomes the trade's price.
-/
namespace Ingest

open Python

/-- A field that is a text or a number. -/
def plainValue (row : JsonTree) (key : String) : Option JsonTree :=
  match row.field key with
  | some (.int n)        => some (.int n)
  | some (.float text v) => some (.float text v)
  | some (.str s)        => some (.str s)
  | _                    => none

theorem plainValue_eq_some {row value : JsonTree} {key : String} :
    plainValue row key = some value ↔ row.field key = some value ∧ value.IsPlain := by
  unfold plainValue JsonTree.IsPlain
  constructor
  · intro h
    split at h
    · rename_i n hfield
      cases h
      exact ⟨hfield, trivial⟩
    · rename_i text v hfield
      cases h
      exact ⟨hfield, trivial⟩
    · rename_i s hfield
      cases h
      exact ⟨hfield, trivial⟩
    · cases h
  · rintro ⟨hfield, hplain⟩
    rw [hfield]
    cases value with
    | int n => rfl
    | float text v => rfl
    | str s => rfl
    | null => exact absurd hplain id
    | bool b => exact absurd hplain id
    | list items => exact absurd hplain id
    | object items => exact absurd hplain id

variable (isPrintable : Char → Bool) (rfc3339ToUs : String → Option Int) (instruments : InstrumentMap)

/-- **The trade that a row holds**: its symbol is mapped, its time is an instant, and its id, price and size are texts or
numbers. -/
def coinbaseTradeOf (sequence : Option JsonTree) (source : Source) (now : Int) (row : JsonTree) : Option Trade := do
  let venueSymbol ← (row.field "product_id").bind JsonTree.asText
  let instrumentId ← instruments.canonical "coinbase" venueSymbol
  let tradeId ← plainValue row "trade_id"
  let eventTsUs ← ((row.field "time").bind JsonTree.asText).bind rfc3339ToUs
  let price ← plainValue row "price"
  let size ← plainValue row "size"
  let sequence ← (sequenceOf sequence).toOption
  return { venue := "coinbase", venueSymbol, instrumentId, tradeId := tradeId.text isPrintable, eventTsUs
           ingestTsUs := now, price := price.text isPrintable, size := size.text isPrintable
           side := sideOf (row.field "side"), sequence, isBackfill := decide (source ≠ .stream), source }

/-- The symbol of a row is mapped. -/
def IsMapped (venue : String) (symbol : Option JsonTree) : Prop :=
  ∃ s, symbol = some (.str s) ∧ (instruments.canonical venue s).isSome

def SequenceBreaks (sequence : Option JsonTree) : Prop := ∃ s, sequence = some s ∧ s ≠ .null ∧ s.BreaksInt

/-- A row that takes its siblings with it: no object, or with a list or an object for a symbol; or mapped, and with a time
that is no text, or all its fields and a sequence number that is no number. -/
def CoinbaseBreaks (sequence : Option JsonTree) (row : JsonTree) : Prop :=
  ¬ row.IsObject ∨ (∃ symbol, row.field "product_id" = some symbol ∧ symbol.IsContainer) ∨
    IsMapped instruments "coinbase" (row.field "product_id") ∧ (row.field "trade_id").isSome ∧
      ∃ time, row.field "time" = some time ∧ (time.asText = none ∨ (time.asText.bind rfc3339ToUs).isSome ∧
        (row.field "price").isSome ∧ (row.field "size").isSome ∧ SequenceBreaks sequence)

/-- A row that converts. -/
structure CoinbaseConverts (sequence : Option JsonTree) (row : JsonTree) : Prop where
  mapped : IsMapped instruments "coinbase" (row.field "product_id")
  tradeId : (row.field "trade_id").isSome
  time : (((row.field "time").bind JsonTree.asText).bind rfc3339ToUs).isSome
  price : (row.field "price").isSome
  size : (row.field "size").isSome
  sequence : (sequenceOf sequence).toOption.isSome

/-- A row that does no harm. -/
def CoinbaseSafe (sequence : Option JsonTree) (row : JsonTree) : Prop :=
  ¬ CoinbaseBreaks rfc3339ToUs instruments sequence row ∧ (CoinbaseConverts rfc3339ToUs instruments sequence row →
    ∀ key ∈ ["trade_id", "price", "size"], ∀ value, row.field key = some value → value.IsPlain)

variable {isPrintable rfc3339ToUs instruments}

theorem canonicalOf_eq_ok {venue : String} {symbol : JsonTree} {mapped : String × String} :
    canonicalOf instruments venue symbol = .ok (some mapped) ↔
      symbol = .str mapped.1 ∧ instruments.canonical venue mapped.1 = some mapped.2 := by
  obtain ⟨venueSymbol, instrumentId⟩ := mapped
  unfold canonicalOf
  cases symbol with
  | str s =>
    simp only [Except.ok.injEq, Option.map_eq_some_iff, JsonTree.str.injEq, Prod.mk.injEq]
    constructor
    · rintro ⟨id, hid, rfl, rfl⟩
      exact ⟨rfl, hid⟩
    · rintro ⟨rfl, hid⟩
      exact ⟨instrumentId, hid, rfl, rfl⟩
  | null => simp
  | bool b => simp
  | int n => simp
  | float text v => simp
  | list items => simp
  | object items => simp

theorem escapes_canonicalOf {venue : String} {symbol : JsonTree} :
    Escapes (canonicalOf instruments venue symbol) ↔ symbol.IsContainer := by
  unfold canonicalOf JsonTree.IsContainer
  cases symbol with
  | list items => simp [Raised.isCaught]
  | object items => simp [Raised.isCaught]
  | null => simp
  | bool b => simp
  | int n => simp
  | float text v => simp
  | str s => simp

theorem mappedTrade_eq_ok {venue : String} {symbol : JsonTree} {build : String → String → Except Raised Trade}
    {trade : Trade} : mappedTrade instruments venue symbol build = .ok (some trade) ↔ ∃ venueSymbol instrumentId,
      symbol = .str venueSymbol ∧ instruments.canonical venue venueSymbol = some instrumentId ∧
        build venueSymbol instrumentId = .ok trade := by
  unfold mappedTrade
  constructor
  · intro h
    obtain ⟨mapped, hmapped, hmakes⟩ := bind_eq_ok.1 h
    cases mapped with
    | none => cases hmakes
    | some mapped =>
      obtain ⟨hsymbol, hcanonical⟩ := canonicalOf_eq_ok.1 hmapped
      have hbuilds : (build mapped.1 mapped.2 >>= fun made => pure (some made)) = .ok (some trade) := hmakes
      obtain ⟨made, hmade, hpure⟩ := bind_eq_ok.1 hbuilds
      cases hpure
      exact ⟨mapped.1, mapped.2, hsymbol, hcanonical, hmade⟩
  · rintro ⟨venueSymbol, instrumentId, hsymbol, hcanonical, hmade⟩
    refine bind_eq_ok.2 ⟨some (venueSymbol, instrumentId), canonicalOf_eq_ok.2 ⟨hsymbol, hcanonical⟩, ?_⟩
    exact bind_eq_ok.2 ⟨trade, hmade, rfl⟩

theorem escapes_mappedTrade {venue : String} {symbol : JsonTree} {build : String → String → Except Raised Trade} :
    Escapes (mappedTrade instruments venue symbol build) ↔ symbol.IsContainer ∨ ∃ venueSymbol instrumentId,
      symbol = .str venueSymbol ∧ instruments.canonical venue venueSymbol = some instrumentId ∧
        Escapes (build venueSymbol instrumentId) := by
  unfold mappedTrade
  rw [escapes_bind, escapes_canonicalOf]
  refine or_congr Iff.rfl ?_
  constructor
  · rintro ⟨mapped, hmapped, hmakes⟩
    cases mapped with
    | none => exact absurd hmakes (escapes_pure none)
    | some mapped =>
      obtain ⟨hsymbol, hcanonical⟩ := canonicalOf_eq_ok.1 hmapped
      rcases escapes_bind.1 hmakes with hbuild | ⟨made, -, hpure⟩
      · exact ⟨mapped.1, mapped.2, hsymbol, hcanonical, hbuild⟩
      · exact absurd hpure (escapes_pure _)
  · rintro ⟨venueSymbol, instrumentId, hsymbol, hcanonical, hbuild⟩
    exact ⟨some (venueSymbol, instrumentId), canonicalOf_eq_ok.2 ⟨hsymbol, hcanonical⟩, escapes_bind.2 (Or.inl hbuild)⟩

theorem instantOf_eq_ok {time : JsonTree} {us : Int} :
    instantOf rfc3339ToUs time = .ok us ↔ time.asText.bind rfc3339ToUs = some us := by
  unfold instantOf JsonTree.asText
  cases time with
  | str s => cases hread : rfc3339ToUs s <;> simp [hread]
  | null => simp
  | bool b => simp
  | int n => simp
  | float text v => simp
  | list items => simp
  | object items => simp

theorem escapes_instantOf {time : JsonTree} : Escapes (instantOf rfc3339ToUs time) ↔ time.asText = none := by
  unfold instantOf JsonTree.asText
  cases time with
  | str s => cases hread : rfc3339ToUs s <;> simp [hread, Raised.isCaught]
  | null => simp [Raised.isCaught]
  | bool b => simp [Raised.isCaught]
  | int n => simp [Raised.isCaught]
  | float text v => simp [Raised.isCaught]
  | list items => simp [Raised.isCaught]
  | object items => simp [Raised.isCaught]

theorem escapes_sequenceOf {sequence : Option JsonTree} : Escapes (sequenceOf sequence) ↔ SequenceBreaks sequence := by
  unfold SequenceBreaks
  cases sequence with
  | none => simp [sequenceOf]
  | some s =>
    by_cases hnull : s = .null
    · simp [hnull, sequenceOf]
    · have hconverts : sequenceOf (some s) = s.toInt.map some := by
        cases s with
        | null => exact absurd rfl hnull
        | bool b => rfl
        | int n => rfl
        | float text v => rfl
        | str s => rfl
        | list items => rfl
        | object items => rfl
      rw [hconverts, escapes_map, JsonTree.escapes_toInt]
      simp [hnull]

/-- **What a row breaks on, once its symbol is mapped.** -/
theorem escapes_coinbaseRowFields {sequence : Option JsonTree} {source : Source} {now : Int} {row : JsonTree}
    {venueSymbol instrumentId : String} (hobject : row.IsObject) :
    Escapes (coinbaseRowFields isPrintable rfc3339ToUs sequence source now row venueSymbol instrumentId) ↔
      (row.field "trade_id").isSome ∧ ∃ time, row.field "time" = some time ∧ (time.asText = none ∨
        (time.asText.bind rfc3339ToUs).isSome ∧ (row.field "price").isSome ∧ (row.field "size").isSome ∧
          SequenceBreaks sequence) := by
  unfold coinbaseRowFields
  simp only [escapes_bind, JsonTree.escapes_item, JsonTree.item_eq_ok, JsonTree.escapes_get, JsonTree.get_eq_ok,
    escapes_instantOf, instantOf_eq_ok, escapes_sequenceOf, escapes_pure, hobject, not_true_eq_false, false_or, true_and,
    and_false, exists_false, or_false, exists_eq_left', Option.isSome_iff_exists]
  constructor
  · rintro ⟨tradeId, htradeId, time, htime, hbreaks⟩
    refine ⟨⟨tradeId, htradeId⟩, time, htime, hbreaks.imp_right ?_⟩
    rintro ⟨us, hus, price, hprice, size, hsize, hsequence⟩
    exact ⟨⟨us, hus⟩, ⟨price, hprice⟩, ⟨size, hsize⟩, hsequence⟩
  · rintro ⟨⟨tradeId, htradeId⟩, time, htime, hbreaks⟩
    refine ⟨tradeId, htradeId, time, htime, hbreaks.imp_right ?_⟩
    rintro ⟨⟨us, hus⟩, ⟨price, hprice⟩, ⟨size, hsize⟩, hsequence⟩
    exact ⟨us, hus, price, hprice, size, hsize, hsequence⟩

/-- **A row takes its siblings with it exactly when it breaks.** -/
theorem escapes_coinbaseRowTrade {sequence : Option JsonTree} {source : Source} {now : Int} {row : JsonTree} :
    Escapes (coinbaseRowTrade isPrintable rfc3339ToUs instruments sequence source now row) ↔
      CoinbaseBreaks rfc3339ToUs instruments sequence row := by
  unfold coinbaseRowTrade CoinbaseBreaks
  simp only [escapes_bind, JsonTree.escapes_item, JsonTree.item_eq_ok, escapes_mappedTrade]
  refine or_congr Iff.rfl ?_
  constructor
  · rintro ⟨symbol, hsymbol, hcontainer | ⟨venueSymbol, instrumentId, rfl, hcanonical, hfields⟩⟩
    · exact Or.inl ⟨symbol, hsymbol, hcontainer⟩
    · exact Or.inr ⟨⟨venueSymbol, hsymbol, by rw [hcanonical]; rfl⟩,
        (escapes_coinbaseRowFields (JsonTree.isObject_of_field hsymbol)).1 hfields⟩
  · rintro (⟨symbol, hsymbol, hcontainer⟩ | ⟨⟨s, hs, hcanonical⟩, hfields⟩)
    · exact ⟨symbol, hsymbol, Or.inl hcontainer⟩
    · obtain ⟨instrumentId, hid⟩ := Option.isSome_iff_exists.1 hcanonical
      exact ⟨.str s, hs, Or.inr ⟨s, instrumentId, rfl, hid,
        (escapes_coinbaseRowFields (JsonTree.isObject_of_field hs)).2 hfields⟩⟩

/-- What `_to_trade` reads of a row. -/
structure CoinbaseFields where
  venueSymbol : String
  instrumentId : String
  tradeId : JsonTree
  time : JsonTree
  eventTsUs : Int
  price : JsonTree
  size : JsonTree
  sequence : Option Int

variable (rfc3339ToUs instruments) in
structure CoinbaseFields.Read (f : CoinbaseFields) (sequence : Option JsonTree) (row : JsonTree) : Prop where
  productId : row.field "product_id" = some (.str f.venueSymbol)
  canonical : instruments.canonical "coinbase" f.venueSymbol = some f.instrumentId
  tradeId : row.field "trade_id" = some f.tradeId
  time : row.field "time" = some f.time
  eventTsUs : f.time.asText.bind rfc3339ToUs = some f.eventTsUs
  price : row.field "price" = some f.price
  size : row.field "size" = some f.size
  sequence : sequenceOf sequence = .ok f.sequence

variable (isPrintable) in
def CoinbaseFields.trade (f : CoinbaseFields) (source : Source) (now : Int) (row : JsonTree) : Trade where
  venue := "coinbase"
  venueSymbol := f.venueSymbol
  instrumentId := f.instrumentId
  tradeId := f.tradeId.text isPrintable
  eventTsUs := f.eventTsUs
  ingestTsUs := now
  price := f.price.text isPrintable
  size := f.size.text isPrintable
  side := sideOf (row.field "side")
  sequence := f.sequence
  isBackfill := decide (source ≠ .stream)
  source := source

theorem coinbaseRowTrade_eq_ok {sequence : Option JsonTree} {source : Source} {now : Int} {row : JsonTree} {trade : Trade} :
    coinbaseRowTrade isPrintable rfc3339ToUs instruments sequence source now row = .ok (some trade) ↔
      ∃ f : CoinbaseFields, f.Read rfc3339ToUs instruments sequence row ∧ f.trade isPrintable source now row = trade := by
  unfold coinbaseRowTrade
  constructor
  · intro h
    obtain ⟨symbol, hsymbol, hmapped⟩ := bind_eq_ok.1 h
    obtain ⟨venueSymbol, instrumentId, rfl, hcanonical, hmade⟩ := mappedTrade_eq_ok.1 hmapped
    unfold coinbaseRowFields at hmade
    obtain ⟨tradeId, htradeId, hmade⟩ := bind_eq_ok.1 hmade
    obtain ⟨time, htime, hmade⟩ := bind_eq_ok.1 hmade
    obtain ⟨us, hus, hmade⟩ := bind_eq_ok.1 hmade
    obtain ⟨price, hprice, hmade⟩ := bind_eq_ok.1 hmade
    obtain ⟨size, hsize, hmade⟩ := bind_eq_ok.1 hmade
    obtain ⟨side, hside, hmade⟩ := bind_eq_ok.1 hmade
    obtain ⟨number, hnumber, hmade⟩ := bind_eq_ok.1 hmade
    cases hmade
    rw [JsonTree.item_eq_ok] at hsymbol htradeId htime hprice hsize
    exact ⟨⟨venueSymbol, instrumentId, tradeId, time, us, price, size, number⟩,
      ⟨hsymbol, hcanonical, htradeId, htime, instantOf_eq_ok.1 hus, hprice, hsize, hnumber⟩,
      by rw [CoinbaseFields.trade, (JsonTree.get_eq_ok.1 hside).2]⟩
  · rintro ⟨f, hread, rfl⟩
    refine bind_eq_ok.2 ⟨_, JsonTree.item_eq_ok.2 hread.productId, ?_⟩
    refine mappedTrade_eq_ok.2 ⟨f.venueSymbol, f.instrumentId, rfl, hread.canonical, ?_⟩
    refine bind_eq_ok.2 ⟨_, JsonTree.item_eq_ok.2 hread.tradeId, ?_⟩
    refine bind_eq_ok.2 ⟨_, JsonTree.item_eq_ok.2 hread.time, ?_⟩
    refine bind_eq_ok.2 ⟨_, instantOf_eq_ok.2 hread.eventTsUs, ?_⟩
    refine bind_eq_ok.2 ⟨_, JsonTree.item_eq_ok.2 hread.price, ?_⟩
    refine bind_eq_ok.2 ⟨_, JsonTree.item_eq_ok.2 hread.size, ?_⟩
    refine bind_eq_ok.2 ⟨_, JsonTree.get_eq_ok.2 ⟨JsonTree.isObject_of_field hread.productId, rfl⟩, ?_⟩
    exact bind_eq_ok.2 ⟨_, hread.sequence, rfl⟩

theorem coinbaseConverts_iff {sequence : Option JsonTree} {row : JsonTree} :
    CoinbaseConverts rfc3339ToUs instruments sequence row ↔
      ∃ f : CoinbaseFields, f.Read rfc3339ToUs instruments sequence row := by
  constructor
  · rintro ⟨⟨s, hs, hcanonical⟩, htradeId, htime, hprice, hsize, hsequence⟩
    obtain ⟨instrumentId, hid⟩ := Option.isSome_iff_exists.1 hcanonical
    obtain ⟨tradeId, htradeId⟩ := Option.isSome_iff_exists.1 htradeId
    obtain ⟨us, hus⟩ := Option.isSome_iff_exists.1 htime
    obtain ⟨text, htext, hus⟩ := Option.bind_eq_some_iff.1 hus
    obtain ⟨time, htime, htext⟩ := Option.bind_eq_some_iff.1 htext
    obtain ⟨price, hprice⟩ := Option.isSome_iff_exists.1 hprice
    obtain ⟨size, hsize⟩ := Option.isSome_iff_exists.1 hsize
    obtain ⟨number, hnumber⟩ := Option.isSome_iff_exists.1 hsequence
    exact ⟨⟨s, instrumentId, tradeId, time, us, price, size, number⟩, hs, hid, htradeId, htime,
      Option.bind_eq_some_iff.2 ⟨text, htext, hus⟩, hprice, hsize, toOption_eq_some.1 hnumber⟩
  · rintro ⟨f, hread⟩
    refine ⟨⟨f.venueSymbol, hread.productId, ?_⟩, ?_, ?_, ?_, ?_, ?_⟩
    · rw [hread.canonical]
      rfl
    · rw [hread.tradeId]
      rfl
    · rw [hread.time, Option.bind_some, hread.eventTsUs]
      rfl
    · rw [hread.price]
      rfl
    · rw [hread.size]
      rfl
    · rw [hread.sequence]
      rfl

/-- **The trade that a row holds is the one that is made of it, of an id, a price and a size that are texts or numbers.** -/
theorem coinbaseTradeOf_eq_some {sequence : Option JsonTree} {source : Source} {now : Int} {row : JsonTree} {trade : Trade} :
    coinbaseTradeOf isPrintable rfc3339ToUs instruments sequence source now row = some trade ↔
      ∃ f : CoinbaseFields, f.Read rfc3339ToUs instruments sequence row ∧
        (f.tradeId.IsPlain ∧ f.price.IsPlain ∧ f.size.IsPlain) ∧ f.trade isPrintable source now row = trade := by
  unfold coinbaseTradeOf
  constructor
  · intro h
    obtain ⟨symbol, hsymbol, h⟩ := Option.bind_eq_some_iff.1 h
    obtain ⟨instrumentId, hid, h⟩ := Option.bind_eq_some_iff.1 h
    obtain ⟨tradeId, htradeId, h⟩ := Option.bind_eq_some_iff.1 h
    obtain ⟨us, hus, h⟩ := Option.bind_eq_some_iff.1 h
    obtain ⟨price, hprice, h⟩ := Option.bind_eq_some_iff.1 h
    obtain ⟨size, hsize, h⟩ := Option.bind_eq_some_iff.1 h
    obtain ⟨number, hnumber, h⟩ := Option.bind_eq_some_iff.1 h
    cases h
    obtain ⟨productId, hproductId, hasText⟩ := Option.bind_eq_some_iff.1 hsymbol
    obtain ⟨text, htext, hus⟩ := Option.bind_eq_some_iff.1 hus
    obtain ⟨time, htime, htext⟩ := Option.bind_eq_some_iff.1 htext
    obtain ⟨htradeId, hplainId⟩ := plainValue_eq_some.1 htradeId
    obtain ⟨hprice, hplainPrice⟩ := plainValue_eq_some.1 hprice
    obtain ⟨hsize, hplainSize⟩ := plainValue_eq_some.1 hsize
    rw [JsonTree.asText_eq_some.1 hasText] at hproductId
    exact ⟨⟨symbol, instrumentId, tradeId, time, us, price, size, number⟩,
      ⟨hproductId, hid, htradeId, htime, Option.bind_eq_some_iff.2 ⟨text, htext, hus⟩, hprice, hsize,
        toOption_eq_some.1 hnumber⟩, ⟨hplainId, hplainPrice, hplainSize⟩, rfl⟩
  · rintro ⟨f, hread, ⟨hplainId, hplainPrice, hplainSize⟩, rfl⟩
    refine Option.bind_eq_some_iff.2 ⟨f.venueSymbol, by rw [hread.productId]; rfl, ?_⟩
    refine Option.bind_eq_some_iff.2 ⟨f.instrumentId, hread.canonical, ?_⟩
    refine Option.bind_eq_some_iff.2 ⟨_, plainValue_eq_some.2 ⟨hread.tradeId, hplainId⟩, ?_⟩
    refine Option.bind_eq_some_iff.2 ⟨f.eventTsUs, by rw [hread.time]; exact hread.eventTsUs, ?_⟩
    refine Option.bind_eq_some_iff.2 ⟨_, plainValue_eq_some.2 ⟨hread.price, hplainPrice⟩, ?_⟩
    refine Option.bind_eq_some_iff.2 ⟨_, plainValue_eq_some.2 ⟨hread.size, hplainSize⟩, ?_⟩
    exact Option.bind_eq_some_iff.2 ⟨f.sequence, toOption_eq_some.2 hread.sequence, rfl⟩

theorem holds_coinbase (sequence : Option JsonTree) (source : Source) :
    Holds (coinbaseRowTrade isPrintable rfc3339ToUs instruments sequence source)
      (coinbaseTradeOf isPrintable rfc3339ToUs instruments sequence source) := by
  intro now row trade h
  obtain ⟨f, hread, -, htrade⟩ := coinbaseTradeOf_eq_some.1 h
  exact coinbaseRowTrade_eq_ok.2 ⟨f, hread, htrade⟩

/-- **A row is contained exactly when it does no harm.** -/
theorem contained_coinbase_iff (sequence : Option JsonTree) (source : Source) (now : Int) (row : JsonTree) :
    Contained (coinbaseRowTrade isPrintable rfc3339ToUs instruments sequence source)
        (coinbaseTradeOf isPrintable rfc3339ToUs instruments sequence source) now row ↔
      CoinbaseSafe rfc3339ToUs instruments sequence row := by
  unfold Contained CoinbaseSafe
  rw [escapes_coinbaseRowTrade, coinbaseConverts_iff]
  refine and_congr Iff.rfl ?_
  constructor
  · rintro hholds ⟨f, hread⟩ key hkey value hvalue
    have htrade := hholds _ (coinbaseRowTrade_eq_ok.2 ⟨f, hread, rfl⟩)
    obtain ⟨f', hread', ⟨hplainId, hplainPrice, hplainSize⟩, -⟩ := coinbaseTradeOf_eq_some.1 htrade
    simp only [List.mem_cons, List.not_mem_nil, or_false] at hkey
    rcases hkey with rfl | rfl | rfl
    · rw [hread'.tradeId] at hvalue
      cases hvalue
      exact hplainId
    · rw [hread'.price] at hvalue
      cases hvalue
      exact hplainPrice
    · rw [hread'.size] at hvalue
      cases hvalue
      exact hplainSize
  · intro hplain trade htrade
    obtain ⟨f, hread, htrade⟩ := coinbaseRowTrade_eq_ok.1 htrade
    have hfields := hplain ⟨f, hread⟩
    exact coinbaseTradeOf_eq_some.2 ⟨f, hread, ⟨hfields "trade_id" (by simp) _ hread.tradeId,
      hfields "price" (by simp) _ hread.price, hfields "size" (by simp) _ hread.size⟩, htrade⟩

/-! ## Rows of texts -/

/-- A row whose fields are texts, as `json.loads` gives it. -/
def CoinbaseRow.json (row : CoinbaseRow) : JsonTree :=
  .object ([("product_id", row.productId), ("trade_id", row.tradeId), ("time", row.time), ("price", row.price),
    ("size", row.size), ("side", row.side)].filterMap (fun field => field.2.map (fun text => (field.1, .str text))))

theorem get?_filterMap {fields : List (String × Option String)} (hkeys : (fields.map Prod.fst).Nodup) {key : String}
    {value : Option String} (h : (key, value) ∈ fields) :
    Dict.get? (fields.filterMap (fun field => field.2.map (fun text => (field.1, JsonTree.str text)))) key =
      value.map JsonTree.str := by
  induction fields with
  | nil => cases h
  | cons field fields ih =>
    rw [List.map_cons, List.nodup_cons] at hkeys
    have hother : field.1 = key → Dict.get? (fields.filterMap
        (fun field => field.2.map (fun text => (field.1, JsonTree.str text)))) key = none := by
      intro hkey
      refine Dict.get?_eq_none (fun item hitem heq => ?_)
      obtain ⟨other, hmem, hsome⟩ := List.mem_filterMap.1 hitem
      obtain ⟨text, -, rfl⟩ := Option.map_eq_some_iff.1 hsome
      exact hkeys.1 (List.mem_map.2 ⟨other, hmem, heq.trans hkey.symm⟩)
    rcases List.mem_cons.1 h with rfl | hmem
    · cases value with
      | none => exact hother rfl
      | some text =>
        rw [List.filterMap_cons]
        show (Dict.get? _ key).or (if key = key then some (JsonTree.str text) else none) = _
        rw [hother rfl, if_pos rfl]
        rfl
    · have hne : field.1 ≠ key := fun hkey => hkeys.1 (hkey ▸ List.mem_map.2 ⟨_, hmem, rfl⟩)
      have hrest := ih hkeys.2 hmem
      obtain ⟨name, text⟩ := field
      cases text with
      | none => exact hrest
      | some text =>
        rw [List.filterMap_cons]
        show (Dict.get? _ key).or (if name = key then some (JsonTree.str text) else none) = _
        rw [hrest, if_neg hne, Option.or_none]

theorem CoinbaseRow.field_json (row : CoinbaseRow) {key : String} {value : Option String}
    (h : (key, value) ∈ [("product_id", row.productId), ("trade_id", row.tradeId), ("time", row.time),
      ("price", row.price), ("size", row.size), ("side", row.side)]) : row.json.field key = value.map .str :=
  get?_filterMap (by simp) h

theorem CoinbaseRow.item_json (row : CoinbaseRow) {key : String} {value : Option String}
    (h : (key, value) ∈ [("product_id", row.productId), ("trade_id", row.tradeId), ("time", row.time),
      ("price", row.price), ("size", row.size), ("side", row.side)]) :
    row.json.item key = value.elim (.error (.keyError key)) (fun text => .ok (.str text)) := by
  have hfield := row.field_json h
  cases value with
  | none => exact JsonTree.item_of_none trivial hfield
  | some text => exact JsonTree.item_eq_ok.2 hfield

/-- **On rows whose fields are texts, this `_to_trade` is the one of the runs.** -/
theorem coinbaseRowTrade_json (sequence : Option Int) (source : Source) (now : Int) (row : CoinbaseRow) :
    (coinbaseRowTrade isPrintable rfc3339ToUs instruments (sequence.map .int) source now row.json).toOption =
      (coinbaseTrade rfc3339ToUs instruments now sequence source row).toOption := by
  have hproductId := @CoinbaseRow.item_json row "product_id" row.productId (by simp)
  have htradeId := @CoinbaseRow.item_json row "trade_id" row.tradeId (by simp)
  have htime := @CoinbaseRow.item_json row "time" row.time (by simp)
  have hprice := @CoinbaseRow.item_json row "price" row.price (by simp)
  have hsize := @CoinbaseRow.item_json row "size" row.size (by simp)
  have hside : row.json.get "side" = .ok (row.side.map .str) :=
    JsonTree.get_eq_ok.2 ⟨trivial, @CoinbaseRow.field_json row "side" row.side (by simp)⟩
  have hsequence : sequenceOf (sequence.map .int) = .ok sequence := by
    cases sequence <;> rfl
  unfold coinbaseRowTrade mappedTrade coinbaseRowFields coinbaseTrade
  rw [hproductId, htradeId, htime, hprice, hsize, hside, hsequence]
  cases row.productId with
  | none => rfl
  | some symbol =>
    simp only [bind, Except.bind, pure, Except.pure, canonicalOf, CoinbaseRow.key, Option.elim]
    cases instruments.canonical "coinbase" symbol with
    | none => rfl
    | some instrumentId =>
      cases row.tradeId with
      | none => rfl
      | some tradeId =>
        cases row.time with
        | none => rfl
        | some time =>
          simp only [Option.map_some, instantOf]
          cases rfc3339ToUs time with
          | none => rfl
          | some us =>
            cases row.price with
            | none => rfl
            | some price =>
              cases row.size with
              | none => rfl
              | some size =>
                cases row.side with
                | none => rfl
                | some side => simp [sideOf, JsonTree.text, Except.toOption]

end Ingest
