import Mathlib.Data.List.Forall2
import RealtimeFinance.Ingest.AggTradeRows
import RealtimeFinance.Ingest.Outage
/-!
# BadRows — one bad row, and its siblings

A frame or an answer gives exactly the trades that its rows hold when none of its rows breaks, and none that converts has a
field of another kind (`badRow_keepsSiblings_iff`).
-/
namespace Ingest

open Python

/-! ## The rows of a frame -/

/-- The rows of an event, or of an answer: none when the key is missing. -/
def HasRows (value : JsonTree) (rows : List JsonTree) : Prop :=
  value.IsObject ∧ (value.field "trades").getD (.list []) = .list rows

/-- The rows of a frame: those of its events in turn, and of another channel's none. -/
inductive FrameRows (frame : JsonTree) : List JsonTree → Prop
  | trades {events : List JsonTree} {eventRows : List (List JsonTree)}
      (channel : frame.field "channel" = some (.str "market_trades"))
      (member : (frame.field "events").getD (.list []) = .list events)
      (rows : List.Forall₂ HasRows events eventRows) : FrameRows frame eventRows.flatten
  | other (object : frame.IsObject) (channel : frame.field "channel" ≠ some (.str "market_trades")) : FrameRows frame []

/-- The row after `setdefault`. -/
def withProduct (productId : String) (row : JsonTree) : JsonTree :=
  (row.setdefault "product_id" (.str productId)).toOption.getD row

/-- The rows of a repair, each with the product that was asked for, when request `i` is answered `rows i`. -/
def repairedRows (products : List String) (rows : Nat → List JsonTree) : List (String × JsonTree) :=
  products.zipIdx.flatMap (fun product => (rows product.2).map (fun row => (product.1, row)))

section Frames

variable {isPrintable : Char → Bool} {rfc3339ToUs : String → Option Int} {instruments : InstrumentMap} {clock : Nat → Int}

theorem collectFrom_map {ρ σ : Type} {convert : Int → σ → Except Raised (Option Trade)} (f : ρ → σ) (k : Nat)
    (rows : List ρ) : collectFrom convert clock k (rows.map f) =
      collectFrom (fun now row => convert now (f row)) clock k rows := by
  induction rows generalizing k with
  | nil => rfl
  | cons row rows ih => rw [List.map_cons, collectFrom_cons, collectFrom_cons, ih]

theorem tradesMember_eq {value : JsonTree} {rows : List JsonTree} (h : HasRows value rows) :
    tradesMember value = .ok rows := by
  obtain ⟨hobject, hrows⟩ := h
  refine bind_eq_ok.2 ⟨_, JsonTree.get_eq_ok.2 ⟨hobject, rfl⟩, ?_⟩
  rw [hrows]
  rfl

/-- **The events' loops are one loop over all rows.** -/
theorem parseEvents_eq {sequence : Option JsonTree} {events : List JsonTree} {eventRows : List (List JsonTree)}
    (h : List.Forall₂ HasRows events eventRows) (k : Nat) :
    parseEvents isPrintable rfc3339ToUs instruments sequence clock k events =
      collectFrom (coinbaseRowTrade isPrintable rfc3339ToUs instruments sequence .stream) clock k eventRows.flatten := by
  induction h generalizing k with
  | nil => rfl
  | @cons event rows events eventRows hrows _ ih =>
    rw [parseEvents, tradesMember_eq hrows, List.flatten_cons, collectFrom_append, ← ih]
    rfl

theorem isMarketTrades_iff {channel : Option JsonTree} :
    isMarketTrades channel = true ↔ channel = some (.str "market_trades") := by
  unfold isMarketTrades
  split
  · rw [decide_eq_true_eq, Option.some.injEq, JsonTree.str.injEq]
  · rename_i hother
    exact iff_of_false (by decide) (hother _)

theorem parseJson_eq {frame : JsonTree} {rows : List JsonTree} (h : FrameRows frame rows) :
    parseJson isPrintable rfc3339ToUs instruments clock frame =
      collectFrom (coinbaseRowTrade isPrintable rfc3339ToUs instruments (frame.field "sequence_num") .stream) clock 0
        rows := by
  unfold parseJson
  cases h with
  | @trades events eventRows hchannel hmember hrows =>
    have hobject := JsonTree.isObject_of_field hchannel
    have hget : ∀ key, frame.get key = .ok (frame.field key) := fun key => JsonTree.get_eq_ok.2 ⟨hobject, rfl⟩
    rw [hget, hchannel, hget, hget, ← parseEvents_eq hrows]
    show ((frame.field "events").getD (.list [])).iterate.bind _ = _
    rw [hmember]
    rfl
  | other hobject hchannel =>
    have hother : isMarketTrades (frame.field "channel") = false := by
      rw [Bool.eq_false_iff]
      exact fun hmarket => hchannel (isMarketTrades_iff.1 hmarket)
    rw [JsonTree.get_eq_ok.2 ⟨hobject, rfl⟩]
    show (if isMarketTrades (frame.field "channel") then _ else _) = _
    rw [hother]
    rfl

/-! ## The rows of a repair -/

theorem setdefault_of_object {productId : String} {row : JsonTree} (h : row.IsObject) :
    row.setdefault "product_id" (.str productId) = .ok (withProduct productId row) := by
  obtain ⟨items, rfl⟩ := JsonTree.isObject_iff.1 h
  rfl

theorem withProduct_of_not_object {productId : String} {row : JsonTree} (h : ¬ row.IsObject) :
    withProduct productId row = row := by
  unfold withProduct
  rw [JsonTree.setdefault_of_not_object h]
  rfl

theorem repairRowTrade_of_object {productId : String} {row : JsonTree} (h : row.IsObject) (now : Int) :
    repairRowTrade isPrintable rfc3339ToUs instruments productId now row =
      coinbaseRowTrade isPrintable rfc3339ToUs instruments none .restRepair now (withProduct productId row) := by
  unfold repairRowTrade
  rw [setdefault_of_object h]
  rfl

/-- **The products' loops are one loop over all rows**, each with its product. -/
theorem repairProducts_eq {answer : Nat → JsonTree} {rows : Nat → List JsonTree} {asked : List (String × Nat)}
    (h : ∀ product ∈ asked, HasRows (answer product.2) (rows product.2)) (k : Nat) :
    repairProducts isPrintable rfc3339ToUs instruments clock k
        (asked.map (fun product => (product.1, answer product.2))) =
      collectFrom (fun now row => repairRowTrade isPrintable rfc3339ToUs instruments row.1 now row.2) clock k
        (asked.flatMap (fun product => (rows product.2).map (fun row => (product.1, row)))) := by
  induction asked generalizing k with
  | nil => rfl
  | cons product asked ih =>
    have hrest := ih (fun p hp => h p (List.mem_cons_of_mem _ hp)) (k + (rows product.2).length)
    rw [List.map_cons, repairProducts, tradesMember_eq (h product List.mem_cons_self), List.flatMap_cons,
      collectFrom_append, collectFrom_map, List.length_map, ← hrest]
    rfl

theorem holds_repair : Holds (fun now row => repairRowTrade isPrintable rfc3339ToUs instruments row.1 now row.2)
    (fun now (row : String × JsonTree) => coinbaseTradeOf isPrintable rfc3339ToUs instruments none .restRepair now
      (withProduct row.1 row.2)) := by
  intro now row trade h
  have hholds := holds_coinbase none .restRepair now _ trade h
  by_cases hobject : row.2.IsObject
  · show repairRowTrade isPrintable rfc3339ToUs instruments row.1 now row.2 = _
    rw [repairRowTrade_of_object hobject, hholds]
  · rw [withProduct_of_not_object hobject] at hholds
    obtain ⟨f, hread, -⟩ := coinbaseRowTrade_eq_ok.1 hholds
    exact absurd (JsonTree.isObject_of_field hread.productId) hobject

theorem contained_repair_iff (now : Int) (row : String × JsonTree) :
    Contained (fun now row => repairRowTrade isPrintable rfc3339ToUs instruments row.1 now row.2)
        (fun now (row : String × JsonTree) => coinbaseTradeOf isPrintable rfc3339ToUs instruments none .restRepair now
          (withProduct row.1 row.2)) now row ↔
      CoinbaseSafe rfc3339ToUs instruments none (withProduct row.1 row.2) := by
  by_cases hobject : row.2.IsObject
  · rw [← @contained_coinbase_iff isPrintable rfc3339ToUs instruments none .restRepair now (withProduct row.1 row.2)]
    unfold Contained
    simp only [repairRowTrade_of_object hobject]
  · refine iff_of_false ?_ ?_
    · rintro ⟨hescapes, -⟩
      refine hescapes (escapes_bind.2 (Or.inl ?_))
      rw [JsonTree.setdefault_of_not_object hobject]
      exact ⟨.attributeError, rfl, rfl⟩
    · rintro ⟨hbreaks, -⟩
      refine hbreaks (Or.inl ?_)
      rw [withProduct_of_not_object hobject]
      exact hobject

end Frames

/-! ## The three loops -/

/-- **A frame, a repair's answers and an answer of aggregate trades give exactly the trades that their rows hold, in order,
when every row is harmless, and then only**: it takes no siblings with it, and if it converts its fields are of their
kinds. -/
theorem badRow_keepsSiblings_iff (isPrintable : Char → Bool) (rfc3339ToUs : String → Option Int)
    (instruments : InstrumentMap) (symbols : List String) (clock : Nat → Int) :
    (∀ frame rows, FrameRows frame rows →
      (parseJson isPrintable rfc3339ToUs instruments clock frame =
          .ok (tradesOf (coinbaseTradeOf isPrintable rfc3339ToUs instruments (frame.field "sequence_num") .stream) clock 0
            rows) ↔
        ∀ row ∈ rows, CoinbaseSafe rfc3339ToUs instruments (frame.field "sequence_num") row)) ∧
    (∀ gap answer rows, (∀ i < (repairedProducts symbols gap).length, HasRows (answer i) (rows i)) →
      (repairJson isPrintable rfc3339ToUs instruments symbols clock answer gap =
          .ok (tradesOf (fun now row => coinbaseTradeOf isPrintable rfc3339ToUs instruments none .restRepair now
            (withProduct row.1 row.2)) clock 0 (repairedRows (repairedProducts symbols gap) rows)) ↔
        ∀ row ∈ repairedRows (repairedProducts symbols gap) rows,
          CoinbaseSafe rfc3339ToUs instruments none (withProduct row.1 row.2))) ∧
    ∀ gap rows, repairAggTrades isPrintable instruments clock gap (.list rows) =
        .ok (tradesOf (aggTradeOf isPrintable instruments gap) clock 0 rows) ↔
      ∀ row ∈ rows, AggTradeSafe instruments gap row := by
  refine ⟨?_, ?_, ?_⟩
  · intro frame rows hrows
    rw [parseJson_eq hrows]
    exact (holds_coinbase _ _).collectFrom_eq_iff_forall (contained_coinbase_iff _ _) 0 rows
  · intro gap answer rows hrows
    have hasked : ∀ product ∈ (repairedProducts symbols gap).zipIdx, HasRows (answer product.2) (rows product.2) :=
      fun product hproduct => hrows product.2 (List.snd_lt_of_mem_zipIdx hproduct)
    unfold repairJson
    rw [repairProducts_eq hasked]
    exact holds_repair.collectFrom_eq_iff_forall contained_repair_iff 0 _
  · intro gap rows
    exact (holds_aggTrade gap).collectFrom_eq_iff_forall (contained_aggTrade_iff gap) 0 rows

/-- A trade of a frame, at a time of any kind. -/
def marketRow (tradeId : String) (time : JsonTree) : JsonTree :=
  .object [("trade_id", .str tradeId), ("product_id", .str "BTC-USD"), ("price", .str "60000.5"), ("size", .str "0.25"),
    ("side", .str "BUY"), ("time", time)]

def marketFrame (rows : List JsonTree) : JsonTree :=
  .object [("channel", .str "market_trades"), ("sequence_num", .int 42),
    ("events", .list [.object [("type", .str "update"), ("trades", .list rows)]])]

theorem frameRows_marketFrame (rows : List JsonTree) : FrameRows (marketFrame rows) rows := by
  have hrows : FrameRows (marketFrame rows) [rows].flatten := .trades rfl rfl (.cons ⟨trivial, rfl⟩ .nil)
  rwa [List.flatten_singleton] at hrows

/-- A time that is a text does no harm, whatever it says. -/
theorem marketRow_safe {sequence : Option JsonTree} (hsequence : ¬ SequenceBreaks sequence) (tradeId time : String) :
    CoinbaseSafe rfc3339 coinbaseBitcoin sequence (marketRow tradeId (.str time)) := by
  refine ⟨?_, fun _ key hkey value hvalue => ?_⟩
  · rintro (hobject | ⟨symbol, hsymbol, hcontainer⟩ | ⟨-, -, time', htime, hbreaks⟩)
    · exact hobject trivial
    · cases hsymbol
      exact hcontainer
    · cases htime
      rcases hbreaks with htext | ⟨-, -, -, hbreaks⟩
      · cases htext
      · exact hsequence hbreaks
  · simp only [List.mem_cons, List.not_mem_nil, or_false] at hkey
    rcases hkey with rfl | rfl | rfl <;>
    · cases hvalue
      trivial

/-- The first row's time is no instant. -/
def mixedRows : List JsonTree := [marketRow "1" (.str "4 October"), marketRow "2" (.str "2024-10-04T00:10:00Z")]

theorem mixedRows_safe {sequence : Option JsonTree} (hsequence : ¬ SequenceBreaks sequence) :
    ∀ row ∈ mixedRows, CoinbaseSafe rfc3339 coinbaseBitcoin sequence row := by
  intro row hrow
  rcases List.mem_pair.1 hrow with rfl | rfl
  · exact marketRow_safe hsequence _ _
  · exact marketRow_safe hsequence _ _

/-- In a frame and in a repair's answer the row is left out, and the trade beside it stays. -/
theorem badRow_keepsSiblings_iff_mixedRows :
    (∃ trades, parseJson (fun _ => true) rfc3339 coinbaseBitcoin (fun _ => 0) (marketFrame mixedRows) = .ok trades ∧
      trades.map Trade.tradeId = ["2"]) ∧
    ∃ trades, repairJson (fun _ => true) rfc3339 coinbaseBitcoin ["BTC-USD"] (fun _ => 0)
        (fun _ => .object [("trades", .list mixedRows)]) ⟨"coinbase", "*", 41, 43⟩ = .ok trades ∧
      trades.map Trade.tradeId = ["2"] := by
  obtain ⟨hframe, hrepair, -⟩ := badRow_keepsSiblings_iff (fun _ => true) rfc3339 coinbaseBitcoin ["BTC-USD"] (fun _ => 0)
  refine ⟨⟨_, (hframe _ _ (frameRows_marketFrame mixedRows)).2 (mixedRows_safe ?_), by decide +kernel⟩,
    ⟨_, (hrepair ⟨"coinbase", "*", 41, 43⟩ (fun _ => .object [("trades", .list mixedRows)]) (fun _ => mixedRows)
      (fun _ _ => ⟨trivial, rfl⟩)).2 ?_, by decide +kernel⟩⟩
  · rintro ⟨number, hnumber, -, hbreaks⟩
    cases hnumber
    exact hbreaks
  · intro row hrow
    obtain ⟨bare, hbare, rfl⟩ : ∃ bare ∈ mixedRows, ("BTC-USD", bare) = row := List.mem_map.1 hrow
    have hnone : ¬ SequenceBreaks none := by
      rintro ⟨number, hnumber, -⟩
      cases hnumber
    have hsafe := mixedRows_safe hnone bare hbare
    rcases List.mem_pair.1 hbare with rfl | rfl
    · exact hsafe
    · exact hsafe

/-- A null time: the frame is lost, and with it the trade beside that row. -/
theorem null_time_loses_siblings :
    parseJson (fun _ => true) rfc3339 coinbaseBitcoin (fun _ => 0)
        (marketFrame [marketRow "1" .null, marketRow "2" (.str "2024-10-04T00:10:00Z")]) = .error .attributeError ∧
    (tradesOf (coinbaseTradeOf (fun _ => true) rfc3339 coinbaseBitcoin (some (.int 42)) .stream) (fun _ => 0) 0
        [marketRow "1" .null, marketRow "2" (.str "2024-10-04T00:10:00Z")]).map Trade.tradeId = ["2"] := by
  constructor
  · rfl
  · decide +kernel

end Ingest
