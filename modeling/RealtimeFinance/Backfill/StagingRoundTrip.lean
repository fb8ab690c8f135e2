import Mathlib.Data.List.Forall2
import RealtimeFinance.Backfill.Staging
/-!
# StagingRoundTrip — the body of a staging object, read back

The body is decompressed, split into lines and fields, and its fields named in the order of the DDL.  Each row then says
what its source line says (`staging_faithful`): the texts are the line's, the numbers have its values, the instants are
its instants.
-/
namespace Backfill

open Ingest Sql

/-- What the loader uses of `gzip`. -/
structure Gzip where
  compress : ByteArray → ByteArray
  decompress : ByteArray → Option ByteArray
  roundTrip : ∀ bytes, decompress (compress bytes) = some bytes

/-- `_join`. -/
def join (rows : List (List String)) : String :=
  String.ofList (rows.flatMap (fun row => (csvLine row).toList ++ ['\n']))

/-- `_gzip`. -/
def Gzip.ofText (gzip : Gzip) (text : String) : ByteArray := gzip.compress text.toUTF8

def klinesCsvGz (gzip : Gzip) (instrumentId : String) (bars : List ArchiveKline) : ByteArray :=
  gzip.ofText (join (bars.map (klineFields instrumentId)))

def tradesCsvGz (gzip : Gzip) (instrumentId venueSymbol : String) (trades : List ArchiveAggTrade) : ByteArray :=
  gzip.ofText (join (trades.map (tradeFields instrumentId venueSymbol)))

/-! ## Reading back -/

/-- `041_archive_staging_klines.sql`. -/
def archiveStagingKlines : List String :=
  ["instrument_id", "open_time_us", "close_time_us", "open", "high", "low", "close", "volume", "quote_volume"
    , "trade_count", "taker_buy_base_volume"]

/-- `042_archive_staging_trades.sql`. -/
def archiveStagingTrades : List String :=
  ["instrument_id", "venue", "venue_symbol", "agg_trade_id", "price", "quantity", "first_trade_id", "last_trade_id"
    , "event_ts_us", "side"]

/-- Split on newline, the last of which ends the text, and then on comma. -/
def readRows (text : String) : List (List String) :=
  (text.toList.splitOn '\n').dropLast.map (fun line => (line.splitOn ',').map String.ofList)

def Gzip.decodeRows (gzip : Gzip) (body : ByteArray) : Option (List (List String)) := do
  let bytes ← gzip.decompress body
  let text ← String.fromUTF8? bytes
  return readRows text

/-- The field of a row under the column's name. -/
def column (columns row : List String) (name : String) : Option String := (columns.zip row).lookup name

/-- The fields of a source line. -/
def sourceFields (line : String) : List String := (line.toList.splitOn ',').map String.ofList

def isBlank (line : String) : Bool := (Python.strip line.toList).isEmpty

/-- The number that a text holds, blanks around it aside. -/
def integer (text : Option String) : Option Int := text.bind (fun t => Python.int (Python.strip t.toList))

/-- **The row says what the line says**: the columns of `texts` have the exact texts of the line's fields, those of
`numbers` their integers, those of `instants` their instants in microseconds. -/
structure CarriesOver (columns : List String) (texts numbers instants : List (String × Nat)) (line : String)
    (row : List String) : Prop where
  width : row.length = columns.length
  text : ∀ c ∈ texts, ∃ t, column columns row c.1 = some t ∧ (sourceFields line)[c.2]? = some t
  number : ∀ c ∈ numbers, ∃ n, integer (column columns row c.1) = some n ∧ integer (sourceFields line)[c.2]? = some n
  instant : ∀ c ∈ instants, ∃ value unit, integer (sourceFields line)[c.2]? = some value ∧ unitOf value = .ok unit ∧
    integer (column columns row c.1) = some (toMicros value unit)

structure KlineRow (instrumentId line : String) (row : List String) : Prop where
  carries : CarriesOver archiveStagingKlines
    [("open", 1), ("high", 2), ("low", 3), ("close", 4), ("volume", 5), ("quote_volume", 7), ("taker_buy_base_volume", 9)]
    [("trade_count", 8)] [("open_time_us", 0), ("close_time_us", 6)] line row
  instrument : column archiveStagingKlines row "instrument_id" = some instrumentId

structure TradeRow (instrumentId venueSymbol line : String) (row : List String) : Prop where
  carries : CarriesOver archiveStagingTrades [("price", 1), ("quantity", 2)]
    [("agg_trade_id", 0), ("first_trade_id", 3), ("last_trade_id", 4)] [("event_ts_us", 5)] line row
  instrument : column archiveStagingTrades row "instrument_id" = some instrumentId
  venue : column archiveStagingTrades row "venue" = some "binance"
  symbol : column archiveStagingTrades row "venue_symbol" = some venueSymbol
  sell : column archiveStagingTrades row "side" = some "SELL" ↔ (sourceFields line)[6]? = some "True"
  buy : column archiveStagingTrades row "side" = some "BUY" ↔ (sourceFields line)[6]? = some "False"

/-! ## The encoding -/

theorem fromUTF8_toUTF8 (text : String) : String.fromUTF8? text.toUTF8 = some text := by
  simp only [String.fromUTF8?, String.toUTF8_eq_toByteArray, dif_pos text.isValidUTF8]
  rfl

/-- Values that no separator splits. -/
def Plain (row : List String) : Prop := ∀ value ∈ row, ',' ∉ value.toList ∧ '\n' ∉ value.toList

theorem mem_intercalate_of_mem {α : Type} {x sep : α} : ∀ {ls : List (List α)} {l : List α}, l ∈ ls → x ∈ l →
    x ∈ [sep].intercalate ls
  | [m], l, hl, hx => by
    rw [List.intercalate_singleton, ← List.mem_singleton.1 hl]
    exact hx
  | m :: m' :: ls, l, hl, hx => by
    rw [List.intercalate_cons_cons]
    rcases List.mem_cons.1 hl with rfl | hl
    · exact List.mem_append_left _ (List.mem_append_left _ hx)
    · exact List.mem_append_right _ (mem_intercalate_of_mem hl hx)

theorem newline_not_in_csvLine {row : List String} (h : Plain row) : '\n' ∉ (csvLine row).toList := by
  unfold csvLine
  rw [String.toList_ofList]
  intro hmem
  rcases Python.mem_intercalate hmem with hcomma | ⟨l, hl, hmem⟩
  · exact absurd hcomma (by decide)
  · obtain ⟨value, hvalue, rfl⟩ := List.mem_map.1 hl
    exact (h value hvalue).2 hmem

theorem splitOn_csvLine {row : List String} (hne : row ≠ []) (h : Plain row) :
    ((csvLine row).toList.splitOn ',').map String.ofList = row := by
  have hvalues : ∀ value ∈ row.map String.toList, ',' ∉ value := by
    intro value hvalue
    obtain ⟨v, hv, rfl⟩ := List.mem_map.1 hvalue
    exact (h v hv).1
  unfold csvLine
  rw [String.toList_ofList, List.splitOn_intercalate ',' hvalues (fun hnil => hne (List.map_eq_nil_iff.1 hnil)), List.map_map]
  exact (List.map_congr_left (fun v _ => String.ofList_toList)).trans (List.map_id row)

/-- The lines of a text each of which ends in a newline. -/
theorem splitOn_lines {lines : List (List Char)} (h : ∀ line ∈ lines, '\n' ∉ line) :
    (lines.flatMap (fun line => line ++ ['\n'])).splitOn '\n' = lines ++ [[]] := by
  induction lines with
  | nil => rfl
  | cons line lines ih =>
    rw [List.flatMap_cons, List.append_assoc, List.singleton_append,
      List.splitOn_append_cons_self_of_not_mem (h line List.mem_cons_self), ih (fun l hl => h l (List.mem_cons_of_mem _ hl)),
      List.cons_append]

/-- **What was joined is read back.** -/
theorem readRows_join {rows : List (List String)} (hplain : ∀ row ∈ rows, row ≠ [] ∧ Plain row) :
    readRows (join rows) = rows := by
  have hlines : ∀ line ∈ rows.map (fun row => (csvLine row).toList), '\n' ∉ line := by
    intro line hline
    obtain ⟨row, hrow, rfl⟩ := List.mem_map.1 hline
    exact newline_not_in_csvLine (hplain row hrow).2
  have hjoin : (join rows).toList = (rows.map (fun row => (csvLine row).toList)).flatMap (fun line => line ++ ['\n']) := by
    unfold join
    rw [String.toList_ofList, List.flatMap_map]
  unfold readRows
  rw [hjoin, splitOn_lines hlines, List.dropLast_concat, List.map_map]
  exact (List.map_congr_left (fun row hrow => splitOn_csvLine (hplain row hrow).1 (hplain row hrow).2)).trans (List.map_id rows)

theorem decodeRows_ofText (gzip : Gzip) {rows : List (List String)} (hplain : ∀ row ∈ rows, row ≠ [] ∧ Plain row) :
    gzip.decodeRows (gzip.ofText (join rows)) = some rows := by
  unfold Gzip.decodeRows Gzip.ofText
  rw [gzip.roundTrip]
  simp only [Option.bind_eq_bind, Option.bind_some, fromUTF8_toUTF8, readRows_join hplain]
  rfl

/-! ## The fields of a line -/

theorem intercalate_append_last {α : Type} {sep : α} {last after : List α} : ∀ middle : List (List α),
    [sep].intercalate (middle ++ [last]) ++ after = [sep].intercalate (middle ++ [last ++ after])
  | [] => by rw [List.nil_append, List.nil_append, List.intercalate_singleton, List.intercalate_singleton]
  | m :: middle => by
    rw [List.cons_append, List.cons_append, List.intercalate_cons_of_ne_nil (by simp),
      List.intercalate_cons_of_ne_nil (by simp), List.append_assoc, intercalate_append_last middle]

/-- **A line's own fields are the parser's but for the blanks at its ends**, which no integer minds. -/
theorem sourceFields_eq {line first : String} {rest : List String} (h : fieldsOf line = some (first :: rest))
    (hne : rest ≠ []) : ∃ x y, sourceFields line = x :: (rest.dropLast ++ [y]) ∧
      Python.strip x.toList = Python.strip first.toList := by
  obtain ⟨before, after, hsplit, hbefore, hafter⟩ := Python.strip_split line.toList
  have hfields : first :: rest = ((Python.strip line.toList).splitOn ',').map String.ofList := by
    unfold fieldsOf at h
    simp only at h
    split at h
    · cases h
    · exact (Option.some.inj h).symm
  have hparts : [','].intercalate ((Python.strip line.toList).splitOn ',') = Python.strip line.toList :=
    List.intercalate_splitOn ','
  have hplain : ∀ part ∈ (Python.strip line.toList).splitOn ',', ',' ∉ part := fun part => not_mem_of_mem_splitOn
  generalize (Python.strip line.toList).splitOn ',' = parts at hfields hparts hplain
  cases parts with
  | nil => cases hfields
  | cons part parts =>
    obtain ⟨rfl, rfl⟩ := List.cons.inj hfields
    have hparts_ne : parts ≠ [] := fun hnil => hne (by rw [hnil]; rfl)
    obtain ⟨middle, last, hlast⟩ := (List.eq_nil_or_concat parts).resolve_left hparts_ne
    rw [List.concat_eq_append] at hlast
    subst hlast
    have hblank : ∀ {cs : List Char}, (∀ c ∈ cs, Python.isSpace c = true) → ',' ∉ cs := fun hcs hmem =>
      absurd (hcs _ hmem) (by decide)
    have hline : line.toList = [','].intercalate ((before ++ part) :: (middle ++ [last ++ after])) := by
      rw [hsplit, ← hparts, List.intercalate_cons_of_ne_nil (by simp), List.intercalate_cons_of_ne_nil (by simp),
        ← intercalate_append_last]
      simp
    have hsource : ∀ cs ∈ (before ++ part) :: (middle ++ [last ++ after]), ',' ∉ cs := by
      intro cs hcs hmem
      rcases List.mem_cons.1 hcs with rfl | hcs
      · rcases List.mem_append.1 hmem with hmem | hmem
        · exact hblank hbefore hmem
        · exact hplain part List.mem_cons_self hmem
      · rcases List.mem_append.1 hcs with hcs | hcs
        · exact hplain cs (by simp [hcs]) hmem
        · rw [List.mem_singleton.1 hcs] at hmem
          rcases List.mem_append.1 hmem with hmem | hmem
          · exact hplain last (by simp) hmem
          · exact hblank hafter hmem
    refine ⟨String.ofList (before ++ part), String.ofList (last ++ after), ?_, ?_⟩
    · unfold sourceFields
      rw [hline, List.splitOn_intercalate ',' hsource (by simp)]
      simp
    · rw [String.toList_ofList, String.toList_ofList, Python.strip_append_left hbefore]

/-! ## The rows -/

theorem int_ok {text : String} {n : Int} (h : int text = .ok n) : Python.int text.toList = some n := by
  unfold int at h
  split at h
  · rename_i m hm
    cases h
    exact hm
  · cases h

theorem sideFromBuyerMaker_ok {text : String} {side : Side} (h : sideFromBuyerMaker text = .ok side) :
    (some side.text = some "SELL" ↔ some text = some "True") ∧ (some side.text = some "BUY" ↔ some text = some "False") := by
  unfold sideFromBuyerMaker at h
  split at h
  · rename_i htrue
    cases h
    rw [htrue]
    decide
  · split at h
    · rename_i hfalse
      cases h
      rw [hfalse]
      decide
    · cases h

theorem integer_toString (n : Int) : integer (some (toString n)) = some n := Python.int_strip (Python.int_toString n)

theorem integer_of_int {text : String} {n : Int} (h : int text = .ok n) : integer (some text) = some n :=
  Python.int_strip (int_ok h)

theorem integer_of_strip {x text : String} (hx : Python.strip x.toList = Python.strip text.toList) {n : Int}
    (h : int text = .ok n) : integer (some x) = some n := by
  show Python.int (Python.strip x.toList) = some n
  rw [hx]
  exact integer_of_int h

/-- **A staged trade carries its line over.** -/
theorem tradeRow_of_line {instrumentId venueSymbol line : String} {fields : List String} {before after : UnitNormaliser}
    {trade : ArchiveAggTrade} (hfields : fieldsOf line = some fields) (h : aggTradeOf before fields = .ok (trade, after)) :
    TradeRow instrumentId venueSymbol line (tradeFields instrumentId venueSymbol trade) := by
  unfold aggTradeOf at h
  split at h
  · rename_i id price quantity first last timestamp isBuyerMaker isBestMatch
    obtain ⟨aggTradeId, hid, h⟩ := bind_ok h
    obtain ⟨firstTradeId, hfirst, h⟩ := bind_ok h
    obtain ⟨lastTradeId, hlast, h⟩ := bind_ok h
    obtain ⟨value, hvalue, h⟩ := bind_ok h
    obtain ⟨⟨eventTsUs, next⟩, hcall, h⟩ := bind_ok h
    obtain ⟨side, hside, h⟩ := bind_ok h
    cases h
    obtain ⟨unit, hunit, hmicros, -⟩ := UnitNormaliser.call_ok hcall
    obtain ⟨x, y, hsource, hx⟩ := sourceFields_eq hfields (by simp)
    have hsource : sourceFields line = [x, price, quantity, first, last, timestamp, isBuyerMaker, y] := hsource
    have hsides := sideFromBuyerMaker_ok hside
    refine { carries := ⟨rfl, ?_, ?_, ?_⟩, instrument := rfl, venue := rfl, symbol := rfl, sell := ?_, buy := ?_ }
    all_goals rw [hsource]
    · simp only [List.forall_mem_cons]
      exact ⟨⟨price, rfl, rfl⟩, ⟨quantity, rfl, rfl⟩, List.forall_mem_nil _⟩
    · simp only [List.forall_mem_cons]
      exact ⟨⟨aggTradeId, integer_toString _, integer_of_strip hx hid⟩, ⟨firstTradeId, integer_toString _, integer_of_int hfirst⟩,
        ⟨lastTradeId, integer_toString _, integer_of_int hlast⟩, List.forall_mem_nil _⟩
    · simp only [List.forall_mem_cons]
      exact ⟨⟨value, unit, integer_of_int hvalue, hunit, hmicros ▸ integer_toString _⟩, List.forall_mem_nil _⟩
    · exact hsides.1
    · exact hsides.2
  · cases h

/-- **A staged kline carries its line over.** -/
theorem klineRow_of_line {instrumentId line : String} {fields : List String} {before after : UnitNormaliser}
    {bar : ArchiveKline} (hfields : fieldsOf line = some fields) (h : klineOf before fields = .ok (bar, after)) :
    KlineRow instrumentId line (klineFields instrumentId bar) := by
  unfold klineOf at h
  split at h
  · rename_i openTime opening high low close volume closeTime quoteVolume tradeCount takerBase takerQuote ignore
    obtain ⟨openValue, hopen, h⟩ := bind_ok h
    obtain ⟨⟨openTimeUs, opened⟩, hopened, h⟩ := bind_ok h
    obtain ⟨closeValue, hclose, h⟩ := bind_ok h
    obtain ⟨⟨closeTimeUs, closed⟩, hclosed, h⟩ := bind_ok h
    obtain ⟨count, hcount, h⟩ := bind_ok h
    cases h
    obtain ⟨openUnit, hopenUnit, hopenMicros, -⟩ := UnitNormaliser.call_ok hopened
    obtain ⟨closeUnit, hcloseUnit, hcloseMicros, -⟩ := UnitNormaliser.call_ok hclosed
    obtain ⟨x, y, hsource, hx⟩ := sourceFields_eq hfields (by simp)
    have hsource : sourceFields line =
        [x, opening, high, low, close, volume, closeTime, quoteVolume, tradeCount, takerBase, takerQuote, y] := hsource
    refine { carries := ⟨rfl, ?_, ?_, ?_⟩, instrument := rfl }
    all_goals rw [hsource]; simp only [List.forall_mem_cons]
    · exact ⟨⟨opening, rfl, rfl⟩, ⟨high, rfl, rfl⟩, ⟨low, rfl, rfl⟩, ⟨close, rfl, rfl⟩, ⟨volume, rfl, rfl⟩,
        ⟨quoteVolume, rfl, rfl⟩, ⟨takerBase, rfl, rfl⟩, List.forall_mem_nil _⟩
    · exact ⟨⟨count, integer_toString _, integer_of_int hcount⟩, List.forall_mem_nil _⟩
    · exact ⟨⟨openValue, openUnit, integer_of_strip hx hopen, hopenUnit, hopenMicros ▸ integer_toString _⟩,
        ⟨closeValue, closeUnit, integer_of_int hclose, hcloseUnit, hcloseMicros ▸ integer_toString _⟩, List.forall_mem_nil _⟩
  · cases h

/-! ## The body -/

theorem fieldsOf_isNone (line : String) : (fieldsOf line).isNone = isBlank line := by
  unfold fieldsOf isBlank
  dsimp only
  cases (Python.strip line.toList).isEmpty <;> rfl

/-- **A row for each line that is not blank**, in order. -/
theorem parseLines_forall₂ {α : Type} {rowOf : UnitNormaliser → List String → Except ParseError (α × UnitNormaliser)} :
    ∀ {lines : List String} {normalise : UnitNormaliser} {rows : List α}, parseLines rowOf normalise lines = .ok rows →
      List.Forall₂ (fun line row => ∃ fields before after, fieldsOf line = some fields ∧
        rowOf before fields = .ok (row, after)) (lines.filter (fun line => !isBlank line)) rows
  | [], normalise, rows, h => by
    cases h
    exact .nil
  | line :: lines, normalise, rows, h => by
    rw [parseLines] at h
    cases hfields : fieldsOf line with
    | none =>
      have hblank : isBlank line = true := by rw [← fieldsOf_isNone, hfields]; rfl
      rw [hfields] at h
      rw [List.filter_cons, hblank]
      exact parseLines_forall₂ h
    | some fields =>
      have hblank : isBlank line = false := by rw [← fieldsOf_isNone, hfields]; rfl
      rw [hfields] at h
      obtain ⟨⟨row, after⟩, hrow, h⟩ := bind_ok h
      obtain ⟨rest, hrest, h⟩ := bind_ok h
      cases h
      rw [List.filter_cons, hblank]
      exact .cons ⟨fields, normalise, after, hfields, hrow⟩ (parseLines_forall₂ hrest)


/-! ### The values of a row -/

/-- A field of a line that holds no newline is plain. -/
theorem plain_of_mem_fieldsOf {line : String} (hline : '\n' ∉ line.toList) {fields : List String}
    (h : fieldsOf line = some fields) : Plain fields := by
  intro field hfield
  refine ⟨fieldsOf_plain h hfield, fun hmem => ?_⟩
  obtain ⟨before, after, hsplit, -⟩ := Python.strip_split line.toList
  unfold fieldsOf at h
  simp only at h
  split at h
  · cases h
  · cases h
    obtain ⟨part, hpart, rfl⟩ := List.mem_map.1 hfield
    rw [String.toList_ofList] at hmem
    have hstrip : '\n' ∈ Python.strip line.toList := by
      have hjoin : [','].intercalate ((Python.strip line.toList).splitOn ',') = Python.strip line.toList :=
        List.intercalate_splitOn ','
      rw [← hjoin]
      exact mem_intercalate_of_mem hpart hmem
    refine hline ?_
    rw [hsplit]
    exact List.mem_append_left _ (List.mem_append_right _ hstrip)

theorem newline_not_in_toString (n : Int) : '\n' ∉ (toString n).toList := by
  intro h
  rcases Python.mem_toString h with h | h
  · exact absurd h (by decide)
  · exact absurd h (by decide)

theorem plain_toString (n : Int) : ',' ∉ (toString n).toList ∧ '\n' ∉ (toString n).toList :=
  ⟨comma_not_in_toString n, newline_not_in_toString n⟩

theorem plain_tradeFields {instrumentId venueSymbol : String} {trade : ArchiveAggTrade}
    (h : Plain [instrumentId, venueSymbol, trade.price, trade.quantity]) : Plain (tradeFields instrumentId venueSymbol trade) := by
  have hside : ',' ∉ trade.side.text.toList ∧ '\n' ∉ trade.side.text.toList := by cases trade.side <;> decide
  unfold Plain tradeFields at *
  simp only [List.forall_mem_cons] at h ⊢
  obtain ⟨hid, hsymbol, hprice, hquantity, -⟩ := h
  exact ⟨hid, by decide, hsymbol, plain_toString _, hprice, hquantity, plain_toString _, plain_toString _, plain_toString _,
    hside, List.forall_mem_nil _⟩

theorem plain_klineFields {instrumentId : String} {bar : ArchiveKline}
    (h : Plain [instrumentId, bar.opening, bar.high, bar.low, bar.close, bar.volume, bar.quoteVolume,
      bar.takerBuyBaseVolume]) : Plain (klineFields instrumentId bar) := by
  unfold Plain klineFields at *
  simp only [List.forall_mem_cons] at h ⊢
  obtain ⟨hid, hopening, hhigh, hlow, hclose, hvolume, hquote, htaker, -⟩ := h
  exact ⟨hid, plain_toString _, plain_toString _, hopening, hhigh, hlow, hclose, hvolume, hquote, plain_toString _, htaker,
    List.forall_mem_nil _⟩

/-- **Staging is a faithful encoding.**  The body of the rows parsed of some lines is read back as one row for each line
that is not blank, in order, and each row says what its line says. -/
theorem staging_faithful (gzip : Gzip) {instrumentId venueSymbol : String} (hids : Plain [instrumentId, venueSymbol])
    (text : String) {lines : List String} (hlines : lines = (Python.splitlines text.toList).map String.ofList) :
    (∀ trades, parseAggTrades lines = .ok trades → ∃ rows,
      gzip.decodeRows (tradesCsvGz gzip instrumentId venueSymbol trades) = some rows ∧
      List.Forall₂ (TradeRow instrumentId venueSymbol) (lines.filter (fun line => !isBlank line)) rows) ∧
    ∀ bars, parseKlines lines = .ok bars → ∃ rows,
      gzip.decodeRows (klinesCsvGz gzip instrumentId bars) = some rows ∧
      List.Forall₂ (KlineRow instrumentId) (lines.filter (fun line => !isBlank line)) rows := by
  have hnewline : ∀ line ∈ lines, '\n' ∉ line.toList := by
    intro line hline
    rw [hlines] at hline
    obtain ⟨cs, hcs, rfl⟩ := List.mem_map.1 hline
    rw [String.toList_ofList]
    exact Python.not_mem_splitlines cs hcs
  constructor
  · intro trades h
    have hrows := parseLines_forall₂ h
    refine ⟨trades.map (tradeFields instrumentId venueSymbol), decodeRows_ofText gzip (fun row hrow => ?_), ?_⟩
    · obtain ⟨trade, htrade, rfl⟩ := List.mem_map.1 hrow
      obtain ⟨line, hline, fields, hfields, before, after, hof⟩ := mem_parseLines h trade htrade
      have hplain := plain_of_mem_fieldsOf (hnewline line hline) hfields
      obtain ⟨hprice, hquantity, -⟩ := aggTradeOf_ok hof
      refine ⟨List.cons_ne_nil _ _, plain_tradeFields (List.forall_mem_cons.2 ⟨hids _ (by simp), ?_⟩)⟩
      simp only [List.forall_mem_cons]
      exact ⟨hids _ (by simp), hplain _ hprice, hplain _ hquantity, List.forall_mem_nil _⟩
    · rw [List.forall₂_map_right_iff]
      exact hrows.imp (fun line trade ⟨_, _, _, hfields, hof⟩ => tradeRow_of_line hfields hof)
  · intro bars h
    have hrows := parseLines_forall₂ h
    refine ⟨bars.map (klineFields instrumentId), decodeRows_ofText gzip (fun row hrow => ?_), ?_⟩
    · obtain ⟨bar, hbar, rfl⟩ := List.mem_map.1 hrow
      obtain ⟨line, hline, fields, hfields, before, after, hof⟩ := mem_parseLines h bar hbar
      have hplain := plain_of_mem_fieldsOf (hnewline line hline) hfields
      obtain ⟨htexts, -⟩ := klineOf_ok hof
      refine ⟨List.cons_ne_nil _ _, plain_klineFields (List.forall_mem_cons.2 ⟨hids _ (by simp), ?_⟩)⟩
      exact fun value hvalue => hplain value (htexts value hvalue)
    · rw [List.forall₂_map_right_iff]
      exact hrows.imp (fun line bar ⟨_, _, _, hfields, hof⟩ => klineRow_of_line hfields hof)

/-- Behind the two bytes that open a gzip member, uncompressed. -/
def memberGzip : Gzip where
  compress body := ⟨(0x1f :: 0x8b :: body.data.toList).toArray⟩
  decompress body :=
    match body.data.toList with
    | 0x1f :: 0x8b :: rest => some ⟨rest.toArray⟩
    | _                    => none
  roundTrip _ := rfl

/-- Two aggregated trades, with a blank line between them. -/
def twoTradesText : String :=
  "26129,60000.10,0.5,27781,27782,1728000600000,True,True\n\n26130,60000.20,1.5,27783,27783,1728000601000,False,True\n"

def twoTradesLines : List String := (Python.splitlines twoTradesText.toList).map String.ofList

theorem staging_faithful_twoTrades : ∃ trades, parseAggTrades twoTradesLines = .ok trades ∧ trades.length = 2 ∧ ∃ rows,
    memberGzip.decodeRows (tradesCsvGz memberGzip "BTC-USD" "BTCUSDT" trades) = some rows ∧
    List.Forall₂ (TradeRow "BTC-USD" "BTCUSDT") (twoTradesLines.filter (fun line => !isBlank line)) rows := by
  have hparse : ∃ trades, parseAggTrades twoTradesLines = .ok trades ∧ trades.length = 2 := by
    cases h : parseAggTrades twoTradesLines with
    | error e =>
      have hok : (parseAggTrades twoTradesLines).toOption.isSome = true := by decide +kernel
      rw [h] at hok
      cases hok
    | ok trades =>
      have htwo : (parseAggTrades twoTradesLines).toOption.map List.length = some 2 := by decide +kernel
      rw [h] at htwo
      exact ⟨trades, rfl, Option.some.inj htwo⟩
  obtain ⟨trades, htrades, htwo⟩ := hparse
  have hids : Plain ["BTC-USD", "BTCUSDT"] := by
    unfold Plain
    decide
  exact ⟨trades, htrades, htwo, (staging_faithful memberGzip hids twoTradesText rfl).1 trades htrades⟩

end Backfill
