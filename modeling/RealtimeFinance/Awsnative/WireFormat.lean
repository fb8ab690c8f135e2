import RealtimeFinance.Awsnative.KinesisSink
import RealtimeFinance.Awsnative.MacroCollector
import RealtimeFinance.Awsnative.PerpContext
import RealtimeFinance.Backfill.StagingRoundTrip
import RealtimeFinance.Python.JsonText
/-!
# WireFormat — what `awsnative.encode` and `jsonl_gz` write, read back

A record on the stream is one document of printable ASCII: `json.loads` gives the fields of the trade, and nothing may
follow (`encodeTrade_document`).  An enrichment object is a document for each row, one on a line (`readJsonl_jsonlGz`).
-/
namespace Awsnative

open Ingest Python

/-! ## A record of the stream -/

/-- `trade_to_dict`. -/
def tradeFields (t : Trade) : List (String × JsonTree) :=
  [("venue", .str t.venue), ("venue_symbol", .str t.venueSymbol), ("instrument_id", .str t.instrumentId),
    ("trade_id", .str t.tradeId), ("event_ts_us", .int t.eventTsUs), ("ingest_ts_us", .int t.ingestTsUs),
    ("price", .str t.price), ("size", .str t.size), ("side", .str t.side.text),
    ("sequence", (t.sequence.map JsonTree.int).getD .null), ("is_backfill", .bool t.isBackfill),
    ("source", .str t.source.text), ("schema_version", .int tradeSchemaVersion)]

theorem toList_hex4 (n : Nat) : (hex4 n).toList = hexDigits n := String.toList_ofList

theorem toList_jsonChar (c : Char) : (jsonChar c).toList = escapeChar c := by
  unfold jsonChar
  split
  · rename_i hc; rw [eq_of_toNat (d := '"') hc]; rfl
  · rename_i hc; rw [eq_of_toNat (d := '\\') hc]; rfl
  · rename_i hc; rw [eq_of_toNat (d := '\n') hc]; rfl
  · rename_i hc; rw [eq_of_toNat (d := '\r') hc]; rfl
  · rename_i hc; rw [eq_of_toNat (d := '\t') hc]; rfl
  · rename_i hc; rw [eq_of_toNat (d := Char.ofNat 12) hc]; rfl
  · rename_i hc; rw [eq_of_toNat (d := Char.ofNat 8) hc]; rfl
  · have hshort : shortEscape c = none := by
      unfold shortEscape
      split <;> first | contradiction | rfl
    rw [escapeChar, hshort]
    dsimp only
    split
    · exact String.toList_singleton c
    · split
      · rw [String.toList_append, toList_hex4]
        rfl
      · rw [String.toList_append, String.toList_append, String.toList_append, toList_hex4, toList_hex4]
        simp [escapeUnit]

theorem toList_jsonString (s : String) : (jsonString s).toList = quoted s := by
  unfold jsonString quoted
  rw [String.toList_append, String.toList_append, String.toList_join, List.flatMap_map]
  simp only [toList_jsonChar]
  rfl

/-- Fields joined by commas. -/
theorem toList_fields : ∀ fields : List (String × JsonTree),
    (",".intercalate (fields.map (fun f => jsonString f.1 ++ ":" ++ String.ofList (dumps [] f.2)))).toList =
      dumpsFields [] fields
  | []                          => by rw [List.map_nil, String.intercalate_nil]; rfl
  | [(key, item)]               => by
    rw [List.map_singleton, String.intercalate_singleton, dumpsFields, String.toList_append, String.toList_append,
      toList_jsonString, String.toList_ofList]
    simp
  | (key, item) :: next :: rest => by
    have hrest := toList_fields (next :: rest)
    rw [List.map_cons] at hrest
    rw [List.map_cons, List.map_cons, String.intercalate_cons_cons, String.toList_append, String.toList_append, hrest,
      dumpsFields, String.toList_append, String.toList_append, toList_jsonString, String.toList_ofList]
    simp

theorem jsonString_eq (s : String) : jsonString s = String.ofList (quoted s) := by
  rw [← toList_jsonString, String.ofList_toList]

theorem tradeToDict_eq (t : Trade) :
    tradeToDict t = (tradeFields t).map (fun f => (f.1, String.ofList (dumps [] f.2))) := by
  unfold tradeToDict tradeFields
  cases t.sequence <;> cases t.isBackfill <;> simp [dumps, jsonString_eq]

theorem toList_encodeTrade (t : Trade) : (encodeTrade t).toList = dumps [] (.object (tradeFields t)) := by
  have hfields := toList_fields (tradeFields t)
  unfold encodeTrade
  rw [tradeToDict_eq, List.map_map, dumps, ← hfields, String.toList_append, String.toList_append]
  rfl

theorem tradeFields_exact (t : Trade) : fieldsExact (tradeFields t) = true := by
  unfold tradeFields
  cases t.sequence <;> rfl

theorem gap_nil {p : Char → Prop} : ∀ c ∈ ([] : List Char), p c := List.forall_mem_nil _

theorem side_text_injective : ∀ {a b : Side}, a.text = b.text → a = b := by
  intro a b h
  cases a <;> cases b <;> first | rfl | exact absurd h (by decide)

theorem source_text_injective : ∀ {a b : Source}, a.text = b.text → a = b := by
  intro a b h
  cases a <;> cases b <;> first | rfl | exact absurd h (by decide)

theorem tradeFields_injective {t t' : Trade} (h : tradeFields t = tradeFields t') : t = t' := by
  obtain ⟨venue, venueSymbol, instrumentId, tradeId, eventTsUs, ingestTsUs, price, size, side, sequence, isBackfill,
    source⟩ := t
  obtain ⟨venue', venueSymbol', instrumentId', tradeId', eventTsUs', ingestTsUs', price', size', side', sequence',
    isBackfill', source'⟩ := t'
  simp only [tradeFields, List.cons.injEq, Prod.mk.injEq, true_and, and_true, JsonTree.str.injEq, JsonTree.int.injEq,
    JsonTree.bool.injEq] at h
  obtain ⟨rfl, rfl, rfl, rfl, rfl, rfl, rfl, rfl, hside, hsequence, rfl, hsource⟩ := h
  obtain rfl := side_text_injective hside
  obtain rfl := source_text_injective hsource
  have hsame : sequence = sequence' := by
    cases sequence with
    | none =>
      cases sequence' with
      | none => rfl
      | some n => cases hsequence
    | some m =>
      cases sequence' with
      | none => cases hsequence
      | some n =>
        cases hsequence
        rfl
  rw [hsame]

/-- Printable ASCII takes a byte for each character. -/
theorem utf8ByteSize_of_printable {s : String} (h : ∀ c ∈ s.toList, PrintableAscii c) : s.length = s.utf8ByteSize := by
  induction s using String.push_induction with
  | empty => rfl
  | push s c ih =>
    rw [String.toList_push, List.forall_mem_append, List.forall_mem_singleton] at h
    have hsize : c.utf8Size = 1 := by
      rw [Char.utf8Size_eq_one_iff, UInt32.le_iff_toNat_le]
      exact Nat.le_trans h.2.2 (by decide)
    rw [String.length_push, String.utf8ByteSize_push, ih h.1, hsize]

/-- **A record is one document**, read as the fields of its trade; only blanks may follow.  It is printable ASCII, so it is
as long as its bytes, and no two trades have the same. -/
theorem encodeTrade_document (t : Trade) :
    (∀ rest, loads ((encodeTrade t).toList ++ rest) =
      if (skipBlanks rest).isEmpty then some (.object (tradeFields t)) else none) ∧
    (∀ c ∈ (encodeTrade t).toList, PrintableAscii c) ∧ (recordOf t).size = (encodeTrade t).utf8ByteSize ∧
    ∀ t', encodeTrade t' = encodeTrade t → t' = t := by
  have hloads : ∀ t rest, loads ((encodeTrade t).toList ++ rest) =
      if (skipBlanks rest).isEmpty then some (.object (tradeFields t)) else none := by
    intro t rest
    rw [toList_encodeTrade, loads_append gap_nil (tradeFields_exact t)]
  have hprintable : ∀ c ∈ (encodeTrade t).toList, PrintableAscii c := by
    rw [toList_encodeTrade]
    exact printable_dumps gap_nil (.object (tradeFields t)) (tradeFields_exact t)
  refine ⟨hloads t, hprintable, ?_, fun t' h => ?_⟩
  · exact utf8ByteSize_of_printable hprintable
  · have hsame := hloads t' []
    rw [h, hloads t []] at hsame
    simp only [skipBlanks, List.dropWhile_nil, List.isEmpty_nil, if_true, Option.some.injEq, JsonTree.object.injEq] at hsame
    exact tradeFields_injective hsame.symm

/-! ## An enrichment object -/

/-- A row of texts, as `PerpContext.to_json` and `MacroObservation.to_json` give it. -/
def textRow (row : Dict String) : JsonTree := .object (row.map (fun field => (field.1, .str field.2)))

/-- The body before it is compressed. -/
def jsonLines (rows : List (Dict String)) : List Char := rows.flatMap (fun row => dumps [] (textRow row) ++ ['\n'])

/-- `jsonl_gz`. -/
def jsonlGz (gzip : Backfill.Gzip) (rows : List (Dict String)) : ByteArray := gzip.ofText (String.ofList (jsonLines rows))

def MacroObservation.toJson (o : Enrichment.MacroObservation) : Dict String :=
  [("series_id", o.seriesId), ("observation_date", o.observationDate), ("vintage_date", o.vintageDate), ("value", o.value)]

/-- The texts of a row. -/
def rowOfTree : JsonTree → Option (Dict String)
  | .object fields => fields.mapM (fun field => field.2.asText.map (fun text => (field.1, text)))
  | _              => none

/-- Split on newline, the last of which ends the text, and a document on each line. -/
def readLines (cs : List Char) : Option (List (Dict String)) :=
  (cs.splitOn '\n').dropLast.mapM (fun line => (loads line).bind rowOfTree)

def readJsonl (gzip : Backfill.Gzip) (body : ByteArray) : Option (List (Dict String)) := do
  let bytes ← gzip.decompress body
  let text ← String.fromUTF8? bytes
  readLines text.toList

/-- The columns of `bronze_macro_observations` in a row. -/
def observationOfRow (row : Dict String) : Option Enrichment.MacroObservation := do
  let seriesId ← Dict.get? row "series_id"
  let observationDate ← Dict.get? row "observation_date"
  let vintageDate ← Dict.get? row "vintage_date"
  let value ← Dict.get? row "value"
  return { seriesId, observationDate, vintageDate, value }

theorem textRow_exact : ∀ row : Dict String, (textRow row).isExact = true
  | []       => rfl
  | _ :: row => textRow_exact row

theorem rowOfTree_textRow (row : Dict String) : rowOfTree (textRow row) = some row := by
  have hfields : ∀ row : Dict String, (row.map (fun field => (field.1, JsonTree.str field.2))).mapM
      (fun field => field.2.asText.map (fun text => (field.1, text))) = some row := by
    intro row
    induction row with
    | nil => rfl
    | cons field row ih =>
      rw [List.map_cons, List.mapM_cons, ih]
      rfl
  exact hfields row

theorem newline_not_in_dumps {v : JsonTree} (hv : v.isExact = true) : '\n' ∉ dumps [] v := by
  intro hmem
  exact absurd (printable_dumps gap_nil v hv '\n' hmem) (by decide)

/-- **A line for each row, and each row as it was.** -/
theorem readLines_jsonLines (rows : List (Dict String)) : readLines (jsonLines rows) = some rows := by
  have hlines : ∀ line ∈ rows.map (fun row => dumps [] (textRow row)), '\n' ∉ line := by
    intro line hline
    obtain ⟨row, -, rfl⟩ := List.mem_map.1 hline
    exact newline_not_in_dumps (textRow_exact row)
  have hbody : jsonLines rows = (rows.map (fun row => dumps [] (textRow row))).flatMap (fun line => line ++ ['\n']) := by
    rw [jsonLines, List.flatMap_map]
  unfold readLines
  rw [hbody, Backfill.splitOn_lines hlines, List.dropLast_concat]
  clear hlines hbody
  induction rows with
  | nil => rfl
  | cons row rows ih =>
    rw [List.map_cons, List.mapM_cons, ih, loads_dumps gap_nil (textRow_exact row), Option.bind_some, rowOfTree_textRow]
    rfl

theorem readJsonl_jsonlGz (gzip : Backfill.Gzip) (rows : List (Dict String)) :
    readJsonl gzip (jsonlGz gzip rows) = some rows := by
  unfold readJsonl jsonlGz Backfill.Gzip.ofText
  rw [gzip.roundTrip]
  simp only [Option.bind_eq_bind, Option.bind_some, Backfill.fromUTF8_toUTF8, String.toList_ofList]
  exact readLines_jsonLines rows

theorem observationOfRow_toJson (o : Enrichment.MacroObservation) : observationOfRow (MacroObservation.toJson o) = some o :=
  rfl

/-- **What an enrichment Lambda writes is what is read of it**, whatever the texts of its rows: the rows of a poll, and the
observations of a vintage.  Other rows give another object. -/
theorem enrichmentObject_readBack (gzip : Backfill.Gzip) :
    (∀ rows, readJsonl gzip (jsonlGz gzip rows) = some rows) ∧
    (∀ rows rows', jsonlGz gzip rows' = jsonlGz gzip rows → rows' = rows) ∧
    ∀ os : List Enrichment.MacroObservation,
      (readJsonl gzip (jsonlGz gzip (os.map MacroObservation.toJson))).bind (fun rows => rows.mapM observationOfRow) =
        some os := by
  refine ⟨readJsonl_jsonlGz gzip, fun rows rows' h => ?_, fun os => ?_⟩
  · have hsame := readJsonl_jsonlGz gzip rows'
    rw [h, readJsonl_jsonlGz gzip rows, Option.some.injEq] at hsame
    exact hsame.symm
  · rw [readJsonl_jsonlGz, Option.bind_some]
    induction os with
    | nil => rfl
    | cons o os ih =>
      rw [List.map_cons, List.mapM_cons, observationOfRow_toJson, ih]
      rfl

end Awsnative
