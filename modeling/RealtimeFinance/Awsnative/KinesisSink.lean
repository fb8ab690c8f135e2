import RealtimeFinance.Ingest.Models
/-!
# KinesisSink — `awsnative.encode` and `awsnative.sink`

`produce` only buffers; `poll` past a threshold and `flush` send the buffer in batches.  A batch is sliced off the buffer
before it is sent, and of a partial failure only the failed records are sent again.  The stream is a script of responses,
one for each `put_records` request.
-/
namespace Awsnative

open Ingest

/-! ## The wire format -/

def hex4 (n : Nat) : String :=
  String.ofList [(n / 4096 % 16).digitChar, (n / 256 % 16).digitChar, (n / 16 % 16).digitChar, (n % 16).digitChar]

/-- `json.dumps` of a character, everything outside the printable ASCII escaped. -/
def jsonChar (c : Char) : String :=
  match c.toNat with
  | 34 => "\\\""
  | 92 => "\\\\"
  | 10 => "\\n"
  | 13 => "\\r"
  | 9  => "\\t"
  | 12 => "\\f"
  | 8  => "\\b"
  | n  =>
    if 32 ≤ n ∧ n ≤ 126 then c.toString
    else if n < 65536 then "\\u" ++ hex4 n
    -- a surrogate pair
    else "\\u" ++ hex4 (55296 + (n - 65536) / 1024) ++ "\\u" ++ hex4 (56320 + (n - 65536) % 1024)

def jsonString (s : String) : String := "\"" ++ String.join (s.toList.map jsonChar) ++ "\""

def tradeSchemaVersion : Int := 1

/-- `trade_to_dict`, its values encoded. -/
def tradeToDict (t : Trade) : List (String × String) :=
  [("venue", jsonString t.venue), ("venue_symbol", jsonString t.venueSymbol),
    ("instrument_id", jsonString t.instrumentId), ("trade_id", jsonString t.tradeId),
    ("event_ts_us", toString t.eventTsUs), ("ingest_ts_us", toString t.ingestTsUs), ("price", jsonString t.price),
    ("size", jsonString t.size), ("side", jsonString t.side.text),
    ("sequence", (t.sequence.map toString).getD "null"), ("is_backfill", if t.isBackfill then "true" else "false"),
    ("source", jsonString t.source.text), ("schema_version", toString tradeSchemaVersion)]

/-- Every character is ASCII, so the text is as long as its bytes. -/
def encodeTrade (t : Trade) : String :=
  "\x7b" ++ ",".intercalate ((tradeToDict t).map (fun f => jsonString f.1 ++ ":" ++ f.2)) ++ "\x7d"

structure KinesisRecord where
  data : String
  partitionKey : String
  deriving DecidableEq

def KinesisRecord.size (r : KinesisRecord) : Nat := r.data.length

def recordOf (t : Trade) : KinesisRecord := { data := encodeTrade t, partitionKey := t.kafkaKey }

/-! ## The sink -/

structure SinkConfig where
  maxBatch : Nat := 500
  maxBytes : Nat := 4500000
  maxAttempts : Nat := 8

structure KinesisSink where
  buffer : List KinesisRecord
  bufferedBytes : Nat

/-- What `put_records` does with a request; `failed` are the positions of the records the stream did not take.  An
answer has one result for each record, and counts the failed ones. -/
inductive Response
  | raises (failed : Nat → Bool)
  | answers (failed : Nat → Bool)

abbrev Client := Nat → Response

inductive SendError
  | clientRaised
  | retriesExhausted (pending : Nat)
  deriving DecidableEq

/-- What sending did: the requests made so far, the records the stream took, and the count returned. -/
structure Sent where
  requests : Nat
  accepted : List KinesisRecord
  result : Except SendError Nat

def failedFlags (failed : Nat → Bool) (n : Nat) : List Bool := (List.range n).map failed

/-- The records whose result has an `ErrorCode`. -/
def refused (records : List KinesisRecord) (flags : List Bool) : List KinesisRecord :=
  ((records.zip flags).filter (fun p => p.2)).map Prod.fst

def taken (records : List KinesisRecord) (flags : List Bool) : List KinesisRecord :=
  ((records.zip flags).filter (fun p => !p.2)).map Prod.fst

/-- `_send_with_retry`, with the attempts left and the records pending. -/
def sendWithRetry (client : Client) (records : List KinesisRecord) : Nat → Nat → List KinesisRecord → Sent
  | 0, requests, pending => ⟨requests, [], .error (.retriesExhausted pending.length)⟩
  | attempts + 1, requests, pending =>
    match client requests with
    | .raises failed => ⟨requests + 1, taken pending (failedFlags failed pending.length), .error .clientRaised⟩
    | .answers failed =>
      let results := failedFlags failed pending.length
      if results.count true = 0 then ⟨requests + 1, taken pending results, .ok pending.length⟩
      else
        let pending' := refused pending results
        if pending'.isEmpty then ⟨requests + 1, taken pending results, .ok records.length⟩
        else
          let sent := sendWithRetry client records attempts (requests + 1) pending'
          { sent with accepted := taken pending results ++ sent.accepted }

variable (config : SinkConfig) (client : Client)

/-- `_take_batch`, with the batch and its size so far. -/
def takeBatchFrom (batch : List KinesisRecord) (size : Nat) :
    List KinesisRecord → List KinesisRecord × List KinesisRecord
  | [] => (batch, [])
  | record :: rest =>
    if !batch.isEmpty && (decide (config.maxBatch ≤ batch.length) || decide (config.maxBytes < size + record.size))
    then (batch, record :: rest)
    else takeBatchFrom (batch ++ [record]) (size + record.size) rest

def takeBatch (buffer : List KinesisRecord) : List KinesisRecord × List KinesisRecord :=
  takeBatchFrom config [] 0 buffer

def bytesOf (records : List KinesisRecord) : Nat := (records.map KinesisRecord.size).foldr (· + ·) 0

/-- `_send_all`, one batch for each unit of fuel; the buffer's length is enough (`sendAll_empties`). -/
def sendAll : Nat → KinesisSink → Nat → KinesisSink × Sent
  | 0, sink, requests => (sink, ⟨requests, [], .ok 0⟩)
  | fuel + 1, sink, requests =>
    if sink.buffer.isEmpty then (sink, ⟨requests, [], .ok 0⟩)
    else
      let (batch, rest) := takeBatch config sink.buffer
      let sink : KinesisSink := { buffer := rest, bufferedBytes := bytesOf rest }
      let sent := sendWithRetry client batch config.maxAttempts requests batch
      match sent.result with
      | .error _ => (sink, sent)
      | .ok n    =>
        let (sink, more) := sendAll fuel sink sent.requests
        (sink, { more with accepted := sent.accepted ++ more.accepted, result := more.result.map (fun m => n + m) })

def KinesisSink.produce (sink : KinesisSink) (trade : Trade) : KinesisSink :=
  { buffer := sink.buffer ++ [recordOf trade], bufferedBytes := sink.bufferedBytes + (recordOf trade).size }

def KinesisSink.full (sink : KinesisSink) : Bool :=
  decide (config.maxBatch ≤ sink.buffer.length) || decide (config.maxBytes ≤ sink.bufferedBytes)

def KinesisSink.poll (sink : KinesisSink) (requests : Nat) : KinesisSink × Sent :=
  if sink.full config then sendAll config client sink.buffer.length sink requests
  else (sink, ⟨requests, [], .ok 0⟩)

/-- Returns the records still buffered. -/
def KinesisSink.flush (sink : KinesisSink) (requests : Nat) : KinesisSink × Sent :=
  let (sink, sent) := sendAll config client sink.buffer.length sink requests
  (sink, { sent with result := sent.result.map (fun _ => sink.buffer.length) })

/-! ## Batches -/

theorem takeBatchFrom_append (batch : List KinesisRecord) (size : Nat) (buffer : List KinesisRecord) :
    (takeBatchFrom config batch size buffer).1 ++ (takeBatchFrom config batch size buffer).2 = batch ++ buffer := by
  induction buffer generalizing batch size with
  | nil => rfl
  | cons record rest ih =>
    simp only [takeBatchFrom]
    split
    · rfl
    · rw [ih, List.append_assoc]
      rfl

theorem takeBatchFrom_ne_nil (batch : List KinesisRecord) (size : Nat) (buffer : List KinesisRecord)
    (h : batch ≠ [] ∨ buffer ≠ []) : (takeBatchFrom config batch size buffer).1 ≠ [] := by
  induction buffer generalizing batch size with
  | nil =>
    rcases h with h | h
    · exact h
    · exact absurd rfl h
  | cons record rest ih =>
    simp only [takeBatchFrom]
    split
    · rename_i hfull
      rw [Bool.and_eq_true, Bool.not_eq_true', List.isEmpty_eq_false_iff] at hfull
      exact hfull.1
    · exact ih _ _ (Or.inl (by simp))

theorem takeBatch_append (buffer : List KinesisRecord) :
    (takeBatch config buffer).1 ++ (takeBatch config buffer).2 = buffer :=
  takeBatchFrom_append config [] 0 buffer

theorem takeBatch_rest_lt {buffer : List KinesisRecord} (h : buffer ≠ []) :
    (takeBatch config buffer).2.length < buffer.length := by
  have hne := takeBatchFrom_ne_nil config [] 0 buffer (Or.inr h)
  have hlen := congrArg List.length (takeBatch_append config buffer)
  rw [List.length_append] at hlen
  have := List.length_pos_iff.2 hne
  unfold takeBatch at hlen ⊢
  omega

end Awsnative
