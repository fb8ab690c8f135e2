import RealtimeFinance.Awsnative.KinesisDelivery
/-!
# Sinks — `ingest.core.sinks`, and its two implementations

A sink buffers a record at `produce` and delivers it when it may.  What becomes of a record reaches the program three
ways: a call raises, a delivery that failed is reported to a callback while a call is served, and `flush` counts what is
still pending.
-/
namespace Ingest

/-- The protocol.  A call answers none where it raises, and otherwise the records whose delivery it reports as failed;
what the transport does meanwhile is in its answer. -/
structure Sink (σ ω ρ : Type) where
  recordOf : Trade → ρ
  produce : σ → ω → String → Trade → Option (σ × List ρ)
  poll : σ → ω → Option (σ × List ρ)
  flush : σ → ω → Option (σ × List ρ × Nat)
  pending : σ → List ρ
  delivered : σ → List ρ
  produce_keeps : ∀ {s answer topic t s' failed}, produce s answer topic t = some (s', failed) →
    (pending s' ++ delivered s' ++ failed).Perm (pending s ++ delivered s ++ [recordOf t])
  poll_keeps : ∀ {s answer s' failed}, poll s answer = some (s', failed) →
    (pending s' ++ delivered s' ++ failed).Perm (pending s ++ delivered s)
  flush_keeps : ∀ {s answer s' failed n}, flush s answer = some (s', failed, n) →
    (pending s' ++ delivered s' ++ failed).Perm (pending s ++ delivered s) ∧ n = (pending s').length

/-! ## `ingest.core.producer` -/

/-- What the broker has made of a message by the end of a call. -/
inductive Report
  | pending
  | delivered
  | failed
  deriving DecidableEq

/-- A `confluent_kafka.Producer`: its queue, and what the brokers have acknowledged.  A message stands here as its trade. -/
structure TradeProducer where
  queue : List Trade
  acknowledged : List Trade

structure KafkaAnswer where
  /-- `produce` raises `BufferError`. -/
  queueFull : Bool
  /-- Of the messages on the queue, by their place. -/
  reports : Nat → Report

def withReport (report : Report) (queue : List Trade) (reports : List Report) : List Trade :=
  ((queue.zip reports).filter (fun p => decide (p.2 = report))).map Prod.fst

/-- The delivery reports are served: `_on_delivery` logs a failed one. -/
def TradeProducer.serve (p : TradeProducer) (answer : KafkaAnswer) : TradeProducer × List Trade :=
  let reports := (List.range p.queue.length).map answer.reports
  ({ queue := withReport .pending p.queue reports
     acknowledged := p.acknowledged ++ withReport .delivered p.queue reports }, withReport .failed p.queue reports)

def TradeProducer.produce (p : TradeProducer) (answer : KafkaAnswer) (_topic : String) (t : Trade) :
    Option (TradeProducer × List Trade) :=
  if answer.queueFull then none else some ({ p with queue := p.queue ++ [t] }, [])

def TradeProducer.poll (p : TradeProducer) (answer : KafkaAnswer) : Option (TradeProducer × List Trade) :=
  some (p.serve answer)

/-- The number still queued when the time is over. -/
def TradeProducer.flush (p : TradeProducer) (answer : KafkaAnswer) : Option (TradeProducer × List Trade × Nat) :=
  some ((p.serve answer).1, (p.serve answer).2, (p.serve answer).1.queue.length)

theorem withReport_perm : ∀ (queue : List Trade) (reports : List Report), reports.length = queue.length →
    (withReport .pending queue reports ++ withReport .delivered queue reports ++
      withReport .failed queue reports).Perm queue
  | [], [], _ => List.Perm.refl _
  | t :: queue, report :: reports, h => by
    have ih := withReport_perm queue reports (by simpa using h)
    cases report with
    | pending => exact ih.cons t
    | delivered =>
      have hmiddle : (withReport .pending queue reports ++ t :: withReport .delivered queue reports ++
          withReport .failed queue reports).Perm (t :: (withReport .pending queue reports ++
          withReport .delivered queue reports ++ withReport .failed queue reports)) :=
        List.perm_middle.append_right _
      exact hmiddle.trans (ih.cons t)
    | failed => exact List.perm_middle.trans (ih.cons t)

theorem TradeProducer.serve_keeps (p : TradeProducer) (answer : KafkaAnswer) :
    ((p.serve answer).1.queue ++ (p.serve answer).1.acknowledged ++ (p.serve answer).2).Perm
      (p.queue ++ p.acknowledged) := by
  have hlength : ((List.range p.queue.length).map answer.reports).length = p.queue.length := by
    rw [List.length_map, List.length_range]
  have hperm := withReport_perm p.queue _ hlength
  refine List.perm_iff_count.2 (fun t => ?_)
  have hcount := hperm.count_eq t
  simp only [TradeProducer.serve, List.count_append] at hcount ⊢
  omega

def tradeProducer : Sink TradeProducer KafkaAnswer Trade where
  recordOf := id
  produce := TradeProducer.produce
  poll := TradeProducer.poll
  flush := TradeProducer.flush
  pending := TradeProducer.queue
  delivered := TradeProducer.acknowledged
  produce_keeps := by
    intro p answer topic t p' failed h
    unfold TradeProducer.produce at h
    split at h
    · cases h
    · cases h
      rw [List.append_nil, List.append_assoc, List.append_assoc]
      exact List.perm_append_comm.append_left _
  poll_keeps := by
    intro p answer p' failed h
    cases h
    exact p.serve_keeps answer
  flush_keeps := by
    intro p answer p' failed n h
    cases h
    exact ⟨p.serve_keeps answer, rfl⟩

end Ingest

/-! ## `awsnative.sink` -/

namespace Awsnative

open Ingest

variable (config : SinkConfig) (client : Client)

/-- A send that raises is an exception of the call. -/
def SinkRun.sentOk (run : SinkRun) (s : KinesisSink × Sent) : Option (SinkRun × List KinesisRecord) :=
  match s.2.result with
  | .ok _    => some (run.sent s, [])
  | .error _ => none

theorem sentOk_none {run run' : SinkRun} {s : KinesisSink × Sent} {failed : List KinesisRecord}
    (h : run.sentOk s = some (run', failed)) : failed = [] := by
  unfold SinkRun.sentOk at h
  split at h <;> cases h
  rfl

theorem outcomeOf_taken (attempts : Nat) : ∀ (requests n : Nat), (outcomeOf client attempts requests n).raised = false →
    (outcomeOf client attempts requests n).unaccepted = 0 := by
  induction attempts with
  | zero =>
    intro requests n h
    cases h
  | succ attempts ih =>
    intro requests n h
    simp only [outcomeOf] at h ⊢
    cases hc : client requests with
    | raises failed =>
      rw [hc] at h
      cases h
    | answers failed =>
      rw [hc] at h
      by_cases hzero : (failedFlags failed n).count true = 0
      · simp only [if_pos hzero]
      · simp only [if_neg hzero] at h ⊢
        exact ih _ _ h

/-- **A send that does not raise has delivered every batch.** -/
theorem allTaken_of_isOk (fuel : Nat) : ∀ (sink : KinesisSink) (requests : Nat),
    (sendAll config client fuel sink requests).2.result.isOk = true →
      allTaken config client fuel requests sink.buffer = true := by
  induction fuel with
  | zero => exact fun _ _ _ => rfl
  | succ fuel ih =>
    intro sink requests h
    by_cases hempty : sink.buffer.isEmpty = true
    · simp [allTaken, hempty]
    · obtain ⟨hreq, hres, -⟩ := sendWithRetry_outcome client (takeBatch config sink.buffer).1 config.maxAttempts requests
        (takeBatch config sink.buffer).1
      simp only [sendAll, allTaken, if_neg hempty] at h ⊢
      split at h
      · rename_i error hresult
        rw [hresult] at h
        cases h
      · rename_i n hresult
        rw [hresult] at hres
        have hraised : (outcomeOf client config.maxAttempts requests (takeBatch config sink.buffer).1.length).raised =
            false := by simpa [Except.isOk, Except.toBool] using hres
        rw [outcomeOf_taken client _ _ _ hraised, hraised, ← hreq]
        simp only [decide_true, Bool.true_and, Bool.false_or]
        apply ih ⟨(takeBatch config sink.buffer).2, bytesOf (takeBatch config sink.buffer).2⟩
        cases hmore : (sendAll config client fuel
            ⟨(takeBatch config sink.buffer).2, bytesOf (takeBatch config sink.buffer).2⟩
            (sendWithRetry client (takeBatch config sink.buffer).1 config.maxAttempts requests
              (takeBatch config sink.buffer).1).requests).2.result with
        | error e =>
          simp only [hmore] at h
          cases h
        | ok m => rfl

theorem sentOk_keeps {run run' : SinkRun} {requests : Nat} {failed : List KinesisRecord}
    (h : run.sentOk (sendAll config client run.sink.buffer.length run.sink requests) = some (run', failed)) :
    (run'.sink.buffer ++ run'.accepted ++ failed).Perm (run.sink.buffer ++ run.accepted) ∧ run'.sink.buffer = [] := by
  unfold SinkRun.sentOk at h
  split at h
  · rename_i n hresult
    cases h
    have hok : (sendAll config client run.sink.buffer.length run.sink requests).2.result.isOk = true := by
      rw [hresult]
      rfl
    obtain ⟨dropped, hperm, hnil⟩ := sendAll_drops config client run.sink.buffer.length run.sink requests
    rw [hnil.2 (allTaken_of_isOk config client _ _ _ hok)] at hperm
    refine ⟨List.perm_iff_count.2 (fun record => ?_), sendAll_empties config client _ _ _ (Nat.le_refl _) hok⟩
    have hcount := hperm.count_eq record
    simp only [SinkRun.sent, List.count_append] at hcount ⊢
    omega
  · cases h

theorem sentOk_flush (run : SinkRun) : run.sentOk (run.sink.flush config client run.requests) =
    run.sentOk (sendAll config client run.sink.buffer.length run.sink run.requests) := by
  unfold KinesisSink.flush SinkRun.sentOk
  cases h : (sendAll config client run.sink.buffer.length run.sink run.requests).2.result with
  | error e => simp only [h, Except.map]
  | ok n =>
    simp only [h, Except.map]
    rfl

/-- Its answers are the stream's; nothing is reported to a callback. -/
def kinesisSink : Sink SinkRun Unit KinesisRecord where
  recordOf := Awsnative.recordOf
  produce run _ topic t := some (run.step config client (.produce topic t), [])
  poll run _ := run.sentOk (run.sink.poll config client run.requests)
  flush run _ :=
    (run.sentOk (run.sink.flush config client run.requests)).map (fun sent => (sent.1, sent.2, sent.1.sink.buffer.length))
  pending run := run.sink.buffer
  delivered := SinkRun.accepted
  produce_keeps := by
    intro run answer topic t run' failed h
    cases h
    refine List.perm_iff_count.2 (fun record => ?_)
    simp only [SinkRun.step, KinesisSink.produce, List.count_append, List.count_nil]
    omega
  poll_keeps := by
    intro run answer run' failed h
    unfold KinesisSink.poll at h
    by_cases hfull : run.sink.full config = true
    · rw [if_pos hfull] at h
      exact (sentOk_keeps config client h).1
    · rw [if_neg hfull] at h
      cases h
      refine List.perm_iff_count.2 (fun record => ?_)
      simp only [SinkRun.sent, List.count_append, List.count_nil]
      omega
  flush_keeps := by
    intro run answer run' failed n h
    obtain ⟨⟨run'', failed'⟩, hsent, he⟩ := Option.map_eq_some_iff.1 h
    cases he
    rw [sentOk_flush] at hsent
    exact ⟨(sentOk_keeps config client hsent).1, rfl⟩

/-- **A flush that does not raise leaves nothing pending.** -/
theorem kinesisSink_flush {run run' : SinkRun} {failed : List KinesisRecord} {n : Nat}
    (h : (kinesisSink config client).flush run () = some (run', failed, n)) : failed = [] ∧ n = 0 := by
  obtain ⟨⟨run'', failed'⟩, hsent, he⟩ := Option.map_eq_some_iff.1 h
  cases he
  rw [sentOk_flush] at hsent
  rw [(sentOk_keeps config client hsent).2]
  refine ⟨?_, rfl⟩
  exact sentOk_none hsent

theorem kinesisSink_poll {run run' : SinkRun} {failed : List KinesisRecord}
    (h : (kinesisSink config client).poll run () = some (run', failed)) : failed = [] := sentOk_none h

end Awsnative
