import RealtimeFinance.Awsnative.Pipeline
import RealtimeFinance.Ingest.CleanExit
import RealtimeFinance.Ingest.Received
import RealtimeFinance.Ingest.Shutdown
/-!
# SocketToSilver — the native pipeline from the venue's socket to Silver

The runner's tasks over a Kinesis sink, with deliveries, merges and rewrites at any moment between them.  An iteration of
drain makes its calls one after another and dies with the first that raises, the records of the calls before it kept.
Silver then has only trades that a frame or a repair brought, and a run that returns with an empty queue and a delivered
stream has lost nothing of what was put (`socketToSilver`).
-/
namespace Awsnative

open Ingest Runs Sql

variable {Frame : Type} (connector : Connector Frame) (config : SinkConfig) (client : Client) (hexMd5 : String → String)
  (bronzeOf : Int → String → Option BronzeRow)

/-! ## The calls of an iteration -/

/-- The calls of one iteration of drain: `produce` and `poll` for a trade, `poll` for a timeout, and `flush` at its end. -/
def callsOf (trade : Option Trade) (timedOut leaves : Bool) : List SinkCall :=
  trade.toList.map (SinkCall.produce topic) ++ (if trade.isSome || timedOut then [.poll] else []) ++
    (if leaves then [.flush] else [])

/-- The calls one after another, up to the first that raises, and whether all of them returned. -/
def Pipeline.perform (p : Pipeline) : List SinkCall → Pipeline × Bool
  | []      => (p, true)
  | c :: cs =>
    if (p.stream.run.result config client c).isOk then (p.step config client hexMd5 bronzeOf (.call c)).perform cs
    else (p.step config client hexMd5 bronzeOf (.call c), false)

structure Ingestion where
  runner : IngestRunner
  pipeline : Pipeline

def Ingestion.start (maxsize : Nat) (policy : DropPolicy) : Ingestion :=
  { runner := .start maxsize policy, pipeline := .start }

inductive IngestionEvent (Frame : Type)
  /-- A task of the runner goes on; `timedOut` where drain comes to its loop test from a timeout. -/
  | task (e : Event Frame) (timedOut : Bool)
  /-- A delivery, a merge or a rewrite: the sink's calls are drain's alone. -/
  | lake (e : PipelineEvent) (downstream : ∀ c, e ≠ .call c)

/-- The calls of the iteration that the event is. -/
def Ingestion.calls (i : Ingestion) (e : Event Frame) (timedOut : Bool) (trade : Option Trade) : List SinkCall :=
  callsOf trade timedOut (decide ((i.runner.step connector e).drain = .left))

def Ingestion.step (i : Ingestion) : IngestionEvent Frame → Ingestion
  | .task e timedOut =>
    if e.ofSink then i
    else match i.runner.iteration e with
      | none       => { i with runner := i.runner.step connector e }
      | some trade =>
        { runner := i.runner.step connector
            (if (i.pipeline.perform config client hexMd5 bronzeOf (i.calls connector e timedOut trade)).2 then e
              else .drainRaises trade.isSome)
          pipeline := (i.pipeline.perform config client hexMd5 bronzeOf (i.calls connector e timedOut trade)).1 }
  | .lake e _ => { i with pipeline := i.pipeline.step config client hexMd5 bronzeOf e }

def Ingestion.run (maxsize : Nat) (policy : DropPolicy) (es : List (IngestionEvent Frame)) : Ingestion :=
  es.foldl (Ingestion.step connector config client hexMd5 bronzeOf) (.start maxsize policy)

/-- The trades that a run has received. -/
def received (es : List (IngestionEvent Frame)) : List Trade :=
  es.flatMap (fun e => match e with
    | .task e _ => e.trades connector
    | .lake _ _ => [])

/-! ## A list of calls -/

section Perform

variable {config client hexMd5 bronzeOf} {trades : List Trade} {p : Pipeline}

/-- Silver and Bronze wait for the lake's own events. -/
theorem Pipeline.perform_lake : ∀ (cs : List SinkCall) {p : Pipeline},
    (p.perform config client hexMd5 bronzeOf cs).1.bronze = p.bronze ∧
      (p.perform config client hexMd5 bronzeOf cs).1.lake = p.lake
  | [], _      => ⟨rfl, rfl⟩
  | c :: cs, p => by
    unfold Pipeline.perform
    split
    · exact Pipeline.perform_lake cs
    · exact ⟨rfl, rfl⟩

theorem Pipeline.perform_append : ∀ (cs ds : List SinkCall) {p : Pipeline},
    p.perform config client hexMd5 bronzeOf (cs ++ ds) =
    if (p.perform config client hexMd5 bronzeOf cs).2 then
      (p.perform config client hexMd5 bronzeOf cs).1.perform config client hexMd5 bronzeOf ds
    else p.perform config client hexMd5 bronzeOf cs
  | [], ds, p      => rfl
  | c :: cs, ds, p => by
    rw [List.cons_append, Pipeline.perform, Pipeline.perform]
    split
    · exact Pipeline.perform_append cs ds
    · rfl

/-- Calls that bring no trade. -/
theorem Pipeline.Sound.perform (hconverts : Converts bronzeOf) : ∀ (cs : List SinkCall) {p : Pipeline}, p.Sound trades →
    (∀ c ∈ cs, (PipelineEvent.call c).trade = none) → (p.perform config client hexMd5 bronzeOf cs).1.Sound trades
  | [], p, hp, _       => hp
  | c :: cs, p, hp, hc => by
    obtain ⟨hnone, hrest⟩ := List.forall_mem_cons.1 hc
    have hstep : (p.step config client hexMd5 bronzeOf (.call c)).Sound (trades ++ (PipelineEvent.call c).trade.toList) :=
      hp.step hconverts (.call c)
    rw [hnone, Option.toList_none, List.append_nil] at hstep
    unfold Pipeline.perform
    split
    · exact Pipeline.Sound.perform hconverts cs hstep hrest
    · exact hstep

/-- **An iteration produces its trade**, whether or not a later call raises. -/
theorem Pipeline.Sound.performs (hconverts : Converts bronzeOf) (hp : p.Sound trades) (trade : Option Trade)
    (timedOut leaves : Bool) :
    (p.perform config client hexMd5 bronzeOf (callsOf trade timedOut leaves)).1.Sound (trades ++ trade.toList) := by
  have hrest : ∀ c ∈ (if trade.isSome || timedOut then [SinkCall.poll] else []) ++ (if leaves then [SinkCall.flush] else []),
      (PipelineEvent.call c).trade = none := by
    intro c hc
    rcases List.mem_append.1 hc with hc | hc
    · split at hc
      · rw [List.mem_singleton.1 hc]
        rfl
      · cases hc
    · split at hc
      · rw [List.mem_singleton.1 hc]
        rfl
      · cases hc
  unfold callsOf
  rw [List.append_assoc]
  cases trade with
  | none =>
    rw [Option.toList_none, List.append_nil]
    exact hp.perform hconverts _ hrest
  | some t =>
    have hproduced : (p.step config client hexMd5 bronzeOf (.call (.produce topic t))).Sound (trades ++ [t]) :=
      hp.step hconverts (.call (.produce topic t))
    exact hproduced.perform hconverts _ hrest

/-- Calls that all return keep each record once. -/
theorem Pipeline.perform_once : ∀ (cs : List SinkCall) {p : Pipeline}, p.stream.Traced → p.stream.Once →
    (p.perform config client hexMd5 bronzeOf cs).2 = true →
    (p.perform config client hexMd5 bronzeOf cs).1.stream.Traced ∧ (p.perform config client hexMd5 bronzeOf cs).1.stream.Once
  | [], _, htraced, honce, _       => ⟨htraced, honce⟩
  | c :: cs, p, htraced, honce, hok => by
    rw [Pipeline.perform] at hok ⊢
    split at hok
    · rename_i hc
      rw [if_pos hc]
      exact Pipeline.perform_once cs (htraced.step config client c) (honce.step config client htraced hc) hok
    · cases hok

/-- **Calls that end with a flush leave nothing buffered**, where all of them return. -/
theorem Pipeline.perform_flush {cs : List SinkCall} (htraced : p.stream.Traced) (honce : p.stream.Once)
    (hok : (p.perform config client hexMd5 bronzeOf (cs ++ [.flush])).2 = true) :
    (p.perform config client hexMd5 bronzeOf (cs ++ [.flush])).1.stream.run.sink.buffer = [] := by
  rw [Pipeline.perform_append] at hok ⊢
  split at hok
  · rename_i hbefore
    obtain ⟨htraced', -⟩ := Pipeline.perform_once cs htraced honce hbefore
    rw [if_pos hbefore]
    rw [Pipeline.perform] at hok ⊢
    split at hok
    · rename_i hflush
      rw [if_pos hflush]
      exact flush_empties config client htraced' hflush
    · cases hok
  · rename_i hbefore
    exact absurd hok hbefore

end Perform

/-! ## One event -/

section Step

variable {connector config client hexMd5 bronzeOf} {i : Ingestion} {trades : List Trade}

/-- **The runner and the stream agree**: the sink has what drain took; until drain dies each record is buffered or in the
stream once, and nothing is buffered once it has left. -/
structure Ingestion.Sound (trades : List Trade) (i : Ingestion) : Prop where
  holds : i.runner.Holds (· ∈ trades)
  pipeline : ∃ produced, (∀ t ∈ produced, t ∈ trades) ∧ i.pipeline.Sound produced ∧
    (i.runner.drain ≠ .failed → produced = i.runner.produced)
  once : i.runner.drain ≠ .failed → i.pipeline.stream.Once
  flushed : i.runner.drain = .left → i.pipeline.stream.run.sink.buffer = []

theorem Ingestion.Sound.mono (h : i.Sound trades) (more : List Trade) : i.Sound (trades ++ more) := by
  obtain ⟨produced, hsub, hpipeline, hsame⟩ := h.pipeline
  exact ⟨h.holds.mono (fun t ht => List.mem_append_left _ ht),
    ⟨produced, fun t ht => List.mem_append_left _ (hsub t ht), hpipeline, hsame⟩, h.once, h.flushed⟩

/-- The trade of an iteration is the queue's. -/
theorem iteration_mem {s : IngestRunner} {e : Event Frame} {t : Trade} (h : s.iteration e = some (some t)) :
    t ∈ s.queue.items := by
  cases e with
  | drainTakes =>
    simp only [IngestRunner.iteration] at h
    split at h
    · rename_i t' queue _ hget
      cases h
      obtain ⟨hitems, -⟩ := BoundedTopicQueue.get_items hget
      rw [hitems]
      exact List.mem_cons_self
    · cases h
  | drainIdles =>
    simp only [IngestRunner.iteration] at h
    split at h <;> cases h
  | _ => cases h

theorem trades_of_iteration {s : IngestRunner} {e : Event Frame} {trade : Option Trade}
    (h : s.iteration e = some trade) : e.trades connector = [] ∧ e.ofSink = false := by
  cases e with
  | drainTakes => exact ⟨rfl, rfl⟩
  | drainIdles => exact ⟨rfl, rfl⟩
  | _ => cases h

/-- **An iteration of drain.** -/
theorem Ingestion.Sound.iterate (hconverts : Converts bronzeOf) (h : i.Sound trades) {e : Event Frame} {timedOut : Bool}
    {trade : Option Trade} (hiteration : i.runner.iteration e = some trade) :
    (i.step connector config client hexMd5 bronzeOf (.task e timedOut)).Sound trades := by
  obtain ⟨htrades, hofSink⟩ := @trades_of_iteration _ connector _ _ _ hiteration
  obtain ⟨hd, hproduced, hdrain, -, hfailed, -⟩ := step_iteration connector hiteration
  obtain ⟨produced, hsub, hpipeline, hsame⟩ := h.pipeline
  have hrunning : i.runner.drain ≠ .failed := by
    rw [hd]
    decide
  have hpipeline := hsame hrunning ▸ hpipeline
  have hafter : (i.pipeline.perform config client hexMd5 bronzeOf (i.calls connector e timedOut trade)).1.Sound
      (i.runner.produced ++ trade.toList) := hpipeline.performs hconverts trade timedOut _
  have hsubset : ∀ t ∈ i.runner.produced ++ trade.toList, t ∈ trades := by
    intro t ht
    rcases List.mem_append.1 ht with ht | ht
    · exact h.holds.produced t ht
    · rw [Option.mem_toList.1 ht] at hiteration
      exact h.holds.queue t (iteration_mem hiteration)
  have hstep : i.step connector config client hexMd5 bronzeOf (.task e timedOut) =
      { runner := i.runner.step connector
          (if (i.pipeline.perform config client hexMd5 bronzeOf (i.calls connector e timedOut trade)).2 then e
            else .drainRaises trade.isSome)
        pipeline := (i.pipeline.perform config client hexMd5 bronzeOf (i.calls connector e timedOut trade)).1 } := by
    simp only [Ingestion.step, hofSink, hiteration, Bool.false_eq_true, if_false]
  rw [hstep]
  cases hok : (i.pipeline.perform config client hexMd5 bronzeOf (i.calls connector e timedOut trade)).2 with
  | true =>
    rw [if_pos rfl]
    obtain ⟨-, honce⟩ := Pipeline.perform_once _ hpipeline.traced (h.once hrunning) hok
    refine ⟨step_holds h.holds e (fun t ht => ?_), ⟨_, hsubset, hafter, fun _ => hproduced.symm⟩, fun _ => honce,
      fun hleft => ?_⟩
    · rw [htrades] at ht
      cases ht
    · have hcalls : i.calls connector e timedOut trade = callsOf trade timedOut true := by
        unfold Ingestion.calls
        rw [decide_eq_true hleft]
      simp only [hcalls] at hok ⊢
      exact Pipeline.perform_flush hpipeline.traced (h.once hrunning) hok
  | false =>
    rw [if_neg Bool.false_ne_true]
    have hnone : ∀ t ∈ (Event.drainRaises trade.isSome).trades connector, t ∈ trades := fun t ht => by cases ht
    refine ⟨step_holds h.holds _ hnone, ⟨_, hsubset, hafter, fun hne => absurd hfailed hne⟩,
      fun hne => absurd hfailed hne, fun hleft => ?_⟩
    rw [hfailed] at hleft
    cases hleft

theorem Ingestion.Sound.step (hconverts : Converts bronzeOf) (h : i.Sound trades) (e : IngestionEvent Frame) :
    (i.step connector config client hexMd5 bronzeOf e).Sound (trades ++ received connector [e]) := by
  cases e with
  | task e timedOut =>
    have hreceived : received connector [.task e timedOut] = e.trades connector := List.append_nil _
    rw [hreceived]
    cases hiteration : i.runner.iteration e with
    | some trade =>
      have hiterate : (i.step connector config client hexMd5 bronzeOf (.task e timedOut)).Sound trades :=
        h.iterate hconverts hiteration
      exact hiterate.mono _
    | none =>
      cases hofSink : e.ofSink with
      | true =>
        have hstep : i.step connector config client hexMd5 bronzeOf (.task e timedOut) = i := by
          simp only [Ingestion.step, hofSink, if_true]
        rw [hstep]
        exact h.mono _
      | false =>
        have hstep : i.step connector config client hexMd5 bronzeOf (.task e timedOut) =
            { i with runner := i.runner.step connector e } := by
          simp only [Ingestion.step, hofSink, hiteration, Bool.false_eq_true, if_false]
        have hmono := h.mono (e.trades connector)
        obtain ⟨produced, hsub, hpipeline, hsame⟩ := hmono.pipeline
        obtain ⟨hproduced, hdrain, -⟩ := step_aside connector i.runner hiteration hofSink
        rw [hstep]
        refine ⟨step_holds hmono.holds e (fun t ht => List.mem_append_right _ ht), ⟨produced, hsub, hpipeline, ?_⟩, ?_,
          ?_⟩
        · rw [hproduced, hdrain]
          exact hsame
        · rw [hdrain]
          exact h.once
        · rw [hdrain]
          exact h.flushed
  | lake e downstream =>
    have hreceived : received connector [.lake e downstream] = [] := rfl
    rw [hreceived, List.append_nil]
    obtain ⟨produced, hsub, hpipeline, hsame⟩ := h.pipeline
    have hstep : (i.pipeline.step config client hexMd5 bronzeOf e).Sound (produced ++ e.trade.toList) :=
      hpipeline.step hconverts e
    have htrade : e.trade = none := by
      cases e with
      | call c => exact absurd rfl (downstream c)
      | deliver places ingestDate => rfl
      | merge now lookbackDays scan => rfl
      | optimize rewritten => rfl
    have hstream : (i.pipeline.step config client hexMd5 bronzeOf e).stream = i.pipeline.stream := by
      cases e with
      | call c => exact absurd rfl (downstream c)
      | deliver places ingestDate => rfl
      | merge now lookbackDays scan => rfl
      | optimize rewritten => rfl
    rw [htrade, Option.toList_none, List.append_nil] at hstep
    refine ⟨h.holds, ⟨produced, hsub, hstep, hsame⟩, fun hne => ?_, fun hleft => ?_⟩
    · show (i.pipeline.step config client hexMd5 bronzeOf e).stream.Once
      rw [hstream]
      exact h.once hne
    · show (i.pipeline.step config client hexMd5 bronzeOf e).stream.run.sink.buffer = []
      rw [hstream]
      exact h.flushed hleft

end Step

/-! ## Runs -/

section Runs

variable {connector config client hexMd5 bronzeOf}

theorem received_concat (es : List (IngestionEvent Frame)) (e : IngestionEvent Frame) :
    received connector (e :: es) = received connector [e] ++ received connector es := by
  unfold received
  rw [List.flatMap_cons, List.flatMap_cons, List.flatMap_nil, List.append_nil]

theorem Ingestion.Sound.start (maxsize : Nat) (policy : DropPolicy) : (Ingestion.start maxsize policy).Sound [] where
  holds := start_holds _ maxsize policy
  pipeline := ⟨[], fun t ht => (by cases ht), Pipeline.Sound.start, fun _ => rfl⟩
  once _ := List.Perm.refl _
  flushed _ := rfl

theorem Ingestion.Sound.foldl (hconverts : Converts bronzeOf) : ∀ (es : List (IngestionEvent Frame)) {trades : List Trade}
    {i : Ingestion}, i.Sound trades →
    (es.foldl (Ingestion.step connector config client hexMd5 bronzeOf) i).Sound (trades ++ received connector es)
  | [], trades, i, h => by rwa [show received connector [] = [] from rfl, List.append_nil]
  | e :: es, trades, i, h => by
    have hstep : (i.step connector config client hexMd5 bronzeOf e).Sound (trades ++ received connector [e]) :=
      h.step hconverts e
    have hrest := hstep.foldl hconverts es
    rw [List.append_assoc, ← received_concat] at hrest
    exact hrest

/-- **The invariant of a run.** -/
theorem Ingestion.Sound.run (hconverts : Converts bronzeOf) (maxsize : Nat) (policy : DropPolicy)
    (es : List (IngestionEvent Frame)) :
    (Ingestion.run connector config client hexMd5 bronzeOf maxsize policy es).Sound (received connector es) := by
  have h : (Ingestion.run connector config client hexMd5 bronzeOf maxsize policy es).Sound ([] ++ received connector es) :=
    Ingestion.Sound.foldl hconverts es (Ingestion.Sound.start maxsize policy)
  rwa [List.nil_append] at h

/-- The runner takes a step of its own, or none. -/
theorem step_inOrder_runner {i : Ingestion} (h : i.runner.InOrder) (e : IngestionEvent Frame) :
    (i.step connector config client hexMd5 bronzeOf e).runner.InOrder := by
  cases e with
  | task e timedOut =>
    simp only [Ingestion.step]
    split
    · exact h
    · split
      · exact step_inOrder connector h e
      · exact step_inOrder connector h _
  | lake e downstream => exact h

/-- Silver keeps what it has. -/
theorem Ingestion.mem_foldl_silver {s : SilverRow} : ∀ (es : List (IngestionEvent Frame)) {i : Ingestion},
    s ∈ i.pipeline.lake.silver →
    s ∈ (es.foldl (Ingestion.step connector config client hexMd5 bronzeOf) i).pipeline.lake.silver
  | [], _, h      => h
  | e :: es, i, h => by
    refine Ingestion.mem_foldl_silver es ?_
    cases e with
    | task e timedOut =>
      simp only [Ingestion.step]
      split
      · exact h
      · split
        · exact h
        · rw [(Pipeline.perform_lake _).2]
          exact h
    | lake e downstream => exact @Pipeline.mem_foldl_silver config client hexMd5 bronzeOf s [e] i.pipeline h

end Runs

/-- **From the socket to Silver.**  In any interleaving of the runner's tasks with deliveries, merges and rewrites: every
Silver row is of a trade that a frame or a repair brought; no `(venue, trade_id)` has two; where a trade's row was in Bronze
and accepted as a merge ran, its `(venue, trade_id)` has a row, be it of another symbol's trade; and where a run on a
blocking queue has returned with the queue empty and the stream delivered, every trade that was put has its row in
Bronze. -/
theorem socketToSilver (hconverts : Converts bronzeOf) (maxsize : Nat) (policy : DropPolicy) (es : List (IngestionEvent Frame)) :
    (∀ s ∈ (Ingestion.run connector config client hexMd5 bronzeOf maxsize policy es).pipeline.lake.silver,
      ∃ t ∈ received connector es, SilverRowOf t s) ∧
    ((Ingestion.run connector config client hexMd5 bronzeOf maxsize policy es).pipeline.lake.silver.map SilverRow.key).Nodup ∧
    (∀ pre now lookbackDays scan downstream post, es = pre ++ .lake (.merge now lookbackDays scan) downstream :: post →
      ∀ t ingestDate,
      tradeRow ingestDate t ∈ (Ingestion.run connector config client hexMd5 bronzeOf maxsize policy pre).pipeline.bronze →
      accepted now lookbackDays (tradeRow ingestDate t) = true →
      ∃ s ∈ (Ingestion.run connector config client hexMd5 bronzeOf maxsize policy es).pipeline.lake.silver,
        s.key = (some t.venue, some t.tradeId)) ∧
    (policy = .block → (Ingestion.run connector config client hexMd5 bronzeOf maxsize policy es).runner.run = .returned →
      (Ingestion.run connector config client hexMd5 bronzeOf maxsize policy es).runner.queue.items = [] →
      (Ingestion.run connector config client hexMd5 bronzeOf maxsize policy es).pipeline.AllDelivered bronzeOf →
      ∀ t ∈ (Ingestion.run connector config client hexMd5 bronzeOf maxsize policy es).runner.put,
        ∃ ingestDate, tradeRow ingestDate t ∈
          (Ingestion.run connector config client hexMd5 bronzeOf maxsize policy es).pipeline.bronze) := by
  have hsound : (Ingestion.run connector config client hexMd5 bronzeOf maxsize policy es).Sound (received connector es) :=
    Ingestion.Sound.run hconverts maxsize policy es
  obtain ⟨produced, hsub, hpipeline, hsame⟩ := hsound.pipeline
  refine ⟨fun s hs => ?_, hpipeline.nodup, ?_, ?_⟩
  · obtain ⟨t, ht, hrow⟩ := hpipeline.silver s hs
    exact ⟨t, hsub t ht, hrow⟩
  · rintro pre now lookbackDays scan downstream post rfl t ingestDate hb haccepted
    obtain ⟨s, hs, hkey⟩ : ∃ s ∈ ((Ingestion.run connector config client hexMd5 bronzeOf maxsize policy pre).pipeline.step
        config client hexMd5 bronzeOf (.merge now lookbackDays scan)).lake.silver, s.key = (tradeRow ingestDate t).key :=
      Pipeline.merge_covers hb haccepted
    refine ⟨s, ?_, hkey⟩
    rw [Ingestion.run, List.foldl_append, List.foldl_cons]
    exact Ingestion.mem_foldl_silver post hs
  · rintro rfl hreturned hempty hdelivered t ht
    have hstart : (Ingestion.start maxsize .block).runner.InOrder := ⟨rfl, fun _ => rfl, fun h => by cases h⟩
    have horder : (Ingestion.run connector config client hexMd5 bronzeOf maxsize .block es).runner.InOrder :=
      @run_invariant _ _ (Ingestion.step connector config client hexMd5 bronzeOf) (fun i => i.runner.InOrder)
        (fun _ e h => step_inOrder_runner h e) es _ hstart
    have hleft := horder.returned hreturned
    have hlives : (Ingestion.run connector config client hexMd5 bronzeOf maxsize .block es).runner.drain ≠ .failed := by
      rw [hleft]
      decide
    have hput := horder.fifo hlives
    rw [hempty, List.append_nil, ← hsame hlives] at hput
    rw [hput] at ht
    exact hpipeline.bronze_complete hconverts (hsound.once hlives) (hsound.flushed hleft) hdelivered ht

/-! ## A repaired gap -/

abbrev promptStep : Ingestion → IngestionEvent BinanceFrame → Ingestion :=
  Ingestion.step (binance bitcoin) singleRecords throttledOnce id columnsOf

abbrev promptIngestion (es : List (IngestionEvent BinanceFrame)) : Ingestion :=
  Ingestion.run (binance bitcoin) singleRecords throttledOnce id columnsOf 10 .block es

theorem promptIngestion_append (es es' : List (IngestionEvent BinanceFrame)) :
    promptIngestion (es ++ es') = es'.foldl promptStep (promptIngestion es) := List.foldl_append

/-- Trades 1 and 3 of a frame and 2 of a repair, produced; and the sink's first request is refused. -/
def promptTasks : List (IngestionEvent BinanceFrame) := promptRepair.map (fun e => .task e false)

theorem deliver_ne_call (places : List Nat) (ingestDate : Int) (c : SinkCall) :
    PipelineEvent.deliver places ingestDate ≠ .call c := by
  intro h
  cases h

theorem merge_ne_call (now : Int) (lookbackDays : Nat) (scan : List BronzeRow) (c : SinkCall) :
    PipelineEvent.merge now lookbackDays scan ≠ .call c := by
  intro h
  cases h

def promptDelivery : IngestionEvent BinanceFrame := .lake (.deliver [0, 1, 2] 20000) (deliver_ne_call _ _)

def promptMerge : IngestionEvent BinanceFrame := .lake (.merge 1728000900000 2 []) (merge_ne_call _ _ _)

def promptTrades : List Trade := (promptIngestion promptTasks).runner.put

theorem accepted_promptTasks :
    (promptIngestion promptTasks).pipeline.stream.accepted.map Prod.fst = promptTrades.map recordOf := rfl

theorem bronze_promptDelivery : (promptIngestion (promptTasks ++ [promptDelivery])).pipeline.bronze =
    promptTrades.map (tradeRow 20000) := by
  have hdelivers : ∀ i : Ingestion, i.pipeline.stream.accepted.map Prod.fst = promptTrades.map recordOf →
      (promptStep i promptDelivery).pipeline.bronze = i.pipeline.bronze ++ promptTrades.map (tradeRow 20000) := by
    intro i h
    show i.pipeline.bronze ++ i.pipeline.delivered columnsOf [0, 1, 2] 20000 = _
    rw [Pipeline.delivered_eq columnsOf_converts h]
    rfl
  rw [promptIngestion_append]
  exact hdelivers _ accepted_promptTasks

def promptEvents : List (IngestionEvent BinanceFrame) := promptTasks ++ [promptDelivery, promptMerge]

/-- The lake's events leave the runner and the stream, and the merge what was delivered. -/
theorem promptEvents_run : (promptIngestion promptEvents).runner = (promptIngestion promptTasks).runner ∧
    (promptIngestion promptEvents).pipeline.stream = (promptIngestion promptTasks).pipeline.stream ∧
    (promptIngestion promptEvents).pipeline.bronze = (promptIngestion (promptTasks ++ [promptDelivery])).pipeline.bronze := by
  have hlake : ∀ i : Ingestion, ([promptDelivery, promptMerge].foldl promptStep i).runner = i.runner ∧
      ([promptDelivery, promptMerge].foldl promptStep i).pipeline.stream = i.pipeline.stream ∧
      ([promptDelivery, promptMerge].foldl promptStep i).pipeline.bronze =
        ([promptDelivery].foldl promptStep i).pipeline.bronze := fun i => ⟨rfl, rfl, rfl⟩
  rw [promptEvents, promptIngestion_append, promptIngestion_append]
  exact hlake _

/-- The repaired trade is in Silver, and every trade that was put is in Bronze. -/
theorem socketToSilver_promptRepair :
    (∃ s ∈ (promptIngestion promptEvents).pipeline.lake.silver, s.key = (some "binance", some "2")) ∧
    ∀ t ∈ (promptIngestion promptEvents).runner.put, ∃ ingestDate,
      tradeRow ingestDate t ∈ (promptIngestion promptEvents).pipeline.bronze := by
  obtain ⟨-, -, hmerged, hcomplete⟩ := socketToSilver (binance bitcoin) singleRecords throttledOnce id columnsOf
    columnsOf_converts 10 .block promptEvents
  obtain ⟨hrunner, hstream, hbronze⟩ := promptEvents_run
  constructor
  · obtain ⟨t, ht, hkey, haccepted⟩ : ∃ t ∈ promptTrades, (some t.venue, some t.tradeId) = (some "binance", some "2") ∧
        accepted 1728000900000 2 (tradeRow 20000 t) = true := by decide +kernel
    rw [← hkey]
    refine hmerged (promptTasks ++ [promptDelivery]) 1728000900000 2 [] _ [] rfl t 20000 ?_ haccepted
    exact bronze_promptDelivery ▸ List.mem_map_of_mem ht
  · refine hcomplete rfl ?_ ?_ ?_
    · rw [hrunner]
      rfl
    · rw [hrunner]
      rfl
    · intro r hr
      rw [hstream] at hr
      rw [hbronze, bronze_promptDelivery]
      have hrecord := List.mem_map_of_mem (f := Prod.fst) hr
      rw [accepted_promptTasks] at hrecord
      obtain ⟨t, ht, hrecord⟩ := List.mem_map.1 hrecord
      rw [← hrecord]
      exact ⟨20000, _, List.mem_map_of_mem ht, columnsOf_converts 20000 t⟩

end Awsnative
