import RealtimeFinance.Ingest.Coinbase
import RealtimeFinance.Ingest.Jumps
/-!
# Outage — what is repaired of the time between two connections

An outage of a symbol runs from the last frame of it on one connection to the first one on a later connection.  A
connector that keeps its watermark finds the ids in between at that first frame (`keeps_repaired`); one that forgets it
has nothing to compare the frame with, and what it repairs it owes to a jump seen meanwhile (`outagesRepaired_iff`).
-/
namespace Ingest

open Runs

variable {Frame : Type} (connector : Connector Frame)

/-- The trades of a symbol in the frame that an event hands to `handle_message`. -/
def IngestRunner.frameTrades (s : IngestRunner) (symbol : String) (e : Event Frame) : List Trade :=
  (s.receives connector e).filter (fun t => decide (t.venueSymbol = symbol))

/-- Two frames of a symbol with none between them, a connection made in between. -/
structure Outage (s : IngestRunner) (events : List (Event Frame)) (symbol : String) where
  before : List (Event Frame)
  last : Event Frame
  between : List (Event Frame)
  next : Event Frame
  after : List (Event Frame)
  split : events = before ++ last :: (between ++ next :: after)
  lastFrame : (before.foldl (IngestRunner.step connector) s).frameTrades connector symbol last ≠ []
  silent : AllSteps (IngestRunner.step connector) (fun s e => s.frameTrades connector symbol e = [])
    ((before ++ [last]).foldl (IngestRunner.step connector) s) between
  reconnects : ∃ pre post, between = pre ++ .dialed :: post ∧
    ((before ++ last :: pre).foldl (IngestRunner.step connector) s).socket = .dialing
  nextFrame : ((before ++ last :: between).foldl (IngestRunner.step connector) s).frameTrades connector symbol next ≠ []

variable {connector} {s : IngestRunner} {events : List (Event Frame)} {symbol : String}

namespace Outage

def lost (o : Outage connector s events symbol) : IngestRunner :=
  (o.before ++ [o.last]).foldl (IngestRunner.step connector) s

def found (o : Outage connector s events symbol) : IngestRunner :=
  (o.before ++ o.last :: o.between).foldl (IngestRunner.step connector) s

/-- The venue executed the symbol's `i`-th trade after all that were handled, the last frame's among them, and before
those of the next frame. -/
def Missed (o : Outage connector s events symbol) (executed : String → Int → Prop) (place : Trade → Int) (i : Int) : Prop :=
  executed symbol i ∧
    AllSteps (IngestRunner.step connector) (fun s e => ∀ t ∈ s.frameTrades connector symbol e, place t < i) s
      (o.before ++ [o.last]) ∧
    ∀ t ∈ o.found.frameTrades connector symbol o.next, i < place t

/-- The gaps for which a repair was started since the last frame, once the next one has been handled. -/
def startedSince (o : Outage connector s events symbol) : List Gap := o.lost.started connector (o.between ++ [o.next])

/-- A frame since the last one of the symbol, the next one included, jumped. -/
def Jumps (o : Outage connector s events symbol) : Prop :=
  SomeStep (IngestRunner.step connector) (IngestRunner.Jumps connector) o.lost (o.between ++ [o.next])

theorem found_eq (o : Outage connector s events symbol) :
    o.found = o.between.foldl (IngestRunner.step connector) o.lost := by
  unfold found lost
  rw [List.foldl_append, List.foldl_append, List.foldl_cons]
  rfl

end Outage

/-- **No outage is silent**: a repair started since covers every trade that was missed. -/
def NoSilentOutage (connector : Connector Frame) (scope : Gap → String → Int → Prop) (executed : String → Int → Prop)
    (place : Trade → Int) (s : IngestRunner) (events : List (Event Frame)) : Prop :=
  ∀ symbol (o : Outage connector s events symbol), (∃ i, o.Missed executed place i) →
    ∃ g ∈ o.startedSince, ∀ i, o.Missed executed place i → scope g symbol i

/-- **Where the watermark is forgotten on a reconnect, a jump was seen by the time the symbol was back.** -/
def OutagesJump (connector : Connector Frame) (executed : String → Int → Prop) (place : Trade → Int) (s : IngestRunner)
    (events : List (Event Frame)) : Prop :=
  connector.resetsSequenceOnReconnect = true →
    ∀ symbol (o : Outage connector s events symbol), (∃ i, o.Missed executed place i) → o.Jumps

/-! ## The watermark over a run -/

theorem observe_watermark {t : SequenceTracker} {key k : SequenceKey} {sequence : Option Int} {w : Int}
    (h : (t.observe key.1 key.2 sequence).1.watermarks k = some w) :
    t.watermarks k = some w ∨ k = key ∧ sequence = some w := by
  by_cases hk : k = key
  · subst hk
    obtain ⟨venue, venueSymbol⟩ := k
    unfold SequenceTracker.observe at h
    cases sequence with
    | none => exact Or.inl h
    | some n =>
      cases hw : t.watermarks (venue, venueSymbol) with
      | none =>
        simp only [hw, SequenceTracker.set_self] at h
        exact Or.inr ⟨rfl, h⟩
      | some last =>
        simp only [hw, SequenceTracker.set_self, Option.some.injEq] at h
        by_cases hle : n ≤ last
        · rw [Int.max_eq_right hle] at h
          exact Or.inl (congrArg some h)
        · rw [Int.max_eq_left (by omega)] at h
          exact Or.inr ⟨rfl, congrArg some h⟩
  · rw [t.observe_of_ne sequence hk] at h
    exact Or.inl h

theorem handleMessage_watermark (trades : List Trade) : ∀ {s : IngestRunner} {k : SequenceKey} {w : Int},
    (s.handleMessage connector trades).tracker.watermarks k = some w →
      s.tracker.watermarks k = some w ∨ ∃ t ∈ trades, connector.keyOf t = k ∧ t.sequence = some w := by
  induction trades with
  | nil => exact fun h => Or.inl h
  | cons t rest ih =>
    intro s k w h
    have hone : (s.observe connector t).tracker.watermarks k = some w →
        s.tracker.watermarks k = some w ∨ ∃ t' ∈ t :: rest, connector.keyOf t' = k ∧ t'.sequence = some w := by
      intro h
      rcases observe_watermark h with h | ⟨hk, hn⟩
      · exact Or.inl h
      · exact Or.inr ⟨t, List.mem_cons_self, hk.symm, hn⟩
    unfold IngestRunner.handleMessage at h
    cases hput : (s.observe connector t).putTrade t with
    | none =>
      rw [hput] at h
      exact hone h
    | some s' =>
      rw [hput] at h
      rcases ih h with h | ⟨t', ht', hk, hn⟩
      · rw [(putTrade_tracker hput).1] at h
        exact hone h
      · exact Or.inr ⟨t', List.mem_cons_of_mem t ht', hk, hn⟩

variable (connector) in
theorem observe_keeps (s : IngestRunner) (t : Trade) {k : SequenceKey}
    (h : (s.tracker.watermarks k).isSome ∨ connector.keyOf t = k ∧ t.sequence.isSome) :
    ((s.observe connector t).tracker.watermarks k).isSome := by
  rw [observe_tracker]
  by_cases hk : k = connector.keyOf t
  · subst hk
    rw [SequenceTracker.observe_isSome, Bool.or_eq_true]
    rcases h with h | ⟨-, h⟩
    · exact Or.inl h
    · exact Or.inr h
  · rw [s.tracker.observe_of_ne t.sequence hk]
    rcases h with h | ⟨hkey, -⟩
    · exact h
    · exact absurd hkey.symm hk

theorem handleMessage_keeps (trades : List Trade) : ∀ {s : IngestRunner} {k : SequenceKey},
    (s.tracker.watermarks k).isSome → ((s.handleMessage connector trades).tracker.watermarks k).isSome := by
  induction trades with
  | nil => exact fun h => h
  | cons t rest ih =>
    intro s k h
    have hone := observe_keeps connector s t (Or.inl h)
    unfold IngestRunner.handleMessage
    cases hput : (s.observe connector t).putTrade t with
    | none => exact hone
    | some s' =>
      apply ih
      rw [(putTrade_tracker hput).1]
      exact hone

/-! ## Events and runs -/

theorem step_watermark {s : IngestRunner} (hs : s.Settled connector) {e : Event Frame} {k : SequenceKey} {w : Int}
    (h : (s.step connector e).tracker.watermarks k = some w) :
    s.tracker.watermarks k = some w ∨ ∃ t ∈ s.receives connector e, connector.keyOf t = k ∧ t.sequence = some w := by
  cases step_frameCase hs e with
  | other hnone hgaps hsettled htracker =>
    rcases htracker with ht | ⟨-, -, -, ht⟩
    · rw [ht] at h
      exact Or.inl h
    · rw [ht] at h
      cases h
  | frame hsome he =>
    rw [he] at h
    exact handleMessage_watermark (s.receives connector e) h

/-- **A watermark that a run ends with is the number of a trade it received**, or was there before. -/
theorem run_watermark (hu : connector.Uniform) (events : List (Event Frame)) : ∀ {s : IngestRunner} {k : SequenceKey}
    {w : Int}, s.Settled connector → (events.foldl (IngestRunner.step connector) s).tracker.watermarks k = some w →
      s.tracker.watermarks k = some w ∨ SomeStep (IngestRunner.step connector)
        (fun s e => ∃ t ∈ s.receives connector e, connector.keyOf t = k ∧ t.sequence = some w) s events := by
  induction events with
  | nil => exact fun _ h => Or.inl h
  | cons e events ih =>
    intro s k w hs h
    rw [someStep_cons]
    rcases ih (step_gaps hu hs e).2 h with h | hrest
    · rcases step_watermark hs h with h | ht
      · exact Or.inl h
      · exact Or.inr (Or.inl ht)
    · exact Or.inr (Or.inr hrest)

/-- **A watermark that is not forgotten is there from the first number on.** -/
theorem step_keeps (hkeep : connector.resetsSequenceOnReconnect = false) {s : IngestRunner} (hs : s.Settled connector)
    (e : Event Frame) {k : SequenceKey} (h : (s.tracker.watermarks k).isSome) :
    ((s.step connector e).tracker.watermarks k).isSome := by
  cases step_frameCase hs e with
  | other hnone hgaps hsettled htracker =>
    rcases htracker with ht | ⟨hreset, -⟩
    · rw [ht]
      exact h
    · rw [hkeep] at hreset
      cases hreset
  | frame hsome he =>
    rw [he]
    exact handleMessage_keeps (s.receives connector e) h

theorem step_receives (hu : connector.Uniform) {s : IngestRunner} (hs : s.Settled connector) {e : Event Frame} {t : Trade}
    (ht : t ∈ s.receives connector e) (hn : t.sequence.isSome) :
    ((s.step connector e).tracker.watermarks (connector.keyOf t)).isSome := by
  cases hreceives : s.receives connector e with
  | nil =>
    rw [hreceives] at ht
    cases ht
  | cons first rest =>
    have hfirst : first ∈ s.receives connector e := by
      rw [hreceives]
      exact List.mem_cons_self
    obtain ⟨hkey, hsequence⟩ := receives_uniform hu ht hfirst
    rw [(step_received hu hs hreceives).1]
    apply observe_keeps
    rw [hsequence]
    exact Or.inr ⟨hkey, hn⟩

theorem run_keeps (hu : connector.Uniform) (hkeep : connector.resetsSequenceOnReconnect = false)
    (events : List (Event Frame)) {s : IngestRunner} {k : SequenceKey} (hs : s.Settled connector)
    (h : (s.tracker.watermarks k).isSome) :
    ((events.foldl (IngestRunner.step connector) s).tracker.watermarks k).isSome := by
  have hboth := run_invariant (I := fun (s : IngestRunner) => s.Settled connector ∧ (s.tracker.watermarks k).isSome)
    (fun (s : IngestRunner) e h => ⟨(step_gaps hu h.1 e).2, step_keeps hkeep h.1 e h.2⟩) events ⟨hs, h⟩
  exact hboth.2

/-! ## Binance -/

def binanceScope (g : Gap) (symbol : String) (i : Int) : Prop := g.venueSymbol = symbol ∧ g.Contains i

/-- The aggTrade id. -/
def aggTradePlace (t : Trade) : Int := t.sequence.getD 0

theorem toTrade_some {instruments : InstrumentMap} {now : Int} {symbol : Option String} {source : Source}
    {data : AggTrade} {t : Trade} (h : toTrade instruments now symbol source data = some t) :
    t.venue = "binance" ∧ t.sequence = some data.aggTradeId := by
  unfold toTrade at h
  obtain ⟨instrumentId, -, rfl⟩ := Option.map_eq_some_iff.1 h
  exact ⟨rfl, rfl⟩

theorem binance_parse {instruments : InstrumentMap} {now : Int} {frame : BinanceFrame} {trades : List Trade}
    (h : (binance instruments).parse now frame = some trades) :
    trades = [] ∨ ∃ t, trades = [t] ∧ t.venue = "binance" ∧ t.sequence.isSome := by
  unfold binance at h
  cases frame with
  | malformed => cases h
  | other =>
    cases h
    exact Or.inl rfl
  | aggTrade data =>
    simp only [Option.some.injEq] at h
    cases htrade : toTrade instruments now none .stream data with
    | none =>
      rw [htrade] at h
      exact Or.inl h.symm
    | some t =>
      rw [htrade] at h
      obtain ⟨hvenue, hsequence⟩ := toTrade_some htrade
      refine Or.inr ⟨t, h.symm, hvenue, ?_⟩
      rw [hsequence]
      rfl

theorem binance_uniform (instruments : InstrumentMap) : (binance instruments).Uniform := by
  intro now frame trades h t ht t' ht'
  rcases binance_parse h with rfl | ⟨only, rfl, -⟩
  · cases ht
  · rw [List.mem_singleton.1 ht, List.mem_singleton.1 ht']
    exact ⟨rfl, rfl⟩

theorem binance_receives {instruments : InstrumentMap} {s : IngestRunner} {e : Event BinanceFrame} {t : Trade}
    (ht : t ∈ s.receives (binance instruments) e) :
    (binance instruments).keyOf t = ("binance", t.venueSymbol) ∧ t.sequence = some (aggTradePlace t) := by
  obtain ⟨now, frame, trades, -, -, hparse, hreceives⟩ := mem_receives ht
  rw [hreceives] at ht
  rcases binance_parse hparse with rfl | ⟨only, rfl, hvenue, hsome⟩
  · cases ht
  · obtain rfl := List.mem_singleton.1 ht
    obtain ⟨n, hn⟩ := Option.isSome_iff_exists.1 hsome
    refine ⟨?_, ?_⟩
    · unfold Connector.keyOf
      rw [hvenue]
      rfl
    · unfold aggTradePlace
      rw [hn]
      rfl

theorem mem_frameTrades {s : IngestRunner} {e : Event Frame} {t : Trade} :
    t ∈ s.frameTrades connector symbol e ↔ t ∈ s.receives connector e ∧ t.venueSymbol = symbol := by
  unfold IngestRunner.frameTrades
  rw [List.mem_filter, decide_eq_true_eq]

theorem Outage.lost_eq (o : Outage connector s events symbol) :
    o.lost = (o.before.foldl (IngestRunner.step connector) s).step connector o.last := by
  unfold Outage.lost
  rw [List.foldl_append]
  rfl

/-- **The watermark at the next frame is below every id that was missed.** -/
theorem Outage.watermark {instruments : InstrumentMap} {s : IngestRunner} {events : List (Event BinanceFrame)}
    (hs : s.Settled (binance instruments)) (hnew : s.tracker = .new) (o : Outage (binance instruments) s events symbol) :
    ∃ w, o.found.tracker.watermarks ("binance", symbol) = some w ∧
      ∀ executed i, o.Missed executed aggTradePlace i → w < i := by
  have hu := binance_uniform instruments
  have hlost : o.lost.Settled (binance instruments) := run_settled hu _ hs
  have hkey : ∀ {s : IngestRunner} {e t w}, t ∈ s.receives (binance instruments) e →
      (binance instruments).keyOf t = ("binance", symbol) → t.sequence = some w →
      t ∈ s.frameTrades (binance instruments) symbol e ∧ aggTradePlace t = w := by
    intro s e t w ht hk hn
    obtain ⟨hk', hn'⟩ := binance_receives ht
    rw [hk', Prod.mk.injEq] at hk
    rw [hn', Option.some.injEq] at hn
    exact ⟨mem_frameTrades.2 ⟨ht, hk.2⟩, hn⟩
  have hsome : (o.found.tracker.watermarks ("binance", symbol)).isSome := by
    rw [o.found_eq]
    apply run_keeps hu rfl o.between hlost
    obtain ⟨t, ht⟩ := List.exists_mem_of_ne_nil _ o.lastFrame
    obtain ⟨hreceived, hsymbol⟩ := mem_frameTrades.1 ht
    obtain ⟨hk, hn⟩ := binance_receives hreceived
    rw [hsymbol] at hk
    rw [← hk, o.lost_eq]
    apply step_receives hu (run_settled hu o.before hs) hreceived
    rw [hn]
    rfl
  obtain ⟨w, hw⟩ := Option.isSome_iff_exists.1 hsome
  refine ⟨w, hw, ?_⟩
  -- nothing of the symbol is received between the two frames
  have hw' : o.lost.tracker.watermarks ("binance", symbol) = some w := by
    rw [o.found_eq] at hw
    rcases run_watermark hu o.between hlost hw with h | ⟨pre, e, post, hsplit, t, ht, hk, hn⟩
    · exact h
    · have hmem := (hkey ht hk hn).1
      have hnone := o.silent pre e post hsplit
      unfold Outage.lost at hmem
      rw [hnone] at hmem
      cases hmem
  unfold Outage.lost at hw'
  rcases run_watermark hu (o.before ++ [o.last]) hs hw' with h | ⟨pre, e, post, hsplit, t, ht, hk, hn⟩
  · rw [hnew] at h
    cases h
  · obtain ⟨hmem, hplace⟩ := hkey ht hk hn
    intro executed i hmissed
    rw [← hplace]
    exact hmissed.2.1 pre e post hsplit t hmem

/-- **A kept watermark finds the ids of an outage at its end.** -/
theorem binance_noSilentOutage {instruments : InstrumentMap} {s : IngestRunner} {events : List (Event BinanceFrame)}
    (hs : s.Settled (binance instruments)) (hnew : s.tracker = .new) (executed : String → Int → Prop) :
    NoSilentOutage (binance instruments) binanceScope executed aggTradePlace s events := by
  intro symbol o hmissed
  obtain ⟨w, hw, hbelow⟩ := o.watermark hs hnew
  obtain ⟨t', ht'⟩ := List.exists_mem_of_ne_nil _ o.nextFrame
  have hbetween : ∀ i, o.Missed executed aggTradePlace i → w < i ∧ i < aggTradePlace t' :=
    fun i hi => ⟨hbelow executed i hi, hi.2.2 t' ht'⟩
  obtain ⟨hreceived, hsymbol⟩ := mem_frameTrades.1 ht'
  obtain ⟨hk, hn⟩ := binance_receives hreceived
  rw [hsymbol] at hk
  refine ⟨⟨"binance", symbol, w, aggTradePlace t'⟩, ?_, fun i hi => ⟨rfl, hbetween i hi⟩⟩
  have hu := binance_uniform instruments
  have hshown : ∀ g, g ∈ o.found.newGaps (binance instruments) o.next → g ∈ o.startedSince := by
    intro g hg
    rw [o.found_eq] at hg
    exact newGaps_started hu (run_settled hu _ hs) rfl hg
  apply hshown
  obtain ⟨i, hi⟩ := hmissed
  obtain ⟨hwi, hin⟩ := hbetween i hi
  unfold IngestRunner.newGaps
  cases hreceives : o.found.receives (binance instruments) o.next with
  | nil =>
    unfold Outage.found at hreceives
    rw [hreceives] at hreceived
    cases hreceived
  | cons first rest =>
    have hfirst : first ∈ o.found.receives (binance instruments) o.next := by
      rw [hreceives]
      exact List.mem_cons_self
    obtain ⟨hkey, hsequence⟩ := receives_uniform hu hreceived hfirst
    rw [Option.mem_toList]
    apply SequenceTracker.observe_gap.2
    rw [hkey, hsequence, hk]
    exact ⟨aggTradePlace t', w, hn, hw, by omega, rfl⟩

/-! ## Coinbase -/

section Coinbase

variable (rfc3339ToUs : String → Option Int) (instruments : InstrumentMap)

def coinbaseScope (g : Gap) (symbol : String) (_ : Int) : Prop := coinbaseProducts instruments g symbol

theorem coinbase_uniform : (coinbase rfc3339ToUs instruments).Uniform := by
  intro now frame trades h t ht t' ht'
  obtain ⟨channel, n, rows, rfl, hvenue, hsequence, -⟩ := coinbase_parse rfc3339ToUs instruments h ht
  obtain ⟨channel', n', rows', he, hvenue', hsequence', -⟩ := coinbase_parse rfc3339ToUs instruments h ht'
  cases he
  refine ⟨?_, by rw [hsequence, hsequence']⟩
  unfold Connector.keyOf
  rw [hvenue, hvenue']
  rfl

theorem coinbase_receives {s : IngestRunner} {e : Event CoinbaseFrame} {t : Trade}
    (ht : t ∈ s.receives (coinbase rfc3339ToUs instruments) e) :
    (coinbase rfc3339ToUs instruments).keyOf t = ("coinbase", "*") ∧
      instruments.SymbolsFor "coinbase" t.venueSymbol := by
  obtain ⟨now, frame, trades, -, -, hparse, hreceives⟩ := mem_receives ht
  rw [hreceives] at ht
  obtain ⟨channel, n, rows, -, hvenue, -, hmapped⟩ := coinbase_parse rfc3339ToUs instruments hparse ht
  refine ⟨?_, hmapped⟩
  unfold Connector.keyOf
  rw [hvenue]
  rfl

/-- Every repair of the connection asks for all products of the map. -/
theorem coinbase_newGaps {s : IngestRunner} {e : Event CoinbaseFrame} {g : Gap}
    (hg : g ∈ s.newGaps (coinbase rfc3339ToUs instruments) e) : g.venueSymbol = "*" := by
  unfold IngestRunner.newGaps at hg
  cases hreceives : s.receives (coinbase rfc3339ToUs instruments) e with
  | nil =>
    rw [hreceives] at hg
    cases hg
  | cons t rest =>
    have ht : t ∈ s.receives (coinbase rfc3339ToUs instruments) e := by
      rw [hreceives]
      exact List.mem_cons_self
    rw [hreceives] at hg
    obtain ⟨n, w, -, -, -, rfl⟩ := SequenceTracker.observe_gap.1 (Option.mem_toList.1 hg)
    rw [(coinbase_receives rfc3339ToUs instruments ht).1]

/-- **A forgotten watermark leaves an outage to the jumps seen meanwhile.** -/
theorem coinbase_noSilentOutage_iff {s : IngestRunner} {events : List (Event CoinbaseFrame)}
    (hs : s.Settled (coinbase rfc3339ToUs instruments)) (executed : String → Int → Prop) (place : Trade → Int) :
    NoSilentOutage (coinbase rfc3339ToUs instruments) (coinbaseScope instruments) executed place s events ↔
      OutagesJump (coinbase rfc3339ToUs instruments) executed place s events := by
  have hu := coinbase_uniform rfc3339ToUs instruments
  constructor
  · intro h _ symbol o hmissed
    obtain ⟨g, hg, -⟩ := h symbol o hmissed
    exact (started_ne_nil hu (run_settled hu _ hs) _).1 (List.ne_nil_of_mem hg)
  · intro h symbol o hmissed
    obtain ⟨pre, e, post, hsplit, hjump⟩ := h rfl symbol o hmissed
    obtain ⟨g, hg⟩ := List.exists_mem_of_ne_nil _ ((newGaps_ne_nil hu).2 hjump)
    refine ⟨g, newGaps_started hu (run_settled hu _ hs) hsplit hg, fun i _ => ?_⟩
    unfold coinbaseScope coinbaseProducts
    rw [if_pos (coinbase_newGaps rfc3339ToUs instruments hg)]
    obtain ⟨t, ht⟩ := List.exists_mem_of_ne_nil _ o.nextFrame
    obtain ⟨hreceived, rfl⟩ := mem_frameTrades.1 ht
    exact (coinbase_receives rfc3339ToUs instruments hreceived).2

end Coinbase

/-- **An outage is repaired exactly when** the watermark survives the reconnect, or a frame up to the symbol's next one
jumped: always for Binance, and for Coinbase only by the jump. -/
theorem outagesRepaired_iff (instruments : InstrumentMap) (maxsize : Nat) (policy : DropPolicy)
    (executed : String → Int → Prop) :
    (∀ events : List (Event BinanceFrame),
      NoSilentOutage (binance instruments) binanceScope executed aggTradePlace (.start maxsize policy) events ↔
        OutagesJump (binance instruments) executed aggTradePlace (.start maxsize policy) events) ∧
    ∀ (rfc3339ToUs : String → Option Int) (place : Trade → Int) (events : List (Event CoinbaseFrame)),
      NoSilentOutage (coinbase rfc3339ToUs instruments) (coinbaseScope instruments) executed place (.start maxsize policy)
          events ↔
        OutagesJump (coinbase rfc3339ToUs instruments) executed place (.start maxsize policy) events := by
  have hsettled : ∀ {Frame : Type} (connector : Connector Frame), (IngestRunner.start maxsize policy).Settled connector :=
    fun connector => settled_of_left connector rfl
  constructor
  · intro events
    refine iff_of_true (binance_noSilentOutage (hsettled _) rfl executed) ?_
    intro hreset
    cases hreset
  · intro rfc3339ToUs place events
    exact coinbase_noSilentOutage_iff rfc3339ToUs instruments (hsettled _) executed place

def coinbaseBitcoin : InstrumentMap where
  toCanonical key := if key = ("coinbase", "BTC-USD") then some "BTC-USD" else none

def bitcoinRow (tradeId : String) : CoinbaseRow :=
  { productId := some "BTC-USD", tradeId := some tradeId, time := some "2024-10-04T00:10:00Z", price := some "60000.5"
    size := some "0.25", side := some "BUY" }

/-- `market_trades` with one trade. -/
def marketTrade (sequenceNum : Int) (tradeId : String) : CoinbaseFrame :=
  .message (some "market_trades") (some sequenceNum) [[bitcoinRow tradeId]]

def rfc3339 (time : String) : Option Int := if time = "2024-10-04T00:10:00Z" then some 1728000600000000 else none

/-- The counter starts again at 1, and trade 2 was executed in between: no repair. -/
theorem coinbase_outage_is_silent :
    ¬ ∀ (rfc3339ToUs : String → Option Int) (instruments : InstrumentMap) (maxsize : Nat) (executed : String → Int → Prop)
      (place : Trade → Int) (events : List (Event CoinbaseFrame)),
      NoSilentOutage (coinbase rfc3339ToUs instruments) (coinbaseScope instruments) executed place (.start maxsize .block)
        events := by
  intro h
  have hreceived : ∀ s : IngestRunner, s.socket = .session .idle → ∀ n tradeId,
      s.frameTrades (coinbase rfc3339 coinbaseBitcoin) "BTC-USD" (.frame 0 (marketTrade n tradeId)) ≠ [] := by
    intro s hs n tradeId
    unfold IngestRunner.frameTrades IngestRunner.receives
    simp only [hs]
    exact List.cons_ne_nil _ _
  let events : List (Event CoinbaseFrame) :=
    [.slept, .dialed, .frame 0 (marketTrade 1 "1"), .socketCloses, .dialed, .frame 0 (marketTrade 1 "3")]
  let o : Outage (coinbase rfc3339 coinbaseBitcoin) (.start 0 .block) events "BTC-USD" :=
    { before := [.slept, .dialed], last := .frame 0 (marketTrade 1 "1"), between := [.socketCloses, .dialed]
      next := .frame 0 (marketTrade 1 "3"), after := [], split := rfl
      lastFrame := hreceived _ rfl 1 "1"
      silent := by
        rw [allSteps_cons, allSteps_cons]
        exact ⟨rfl, rfl, allSteps_nil _⟩
      reconnects := ⟨[.socketCloses], [], rfl, rfl⟩
      nextFrame := hreceived _ rfl 1 "3" }
  let place : Trade → Int := fun t => if t.tradeId = "3" then 3 else 1
  have hmissed : o.Missed (fun _ _ => True) place 2 := by
    refine ⟨trivial, ?_, ?_⟩
    · simp only [o, List.cons_append, List.nil_append, allSteps_cons]
      refine ⟨fun t ht => (by cases ht), fun t ht => (by cases ht), fun t ht => ?_, allSteps_nil _⟩
      rw [List.mem_singleton.1 ht]
      decide
    · intro t ht
      rw [List.mem_singleton.1 ht]
      decide
  obtain ⟨g, hg, -⟩ := h rfc3339 coinbaseBitcoin 0 (fun _ _ => True) place events "BTC-USD" o ⟨2, hmissed⟩
  cases hg

end Ingest
