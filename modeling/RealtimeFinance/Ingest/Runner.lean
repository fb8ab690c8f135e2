import RealtimeFinance.Ingest.Connectors
import RealtimeFinance.Ingest.Gaps
import RealtimeFinance.Ingest.Queue
/-!
# Runner — `ingest.runner` over `ingest.core.ws`, as the event loop interleaves them

One event is what a task does between two of its awaits; a task that cannot go on is left as it is.  The socket task
dials, pumps frames into `handle_message` and reconnects, the drain task hands trades to the producer, and every gap has
a repair task.  A frame whose `put` has room is handled in one event; a full queue suspends `handle_message` inside it,
where the socket task can cancel it.
-/
namespace Ingest

inductive Pump
  | idle
  | blocked (trade : Trade) (rest : List Trade)

inductive SocketPhase
  | dialing
  | session (pump : Pump)
  /-- Before the loop test: at the start, or in the backoff of a failed session. -/
  | sleeping
  | finished

inductive RepairPhase
  | fetching
  | putting (trade : Trade) (rest : List Trade)
  | done

def RepairPhase.ofTrades : List Trade → RepairPhase
  | []            => .done
  | trade :: rest => .putting trade rest

structure RepairTask where
  gap : Gap
  phase : RepairPhase

inductive DrainPhase
  | running
  | left
  | failed
  deriving DecidableEq

inductive RunPhase
  | running
  /-- The socket has returned; awaiting the repair tasks, then drain. -/
  | finishing
  | returned
  | raised
  deriving DecidableEq

structure IngestRunner where
  tracker : SequenceTracker
  queue : BoundedTopicQueue Trade
  repairs : List RepairTask
  socket : SocketPhase
  hasConnected : Bool
  stop : Bool
  drain : DrainPhase
  run : RunPhase
  /-- Every trade put on the queue, in order. -/
  put : List Trade
  /-- Every trade handed to `producer.produce`, in order. -/
  produced : List Trade
  first : SequenceKey → Option Int

def IngestRunner.start (maxsize : Nat) (policy : DropPolicy) : IngestRunner :=
  { tracker := .new, queue := .new maxsize policy, repairs := [], socket := .sleeping, hasConnected := false
    stop := false, drain := .running, run := .running, put := [], produced := [], first := fun _ => none }

inductive Event (Frame : Type)
  | dialed
  | dialFails
  /-- The socket yields a frame, read at a clock in microseconds. -/
  | frame (now : Int) (frame : Frame)
  | putResumes
  | socketFails
  | socketCloses
  | lifetimeExpires
  | stopSeen
  | slept
  | setStop
  | repairAnswers (task : Nat) (trades : List Trade)
  | repairFails (task : Nat)
  | repairPuts (task : Nat)
  | drainTakes
  /-- The loop test, at the start or after a timeout. -/
  | drainIdles
  /-- `produce`, `poll` or `flush` raises, with or without a trade just taken. -/
  | drainRaises (took : Bool)
  | socketReturns
  | runReturns

variable {Frame : Type} (connector : Connector Frame)

def Connector.keyOf (trade : Trade) : SequenceKey :=
  (trade.venue, connector.sequenceSymbol.getD trade.venueSymbol)

/-- `await queue.put(trade)`; `none` while it waits. -/
def IngestRunner.putTrade (s : IngestRunner) (trade : Trade) : Option IngestRunner :=
  (s.queue.put trade).map (fun queue => { s with queue, put := s.put ++ [trade] })

/-- `tracker.observe`, and the repair task of its gap. -/
def IngestRunner.observe (s : IngestRunner) (trade : Trade) : IngestRunner :=
  let key := connector.keyOf trade
  let observed := s.tracker.observe key.1 key.2 trade.sequence
  { s with
    tracker := observed.1
    repairs := s.repairs ++ observed.2.toList.map (fun gap => { gap, phase := .fetching })
    first := fun k => if k = key then (s.first k).or trade.sequence else s.first k }

/-- `handle_message`, from a frame's trades left. -/
def IngestRunner.handleMessage (s : IngestRunner) : List Trade → IngestRunner
  | []            => { s with socket := .session .idle }
  | trade :: rest =>
    match (s.observe connector trade).putTrade trade with
    | some s' => s'.handleMessage rest
    | none    => { s.observe connector trade with socket := .session (.blocked trade rest) }

/-- The loop test of `ResilientWebSocket.run`, after a clean end or a sleep. -/
def IngestRunner.loopTest (s : IngestRunner) : IngestRunner :=
  { s with socket := if s.stop then .finished else .dialing }

def IngestRunner.sessionFails (s : IngestRunner) : IngestRunner :=
  { s with socket := if s.stop then .finished else .sleeping }

def IngestRunner.handleReconnect (s : IngestRunner) : IngestRunner :=
  if connector.resetsSequenceOnReconnect then { s with tracker := .new, first := fun _ => none } else s

def IngestRunner.setRepair (s : IngestRunner) (task : Nat) (phase : RepairPhase) : IngestRunner :=
  { s with repairs := s.repairs.modify task (fun t => { t with phase }) }

/-- `while not stop.is_set() or queue.qsize() > 0`. -/
def IngestRunner.drainTest (s : IngestRunner) : IngestRunner :=
  if s.stop && s.queue.items.isEmpty then { s with drain := .left } else s

def RepairPhase.isDone : RepairPhase → Bool
  | .done => true
  | _     => false

def IngestRunner.step (s : IngestRunner) : Event Frame → IngestRunner
  | .dialed =>
    match s.socket with
    | .dialing =>
      let s := if s.hasConnected then s.handleReconnect connector else s
      { s with socket := .session .idle, hasConnected := true }
    | _ => s
  | .dialFails =>
    match s.socket with
    | .dialing => s.sessionFails
    | _        => s
  | .frame now frame =>
    match s.socket with
    | .session .idle =>
      match connector.parse now frame with
      | some trades => s.handleMessage connector trades
      | none        => s.sessionFails
    | _ => s
  | .putResumes =>
    match s.socket with
    | .session (.blocked trade rest) =>
      match s.putTrade trade with
      | some s' => s'.handleMessage connector rest
      | none    => s
    | _ => s
  | .socketFails =>
    match s.socket with
    | .session .idle => s.sessionFails
    | _              => s
  | .socketCloses =>
    match s.socket with
    | .session .idle => s.loopTest
    | _              => s
  | .lifetimeExpires =>
    -- the pump is cancelled, in whichever await it is
    match s.socket with
    | .session _ => s.loopTest
    | _          => s
  | .stopSeen =>
    match s.socket with
    | .session _ => if s.stop then s.loopTest else s
    | _          => s
  | .slept =>
    match s.socket with
    | .sleeping => s.loopTest
    | _         => s
  | .setStop => { s with stop := true }
  | .repairAnswers task trades =>
    match (s.repairs[task]?).map RepairTask.phase with
    | some .fetching => s.setRepair task (.ofTrades trades)
    | _              => s
  | .repairFails task =>
    match (s.repairs[task]?).map RepairTask.phase with
    | some .fetching => s.setRepair task .done
    | _              => s
  | .repairPuts task =>
    match (s.repairs[task]?).map RepairTask.phase with
    | some (.putting trade rest) =>
      match s.putTrade trade with
      | some s' => s'.setRepair task (.ofTrades rest)
      | none    => s
    | _ => s
  | .drainTakes =>
    match s.drain, s.queue.get with
    | .running, some (trade, queue) => { s with queue, produced := s.produced ++ [trade] }.drainTest
    | _, _                          => s
  | .drainIdles =>
    match s.drain with
    | .running => s.drainTest
    | _        => s
  | .drainRaises took =>
    match s.drain, s.queue.get with
    | .running, some (_, queue) => { s with queue := if took then queue else s.queue, drain := .failed }
    | .running, none            => { s with drain := .failed }
    | _, _                      => s
  | .socketReturns =>
    match s.socket, s.run with
    | .finished, .running => { s with stop := true, run := .finishing }
    | _, _                => s
  | .runReturns =>
    match s.run, s.drain with
    | .finishing, .left   => if s.repairs.all (fun t => t.phase.isDone) then { s with run := .returned } else s
    | .finishing, .failed => if s.repairs.all (fun t => t.phase.isDone) then { s with run := .raised } else s
    | _, _                => s

/-! ## The socket task -/

def IngestRunner.waiting (s : IngestRunner) : Option Trade :=
  match s.socket with
  | .session (.blocked trade _) => some trade
  | _                           => none

def IngestRunner.Cancels (s : IngestRunner) : Event Frame → Prop
  | .lifetimeExpires => True
  | .stopSeen        => s.stop = true
  | _                => False

def Event.ofSocket : Event Frame → Bool
  | .dialed | .dialFails | .frame _ _ | .putResumes | .socketFails | .socketCloses | .lifetimeExpires | .stopSeen
  | .slept => true
  | _      => false

inductive SocketCase (s : IngestRunner) (e : Event Frame) (s' : IngestRunner) : Prop
  | same (h : s' = s)
  | dials (hwait : s.waiting = none) (s₁ : IngestRunner) (hs₁ : s₁ = s ∨ s₁ = s.handleReconnect connector)
      (h : s' = { s₁ with socket := .session .idle, hasConnected := true })
  | fails (hwait : s.waiting = none) (h : s' = s.sessionFails)
  | loops (hwait : s.waiting = none ∨ s.Cancels e) (h : s' = s.loopTest)
  | frame (hwait : s.waiting = none) (trades : List Trade) (h : s' = s.handleMessage connector trades)
  | resumes (trade : Trade) (rest : List Trade) (s₁ : IngestRunner) (hwait : s.waiting = some trade)
      (hput : s.putTrade trade = some s₁) (h : s' = s₁.handleMessage connector rest)

/-- Only a frame whose `put` waits has a trade waiting. -/
theorem waiting_of_phase {s : IngestRunner} {phase : SocketPhase} (hs : s.socket = phase)
    (hne : ∀ trade rest, phase ≠ .session (.blocked trade rest)) : s.waiting = none := by
  unfold IngestRunner.waiting
  rw [hs]
  split
  · rename_i trade rest
    exact absurd rfl (hne trade rest)
  · rfl

theorem waiting_of_idle {s : IngestRunner} (hs : s.socket = .session .idle) : s.waiting = none :=
  waiting_of_phase hs (fun _ _ h => by cases h)

theorem waiting_of_dialing {s : IngestRunner} (hs : s.socket = .dialing) : s.waiting = none :=
  waiting_of_phase hs (fun _ _ h => by cases h)

theorem waiting_of_sleeping {s : IngestRunner} (hs : s.socket = .sleeping) : s.waiting = none :=
  waiting_of_phase hs (fun _ _ h => by cases h)

theorem step_socket (s : IngestRunner) {e : Event Frame} (he : e.ofSocket = true) :
    SocketCase connector s e (s.step connector e) := by
  cases e with
  | dialed =>
    simp only [IngestRunner.step]
    split
    · rename_i hs
      by_cases hc : s.hasConnected = true
      · rw [if_pos hc]
        exact .dials (waiting_of_dialing hs) _ (Or.inr rfl) rfl
      · rw [if_neg hc]
        exact .dials (waiting_of_dialing hs) _ (Or.inl rfl) rfl
    · exact .same rfl
  | dialFails =>
    simp only [IngestRunner.step]
    split
    · rename_i hs
      exact .fails (waiting_of_dialing hs) rfl
    · exact .same rfl
  | frame now frame =>
    simp only [IngestRunner.step]
    split
    · rename_i hs
      cases connector.parse now frame with
      | some trades => exact .frame (waiting_of_idle hs) trades rfl
      | none => exact .fails (waiting_of_idle hs) rfl
    · exact .same rfl
  | putResumes =>
    simp only [IngestRunner.step]
    split
    · rename_i trade rest hs
      have hin : s.waiting = some trade := by
        unfold IngestRunner.waiting
        rw [hs]
      cases hput : s.putTrade trade with
      | some s₁ => exact .resumes trade rest s₁ hin hput rfl
      | none => exact .same rfl
    · exact .same rfl
  | socketFails =>
    simp only [IngestRunner.step]
    split
    · rename_i hs
      exact .fails (waiting_of_idle hs) rfl
    · exact .same rfl
  | socketCloses =>
    simp only [IngestRunner.step]
    split
    · rename_i hs
      exact .loops (Or.inl (waiting_of_idle hs)) rfl
    · exact .same rfl
  | lifetimeExpires =>
    simp only [IngestRunner.step]
    split
    · exact .loops (Or.inr trivial) rfl
    · exact .same rfl
  | stopSeen =>
    simp only [IngestRunner.step]
    split
    · split
      · rename_i hstop
        exact .loops (Or.inr hstop) rfl
      · exact .same rfl
    · exact .same rfl
  | slept =>
    simp only [IngestRunner.step]
    split
    · rename_i hs
      exact .loops (Or.inl (waiting_of_sleeping hs)) rfl
    · exact .same rfl
  | _ => cases he

/-- The consumer's side of the run is as it was. -/
structure Aside (s s' : IngestRunner) : Prop where
  produced : s'.produced = s.produced
  drain : s'.drain = s.drain
  run : s'.run = s.run

theorem Aside.trans {s s' s'' : IngestRunner} (h : Aside s s') (h' : Aside s' s'') : Aside s s'' :=
  ⟨h'.produced.trans h.produced, h'.drain.trans h.drain, h'.run.trans h.run⟩

theorem putTrade_aside {s s' : IngestRunner} {trade : Trade} (h : s.putTrade trade = some s') : Aside s s' := by
  unfold IngestRunner.putTrade at h
  obtain ⟨queue, -, rfl⟩ := Option.map_eq_some_iff.1 h
  exact ⟨rfl, rfl, rfl⟩

theorem handleMessage_aside (trades : List Trade) : ∀ {s : IngestRunner},
    Aside s (s.handleMessage connector trades) := by
  induction trades with
  | nil => exact fun {s} => ⟨rfl, rfl, rfl⟩
  | cons trade rest ih =>
    intro s
    unfold IngestRunner.handleMessage
    have hobserved : Aside s (s.observe connector trade) := ⟨rfl, rfl, rfl⟩
    cases hput : (s.observe connector trade).putTrade trade with
    | none => exact ⟨rfl, rfl, rfl⟩
    | some s' => exact hobserved.trans ((putTrade_aside hput).trans ih)

/-- **The socket task leaves the consumer's side alone.** -/
theorem step_socket_aside (s : IngestRunner) {e : Event Frame} (he : e.ofSocket = true) :
    Aside s (s.step connector e) := by
  cases step_socket connector s he with
  | same h =>
    rw [h]
    exact ⟨rfl, rfl, rfl⟩
  | dials hwait s₁ hs₁ h =>
    rw [h]
    rcases hs₁ with rfl | rfl
    · exact ⟨rfl, rfl, rfl⟩
    · unfold IngestRunner.handleReconnect
      split <;> exact ⟨rfl, rfl, rfl⟩
  | fails hwait h =>
    rw [h]
    exact ⟨rfl, rfl, rfl⟩
  | loops hwait h =>
    rw [h]
    exact ⟨rfl, rfl, rfl⟩
  | frame hwait trades h =>
    rw [h]
    exact handleMessage_aside connector trades
  | resumes trade rest s₁ hwait hput h =>
    rw [h]
    exact (putTrade_aside hput).trans (handleMessage_aside connector rest)

theorem loopTest_waiting (s : IngestRunner) : s.loopTest.waiting = none := by
  unfold IngestRunner.loopTest IngestRunner.waiting
  cases s.stop <;> rfl

theorem sessionFails_waiting (s : IngestRunner) : s.sessionFails.waiting = none := by
  unfold IngestRunner.sessionFails IngestRunner.waiting
  cases s.stop <;> rfl

end Ingest
