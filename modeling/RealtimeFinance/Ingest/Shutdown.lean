import RealtimeFinance.Runs
import RealtimeFinance.Ingest.Runner
/-!
# Shutdown — what a run that returns has handed to the producer

The queue is first in, first out, so the trades put are the trades produced and then the queue (`InOrder`).  Drain
leaves its loop once, with the queue empty, and takes nothing afterwards: a run that returns has produced every trade
exactly when none was put after that (`delivered_iff`).
-/
namespace Ingest

open Runs

variable {Frame : Type} (connector : Connector Frame)

/-- **Every trade put has been handed to the producer, and the queue is empty.** -/
def IngestRunner.Delivered (s : IngestRunner) : Prop := s.produced = s.put ∧ s.queue.items = []

/-- The event puts a trade: the task that holds one finds room for it. -/
def IngestRunner.PutsTrade (s : IngestRunner) : Event Frame → Prop
  | .frame now frame =>
    s.socket = .session .idle ∧ s.queue.full = false ∧ ∃ trades, connector.parse now frame = some trades ∧ trades ≠ []
  | .putResumes      => s.queue.full = false ∧ s.waiting ≠ none
  | .repairPuts task =>
    s.queue.full = false ∧ ∃ trade rest, (s.repairs[task]?).map RepairTask.phase = some (.putting trade rest)
  | _                => False

/-- **No trade is put on the queue once drain has left its loop.** -/
def NotPutLate (s : IngestRunner) (e : Event Frame) : Prop := s.drain = .left → ¬ s.PutsTrade connector e

/-! ## What one event does to the queue -/

structure Puts (s s' : IngestRunner) (trades : List Trade) : Prop where
  put : s'.put = s.put ++ trades
  items : s'.queue.items = s.queue.items ++ trades
  policy : s'.queue.policy = s.queue.policy
  produced : s'.produced = s.produced
  drain : s'.drain = s.drain
  run : s'.run = s.run

theorem Puts.idle {s s' : IngestRunner} (hput : s'.put = s.put) (hq : s'.queue = s.queue)
    (hproduced : s'.produced = s.produced) (hd : s'.drain = s.drain) (hrun : s'.run = s.run) : Puts s s' [] :=
  ⟨by rw [hput, List.append_nil], by rw [hq, List.append_nil], by rw [hq], hproduced, hd, hrun⟩

theorem Puts.trans {s s' s'' : IngestRunner} {trades trades' : List Trade} (h : Puts s s' trades)
    (h' : Puts s' s'' trades') : Puts s s'' (trades ++ trades') :=
  ⟨by rw [h'.put, h.put, List.append_assoc], by rw [h'.items, h.items, List.append_assoc],
    h'.policy.trans h.policy, h'.produced.trans h.produced, h'.drain.trans h.drain, h'.run.trans h.run⟩

theorem putTrade_puts {s s' : IngestRunner} {trade : Trade} (hp : s.queue.policy = .block)
    (h : s.putTrade trade = some s') : Puts s s' [trade] := by
  unfold IngestRunner.putTrade at h
  obtain ⟨queue, hput, rfl⟩ := Option.map_eq_some_iff.1 h
  obtain ⟨hitems, hpolicy⟩ := BoundedTopicQueue.put_block hp hput
  exact ⟨rfl, hitems, hpolicy.trans hp.symm, rfl, rfl, rfl⟩

theorem handleMessage_puts (trades : List Trade) : ∀ {s : IngestRunner}, s.queue.policy = .block →
    ∃ put, Puts s (s.handleMessage connector trades) put := by
  induction trades with
  | nil => exact fun {s} _ => ⟨[], .idle rfl rfl rfl rfl rfl⟩
  | cons trade rest ih =>
    intro s hp
    unfold IngestRunner.handleMessage
    cases hput : (s.observe connector trade).putTrade trade with
    | none => exact ⟨[], .idle rfl rfl rfl rfl rfl⟩
    | some s' =>
      have hobserved : Puts s (s.observe connector trade) [] := .idle rfl rfl rfl rfl rfl
      have hone := hobserved.trans (putTrade_puts hp hput)
      obtain ⟨put, hrest⟩ := ih (hone.policy.trans hp)
      exact ⟨_, hone.trans hrest⟩

theorem putTrade_eq_none {s : IngestRunner} (hp : s.queue.policy = .block) (trade : Trade) :
    s.putTrade trade = none ↔ s.queue.full = true := by
  unfold IngestRunner.putTrade
  rw [Option.map_eq_none_iff, BoundedTopicQueue.put_eq_none hp]

theorem room_of_putTrade {s s' : IngestRunner} {trade : Trade} (hp : s.queue.policy = .block)
    (h : s.putTrade trade = some s') : s.queue.full = false := by
  rw [← Bool.not_eq_true, ← putTrade_eq_none hp trade, h]
  exact Option.some_ne_none s'

/-- **A put that is tried shows unless there is no room**, whatever the task goes on to do. -/
theorem put_eq_iff_full {s s₁ : IngestRunner} (hp : s.queue.policy = .block) (hsame : Puts s s₁ []) (trade : Trade)
    {after : IngestRunner → IngestRunner} {kept : IngestRunner} (hkept : kept.put = s.put)
    (hafter : ∀ s', s'.queue.policy = .block → ∃ put, Puts s' (after s') put) :
    (match s₁.putTrade trade with
      | some s' => after s'
      | none    => kept).put = s.put ↔ s₁.queue.full = true := by
  have hpolicy : s₁.queue.policy = .block := hsame.policy.trans hp
  cases hput : s₁.putTrade trade with
  | none => exact iff_of_true hkept ((putTrade_eq_none hpolicy trade).1 hput)
  | some s' =>
    have hone := hsame.trans (putTrade_puts hpolicy hput)
    obtain ⟨put, hrest⟩ := hafter s' (hone.policy.trans hp)
    refine iff_of_false (fun he => ?_) (fun hfull => ?_)
    · rw [(hone.trans hrest).put, List.append_right_eq_self] at he
      cases he
    · rw [room_of_putTrade hpolicy hput] at hfull
      cases hfull

theorem handleMessage_put_iff {s : IngestRunner} (hp : s.queue.policy = .block) (trades : List Trade) :
    (s.handleMessage connector trades).put = s.put ↔ ¬ (s.queue.full = false ∧ trades ≠ []) := by
  cases trades with
  | nil => exact iff_of_true rfl (fun h => h.2 rfl)
  | cons trade rest =>
    have hobserved : Puts s (s.observe connector trade) [] := .idle rfl rfl rfl rfl rfl
    unfold IngestRunner.handleMessage
    refine Iff.trans (put_eq_iff_full hp hobserved trade ?_ ?_) ?_
    · rfl
    · exact fun s' hp' => handleMessage_puts connector rest hp'
    · show s.queue.full = true ↔ _
      simp

/-- What an event can do, the queue's side of it. -/
inductive QueueCase (s : IngestRunner) (s' : IngestRunner) : Prop
  | puts (trades : List Trade) (h : Puts s s' trades)
  | takes (trade : Trade) (hd : s.drain = .running) (hitems : s.queue.items = trade :: s'.queue.items)
      (hproduced : s'.produced = s.produced ++ [trade]) (hput : s'.put = s.put)
      (hpolicy : s'.queue.policy = s.queue.policy) (hrun : s'.run = s.run)
      (hleft : s'.drain = .running ∨ s'.drain = .left ∧ s'.queue.items = [])
  | leaves (hd : s.drain = .running) (hleft : s'.drain = .left) (hitems : s'.queue.items = [])
      (hq : s'.queue = s.queue) (hput : s'.put = s.put) (hproduced : s'.produced = s.produced) (hrun : s'.run = s.run)
  | fails (hd : s.drain = .running) (hfailed : s'.drain = .failed)
      (hpolicy : s'.queue.policy = s.queue.policy) (hrun : s'.run = s.run)
  | ends (hq : s'.queue = s.queue) (hput : s'.put = s.put) (hproduced : s'.produced = s.produced)
      (hd : s'.drain = s.drain) (hrun : s'.run = .returned → s.drain = .left)

theorem drainTest_cases (s : IngestRunner) :
    s.drainTest = s ∨ s.drainTest = { s with drain := .left } ∧ s.queue.items = [] := by
  unfold IngestRunner.drainTest
  split
  · rename_i h
    rw [Bool.and_eq_true, List.isEmpty_iff] at h
    exact Or.inr ⟨rfl, h.2⟩
  · exact Or.inl rfl

theorem drainTest_put (s : IngestRunner) : s.drainTest.put = s.put := by
  rcases drainTest_cases s with he | ⟨he, -⟩ <;> rw [he]

/-- **An event puts nothing exactly when no task of it holds a trade, or finds no room for it.** -/
theorem step_put_iff {s : IngestRunner} (hp : s.queue.policy = .block) (e : Event Frame) :
    (s.step connector e).put = s.put ↔ ¬ s.PutsTrade connector e := by
  cases e with
  | frame now frame =>
    simp only [IngestRunner.step, IngestRunner.PutsTrade]
    split
    · rename_i hs
      cases hparse : connector.parse now frame with
      | none =>
        refine iff_of_true rfl ?_
        rintro ⟨-, -, trades, h, -⟩
        cases h
      | some trades =>
        simp only [handleMessage_put_iff connector hp, hs, true_and, Option.some.injEq, exists_eq_left']
    · rename_i hs
      exact iff_of_true rfl (fun h => hs h.1)
  | putResumes =>
    simp only [IngestRunner.step, IngestRunner.PutsTrade, IngestRunner.waiting]
    split
    · rename_i trade rest hs
      have hsame : Puts s s [] := .idle rfl rfl rfl rfl rfl
      refine (put_eq_iff_full hp hsame trade rfl (fun s' hp' => handleMessage_puts connector rest hp')).trans ?_
      simp
    · exact iff_of_true rfl (fun h => h.2 rfl)
  | repairPuts task =>
    simp only [IngestRunner.step, IngestRunner.PutsTrade]
    split
    · rename_i trade rest hphase
      have hsame : Puts s s [] := .idle rfl rfl rfl rfl rfl
      have hset : ∀ s', s'.queue.policy = .block → ∃ put, Puts s' (s'.setRepair task (.ofTrades rest)) put :=
        fun s' _ => ⟨[], .idle rfl rfl rfl rfl rfl⟩
      refine (put_eq_iff_full hp hsame trade rfl hset).trans ?_
      simp [hphase]
    · rename_i hphase
      refine iff_of_true rfl ?_
      rintro ⟨-, trade, rest, h⟩
      exact hphase trade rest h
  | dialed =>
    refine iff_of_true ?_ not_false
    simp only [IngestRunner.step, IngestRunner.handleReconnect]
    repeat' split
    all_goals rfl
  | drainTakes =>
    refine iff_of_true ?_ not_false
    simp only [IngestRunner.step]
    split
    · rw [drainTest_put]
    · rfl
  | drainIdles =>
    refine iff_of_true ?_ not_false
    simp only [IngestRunner.step]
    split
    · rw [drainTest_put]
    · rfl
  | _ =>
    -- the other events keep `put`, whichever branch they take
    refine iff_of_true ?_ not_false
    simp only [IngestRunner.step]
    repeat' split
    all_goals rfl

theorem step_puts_of_socket {s : IngestRunner} (hp : s.queue.policy = .block) {e : Event Frame}
    (h : e.ofSocket = true) : ∃ trades, Puts s (s.step connector e) trades := by
  cases step_socket connector s h with
  | same h =>
    rw [h]
    exact ⟨[], .idle rfl rfl rfl rfl rfl⟩
  | dials hwait s₁ hs₁ h =>
    rw [h]
    rcases hs₁ with rfl | rfl
    · exact ⟨[], .idle rfl rfl rfl rfl rfl⟩
    · unfold IngestRunner.handleReconnect
      split <;> exact ⟨[], .idle rfl rfl rfl rfl rfl⟩
  | fails hwait h =>
    rw [h]
    exact ⟨[], .idle rfl rfl rfl rfl rfl⟩
  | loops hwait h =>
    rw [h]
    exact ⟨[], .idle rfl rfl rfl rfl rfl⟩
  | frame hwait trades h =>
    rw [h]
    exact handleMessage_puts connector trades hp
  | resumes trade rest s₁ hwait hput h =>
    rw [h]
    have hone := putTrade_puts hp hput
    obtain ⟨put, hrest⟩ := handleMessage_puts connector rest (hone.policy.trans hp)
    exact ⟨_, hone.trans hrest⟩

theorem step_queue {s : IngestRunner} (hp : s.queue.policy = .block) (e : Event Frame) :
    QueueCase s (s.step connector e) := by
  have hsame : QueueCase s s := .puts [] (.idle rfl rfl rfl rfl rfl)
  cases hsocket : e.ofSocket with
  | true =>
    obtain ⟨trades, hputs⟩ := step_puts_of_socket connector hp hsocket
    exact .puts trades hputs
  | false =>
    cases e with
    | dialed | dialFails | frame | putResumes | socketFails | socketCloses | lifetimeExpires | stopSeen | slept =>
      cases hsocket
    | setStop => exact .puts [] (.idle rfl rfl rfl rfl rfl)
    | repairAnswers task trades =>
      simp only [IngestRunner.step]
      split
      · exact .puts [] (.idle rfl rfl rfl rfl rfl)
      · exact hsame
    | repairFails task =>
      simp only [IngestRunner.step]
      split
      · exact .puts [] (.idle rfl rfl rfl rfl rfl)
      · exact hsame
    | repairPuts task =>
      simp only [IngestRunner.step]
      split
      · split
        · rename_i trade rest _ _ s' hput
          have hset : Puts s' (s'.setRepair task (.ofTrades rest)) [] := .idle rfl rfl rfl rfl rfl
          exact .puts _ ((putTrade_puts hp hput).trans hset)
        · exact hsame
      · exact hsame
    | drainTakes =>
      simp only [IngestRunner.step]
      split
      · rename_i trade queue hd hget
        obtain ⟨hitems, hpolicy⟩ := BoundedTopicQueue.get_items hget
        rcases drainTest_cases { s with queue, produced := s.produced ++ [trade] } with he | ⟨he, hnil⟩
        · rw [he]
          exact .takes trade hd hitems rfl rfl hpolicy rfl (Or.inl hd)
        · rw [he]
          exact .takes trade hd hitems rfl rfl hpolicy rfl (Or.inr ⟨rfl, hnil⟩)
      · exact hsame
    | drainIdles =>
      simp only [IngestRunner.step]
      split
      · rename_i hd
        rcases drainTest_cases s with he | ⟨he, hnil⟩
        · rw [he]
          exact hsame
        · rw [he]
          exact .leaves hd rfl hnil rfl rfl rfl rfl
      · exact hsame
    | drainRaises took =>
      simp only [IngestRunner.step]
      split
      · rename_i trade queue hd hget
        obtain ⟨-, hpolicy⟩ := BoundedTopicQueue.get_items hget
        cases took with
        | true => exact .fails hd rfl hpolicy rfl
        | false => exact .fails hd rfl rfl rfl
      · rename_i hd _
        exact .fails hd rfl rfl rfl
      · exact hsame
    | socketReturns =>
      simp only [IngestRunner.step]
      split
      · exact .ends rfl rfl rfl rfl (fun h => by cases h)
      · exact hsame
    | runReturns =>
      simp only [IngestRunner.step]
      split
      · rename_i hd
        split
        · exact .ends rfl rfl rfl rfl (fun _ => hd)
        · exact hsame
      · split
        · exact .ends rfl rfl rfl rfl (fun h => by cases h)
        · exact hsame
      · exact hsame

/-! ## Runs -/

/-- The queue blocks and is first in, first out; only a drain that has left its loop lets `run` return. -/
structure IngestRunner.InOrder (s : IngestRunner) : Prop where
  block : s.queue.policy = .block
  fifo : s.drain ≠ .failed → s.put = s.produced ++ s.queue.items
  returned : s.run = .returned → s.drain = .left

theorem step_inOrder {s : IngestRunner} (h : s.InOrder) (e : Event Frame) : (s.step connector e).InOrder := by
  cases step_queue connector h.block e with
  | puts trades hputs =>
    refine ⟨hputs.policy.trans h.block, fun hd => ?_, fun hr => ?_⟩
    · rw [hputs.drain] at hd
      rw [hputs.put, hputs.produced, hputs.items, h.fifo hd, List.append_assoc]
    · rw [hputs.run] at hr
      rw [hputs.drain]
      exact h.returned hr
  | takes trade hd hitems hproduced hput hpolicy hrun hleft =>
    have hfifo := h.fifo (by rw [hd]; decide)
    refine ⟨hpolicy.trans h.block, fun _ => ?_, fun hr => ?_⟩
    · rw [hput, hfifo, hitems, hproduced, List.append_assoc]
      rfl
    · rw [hrun] at hr
      rw [h.returned hr] at hd
      cases hd
  | leaves hd hleft hitems hq hput hproduced hrun =>
    have hfifo := h.fifo (by rw [hd]; decide)
    refine ⟨by rw [hq]; exact h.block, fun _ => ?_, fun _ => hleft⟩
    rw [hput, hproduced, hq]
    exact hfifo
  | fails hd hfailed hpolicy hrun =>
    refine ⟨hpolicy.trans h.block, fun hne => absurd hfailed hne, fun hr => ?_⟩
    rw [hrun] at hr
    rw [h.returned hr] at hd
    cases hd
  | ends hq hput hproduced hd hrun =>
    refine ⟨by rw [hq]; exact h.block, fun hne => ?_, fun hr => ?_⟩
    · rw [hd] at hne
      rw [hput, hproduced, hq]
      exact h.fifo hne
    · rw [hd]
      exact hrun hr

/-- **Once drain has left, the queue stays empty exactly as long as nothing is put.** -/
theorem step_left_iff {s : IngestRunner} (hp : s.queue.policy = .block) (e : Event Frame) :
    ((s.step connector e).drain = .left → (s.step connector e).queue.items = []) ↔
      (s.drain = .left → s.queue.items = []) ∧ NotPutLate connector s e := by
  unfold NotPutLate
  rw [← step_put_iff connector hp e]
  cases step_queue connector hp e with
  | puts trades hputs =>
    rw [hputs.drain, hputs.items, hputs.put, List.append_eq_nil_iff, List.append_right_eq_self]
    constructor
    · intro h
      exact ⟨fun hd => (h hd).1, fun hd => (h hd).2⟩
    · rintro ⟨hi, ht⟩ hd
      exact ⟨hi hd, ht hd⟩
  | takes trade hd hitems hproduced hput hpolicy hrun hleft =>
    rw [hd]
    refine iff_of_true (fun hl => ?_) ⟨fun h => (by cases h), fun h => (by cases h)⟩
    rcases hleft with h | ⟨-, hnil⟩
    · rw [h] at hl
      cases hl
    · exact hnil
  | leaves hd hleft hitems hq hput hproduced hrun =>
    rw [hd]
    exact iff_of_true (fun _ => hitems) ⟨fun h => (by cases h), fun h => (by cases h)⟩
  | fails hd hfailed hpolicy hrun =>
    rw [hd, hfailed]
    exact iff_of_true (fun h => (by cases h)) ⟨fun h => (by cases h), fun h => (by cases h)⟩
  | ends hq hput hproduced hd hrun =>
    rw [hd, hq]
    exact ⟨fun h => ⟨h, fun _ => hput⟩, fun h => h.1⟩

theorem left_iff (events : List (Event Frame)) {s : IngestRunner} (h : s.InOrder) :
    (((events.foldl (IngestRunner.step connector) s).drain = .left →
        (events.foldl (IngestRunner.step connector) s).queue.items = []) ↔
      (s.drain = .left → s.queue.items = []) ∧ AllSteps (IngestRunner.step connector) (NotPutLate connector) s events) :=
  foldl_iff_allSteps (I := IngestRunner.InOrder) (A := fun s => s.drain = .left → s.queue.items = [])
    (fun _ e hs => step_left_iff connector hs.block e) (fun _ e hs => step_inOrder connector hs e) events h

/-- **A run that returns has delivered every trade exactly when** none was put after drain left its loop. -/
theorem delivered_iff (maxsize : Nat) (events : List (Event Frame))
    (h : (events.foldl (IngestRunner.step connector) (.start maxsize .block)).run = .returned) :
    (events.foldl (IngestRunner.step connector) (.start maxsize .block)).Delivered ↔
      AllSteps (IngestRunner.step connector) (NotPutLate connector) (.start maxsize .block) events := by
  have hstart : (IngestRunner.start maxsize .block).InOrder := ⟨rfl, fun _ => rfl, fun h => (by cases h)⟩
  have hend : (events.foldl (IngestRunner.step connector) (.start maxsize .block)).InOrder :=
    run_invariant (I := IngestRunner.InOrder) (fun _ e hs => step_inOrder connector hs e) events hstart
  have hleft := hend.returned h
  have hfifo := hend.fifo (by rw [hleft]; decide)
  have hiff := left_iff connector events hstart
  rw [hleft] at hiff
  unfold IngestRunner.Delivered
  rw [hfifo, List.self_eq_append_right, and_self]
  constructor
  · intro hnil
    exact (hiff.1 (fun _ => hnil)).2
  · intro hall
    exact hiff.2 ⟨fun hd => (by cases hd), hall⟩ rfl

/-- A page of repair with one trade. -/
def repaired (aggTradeId : Int) : List Trade :=
  (toTrade bitcoin 0 (some "BTCUSDT") .restRepair
    { symbol := "BTCUSDT", aggTradeId, tradeTimeMs := 1728000600000, price := "60000.5", quantity := "0.25"
      buyerIsMaker := false }).toList

/-- The answer of a repair is put, and taken, before the stop. -/
def promptRepair : List (Event BinanceFrame) :=
  [.slept, .dialed, .frame 0 (aggTrade 1), .frame 0 (aggTrade 3), .drainTakes, .drainTakes, .repairAnswers 0 (repaired 2),
    .repairPuts 0, .drainTakes, .setStop, .drainIdles, .stopSeen, .socketReturns, .runReturns]

/-- Trades 1, 3 and 2 are delivered, so none of them was put late. -/
theorem delivered_iff_promptRepair :
    (promptRepair.foldl (IngestRunner.step (binance bitcoin)) (.start 10 .block)).put.map Trade.tradeId = ["1", "3", "2"] ∧
      AllSteps (IngestRunner.step (binance bitcoin)) (NotPutLate (binance bitcoin)) (.start 10 .block) promptRepair :=
  ⟨by decide, (delivered_iff (binance bitcoin) 10 promptRepair rfl).1 ⟨rfl, rfl⟩⟩

/-- Drain leaves between the stop and the answer of a repair. -/
def lateRepair : List (Event BinanceFrame) :=
  [.slept, .dialed, .frame 0 (aggTrade 1), .frame 0 (aggTrade 3), .drainTakes, .drainTakes, .setStop, .drainIdles,
    .stopSeen, .socketReturns, .repairAnswers 0 (repaired 2), .repairPuts 0, .runReturns]

theorem late_repair_stays_on_the_queue :
    ¬ ∀ (instruments : InstrumentMap) (maxsize : Nat) (events : List (Event BinanceFrame)),
      (events.foldl (IngestRunner.step (binance instruments)) (.start maxsize .block)).run = .returned →
      (events.foldl (IngestRunner.step (binance instruments)) (.start maxsize .block)).Delivered := by
  intro h
  obtain ⟨-, hempty⟩ := h bitcoin 10 lateRepair rfl
  cases hempty

end Ingest
