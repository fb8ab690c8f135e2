import RealtimeFinance.Ingest.Runner
/-!
# Received — where the runner's trades come from

A trade enters the runner in a frame that `parse` reads or in the answer to a repair, and nowhere else: whatever holds of
the trades that entered holds of every trade the runner has in hand, has put or has produced (`step_holds`).
-/
namespace Ingest

variable {Frame : Type} (connector : Connector Frame)

/-- The trades that enter with an event. -/
def Event.trades : Event Frame → List Trade
  | .frame now received     => (connector.parse now received).getD []
  | .repairAnswers _ trades => trades
  | _                       => []

def SocketPhase.trades : SocketPhase → List Trade
  | .session (.blocked trade rest) => trade :: rest
  | _                              => []

def RepairPhase.trades : RepairPhase → List Trade
  | .putting trade rest => trade :: rest
  | _                   => []

theorem RepairPhase.trades_ofTrades : ∀ trades : List Trade, (RepairPhase.ofTrades trades).trades = trades
  | []     => rfl
  | _ :: _ => rfl

/-- **Every trade the runner has, or has had, meets `P`.** -/
structure IngestRunner.Holds (P : Trade → Prop) (s : IngestRunner) : Prop where
  queue : ∀ t ∈ s.queue.items, P t
  socket : ∀ t ∈ s.socket.trades, P t
  repairs : ∀ task ∈ s.repairs, ∀ t ∈ task.phase.trades, P t
  put : ∀ t ∈ s.put, P t
  produced : ∀ t ∈ s.produced, P t

theorem start_holds (P : Trade → Prop) (maxsize : Nat) (policy : DropPolicy) :
    (IngestRunner.start maxsize policy).Holds P where
  queue t ht := by cases ht
  socket t ht := by cases ht
  repairs task htask := by cases htask
  put t ht := by cases ht
  produced t ht := by cases ht

variable {connector} {P Q : Trade → Prop} {s s' : IngestRunner}

theorem IngestRunner.Holds.mono (h : s.Holds P) (hPQ : ∀ t, P t → Q t) : s.Holds Q where
  queue t ht := hPQ t (h.queue t ht)
  socket t ht := hPQ t (h.socket t ht)
  repairs task htask t ht := hPQ t (h.repairs task htask t ht)
  put t ht := hPQ t (h.put t ht)
  produced t ht := hPQ t (h.produced t ht)

/-! ## What the tasks do with their trades -/

/-- The socket task goes on to another phase. -/
theorem IngestRunner.Holds.withSocket (h : s.Holds P) {phase : SocketPhase} (hphase : ∀ t ∈ phase.trades, P t) :
    IngestRunner.Holds P { s with socket := phase } :=
  ⟨h.queue, hphase, h.repairs, h.put, h.produced⟩

theorem loopTest_holds (h : s.Holds P) : s.loopTest.Holds P := by
  refine h.withSocket (fun t ht => ?_)
  cases hstop : s.stop with
  | true =>
    rw [hstop] at ht
    cases ht
  | false =>
    rw [hstop] at ht
    cases ht

theorem sessionFails_holds (h : s.Holds P) : s.sessionFails.Holds P := by
  refine h.withSocket (fun t ht => ?_)
  cases hstop : s.stop with
  | true =>
    rw [hstop] at ht
    cases ht
  | false =>
    rw [hstop] at ht
    cases ht

theorem handleReconnect_holds (h : s.Holds P) : (s.handleReconnect connector).Holds P := by
  unfold IngestRunner.handleReconnect
  split
  · exact ⟨h.queue, h.socket, h.repairs, h.put, h.produced⟩
  · exact h

theorem mem_of_mem_put {α : Type} {q q' : BoundedTopicQueue α} {item x : α} (h : q.put item = some q')
    (hx : x ∈ q'.items) : x ∈ q.items ∨ x = item := by
  unfold BoundedTopicQueue.put at h
  split at h
  · cases h
    rcases List.mem_append.1 hx with hx | hx
    · exact Or.inl hx
    · exact Or.inr (List.mem_singleton.1 hx)
  · cases hp : q.policy with
    | block =>
      rw [hp] at h
      cases h
    | dropOldest =>
      rw [hp] at h
      cases h
      rcases List.mem_append.1 hx with hx | hx
      · exact Or.inl (List.mem_of_mem_tail hx)
      · exact Or.inr (List.mem_singleton.1 hx)

theorem putTrade_holds {trade : Trade} (h : s.Holds P) (htrade : P trade) (hput : s.putTrade trade = some s') :
    s'.Holds P := by
  unfold IngestRunner.putTrade at hput
  obtain ⟨queue, hqueue, rfl⟩ := Option.map_eq_some_iff.1 hput
  refine ⟨fun t ht => ?_, h.socket, h.repairs, fun t ht => ?_, h.produced⟩
  · rcases mem_of_mem_put hqueue ht with ht | rfl
    · exact h.queue t ht
    · exact htrade
  · rcases List.mem_append.1 ht with ht | ht
    · exact h.put t ht
    · rw [List.mem_singleton.1 ht]
      exact htrade

/-- A repair task starts without a trade. -/
theorem observe_holds (h : s.Holds P) (trade : Trade) : (s.observe connector trade).Holds P := by
  refine ⟨h.queue, h.socket, fun task htask => ?_, h.put, h.produced⟩
  rcases List.mem_append.1 htask with htask | htask
  · exact h.repairs task htask
  · obtain ⟨gap, -, rfl⟩ := List.mem_map.1 htask
    intro t ht
    cases ht

theorem handleMessage_holds : ∀ (trades : List Trade) {s : IngestRunner}, s.Holds P → (∀ t ∈ trades, P t) →
    (s.handleMessage connector trades).Holds P
  | [], s, h, _ => h.withSocket (fun t ht => by cases ht)
  | trade :: rest, s, h, htrades => by
    obtain ⟨htrade, hrest⟩ := List.forall_mem_cons.1 htrades
    have hobserved : (s.observe connector trade).Holds P := observe_holds h trade
    unfold IngestRunner.handleMessage
    cases hput : (s.observe connector trade).putTrade trade with
    | some s' => exact handleMessage_holds rest (putTrade_holds hobserved htrade hput) hrest
    | none => exact hobserved.withSocket htrades

theorem setRepair_holds (h : s.Holds P) (task : Nat) {phase : RepairPhase} (hphase : ∀ t ∈ phase.trades, P t) :
    (s.setRepair task phase).Holds P := by
  refine ⟨h.queue, h.socket, fun x hx => ?_, h.put, h.produced⟩
  obtain ⟨i, hi, rfl⟩ := List.mem_iff_getElem.1 hx
  have hi' : i < s.repairs.length := by
    rw [← List.length_modify]
    exact hi
  have hget : (s.setRepair task phase).repairs[i] =
      if task = i then { s.repairs[i] with phase } else s.repairs[i] := List.getElem_modify ..
  rw [hget]
  split
  · exact hphase
  · exact h.repairs _ (List.getElem_mem hi')

theorem repair_trades {task : Nat} {phase : RepairPhase} (h : s.Holds P)
    (hphase : (s.repairs[task]?).map RepairTask.phase = some phase) : ∀ t ∈ phase.trades, P t := by
  obtain ⟨x, hx, rfl⟩ := Option.map_eq_some_iff.1 hphase
  exact h.repairs x (List.mem_of_getElem? hx)

theorem drainTest_holds (h : s.Holds P) : s.drainTest.Holds P := by
  unfold IngestRunner.drainTest
  split
  · exact ⟨h.queue, h.socket, h.repairs, h.put, h.produced⟩
  · exact h

/-! ## One event -/

/-- **A step adds only what its event brings.** -/
theorem step_holds (h : s.Holds P) (e : Event Frame) (he : ∀ t ∈ e.trades connector, P t) :
    (s.step connector e).Holds P := by
  cases e with
  | dialed =>
    simp only [IngestRunner.step]
    split
    · have hidle : ∀ t ∈ (SocketPhase.session .idle).trades, P t := fun t ht => by cases ht
      split
      · have hreset : (s.handleReconnect connector).Holds P := handleReconnect_holds h
        have hs := hreset.withSocket hidle
        exact ⟨hs.queue, hs.socket, hs.repairs, hs.put, hs.produced⟩
      · have hs := h.withSocket hidle
        exact ⟨hs.queue, hs.socket, hs.repairs, hs.put, hs.produced⟩
    · exact h
  | frame now frame =>
    simp only [IngestRunner.step]
    split
    · cases hparse : connector.parse now frame with
      | none => exact sessionFails_holds h
      | some trades =>
        rw [Event.trades, hparse] at he
        exact handleMessage_holds trades h he
    · exact h
  | putResumes =>
    simp only [IngestRunner.step]
    split
    · rename_i trade rest hsocket
      have htrades := h.socket
      rw [hsocket] at htrades
      obtain ⟨htrade, hrest⟩ := List.forall_mem_cons.1 htrades
      split
      · rename_i s' hput
        exact handleMessage_holds rest (putTrade_holds h htrade hput) hrest
      · exact h
    · exact h
  | dialFails | socketFails =>
    simp only [IngestRunner.step]
    split
    · exact sessionFails_holds h
    · exact h
  | socketCloses | lifetimeExpires | slept =>
    simp only [IngestRunner.step]
    split
    · exact loopTest_holds h
    · exact h
  | stopSeen =>
    simp only [IngestRunner.step]
    split
    · split
      · exact loopTest_holds h
      · exact h
    · exact h
  | setStop => exact ⟨h.queue, h.socket, h.repairs, h.put, h.produced⟩
  | repairAnswers task trades =>
    simp only [IngestRunner.step]
    split
    · refine setRepair_holds h task ?_
      rw [RepairPhase.trades_ofTrades]
      exact he
    · exact h
  | repairFails task =>
    simp only [IngestRunner.step]
    split
    · exact setRepair_holds h task (fun t ht => by cases ht)
    · exact h
  | repairPuts task =>
    simp only [IngestRunner.step]
    split
    · rename_i trade rest hphase
      obtain ⟨htrade, hrest⟩ := List.forall_mem_cons.1 (repair_trades h hphase)
      split
      · rename_i s' hput
        refine setRepair_holds (putTrade_holds h htrade hput) task ?_
        rw [RepairPhase.trades_ofTrades]
        exact hrest
      · exact h
    · exact h
  | drainTakes =>
    simp only [IngestRunner.step]
    split
    · rename_i trade queue _ hget
      obtain ⟨hitems, -⟩ := BoundedTopicQueue.get_items hget
      have hqueue := h.queue
      rw [hitems] at hqueue
      obtain ⟨htrade, hrest⟩ := List.forall_mem_cons.1 hqueue
      refine drainTest_holds ⟨hrest, h.socket, h.repairs, h.put, fun t ht => ?_⟩
      rcases List.mem_append.1 ht with ht | ht
      · exact h.produced t ht
      · rw [List.mem_singleton.1 ht]
        exact htrade
    · exact h
  | drainIdles =>
    simp only [IngestRunner.step]
    split
    · exact drainTest_holds h
    · exact h
  | drainRaises took =>
    simp only [IngestRunner.step]
    split
    · rename_i trade queue _ hget
      obtain ⟨hitems, -⟩ := BoundedTopicQueue.get_items hget
      refine ⟨fun t ht => ?_, h.socket, h.repairs, h.put, h.produced⟩
      cases took with
      | true => exact h.queue t (hitems ▸ List.mem_cons_of_mem _ ht)
      | false => exact h.queue t ht
    · exact ⟨h.queue, h.socket, h.repairs, h.put, h.produced⟩
    · exact h
  | socketReturns =>
    simp only [IngestRunner.step]
    split
    · exact ⟨h.queue, h.socket, h.repairs, h.put, h.produced⟩
    · exact h
  | runReturns =>
    simp only [IngestRunner.step]
    repeat' split
    · exact ⟨h.queue, h.socket, h.repairs, h.put, h.produced⟩
    · exact h
    · exact ⟨h.queue, h.socket, h.repairs, h.put, h.produced⟩
    · exact h
    · exact h

end Ingest
