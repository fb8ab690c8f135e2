import RealtimeFinance.Runs
import RealtimeFinance.Ingest.Runner
/-!
# SilentLoss — the ids the watermark has passed

`handle_message` moves the watermark before it puts the trade, so inside a waiting `put` one id is passed and not put
(`inHand`).  Every other id from the first to the watermark is put or in a gap with a repair task (`Accounted`), whatever
the interleaving; the id in hand is lost where the pump is cancelled there (`noSilentLoss_iff`).
-/
namespace Ingest

open Runs

variable {Frame : Type} (connector : Connector Frame)

/-- The id has been put on the queue, or lies in a gap for which a repair task was started. -/
def IngestRunner.Covered (s : IngestRunner) (key : SequenceKey) (i : Int) : Prop :=
  (∃ t ∈ s.put, connector.keyOf t = key ∧ t.sequence = some i) ∨
  ∃ task ∈ s.repairs, task.gap.key = key ∧ task.gap.Contains i

def IngestRunner.Passed (s : IngestRunner) (key : SequenceKey) (i : Int) : Prop :=
  ∃ f w, s.first key = some f ∧ s.tracker.watermarks key = some w ∧ f ≤ i ∧ i ≤ w

/-- **No id is passed and then lost**, whenever no `handle_message` is in progress. -/
def NoSilentLoss (s : IngestRunner) : Prop :=
  s.waiting = none → ∀ key i, s.Passed key i → s.Covered connector key i

/-- **A cancelled pump is not waiting to put a trade whose id is passed and not covered.** -/
def CancelledSafely (s : IngestRunner) (e : Event Frame) : Prop :=
  s.Cancels e → ∀ t i, s.waiting = some t → t.sequence = some i → s.Passed (connector.keyOf t) i →
    s.Covered connector (connector.keyOf t) i

/-! ## What the tracker has passed is accounted for -/

def IngestRunner.CoveredBut (s : IngestRunner) (inHand : Option (SequenceKey × Int)) : Prop :=
  ∀ key i, s.Passed key i → s.Covered connector key i ∨ inHand = some (key, i)

def IngestRunner.Synced (s : IngestRunner) : Prop :=
  ∀ key, (s.first key).isSome = (s.tracker.watermarks key).isSome

def inHandOf (t : Trade) : Option (SequenceKey × Int) := t.sequence.map (fun i => (connector.keyOf t, i))

def IngestRunner.Accounted (s : IngestRunner) : Prop :=
  s.CoveredBut connector (s.waiting.bind (inHandOf connector)) ∧ s.Synced

/-- A step that neither observes nor forgets: trades are only put, repair tasks only go on. -/
structure Quiet (s s' : IngestRunner) : Prop where
  tracker : s'.tracker = s.tracker
  first : s'.first = s.first
  put : ∃ trades, s'.put = s.put ++ trades
  repairs : s'.repairs.map RepairTask.gap = s.repairs.map RepairTask.gap

theorem Quiet.refl (s : IngestRunner) : Quiet s s := ⟨rfl, rfl, ⟨[], by simp⟩, rfl⟩

theorem Quiet.trans {s s' s'' : IngestRunner} (h : Quiet s s') (h' : Quiet s' s'') : Quiet s s'' := by
  obtain ⟨trades, hput⟩ := h.put
  obtain ⟨trades', hput'⟩ := h'.put
  exact ⟨h'.tracker.trans h.tracker, h'.first.trans h.first,
    ⟨trades ++ trades', by rw [hput', hput, List.append_assoc]⟩, h'.repairs.trans h.repairs⟩

theorem Quiet.passed {s s' : IngestRunner} (h : Quiet s s') (key : SequenceKey) (i : Int) :
    s'.Passed key i ↔ s.Passed key i := by
  unfold IngestRunner.Passed
  rw [h.first, h.tracker]

theorem IngestRunner.Covered.mono {s s' : IngestRunner} {key : SequenceKey} {i : Int} (h : s.Covered connector key i)
    (hput : ∀ t ∈ s.put, t ∈ s'.put) (hgaps : ∀ g ∈ s.repairs.map RepairTask.gap, g ∈ s'.repairs.map RepairTask.gap) :
    s'.Covered connector key i := by
  rcases h with ⟨t, ht, hkey⟩ | ⟨task, htask, hkey⟩
  · exact Or.inl ⟨t, hput t ht, hkey⟩
  · obtain ⟨task', htask', he⟩ := List.mem_map.1 (hgaps _ (List.mem_map_of_mem htask))
    exact Or.inr ⟨task', htask', by rw [he]; exact hkey⟩

theorem Quiet.covered {s s' : IngestRunner} (h : Quiet s s') {key : SequenceKey} {i : Int}
    (hc : s.Covered connector key i) : s'.Covered connector key i := by
  obtain ⟨trades, hput⟩ := h.put
  refine hc.mono connector (fun t ht => ?_) (fun g hg => ?_)
  · rw [hput]
    exact List.mem_append_left _ ht
  · rw [h.repairs]
    exact hg

theorem Quiet.coveredBut {s s' : IngestRunner} (h : Quiet s s') {inHand : Option (SequenceKey × Int)}
    (hc : s.CoveredBut connector inHand) : s'.CoveredBut connector inHand := by
  intro key i hp
  rcases hc key i ((h.passed key i).1 hp) with hc | hi
  · exact Or.inl (h.covered connector hc)
  · exact Or.inr hi

theorem Quiet.synced {s s' : IngestRunner} (h : Quiet s s') (hs : s.Synced) : s'.Synced := by
  intro key
  rw [h.first, h.tracker]
  exact hs key

theorem putTrade_quiet {s s' : IngestRunner} {t : Trade} (h : s.putTrade t = some s') :
    Quiet s s' ∧ s'.socket = s.socket ∧ t ∈ s'.put := by
  unfold IngestRunner.putTrade at h
  obtain ⟨queue, -, rfl⟩ := Option.map_eq_some_iff.1 h
  exact ⟨⟨rfl, rfl, ⟨[t], rfl⟩, rfl⟩, rfl, by simp⟩

theorem observe_first_of_ne (s : IngestRunner) {t : Trade} {key : SequenceKey} (h : key ≠ connector.keyOf t) :
    (s.observe connector t).first key = s.first key := if_neg h

theorem observe_first_self (s : IngestRunner) (t : Trade) :
    (s.observe connector t).first (connector.keyOf t) = (s.first (connector.keyOf t)).or t.sequence := if_pos rfl

theorem observe_repairs (s : IngestRunner) (t : Trade) : (s.observe connector t).repairs = s.repairs ++
    (s.tracker.observe (connector.keyOf t).1 (connector.keyOf t).2 t.sequence).2.toList.map (fun gap =>
      { gap, phase := .fetching }) := rfl

theorem observe_covered {s : IngestRunner} (t : Trade) {key : SequenceKey} {i : Int} (h : s.Covered connector key i) :
    (s.observe connector t).Covered connector key i := by
  refine h.mono connector (fun _ ht => ht) (fun g hg => ?_)
  rw [observe_repairs, List.map_append]
  exact List.mem_append_left _ hg

/-- **Observing a trade passes only its own id and the gap it starts a task for.** -/
theorem observe_coveredBut {s : IngestRunner} (hc : s.CoveredBut connector none) (hs : s.Synced) (t : Trade) :
    (s.observe connector t).CoveredBut connector (inHandOf connector t) := by
  rintro key i ⟨f, w, hf, hw, hfi, hiw⟩
  have hold : s.Passed key i → (s.observe connector t).Covered connector key i := fun hp => by
    rcases hc key i hp with h | h
    · exact observe_covered connector t h
    · cases h
  have hw : (s.tracker.observe (connector.keyOf t).1 (connector.keyOf t).2 t.sequence).1.watermarks key = some w := hw
  cases hseq : t.sequence with
  | none =>
    rw [hseq] at hw
    have hf' : s.first key = some f := by
      by_cases hk : key = connector.keyOf t
      · rw [hk, observe_first_self, hseq, Option.or_none, ← hk] at hf
        exact hf
      · rw [observe_first_of_ne connector s hk] at hf
        exact hf
    exact Or.inl (hold ⟨f, w, hf', hw, hfi, hiw⟩)
  | some j =>
    rw [hseq] at hw
    by_cases hk : key = connector.keyOf t
    · subst hk
      rw [observe_first_self, hseq] at hf
      have hsync := hs (connector.keyOf t)
      unfold inHandOf
      rw [hseq]
      cases hl : s.tracker.watermarks (connector.keyOf t) with
      | none =>
        rw [hl] at hsync
        have hnone : s.first (connector.keyOf t) = none := by simpa using hsync
        rw [hnone] at hf
        rw [s.tracker.observe_first hl] at hw
        cases hf
        cases hw
        have : i = f := by omega
        exact Or.inr (by rw [this]; rfl)
      | some last =>
        rw [hl] at hsync
        obtain ⟨f', hf'⟩ := Option.isSome_iff_exists.1 hsync
        rw [hf', Option.some_or] at hf
        cases hf
        rcases s.tracker.observe_reached hl hw hiw with hle | rfl | ⟨g, hg, hgk, hgi⟩
        · exact Or.inl (hold ⟨f, last, hf', hl, hfi, hle⟩)
        · exact Or.inr rfl
        · refine Or.inl (Or.inr ⟨⟨g, .fetching⟩, ?_, hgk, hgi⟩)
          rw [observe_repairs, hseq, hg]
          simp
    · rw [observe_first_of_ne connector s hk] at hf
      rw [s.tracker.observe_of_ne (some j) hk] at hw
      exact Or.inl (hold ⟨f, w, hf, hw, hfi, hiw⟩)

theorem observe_synced {s : IngestRunner} (hs : s.Synced) (t : Trade) : (s.observe connector t).Synced := by
  intro key
  show _ = ((s.tracker.observe (connector.keyOf t).1 (connector.keyOf t).2 t.sequence).1.watermarks key).isSome
  by_cases hk : key = connector.keyOf t
  · subst hk
    rw [observe_first_self, s.tracker.observe_isSome, Option.isSome_or, hs (connector.keyOf t)]
  · rw [observe_first_of_ne connector s hk, s.tracker.observe_of_ne _ hk]
    exact hs key

theorem put_coveredBut {s : IngestRunner} {t : Trade} (hin : t ∈ s.put)
    (hc : s.CoveredBut connector (inHandOf connector t)) : s.CoveredBut connector none := by
  intro key i hp
  rcases hc key i hp with hcov | hhand
  · exact Or.inl hcov
  · obtain ⟨j, hj, he⟩ := Option.map_eq_some_iff.1 hhand
    cases he
    exact Or.inl (Or.inl ⟨t, hin, rfl, hj⟩)

theorem handleMessage_accounted (trades : List Trade) : ∀ {s : IngestRunner}, s.CoveredBut connector none → s.Synced →
    (s.handleMessage connector trades).Accounted connector := by
  induction trades with
  | nil => exact fun hc hs => ⟨hc, hs⟩
  | cons t rest ih =>
    intro s hc hs
    have hc' := observe_coveredBut connector hc hs t
    have hs' := observe_synced connector hs t
    unfold IngestRunner.handleMessage
    cases hput : (s.observe connector t).putTrade t with
    | none => exact ⟨hc', hs'⟩
    | some s' =>
      obtain ⟨hquiet, -, hin⟩ := putTrade_quiet hput
      exact ih (put_coveredBut connector hin (hquiet.coveredBut connector hc')) (hquiet.synced hs')

/-! ## One event -/

theorem map_gap_modify (task : Nat) (phase : RepairPhase) : ∀ repairs : List RepairTask,
    (repairs.modify task (fun t => { t with phase })).map RepairTask.gap = repairs.map RepairTask.gap := by
  induction task with
  | zero =>
    intro repairs
    cases repairs <;> rfl
  | succ task ih =>
    intro repairs
    cases repairs with
    | nil => rfl
    | cons t rest =>
      rw [List.modify_succ_cons, List.map_cons, List.map_cons, ih rest]

theorem setRepair_quiet (s : IngestRunner) (task : Nat) (phase : RepairPhase) : Quiet s (s.setRepair task phase) :=
  ⟨rfl, rfl, ⟨[], (List.append_nil _).symm⟩, map_gap_modify task phase s.repairs⟩

theorem Quiet.of_eq {s s' : IngestRunner} (ht : s'.tracker = s.tracker) (hf : s'.first = s.first)
    (hp : s'.put = s.put) (hr : s'.repairs = s.repairs) : Quiet s s' :=
  ⟨ht, hf, ⟨[], by rw [hp, List.append_nil]⟩, by rw [hr]⟩

theorem waiting_of_socket {s s' : IngestRunner} (h : s'.socket = s.socket) : s'.waiting = s.waiting := by
  unfold IngestRunner.waiting
  rw [h]

theorem drainTest_quiet (s : IngestRunner) : Quiet s s.drainTest ∧ s.drainTest.socket = s.socket := by
  unfold IngestRunner.drainTest
  split
  · exact ⟨Quiet.of_eq rfl rfl rfl rfl, rfl⟩
  · exact ⟨Quiet.refl s, rfl⟩

/-- **The other tasks leave the socket and the tracker alone.** -/
theorem step_quiet_of_not_socket (s : IngestRunner) {e : Event Frame} (h : e.ofSocket = false) :
    Quiet s (s.step connector e) ∧ (s.step connector e).socket = s.socket := by
  have hsame : Quiet s s ∧ s.socket = s.socket := ⟨Quiet.refl s, rfl⟩
  cases e with
  | dialed | dialFails | frame | putResumes | socketFails | socketCloses | lifetimeExpires | stopSeen | slept => cases h
  | setStop => exact ⟨Quiet.of_eq rfl rfl rfl rfl, rfl⟩
  | repairAnswers task trades =>
    simp only [IngestRunner.step]
    split
    · exact ⟨setRepair_quiet s task _, rfl⟩
    · exact hsame
  | repairFails task =>
    simp only [IngestRunner.step]
    split
    · exact ⟨setRepair_quiet s task _, rfl⟩
    · exact hsame
  | repairPuts task =>
    simp only [IngestRunner.step]
    split
    · split
      · rename_i hput
        obtain ⟨hquiet, hsocket, -⟩ := putTrade_quiet hput
        exact ⟨hquiet.trans (setRepair_quiet _ task _), hsocket⟩
      · exact hsame
    · exact hsame
  | drainTakes =>
    simp only [IngestRunner.step]
    split
    · rename_i trade queue _ _
      obtain ⟨hquiet, hsocket⟩ := drainTest_quiet { s with queue, produced := s.produced ++ [trade] }
      exact ⟨(Quiet.of_eq rfl rfl rfl rfl : Quiet s { s with queue, produced := s.produced ++ [trade] }).trans hquiet,
        hsocket⟩
    · exact hsame
  | drainIdles =>
    simp only [IngestRunner.step]
    split
    · exact drainTest_quiet s
    · exact hsame
  | drainRaises took =>
    simp only [IngestRunner.step]
    split
    · exact ⟨Quiet.of_eq rfl rfl rfl rfl, rfl⟩
    · exact ⟨Quiet.of_eq rfl rfl rfl rfl, rfl⟩
    · exact hsame
  | socketReturns =>
    simp only [IngestRunner.step]
    split
    · exact ⟨Quiet.of_eq rfl rfl rfl rfl, rfl⟩
    · exact hsame
  | runReturns =>
    simp only [IngestRunner.step]
    split
    · split
      · exact ⟨Quiet.of_eq rfl rfl rfl rfl, rfl⟩
      · exact hsame
    · split
      · exact ⟨Quiet.of_eq rfl rfl rfl rfl, rfl⟩
      · exact hsame
    · exact hsame

/-- What an event can do, the tracker's side of it. -/
inductive StepCase (s : IngestRunner) (e : Event Frame) (s' : IngestRunner) : Prop
  | quiet (h : Quiet s s') (hwait : s'.waiting = s.waiting)
  | cancelled (h : Quiet s s') (hc : s.Cancels e) (hwait : s'.waiting = none)
  | frame (hwait : s.waiting = none) (trades : List Trade) (he : s' = s.handleMessage connector trades)
  | resumed (trade : Trade) (rest : List Trade) (s₁ : IngestRunner) (hwait : s.waiting = some trade)
      (hput : s.putTrade trade = some s₁) (he : s' = s₁.handleMessage connector rest)
  | reset (hwait : s'.waiting = none) (hfirst : s'.first = fun _ => none) (ht : s'.tracker = .new)

/-- **Every event is one of the cases.** -/
theorem step_case (s : IngestRunner) (e : Event Frame) : StepCase connector s e (s.step connector e) := by
  cases hsocket : e.ofSocket with
  | false =>
    obtain ⟨hquiet, hsame⟩ := step_quiet_of_not_socket connector s hsocket
    exact .quiet hquiet (waiting_of_socket hsame)
  | true =>
    cases step_socket connector s hsocket with
    | same h =>
      rw [h]
      exact .quiet (Quiet.refl s) rfl
    | dials hwait s₁ hs₁ h =>
      rw [h]
      rcases hs₁ with rfl | rfl
      · exact .quiet (Quiet.of_eq rfl rfl rfl rfl) hwait.symm
      · unfold IngestRunner.handleReconnect
        split
        · exact .reset rfl rfl rfl
        · exact .quiet (Quiet.of_eq rfl rfl rfl rfl) hwait.symm
    | fails hwait h =>
      rw [h]
      exact .quiet (Quiet.of_eq rfl rfl rfl rfl) ((sessionFails_waiting s).trans hwait.symm)
    | loops hwait h =>
      rw [h]
      rcases hwait with hwait | hc
      · exact .quiet (Quiet.of_eq rfl rfl rfl rfl) ((loopTest_waiting s).trans hwait.symm)
      · exact .cancelled (Quiet.of_eq rfl rfl rfl rfl) hc (loopTest_waiting s)
    | frame hwait trades h => exact .frame hwait trades h
    | resumes trade rest s₁ hwait hput h => exact .resumed trade rest s₁ hwait hput h

theorem step_of_cancels {s : IngestRunner} {e : Event Frame} (hc : s.Cancels e) {t : Trade} (hw : s.waiting = some t) :
    s.step connector e = s.loopTest := by
  unfold IngestRunner.waiting at hw
  split at hw
  · rename_i trade rest hs
    cases e with
    | lifetimeExpires => simp only [IngestRunner.step, hs]
    | stopSeen =>
      simp only [IngestRunner.step, hs]
      exact if_pos hc
    | _ => cases hc
  · cases hw

theorem step_accounted {s : IngestRunner} {e : Event Frame} (h : s.Accounted connector)
    (hsafe : CancelledSafely connector s e) : (s.step connector e).Accounted connector := by
  obtain ⟨hc, hs⟩ := h
  cases step_case connector s e with
  | quiet hquiet hwait =>
    refine ⟨?_, hquiet.synced hs⟩
    rw [hwait]
    exact hquiet.coveredBut connector hc
  | cancelled hquiet hcancel hwait =>
    refine ⟨?_, hquiet.synced hs⟩
    rw [hwait]
    intro key i hp
    have hpast := (hquiet.passed key i).1 hp
    rcases hc key i hpast with hcov | hhand
    · exact Or.inl (hquiet.covered connector hcov)
    · obtain ⟨t, ht, hin⟩ := Option.bind_eq_some_iff.1 hhand
      obtain ⟨j, hj, he⟩ := Option.map_eq_some_iff.1 hin
      cases he
      exact Or.inl (hquiet.covered connector (hsafe hcancel t i ht hj hpast))
  | frame hwait trades he =>
    rw [hwait] at hc
    rw [he]
    exact handleMessage_accounted connector trades hc hs
  | resumed trade rest s₁ hwait hput he =>
    rw [hwait] at hc
    rw [he]
    obtain ⟨hquiet, -, hin⟩ := putTrade_quiet hput
    refine handleMessage_accounted connector rest (put_coveredBut connector hin (hquiet.coveredBut connector hc))
      (hquiet.synced hs)
  | reset hwait hfirst ht =>
    constructor
    · rintro key i ⟨f, w, hf, -⟩
      rw [hfirst] at hf
      cases hf
    · intro key
      rw [hfirst, ht]
      rfl

theorem noSilentLoss_step_iff {s : IngestRunner} (h : s.Accounted connector) (e : Event Frame) :
    NoSilentLoss connector (s.step connector e) ↔ CancelledSafely connector s e := by
  constructor
  · intro hno hc t i hw _ hp
    rw [step_of_cancels connector hc hw] at hno
    exact hno (loopTest_waiting s) (connector.keyOf t) i hp
  · intro hsafe hwait key i hp
    obtain ⟨hc, -⟩ := step_accounted connector h hsafe
    rw [hwait] at hc
    rcases hc key i hp with hcov | hhand
    · exact hcov
    · cases hhand

/-- **A run loses no passed id silently exactly when** no cancellation hits `handle_message` waiting to put a trade whose
id is neither put already nor in a gap under repair. -/
theorem noSilentLoss_iff (maxsize : Nat) (policy : DropPolicy) (events : List (Event Frame)) :
    AllReached (IngestRunner.step connector) (NoSilentLoss connector) (.start maxsize policy) events ↔
      AllSteps (IngestRunner.step connector) (CancelledSafely connector) (.start maxsize policy) events := by
  refine AllSteps.congr (I := IngestRunner.Accounted connector)
    (fun s e h => noSilentLoss_step_iff connector h e)
    (fun s e h hno => step_accounted connector h ((noSilentLoss_step_iff connector h e).1 hno)) ?_
  constructor
  · rintro key i ⟨f, w, hf, -⟩
    cases hf
  · exact fun _ => rfl

/-- A reconnect while the second trade waits for room: its id is passed, not put, and in no gap. -/
theorem reconnect_loses_a_waiting_trade :
    ¬ ∀ (instruments : InstrumentMap) (maxsize : Nat) (events : List (Event BinanceFrame)),
      AllReached (IngestRunner.step (binance instruments)) (NoSilentLoss (binance instruments)) (.start maxsize .block)
        events := by
  intro h
  have hlast := h bitcoin 1 [.slept, .dialed, .frame 0 (aggTrade 1), .frame 0 (aggTrade 2), .lifetimeExpires]
    [.slept, .dialed, .frame 0 (aggTrade 1), .frame 0 (aggTrade 2)] .lifetimeExpires [] rfl
  rcases hlast rfl ("binance", "BTCUSDT") 2 ⟨1, 2, rfl, rfl, by decide, by decide⟩ with ⟨t, ht, -, hi⟩ | ⟨task, htask, -⟩
  · rw [List.mem_singleton.1 ht] at hi
    exact absurd hi (by decide)
  · cases htask

end Ingest
