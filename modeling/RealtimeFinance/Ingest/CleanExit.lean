import RealtimeFinance.Ingest.Runner
import RealtimeFinance.Ingest.Sinks
import RealtimeFinance.Runs
/-!
# CleanExit — what a run that returns has delivered

The runner over any sink.  An iteration of drain produces the trade it took and polls, and the last one flushes; a call
that raises kills drain, and `run` raises when it awaits it.  A failure that is reported to the callback is only logged,
and what `flush` returns is not read, so these two reach nobody (`cleanExit_iff`).
-/
namespace Ingest

open Runs

variable {Frame σ ω ρ : Type} (connector : Connector Frame) (sink : Sink σ ω ρ)

/-- The transport's answers to the calls of one iteration; `timedOut` where none was taken and `poll` is called for the
timeout. -/
structure Answers (ω : Type) where
  produce : ω
  poll : ω
  flush : ω
  timedOut : Bool

/-- What the calls of one iteration answered. -/
structure Service (σ ρ : Type) where
  sink : σ
  failures : List ρ
  flushed : Option Nat

def topic : String := "md.trades.v1"

def Sink.produceTaken (s : σ) (answers : Answers ω) : Option Trade → Option (σ × List ρ)
  | some t => sink.produce s answers.produce topic t
  | none   => some (s, [])

def Sink.pollAfter (s : σ) (answers : Answers ω) (took : Bool) : Option (σ × List ρ) :=
  if took || answers.timedOut then sink.poll s answers.poll else some (s, [])

def Sink.flushAtEnd (s : σ) (answers : Answers ω) (leaves : Bool) : Option (σ × List ρ × Option Nat) :=
  if leaves then (sink.flush s answers.flush).map (fun flushed => (flushed.1, flushed.2.1, some flushed.2.2))
  else some (s, [], none)

/-- The calls of one iteration, and `flush` where the loop is left; none where one of them raises. -/
def Sink.service (s : σ) (answers : Answers ω) (trade : Option Trade) (leaves : Bool) : Option (Service σ ρ) := do
  let produced ← sink.produceTaken s answers trade
  let polled ← sink.pollAfter produced.1 answers trade.isSome
  let flushed ← sink.flushAtEnd polled.1 answers leaves
  return { sink := flushed.1, failures := produced.2 ++ polled.2 ++ flushed.2.1, flushed := flushed.2.2 }

structure Delivery (σ ρ : Type) where
  runner : IngestRunner
  sink : σ
  /-- Every delivery that was reported as failed. -/
  failures : List ρ
  /-- What `flush` has returned. -/
  flushed : Option Nat

def Delivery.start (maxsize : Nat) (policy : DropPolicy) (s : σ) : Delivery σ ρ :=
  { runner := .start maxsize policy, sink := s, failures := [], flushed := none }

/-- The iteration of drain that the event is, with the trade it takes. -/
def IngestRunner.iteration (s : IngestRunner) : Event Frame → Option (Option Trade)
  | .drainTakes =>
    match s.drain, s.queue.get with
    | .running, some (trade, _) => some (some trade)
    | _, _                      => none
  | .drainIdles =>
    match s.drain with
    | .running => some none
    | _        => none
  | _ => none

def Delivery.service (d : Delivery σ ρ) (e : Event Frame) (answers : Answers ω) : Option (Service σ ρ) :=
  (d.runner.iteration e).bind (fun trade =>
    sink.service d.sink answers trade (decide ((d.runner.step connector e).drain = .left)))

/-- The sink alone decides whether drain raises. -/
def Event.ofSink : Event Frame → Bool
  | .drainRaises _ => true
  | _              => false

def Delivery.step (d : Delivery σ ρ) (e : Event Frame × Answers ω) : Delivery σ ρ :=
  if e.1.ofSink then d
  else match d.runner.iteration e.1 with
    | none       => { d with runner := d.runner.step connector e.1 }
    | some trade =>
      match d.service connector sink e.1 e.2 with
      | some service =>
        { runner := d.runner.step connector e.1, sink := service.sink, failures := d.failures ++ service.failures
          flushed := service.flushed }
      | none => { d with runner := d.runner.step connector (.drainRaises trade.isSome) }

/-- **Every trade that drain took is delivered.** -/
def Delivery.Delivered (d : Delivery σ ρ) : Prop := (sink.delivered d.sink).Perm (d.runner.produced.map sink.recordOf)

/-- **No call of the iteration reports a failed delivery, and `flush` leaves nothing pending.** -/
def LosesNothing (d : Delivery σ ρ) (e : Event Frame × Answers ω) : Prop :=
  ∀ service, d.service connector sink e.1 e.2 = some service →
    service.failures = [] ∧ ∀ n, service.flushed = some n → n = 0

/-! ## The calls of one iteration -/

variable {sink}

theorem produceTaken_keeps {s s' : σ} {answers : Answers ω} {trade : Option Trade} {failed : List ρ}
    (h : sink.produceTaken s answers trade = some (s', failed)) :
    (sink.pending s' ++ sink.delivered s' ++ failed).Perm
      (sink.pending s ++ sink.delivered s ++ trade.toList.map sink.recordOf) := by
  cases trade with
  | none =>
    cases h
    exact List.Perm.refl _
  | some t => exact sink.produce_keeps h

theorem pollAfter_keeps {s s' : σ} {answers : Answers ω} {took : Bool} {failed : List ρ}
    (h : sink.pollAfter s answers took = some (s', failed)) :
    (sink.pending s' ++ sink.delivered s' ++ failed).Perm (sink.pending s ++ sink.delivered s) := by
  unfold Sink.pollAfter at h
  split at h
  · exact sink.poll_keeps h
  · cases h
    rw [List.append_nil]

theorem flushAtEnd_keeps {s s' : σ} {answers : Answers ω} {leaves : Bool} {failed : List ρ} {flushed : Option Nat}
    (h : sink.flushAtEnd s answers leaves = some (s', failed, flushed)) :
    (sink.pending s' ++ sink.delivered s' ++ failed).Perm (sink.pending s ++ sink.delivered s) ∧
      flushed = if leaves = true then some (sink.pending s').length else none := by
  unfold Sink.flushAtEnd at h
  split at h
  · rename_i hleaves
    obtain ⟨⟨s₁, late, n⟩, hflush, he⟩ := Option.map_eq_some_iff.1 h
    cases he
    obtain ⟨hkeeps, hn⟩ := sink.flush_keeps hflush
    rw [if_pos hleaves]
    exact ⟨hkeeps, congrArg some hn⟩
  · rename_i hstays
    cases h
    rw [if_neg hstays, List.append_nil]
    exact ⟨List.Perm.refl _, rfl⟩

/-- **Each record is pending, delivered or reported as failed**, and what `flush` returns is what is pending. -/
theorem service_keeps {s : σ} {answers : Answers ω} {trade : Option Trade} {leaves : Bool} {service : Service σ ρ}
    (h : sink.service s answers trade leaves = some service) :
    (sink.pending service.sink ++ sink.delivered service.sink ++ service.failures).Perm
      (sink.pending s ++ sink.delivered s ++ trade.toList.map sink.recordOf) ∧
    service.flushed = if leaves = true then some (sink.pending service.sink).length else none := by
  obtain ⟨⟨s₁, unproduced⟩, hproduce, h⟩ := Option.bind_eq_some_iff.1 h
  obtain ⟨⟨s₂, failed⟩, hpoll, h⟩ := Option.bind_eq_some_iff.1 h
  obtain ⟨⟨s₃, late, flushed⟩, hflush, h⟩ := Option.bind_eq_some_iff.1 h
  cases h
  have hproduced := produceTaken_keeps hproduce
  have hpolled := pollAfter_keeps hpoll
  obtain ⟨hended, hflushed⟩ := flushAtEnd_keeps hflush
  refine ⟨?_, hflushed⟩
  have hswap : (sink.pending s₃ ++ sink.delivered s₃ ++ (unproduced ++ failed ++ late)).Perm
      (sink.pending s₃ ++ sink.delivered s₃ ++ late ++ failed ++ unproduced) := by
    rw [List.append_assoc _ late, List.append_assoc _ (late ++ failed)]
    apply List.Perm.append_left
    refine (@List.perm_append_comm _ (unproduced ++ failed) _).trans ?_
    rw [List.append_assoc]
    exact List.perm_append_comm.append_left _
  exact hswap.trans (((hended.append_right _).append_right _).trans ((hpolled.append_right _).trans hproduced))

/-! ## One event -/

/-- **An event that is no iteration of drain produces nothing**, and the run returns only after drain has left. -/
theorem step_aside (s : IngestRunner) {e : Event Frame} (hnone : s.iteration e = none)
    (hraise : e.ofSink = false) : (s.step connector e).produced = s.produced ∧
      (s.step connector e).drain = s.drain ∧
      ((s.step connector e).run = .returned → s.run = .returned ∨ s.drain = .left) := by
  cases hsocket : e.ofSocket with
  | true =>
    obtain ⟨hproduced, hdrain, hrun⟩ := step_socket_aside connector s hsocket
    exact ⟨hproduced, hdrain, fun h => Or.inl (hrun.symm.trans h)⟩
  | false =>
    cases e with
    | dialed | dialFails | frame | putResumes | socketFails | socketCloses | lifetimeExpires | stopSeen | slept =>
      cases hsocket
    | setStop => exact ⟨rfl, rfl, Or.inl⟩
    | repairAnswers task trades =>
      simp only [IngestRunner.step]
      split <;> exact ⟨rfl, rfl, Or.inl⟩
    | repairFails task =>
      simp only [IngestRunner.step]
      split <;> exact ⟨rfl, rfl, Or.inl⟩
    | repairPuts task =>
      simp only [IngestRunner.step]
      split
      · split
        · rename_i s' hput
          obtain ⟨hproduced, hdrain, hrun⟩ := putTrade_aside hput
          exact ⟨hproduced, hdrain, fun h => Or.inl (hrun.symm.trans h)⟩
        · exact ⟨rfl, rfl, Or.inl⟩
      · exact ⟨rfl, rfl, Or.inl⟩
    | drainTakes =>
      simp only [IngestRunner.step, IngestRunner.iteration] at hnone ⊢
      split
      · rename_i trade queue hd hget
        rw [hd, hget] at hnone
        cases hnone
      · exact ⟨rfl, rfl, Or.inl⟩
    | drainIdles =>
      simp only [IngestRunner.step, IngestRunner.iteration] at hnone ⊢
      split
      · rename_i hd
        rw [hd] at hnone
        cases hnone
      · exact ⟨rfl, rfl, Or.inl⟩
    | drainRaises took => cases hraise
    | socketReturns =>
      simp only [IngestRunner.step]
      split
      · exact ⟨rfl, rfl, fun h => (by cases h)⟩
      · exact ⟨rfl, rfl, Or.inl⟩
    | runReturns =>
      simp only [IngestRunner.step]
      split
      · rename_i hd
        split
        · exact ⟨rfl, rfl, fun _ => Or.inr hd⟩
        · exact ⟨rfl, rfl, Or.inl⟩
      · split
        · exact ⟨rfl, rfl, fun h => (by cases h)⟩
        · exact ⟨rfl, rfl, Or.inl⟩
      · exact ⟨rfl, rfl, Or.inl⟩

theorem drainTest_aside (s : IngestRunner) (hd : s.drain = .running) : s.drainTest.produced = s.produced ∧
    (s.drainTest.drain = .running ∨ s.drainTest.drain = .left) ∧ s.drainTest.run = s.run := by
  unfold IngestRunner.drainTest
  split
  · exact ⟨rfl, Or.inr rfl, rfl⟩
  · exact ⟨rfl, Or.inl hd, rfl⟩

/-- **An iteration of drain produces the trade it takes**; where it raises instead, drain is dead. -/
theorem step_iteration {s : IngestRunner} {e : Event Frame} {trade : Option Trade} (h : s.iteration e = some trade) :
    s.drain = .running ∧ (s.step connector e).produced = s.produced ++ trade.toList ∧
      ((s.step connector e).drain = .running ∨ (s.step connector e).drain = .left) ∧
      (s.step connector e).run = s.run ∧
      (s.step connector (.drainRaises trade.isSome)).drain = .failed ∧
      (s.step connector (.drainRaises trade.isSome)).run = s.run := by
  have hraises : s.drain = .running → (s.step connector (.drainRaises trade.isSome)).drain = .failed ∧
      (s.step connector (.drainRaises trade.isSome)).run = s.run := by
    intro hd
    simp only [IngestRunner.step, hd]
    cases s.queue.get <;> exact ⟨rfl, rfl⟩
  cases e with
  | drainTakes =>
    simp only [IngestRunner.iteration] at h
    split at h
    · rename_i t queue hd hget
      cases h
      obtain ⟨hfailed, hsame⟩ := hraises hd
      obtain ⟨hproduced, hleft, hrun⟩ := drainTest_aside { s with queue, produced := s.produced ++ [t] } hd
      have hstep : s.step connector .drainTakes = { s with queue, produced := s.produced ++ [t] }.drainTest := by
        simp only [IngestRunner.step]
        rw [hget, hd]
      rw [hstep]
      exact ⟨hd, hproduced, hleft, hrun, hfailed, hsame⟩
    · cases h
  | drainIdles =>
    simp only [IngestRunner.iteration] at h
    split at h
    · rename_i hd
      cases h
      obtain ⟨hfailed, hsame⟩ := hraises hd
      obtain ⟨hproduced, hleft, hrun⟩ := drainTest_aside s hd
      have hstep : s.step connector .drainIdles = s.drainTest := by simp only [IngestRunner.step, hd]
      rw [hstep]
      exact ⟨hd, hproduced.trans (List.append_nil _).symm, hleft, hrun, hfailed, hsame⟩
    · cases h
  | _ => cases h

/-- What an event can do to the runner and its sink. -/
inductive DeliveryCase (sink : Sink σ ω ρ) (d : Delivery σ ρ) (d' : Delivery σ ρ) (service : Option (Service σ ρ)) : Prop
  | aside (hnone : service = none) (hsink : d'.sink = d.sink) (hfailures : d'.failures = d.failures)
      (hflushed : d'.flushed = d.flushed) (hproduced : d'.runner.produced = d.runner.produced)
      (hdrain : d'.runner.drain = d.runner.drain)
      (hrun : d'.runner.run = .returned → d.runner.run = .returned ∨ d.runner.drain = .left)
  | raises (hnone : service = none) (hfailures : d'.failures = d.failures) (hflushed : d'.flushed = d.flushed)
      (hd : d.runner.drain = .running) (hdrain : d'.runner.drain = .failed) (hrun : d'.runner.run = d.runner.run)
  | serves (served : Service σ ρ) (hsome : service = some served) (trade : Option Trade)
      (hd : d.runner.drain = .running) (hdrain : d'.runner.drain = .running ∨ d'.runner.drain = .left)
      (hsink : d'.sink = served.sink) (hfailures : d'.failures = d.failures ++ served.failures)
      (hflushed : d'.flushed = served.flushed) (hproduced : d'.runner.produced = d.runner.produced ++ trade.toList)
      (hrun : d'.runner.run = d.runner.run)
      (hkeeps : (sink.pending served.sink ++ sink.delivered served.sink ++ served.failures).Perm
        (sink.pending d.sink ++ sink.delivered d.sink ++ trade.toList.map sink.recordOf))
      (hpending : served.flushed =
        if d'.runner.drain = .left then some (sink.pending served.sink).length else none)

variable (sink) in
/-- **Every event is one of the cases.** -/
theorem step_delivery (d : Delivery σ ρ) (e : Event Frame × Answers ω) :
    DeliveryCase sink d (d.step connector sink e) (d.service connector sink e.1 e.2) := by
  obtain ⟨e, answers⟩ := e
  cases hiteration : d.runner.iteration e with
  | none =>
    have hservice : d.service connector sink e answers = none := by
      unfold Delivery.service
      rw [hiteration]
      rfl
    cases hraise : e.ofSink with
    | true =>
      have hstep : d.step connector sink (e, answers) = d := by
        unfold Delivery.step
        rw [if_pos hraise]
      rw [hstep]
      exact .aside hservice rfl rfl rfl rfl rfl Or.inl
    | false =>
      have hstep : d.step connector sink (e, answers) = { d with runner := d.runner.step connector e } := by
        unfold Delivery.step
        rw [hraise, hiteration]
        rfl
      obtain ⟨hproduced, hdrain, hrun⟩ := step_aside connector d.runner hiteration hraise
      rw [hstep]
      exact .aside hservice rfl rfl rfl hproduced hdrain hrun
  | some trade =>
    obtain ⟨hd, hproduced, hdrain, hrun, hfailed, hsame⟩ := step_iteration connector hiteration
    have hservice : d.service connector sink e answers =
        sink.service d.sink answers trade (decide ((d.runner.step connector e).drain = .left)) := by
      unfold Delivery.service
      rw [hiteration]
      rfl
    have hraise : e.ofSink = false := by
      cases e with
      | drainRaises took => cases hiteration
      | _ => rfl
    have hstep : d.step connector sink (e, answers) = match d.service connector sink e answers with
        | some service =>
          { runner := d.runner.step connector e, sink := service.sink, failures := d.failures ++ service.failures
            flushed := service.flushed }
        | none => { d with runner := d.runner.step connector (.drainRaises trade.isSome) } := by
      unfold Delivery.step
      rw [hraise, hiteration]
      rfl
    rw [hstep]
    cases hcalls : d.service connector sink e answers with
    | none => exact .raises rfl rfl rfl hd hfailed hsame
    | some served =>
      rw [hservice] at hcalls
      obtain ⟨hkeeps, hflushed⟩ := service_keeps hcalls
      simp only [decide_eq_true_eq] at hflushed
      exact .serves served rfl trade hd hdrain rfl rfl rfl hproduced hrun hkeeps hflushed

/-- **A step of the runner with its sink is a step of the runner**, or none. -/
theorem step_runner (d : Delivery σ ρ) (e : Event Frame × Answers ω) :
    (d.step connector sink e).runner = d.runner ∨
      ∃ e', (d.step connector sink e).runner = d.runner.step connector e' := by
  unfold Delivery.step
  split
  · exact Or.inl rfl
  · split
    · exact Or.inr ⟨e.1, rfl⟩
    · rename_i trade _
      split
      · exact Or.inr ⟨e.1, rfl⟩
      · exact Or.inr ⟨.drainRaises trade.isSome, rfl⟩

/-! ## Runs -/

variable {connector}

/-- While drain lives each record it took is pending, delivered or reported; it flushes as it leaves, and only then can
the run return. -/
structure Delivery.Tallied (d : Delivery σ ρ) (sink : Sink σ ω ρ) : Prop where
  tally : d.runner.drain ≠ .failed →
    (sink.pending d.sink ++ sink.delivered d.sink ++ d.failures).Perm (d.runner.produced.map sink.recordOf)
  unflushed : d.runner.drain = .running → d.flushed = none
  flushed : d.runner.drain = .left → d.flushed = some (sink.pending d.sink).length
  returned : d.runner.run = .returned → d.runner.drain = .left

theorem step_tallied {d : Delivery σ ρ} (h : d.Tallied sink) (e : Event Frame × Answers ω) :
    (d.step connector sink e).Tallied sink := by
  cases step_delivery connector sink d e with
  | aside hnone hsink hfailures hflushed hproduced hdrain hrun =>
    refine ⟨?_, ?_, ?_, ?_⟩
    · rw [hdrain, hsink, hfailures, hproduced]
      exact h.tally
    · rw [hdrain, hflushed]
      exact h.unflushed
    · rw [hdrain, hflushed, hsink]
      exact h.flushed
    · intro hreturned
      rw [hdrain]
      rcases hrun hreturned with hreturned | hleft
      · exact h.returned hreturned
      · exact hleft
  | raises hnone hfailures hflushed hd hdrain hrun =>
    have hnot : d.runner.run ≠ .returned := by
      intro hreturned
      rw [h.returned hreturned] at hd
      cases hd
    rw [← hrun] at hnot
    refine ⟨fun hne => absurd hdrain hne, fun hr => ?_, fun hl => ?_, fun hreturned => absurd hreturned hnot⟩
    · rw [hdrain] at hr
      cases hr
    · rw [hdrain] at hl
      cases hl
  | serves served hsome trade hd hdrain hsink hfailures hflushed hproduced hrun hkeeps hpending =>
    have hnot : d.runner.run ≠ .returned := by
      intro hreturned
      rw [h.returned hreturned] at hd
      cases hd
    rw [← hrun] at hnot
    have htally := h.tally (by rw [hd]; decide)
    refine ⟨fun _ => ?_, fun hr => ?_, fun hl => ?_, fun hreturned => absurd hreturned hnot⟩
    · rw [hsink, hfailures, hproduced, List.map_append]
      have hswap : (sink.pending served.sink ++ sink.delivered served.sink ++ (d.failures ++ served.failures)).Perm
          (sink.pending served.sink ++ sink.delivered served.sink ++ served.failures ++ d.failures) := by
        rw [List.append_assoc _ served.failures]
        exact List.perm_append_comm.append_left _
      have hlast : (sink.pending d.sink ++ sink.delivered d.sink ++ trade.toList.map sink.recordOf ++ d.failures).Perm
          (sink.pending d.sink ++ sink.delivered d.sink ++ d.failures ++ trade.toList.map sink.recordOf) := by
        rw [List.append_assoc _ (trade.toList.map sink.recordOf), List.append_assoc _ d.failures]
        exact List.perm_append_comm.append_left _
      exact hswap.trans ((hkeeps.append_right _).trans (hlast.trans (htally.append_right _)))
    · rw [hflushed, hpending, if_neg]
      rw [hr]
      decide
    · rw [hflushed, hpending, if_pos hl, hsink]

/-- Nothing is reported as failed or left pending so far. -/
def Delivery.Clean (d : Delivery σ ρ) : Prop := d.failures = [] ∧ ∀ n, d.flushed = some n → n = 0

theorem step_clean_iff {d : Delivery σ ρ} (h : d.Tallied sink) (e : Event Frame × Answers ω) :
    (d.step connector sink e).Clean ↔ d.Clean ∧ LosesNothing connector sink d e := by
  unfold Delivery.Clean LosesNothing
  cases step_delivery connector sink d e with
  | aside hnone hsink hfailures hflushed hproduced hdrain hrun =>
    rw [hfailures, hflushed, hnone]
    exact ⟨fun h => ⟨h, fun served hs => (by cases hs)⟩, fun h => h.1⟩
  | raises hnone hfailures hflushed hd hdrain hrun =>
    rw [hfailures, hflushed, hnone]
    exact ⟨fun h => ⟨h, fun served hs => (by cases hs)⟩, fun h => h.1⟩
  | serves served hsome trade hd hdrain hsink hfailures hflushed hproduced hrun hkeeps hpending =>
    rw [hfailures, hflushed, hsome, h.unflushed hd, List.append_eq_nil_iff]
    constructor
    · rintro ⟨⟨hbefore, hnow⟩, hleft⟩
      refine ⟨⟨hbefore, fun n hn => (by cases hn)⟩, fun served' hs => ?_⟩
      cases hs
      exact ⟨hnow, hleft⟩
    · rintro ⟨⟨hbefore, -⟩, hloses⟩
      obtain ⟨hnow, hleft⟩ := hloses served rfl
      exact ⟨⟨hbefore, hnow⟩, hleft⟩

theorem delivered_iff_clean {d : Delivery σ ρ} (h : d.Tallied sink) (hleft : d.runner.drain = .left) :
    d.Delivered sink ↔ d.Clean := by
  have htally := h.tally (by rw [hleft]; decide)
  unfold Delivery.Delivered Delivery.Clean
  rw [h.flushed hleft]
  constructor
  · intro hdelivered
    have hcount := htally.length_eq
    have hall := hdelivered.length_eq
    simp only [List.length_append] at hcount
    refine ⟨List.eq_nil_of_length_eq_zero (by omega), fun n hn => ?_⟩
    cases hn
    omega
  · rintro ⟨hfailures, hflushed⟩
    have hpending := List.eq_nil_of_length_eq_zero (hflushed _ rfl)
    rw [hfailures, hpending, List.append_nil, List.nil_append] at htally
    exact htally

variable (connector sink)

/-- **A run that returns has delivered every trade it took exactly when** no call to the sink reports a failed delivery
and the flush leaves nothing pending. -/
theorem cleanExit_iff (s : σ) (hnew : sink.pending s = [] ∧ sink.delivered s = []) (maxsize : Nat) (policy : DropPolicy)
    (events : List (Event Frame × Answers ω))
    (hreturned : (events.foldl (Delivery.step connector sink) (.start maxsize policy s)).runner.run = .returned) :
    (events.foldl (Delivery.step connector sink) (.start maxsize policy s)).Delivered sink ↔
      AllSteps (Delivery.step connector sink) (LosesNothing connector sink) (.start maxsize policy s) events := by
  have hstart : (Delivery.start maxsize policy s : Delivery σ ρ).Tallied sink := by
    refine ⟨fun _ => ?_, fun _ => rfl, fun h => (by cases h), fun h => (by cases h)⟩
    show (sink.pending s ++ sink.delivered s ++ []).Perm []
    rw [hnew.1, hnew.2]
    exact List.Perm.refl _
  have hend : (events.foldl (Delivery.step connector sink) (.start maxsize policy s)).Tallied sink :=
    run_invariant (I := fun d : Delivery σ ρ => d.Tallied sink) (fun _ e h => step_tallied h e) events hstart
  have hclean : (Delivery.start maxsize policy s : Delivery σ ρ).Clean := ⟨rfl, fun n hn => (by cases hn)⟩
  rw [delivered_iff_clean hend (hend.returned hreturned),
    foldl_iff_allSteps (I := fun d : Delivery σ ρ => d.Tallied sink) (fun _ e h => step_clean_iff h e)
      (fun _ e h => step_tallied h e) events hstart]
  exact ⟨fun h => h.2, fun h => ⟨hclean, h⟩⟩

/-! ## The two sinks -/

/-- KinesisSink reports nothing to a callback, and its flush delivers everything or raises. -/
theorem kinesis_losesNothing (config : Awsnative.SinkConfig) (client : Awsnative.Client)
    (d : Delivery Awsnative.SinkRun Awsnative.KinesisRecord) (e : Event Frame × Answers Unit) :
    LosesNothing connector (Awsnative.kinesisSink config client) d e := by
  intro service hservice
  unfold Delivery.service at hservice
  obtain ⟨trade, -, hcalls⟩ := Option.bind_eq_some_iff.1 hservice
  obtain ⟨⟨s₁, unproduced⟩, hproduce, h⟩ := Option.bind_eq_some_iff.1 hcalls
  obtain ⟨⟨s₂, failed⟩, hpoll, h⟩ := Option.bind_eq_some_iff.1 h
  obtain ⟨⟨s₃, late, flushed⟩, hflush, h⟩ := Option.bind_eq_some_iff.1 h
  cases h
  have hproduced : unproduced = [] := by
    cases trade <;> cases hproduce <;> rfl
  have hpolled : failed = [] := by
    unfold Sink.pollAfter at hpoll
    split at hpoll
    · exact Awsnative.kinesisSink_poll config client hpoll
    · cases hpoll
      rfl
  unfold Sink.flushAtEnd at hflush
  split at hflush
  · obtain ⟨⟨s', failed', n⟩, hcall, he⟩ := Option.map_eq_some_iff.1 hflush
    cases he
    obtain ⟨hlate, hn⟩ := Awsnative.kinesisSink_flush config client hcall
    simp only [hproduced, hpolled, hlate, hn]
    exact ⟨rfl, fun n h => (Option.some.inj h).symm⟩
  · cases hflush
    simp only [hproduced, hpolled]
    exact ⟨rfl, fun n h => (by cases h)⟩

def noAnswer : KafkaAnswer := { queueFull := false, reports := fun _ => .pending }

def accepts : KafkaAnswer := { queueFull := false, reports := fun _ => .delivered }

def rejects : KafkaAnswer := { queueFull := false, reports := fun _ => .failed }

/-- One trade, and a stop. -/
def oneTrade (answer : KafkaAnswer) : List (Event BinanceFrame × Answers KafkaAnswer) :=
  ([.slept, .dialed, .frame 0 (aggTrade 1), .drainTakes, .setStop, .drainIdles, .stopSeen, .socketReturns, .runReturns] :
    List (Event BinanceFrame)).map (fun e => (e, ⟨noAnswer, answer, noAnswer, true⟩))

theorem cleanExit_iff_accepted :
    ((oneTrade accepts).foldl (Delivery.step (binance bitcoin) tradeProducer) (.start 1 .block ⟨[], []⟩)).Delivered
        tradeProducer ↔
      AllSteps (Delivery.step (binance bitcoin) tradeProducer) (LosesNothing (binance bitcoin) tradeProducer)
        (.start 1 .block ⟨[], []⟩) (oneTrade accepts) :=
  cleanExit_iff (binance bitcoin) tradeProducer ⟨[], []⟩ ⟨rfl, rfl⟩ 1 .block (oneTrade accepts) rfl

/-- The broker rejects the trade, the callback logs it, and the run returns. -/
theorem rejected_trade_is_only_logged :
    ¬ ∀ (σ ω ρ : Type) (sink : Sink σ ω ρ) (s : σ), sink.pending s = [] ∧ sink.delivered s = [] →
      ∀ (maxsize : Nat) (events : List (Event BinanceFrame × Answers ω)),
      (events.foldl (Delivery.step (binance bitcoin) sink) (.start maxsize .block s)).runner.run = .returned →
      (events.foldl (Delivery.step (binance bitcoin) sink) (.start maxsize .block s)).Delivered sink := by
  intro h
  have hdelivered := h TradeProducer KafkaAnswer Trade tradeProducer ⟨[], []⟩ ⟨rfl, rfl⟩ 1 (oneTrade rejects) rfl
  have hlength := hdelivered.length_eq
  exact absurd hlength (by decide)

end Ingest
