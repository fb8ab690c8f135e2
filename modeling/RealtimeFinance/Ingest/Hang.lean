import Mathlib.Algebra.GroupWithZero.Nat
import RealtimeFinance.Ingest.Jumps
import RealtimeFinance.Ingest.Shutdown
/-!
# Hang — whether `run` can be waited for

`run` awaits the repair tasks before drain, and a repair task waits in `queue.put` for room that only drain makes.  Drain
leaves at an empty queue, or dies of the sink, while repair tasks still hold trades: from then on the run ends exactly
as long as what they hold fits on the queue (`shutsDown_iff`).
-/
namespace Ingest

open Runs

variable {Frame : Type} (connector : Connector Frame)

/-- How many trades a repair task has still to put. -/
def RepairPhase.held : RepairPhase → Nat
  | .putting _ rest => rest.length + 1
  | _               => 0

def IngestRunner.held (s : IngestRunner) : Nat := (s.repairs.map (fun t => t.phase.held)).sum

/-- The queue has room for what the repair tasks hold beside `queued` trades. -/
def IngestRunner.Fits (s : IngestRunner) (queued : Nat) : Prop :=
  s.queue.maxsize = 0 ∨ queued + s.held ≤ s.queue.maxsize

def IngestRunner.Ended (s : IngestRunner) : Prop := s.run = .returned ∨ s.run = .raised

/-- A task of the run can take the step; frames, failures of the socket and the sink, and the stop come from outside. -/
def IngestRunner.Enabled (s : IngestRunner) : Event Frame → Prop
  | .dialed | .dialFails                      => s.socket = .dialing
  | .putResumes                               => s.waiting ≠ none ∧ s.queue.full = false
  | .stopSeen                                 => (∃ pump, s.socket = .session pump) ∧ s.stop = true
  | .slept                                    => s.socket = .sleeping
  | .repairAnswers task _ | .repairFails task => (s.repairs[task]?).map RepairTask.phase = some .fetching
  | .repairPuts task                          =>
    s.queue.full = false ∧ ∃ trade rest, (s.repairs[task]?).map RepairTask.phase = some (.putting trade rest)
  | .drainTakes                               => s.drain = .running ∧ s.queue.items ≠ []
  | .drainIdles                               => s.drain = .running ∧ s.queue.items = []
  | .socketReturns                            => s.socket = .finished ∧ s.run = .running
  | .runReturns                               =>
    s.run = .finishing ∧ s.drain ≠ .running ∧ s.repairs.all (fun t => t.phase.isDone) = true
  | _                                         => False

/-- **The run does not hang**: after the stop and until it has ended some task can step, and once no drain is left to empty
the queue it can still end. -/
def ShutsDown (s : IngestRunner) : Prop :=
  (s.stop = true → ¬ s.Ended → ∃ e : Event Frame, s.Enabled e) ∧
    (s.drain ≠ .running → ∃ events : List (Event Frame), (events.foldl (IngestRunner.step connector) s).Ended)

/-! ## The condition -/

/-- How many trades the event gives the pump to put. -/
def IngestRunner.pumped (s : IngestRunner) : Event Frame → Nat
  | .putResumes => s.waiting.toList.length + s.left.length
  | e           => (s.receives connector e).length

/-- How many trades the event gives a repair task to put. -/
def IngestRunner.answered (s : IngestRunner) : Event Frame → Nat
  | .repairAnswers task trades =>
    match (s.repairs[task]?).map RepairTask.phase with
    | some .fetching => trades.length
    | _              => 0
  | _ => 0

/-- Drain takes its last trade, finds none, or dies: how many it has taken by then. -/
def IngestRunner.endsDrain (s : IngestRunner) : Event Frame → Option Nat
  | .drainTakes       => if s.stop && decide (s.queue.qsize = 1) then some 1 else none
  | .drainIdles       => if s.stop && decide (s.queue.qsize = 0) then some 0 else none
  | .drainRaises took => some took.toNat
  | _                 => none

/-- **What the repair tasks hold fits on the queue when drain ends**, and with every trade that comes after that. -/
def KeepsRoom (s : IngestRunner) (e : Event Frame) : Prop :=
  (s.drain = .running → ∀ taken, s.endsDrain e = some taken → s.Fits (s.queue.qsize - taken)) ∧
    (s.drain ≠ .running → s.held + s.answered e = 0 ∨ s.Fits (s.queue.qsize + s.pumped connector e + s.answered e))

/-! ## Sizes -/

structure Sized (s s' : IngestRunner) (queued held : Nat) : Prop where
  maxsize : s'.queue.maxsize = s.queue.maxsize
  policy : s'.queue.policy = s.queue.policy
  queued : s'.queue.qsize = queued
  held : s'.held = held

theorem Sized.same {s s' : IngestRunner} (hq : s'.queue = s.queue) (hr : s'.repairs = s.repairs) :
    Sized s s' s.queue.qsize s.held := by
  refine ⟨by rw [hq], by rw [hq], by rw [hq], ?_⟩
  unfold IngestRunner.held
  rw [hr]

def IngestRunner.Bounded (s : IngestRunner) : Prop :=
  s.queue.policy = .block ∧ (s.queue.maxsize = 0 ∨ s.queue.qsize ≤ s.queue.maxsize)

theorem full_iff (q : BoundedTopicQueue Trade) : q.full = true ↔ q.maxsize ≠ 0 ∧ q.maxsize ≤ q.qsize := by
  unfold BoundedTopicQueue.full
  exact decide_eq_true_iff

theorem putTrade_sized {s s' : IngestRunner} {t : Trade} (hp : s.queue.policy = .block) (h : s.putTrade t = some s') :
    Sized s s' (s.queue.qsize + 1) s.held ∧ (s.queue.maxsize = 0 ∨ s.queue.qsize < s.queue.maxsize) := by
  have hroom := room_of_putTrade hp h
  have hfull : ¬ (s.queue.maxsize ≠ 0 ∧ s.queue.maxsize ≤ s.queue.qsize) := by
    rw [← full_iff, hroom]
    exact Bool.false_ne_true
  unfold IngestRunner.putTrade BoundedTopicQueue.put at h
  rw [hroom] at h
  simp only [Bool.not_false, if_true, Option.map_some, Option.some.injEq] at h
  subst h
  refine ⟨⟨rfl, rfl, ?_, rfl⟩, by omega⟩
  simp [BoundedTopicQueue.qsize]

/-- As many as there is room for. -/
def fill (maxsize queued : Nat) : Nat := if maxsize = 0 then queued else min maxsize queued

theorem observe_held (s : IngestRunner) (t : Trade) : (s.observe connector t).held = s.held := by
  unfold IngestRunner.held
  rw [observe_repairs, List.map_append, List.sum_append, List.map_map]
  have hnone : ∀ gaps : List Gap, (gaps.map ((fun t : RepairTask => t.phase.held) ∘ fun gap => ⟨gap, .fetching⟩)).sum = 0 := by
    intro gaps
    induction gaps with
    | nil => rfl
    | cons g gaps ih =>
      rw [List.map_cons, List.sum_cons, ih]
      rfl
  rw [hnone, Nat.add_zero]

theorem handleMessage_sized (trades : List Trade) : ∀ {s : IngestRunner}, s.Bounded →
    Sized s (s.handleMessage connector trades) (fill s.queue.maxsize (s.queue.qsize + trades.length)) s.held := by
  induction trades with
  | nil =>
    intro s hb
    refine ⟨rfl, rfl, ?_, rfl⟩
    unfold fill
    show s.queue.qsize = _
    split
    · rfl
    · rw [List.length_nil]
      have := hb.2
      omega
  | cons t rest ih =>
    intro s hb
    unfold IngestRunner.handleMessage
    cases hput : (s.observe connector t).putTrade t with
    | none =>
      have hfull := (full_iff _).1 ((putTrade_eq_none (s := s.observe connector t) hb.1 t).1 hput)
      have hm : s.queue.maxsize ≠ 0 ∧ s.queue.maxsize ≤ s.queue.qsize := hfull
      refine ⟨rfl, rfl, ?_, observe_held connector s t⟩
      unfold fill
      rw [if_neg hm.1, List.length_cons]
      show s.queue.qsize = _
      have := hb.2
      omega
    | some s' =>
      obtain ⟨hone, hroom⟩ := putTrade_sized (s := s.observe connector t) hb.1 hput
      have hqueue : (s.observe connector t).queue = s.queue := rfl
      rw [hqueue] at hone hroom
      have hb' : s'.Bounded := by
        refine ⟨hone.policy.trans hb.1, ?_⟩
        rw [hone.maxsize, hone.queued, hqueue]
        omega
      have hrest := ih hb'
      refine ⟨hrest.maxsize.trans hone.maxsize, hrest.policy.trans hone.policy, ?_, ?_⟩
      · rw [hrest.queued, hone.maxsize, hone.queued, hqueue, List.length_cons, Nat.add_assoc, Nat.add_comm 1]
      · rw [hrest.held, hone.held, observe_held]

theorem putTrade_repairs {s s' : IngestRunner} {t : Trade} (h : s.putTrade t = some s') : s'.repairs = s.repairs := by
  unfold IngestRunner.putTrade at h
  obtain ⟨queue, -, rfl⟩ := Option.map_eq_some_iff.1 h
  rfl

/-- The pump goes on with a trade in hand. -/
theorem resume_sized {s : IngestRunner} (hb : s.Bounded) (t : Trade) (rest : List Trade) :
    Sized s (match s.putTrade t with | some s' => s'.handleMessage connector rest | none => s)
        (fill s.queue.maxsize (s.queue.qsize + (rest.length + 1))) s.held ∧
      (match s.putTrade t with | some s' => s'.handleMessage connector rest | none => s).drain = s.drain := by
  cases hput : s.putTrade t with
  | none =>
    have hfull := (full_iff _).1 ((putTrade_eq_none hb.1 t).1 hput)
    refine ⟨⟨rfl, rfl, ?_, rfl⟩, rfl⟩
    unfold fill
    rw [if_neg hfull.1]
    show s.queue.qsize = _
    have := hb.2
    omega
  | some s' =>
    obtain ⟨hone, hroom⟩ := putTrade_sized hb.1 hput
    have hb' : s'.Bounded := by
      refine ⟨hone.policy.trans hb.1, ?_⟩
      rw [hone.maxsize, hone.queued]
      omega
    have hrest := handleMessage_sized connector rest hb'
    refine ⟨⟨hrest.maxsize.trans hone.maxsize, hrest.policy.trans hone.policy, ?_, hrest.held.trans hone.held⟩,
      (handleMessage_aside connector rest).drain.trans (putTrade_aside hput).drain⟩
    rw [hrest.queued, hone.maxsize, hone.queued, Nat.add_assoc, Nat.add_comm 1]

/-! ## One repair task -/

theorem sum_modify {f : RepairTask → Nat} {g : RepairTask → RepairTask} : ∀ {repairs : List RepairTask} {i : Nat}
    {t : RepairTask}, repairs[i]? = some t → ((repairs.modify i g).map f).sum + f t = (repairs.map f).sum + f (g t)
  | [], i, t, h => by cases h
  | t' :: repairs, 0, t, h => by
    obtain rfl : t' = t := by simpa using h
    simp only [List.modify_zero_cons, List.map_cons, List.sum_cons]
    omega
  | t' :: repairs, i + 1, t, h => by
    have ih := @sum_modify f g repairs i t (by simpa using h)
    simp only [List.modify_succ_cons, List.map_cons, List.sum_cons]
    omega

theorem setRepair_held {s : IngestRunner} {task : Nat} {phase : RepairPhase} (phase' : RepairPhase)
    (h : (s.repairs[task]?).map RepairTask.phase = some phase) :
    (s.setRepair task phase').held + phase.held = s.held + phase'.held := by
  obtain ⟨t, ht, rfl⟩ := Option.map_eq_some_iff.1 h
  exact sum_modify (f := fun t => t.phase.held) ht

theorem ofTrades_held (trades : List Trade) : (RepairPhase.ofTrades trades).held = trades.length := by
  cases trades <;> rfl

/-! ## One event -/

theorem left_of_waiting {s : IngestRunner} (h : s.waiting = none) : s.left = [] := by
  unfold IngestRunner.waiting at h
  unfold IngestRunner.left
  cases hsocket : s.socket with
  | session pump =>
    rw [hsocket] at h
    cases pump with
    | blocked t rest => cases h
    | idle => rfl
  | _ => rfl

theorem get_sized {q queue : BoundedTopicQueue Trade} {t : Trade} (h : q.get = some (t, queue)) :
    queue.maxsize = q.maxsize ∧ queue.policy = q.policy ∧ q.qsize = queue.qsize + 1 := by
  unfold BoundedTopicQueue.get at h
  split at h
  · cases h
  · rename_i item rest hitems
    cases h
    refine ⟨rfl, rfl, ?_⟩
    unfold BoundedTopicQueue.qsize
    rw [hitems, List.length_cons]

theorem get_eq_none {q : BoundedTopicQueue Trade} : q.get = none ↔ q.qsize = 0 := by
  unfold BoundedTopicQueue.get BoundedTopicQueue.qsize
  cases q.items <;> simp

theorem drainTest_sized (s : IngestRunner) : Sized s s.drainTest s.queue.qsize s.held ∧
    s.drainTest.drain = if (s.stop && decide (s.queue.qsize = 0)) = true then .left else s.drain := by
  have hempty : s.queue.items.isEmpty = decide (s.queue.qsize = 0) := by
    unfold BoundedTopicQueue.qsize
    cases s.queue.items <;> simp
  unfold IngestRunner.drainTest
  rw [hempty]
  split
  · exact ⟨Sized.same rfl rfl, rfl⟩
  · exact ⟨Sized.same rfl rfl, rfl⟩

/-- What an event can do, by size. -/
inductive RoomCase (s : IngestRunner) (e : Event Frame) (s' : IngestRunner) : Prop
  | same (h : Sized s s' s.queue.qsize s.held) (hdrain : s'.drain = s.drain) (hpumped : s.pumped connector e = 0)
      (hanswered : s.answered e = 0) (hends : s.drain = .running → s.endsDrain e = none)
  | pumps (h : Sized s s' (fill s.queue.maxsize (s.queue.qsize + s.pumped connector e)) s.held)
      (hdrain : s'.drain = s.drain) (hanswered : s.answered e = 0) (hends : s.endsDrain e = none)
  | answers (h : Sized s s' s.queue.qsize (s.held + s.answered e)) (hdrain : s'.drain = s.drain)
      (hpumped : s.pumped connector e = 0) (hends : s.endsDrain e = none)
  | puts (held : Nat) (h : Sized s s' (s.queue.qsize + 1) held) (hheld : s.held = held + 1)
      (hroom : s.queue.maxsize = 0 ∨ s.queue.qsize < s.queue.maxsize) (hdrain : s'.drain = s.drain)
      (hpumped : s.pumped connector e = 0) (hanswered : s.answered e = 0) (hends : s.endsDrain e = none)
  | takes (h : Sized s s' (s.queue.qsize - 1) s.held) (hd : s.drain = .running) (hdrain : s'.drain = .running)
      (hends : s.endsDrain e = none)
  | ends (taken : Nat) (h : Sized s s' (s.queue.qsize - taken) s.held) (hd : s.drain = .running)
      (hdrain : s'.drain ≠ .running) (hends : s.endsDrain e = some taken)

/-- An event that pumps nothing leaves the room as it is. -/
theorem roomCase_same {s s' : IngestRunner} {e : Event Frame} (he : e.ofSocket = true) (hpumped : s.pumped connector e = 0)
    (hq : s'.queue = s.queue) (hr : s'.repairs = s.repairs) (hd : s'.drain = s.drain) : RoomCase connector s e s' := by
  have hanswered : s.answered e = 0 := by cases e <;> first | rfl | cases he
  have hends : s.endsDrain e = none := by cases e <;> first | rfl | cases he
  exact .same (Sized.same hq hr) hd hpumped hanswered (fun _ => hends)

theorem roomCase_frame {s : IngestRunner} (hb : s.Bounded) (now : Int) (frame : Frame) :
    RoomCase connector s (.frame now frame) (s.step connector (.frame now frame)) := by
  by_cases hidle : s.socket = .session .idle
  · have hpumped : s.pumped connector (.frame now frame) = ((connector.parse now frame).getD []).length := by
      simp only [IngestRunner.pumped, IngestRunner.receives, hidle]
    simp only [IngestRunner.step, hidle]
    cases hparse : connector.parse now frame with
    | none =>
      rw [hparse] at hpumped
      exact roomCase_same connector rfl hpumped rfl rfl rfl
    | some trades =>
      rw [hparse] at hpumped
      refine .pumps ?_ (handleMessage_aside connector trades).drain rfl rfl
      rw [hpumped]
      exact handleMessage_sized connector trades hb
  · have hpumped : s.pumped connector (.frame now frame) = 0 := by
      simp only [IngestRunner.pumped, IngestRunner.receives]
      rfl
    have hstep : s.step connector (.frame now frame) = s := by
      simp only [IngestRunner.step]
    rw [hstep]
    exact roomCase_same connector rfl hpumped rfl rfl rfl

theorem roomCase_putResumes {s : IngestRunner} (hb : s.Bounded) :
    RoomCase connector s .putResumes (s.step connector .putResumes) := by
  by_cases hwait : s.waiting = none
  · have hstep : s.step connector .putResumes = s := by
      unfold IngestRunner.waiting at hwait
      simp only [IngestRunner.step]
      split
      · rename_i t rest hsocket
        rw [hsocket] at hwait
        cases hwait
      · rfl
    have hpumped : s.pumped connector .putResumes = 0 := by
      unfold IngestRunner.pumped
      rw [hwait, left_of_waiting hwait]
      rfl
    rw [hstep]
    exact roomCase_same connector rfl hpumped rfl rfl rfl
  · obtain ⟨t, rest, hsocket⟩ : ∃ t rest, s.socket = .session (.blocked t rest) := by
      unfold IngestRunner.waiting at hwait
      split at hwait
      · rename_i t rest hsocket
        exact ⟨t, rest, hsocket⟩
      · exact absurd rfl hwait
    have hpumped : s.pumped connector .putResumes = rest.length + 1 := by
      unfold IngestRunner.pumped IngestRunner.left IngestRunner.waiting
      rw [hsocket]
      exact Nat.add_comm 1 _
    obtain ⟨hsized, hdrain⟩ := resume_sized connector hb t rest
    simp only [IngestRunner.step, hsocket]
    rw [← hpumped] at hsized
    exact .pumps hsized hdrain rfl rfl

theorem roomCase_socket {s : IngestRunner} (hb : s.Bounded) {e : Event Frame} (he : e.ofSocket = true) :
    RoomCase connector s e (s.step connector e) := by
  cases e with
  | frame now frame => exact roomCase_frame connector hb now frame
  | putResumes => exact roomCase_putResumes connector hb
  | dialed =>
    simp only [IngestRunner.step, IngestRunner.handleReconnect]
    split
    · split
      · split <;> exact roomCase_same connector rfl rfl rfl rfl rfl
      · exact roomCase_same connector rfl rfl rfl rfl rfl
    · exact roomCase_same connector rfl rfl rfl rfl rfl
  | dialFails | socketFails | socketCloses | lifetimeExpires | slept =>
    simp only [IngestRunner.step]
    split <;> exact roomCase_same connector rfl rfl rfl rfl rfl
  | stopSeen =>
    simp only [IngestRunner.step]
    split
    · split <;> exact roomCase_same connector rfl rfl rfl rfl rfl
    · exact roomCase_same connector rfl rfl rfl rfl rfl
  | _ => cases he

/-- **A task that was fetching holds what it was answered.** -/
theorem roomCase_repairAnswers (s : IngestRunner) (task : Nat) (trades : List Trade) :
    RoomCase connector s (.repairAnswers task trades) (s.step connector (.repairAnswers task trades)) := by
  by_cases hfetching : (s.repairs[task]?).map RepairTask.phase = some .fetching
  · have hanswered : s.answered (.repairAnswers task trades : Event Frame) = trades.length := by
      simp only [IngestRunner.answered, hfetching]
    have hheld := setRepair_held (.ofTrades trades) hfetching
    rw [ofTrades_held] at hheld
    simp only [IngestRunner.step, hfetching]
    refine .answers ⟨rfl, rfl, rfl, ?_⟩ rfl rfl rfl
    rw [hanswered]
    exact hheld
  · have hanswered : s.answered (.repairAnswers task trades : Event Frame) = 0 := by
      simp only [IngestRunner.answered]
    have hstep : s.step connector (.repairAnswers task trades) = s := by
      simp only [IngestRunner.step]
    rw [hstep]
    exact .same (Sized.same rfl rfl) rfl rfl hanswered (fun _ => rfl)

/-- **What a task puts moves to the queue**, where there is room for it. -/
theorem roomCase_repairPuts {s : IngestRunner} (hb : s.Bounded) (task : Nat) :
    RoomCase connector s (.repairPuts task) (s.step connector (.repairPuts task)) := by
  simp only [IngestRunner.step]
  split
  · rename_i trade rest hputting
    cases hput : s.putTrade trade with
    | none => exact .same (Sized.same rfl rfl) rfl rfl rfl (fun _ => rfl)
    | some s' =>
      obtain ⟨hone, hroom⟩ := putTrade_sized hb.1 hput
      have hrepairs : s'.repairs = s.repairs := putTrade_repairs hput
      rw [← hrepairs] at hputting
      have hheld := setRepair_held (.ofTrades rest) hputting
      rw [ofTrades_held, hone.held] at hheld
      have hpositive : s.held = (s'.setRepair task (.ofTrades rest)).held + 1 := by
        simp only [RepairPhase.held] at hheld
        omega
      have hdrain : s'.drain = s.drain := (putTrade_aside hput).drain
      exact .puts _ ⟨hone.maxsize, hone.policy, hone.queued, rfl⟩ hpositive hroom hdrain rfl rfl rfl
  · exact .same (Sized.same rfl rfl) rfl rfl rfl (fun _ => rfl)

/-- The drain takes one trade, and leaves behind the last. -/
theorem roomCase_drainTakes (s : IngestRunner) :
    RoomCase connector s .drainTakes (s.step connector .drainTakes) := by
  simp only [IngestRunner.step]
  split
  · rename_i trade queue hd hget
    obtain ⟨hmaxsize, hpolicy, hqsize⟩ := get_sized hget
    have hless : queue.qsize = s.queue.qsize - 1 := by omega
    obtain ⟨hsized, hdrain⟩ := drainTest_sized { s with queue, produced := s.produced ++ [trade] }
    have htaken : Sized s { s with queue, produced := s.produced ++ [trade] }.drainTest (s.queue.qsize - 1) s.held :=
      ⟨hsized.maxsize.trans hmaxsize, hsized.policy.trans hpolicy, hsized.queued.trans hless, hsized.held⟩
    by_cases hleaves : (s.stop && decide (queue.qsize = 0)) = true
    · rw [if_pos hleaves] at hdrain
      rw [Bool.and_eq_true, decide_eq_true_eq] at hleaves
      refine .ends 1 htaken hd (by rw [hdrain]; decide) ?_
      simp only [IngestRunner.endsDrain, hleaves.1, hqsize, hleaves.2]
      rfl
    · rw [if_neg hleaves] at hdrain
      refine .takes htaken hd (hdrain.trans hd) ?_
      simp only [IngestRunner.endsDrain, hqsize]
      rw [if_neg]
      simpa using hleaves
  · rename_i hsome
    refine .same (Sized.same rfl rfl) rfl rfl rfl (fun hd => ?_)
    have hempty : s.queue.qsize = 0 := by
      rw [← get_eq_none]
      cases hget : s.queue.get with
      | none => rfl
      | some taken => exact absurd hget (hsome taken.1 taken.2 hd)
    simp only [IngestRunner.endsDrain, hempty]
    rw [if_neg]
    simp

theorem roomCase_drainIdles (s : IngestRunner) :
    RoomCase connector s .drainIdles (s.step connector .drainIdles) := by
  simp only [IngestRunner.step]
  split
  · rename_i hd
    obtain ⟨hsized, hdrain⟩ := drainTest_sized s
    by_cases hleaves : (s.stop && decide (s.queue.qsize = 0)) = true
    · rw [if_pos hleaves] at hdrain
      refine .ends 0 hsized hd (by rw [hdrain]; decide) ?_
      simp only [IngestRunner.endsDrain, if_pos hleaves]
    · rw [if_neg hleaves] at hdrain
      refine .same hsized hdrain rfl rfl (fun _ => ?_)
      simp only [IngestRunner.endsDrain, if_neg hleaves]
  · rename_i hd
    exact .same (Sized.same rfl rfl) rfl rfl rfl (fun h => absurd h hd)

theorem roomCase_drainRaises (s : IngestRunner) (took : Bool) :
    RoomCase connector s (.drainRaises took) (s.step connector (.drainRaises took)) := by
  have hfailed : DrainPhase.failed ≠ .running := by decide
  simp only [IngestRunner.step]
  split
  · rename_i trade queue hd hget
    obtain ⟨hmaxsize, hpolicy, hqsize⟩ := get_sized hget
    cases took with
    | true => exact .ends 1 ⟨hmaxsize, hpolicy, by show queue.qsize = _; omega, rfl⟩ hd hfailed rfl
    | false => exact .ends 0 ⟨rfl, rfl, rfl, rfl⟩ hd hfailed rfl
  · rename_i hd hget
    refine .ends took.toNat ⟨rfl, rfl, ?_, rfl⟩ hd hfailed rfl
    have hempty := get_eq_none.1 hget
    show s.queue.qsize = _
    omega
  · rename_i hsome hnone
    exact .same (Sized.same rfl rfl) rfl rfl rfl (fun hd => (by
      cases hget : s.queue.get with
      | none => exact absurd hget (hnone hd)
      | some taken => exact absurd hget (hsome taken.1 taken.2 hd)))

/-- **Every event is one of the cases.** -/
theorem step_roomCase {s : IngestRunner} (hb : s.Bounded) (e : Event Frame) :
    RoomCase connector s e (s.step connector e) := by
  cases hsocket : e.ofSocket with
  | true => exact roomCase_socket connector hb hsocket
  | false =>
    cases e with
    | dialed | dialFails | frame | putResumes | socketFails | socketCloses | lifetimeExpires | stopSeen | slept =>
      cases hsocket
    | setStop => exact .same (Sized.same rfl rfl) rfl rfl rfl (fun _ => rfl)
    | repairAnswers task trades => exact roomCase_repairAnswers connector s task trades
    | repairFails task =>
      simp only [IngestRunner.step]
      split
      · rename_i hfetching
        exact .same ⟨rfl, rfl, rfl, setRepair_held .done hfetching⟩ rfl rfl rfl (fun _ => rfl)
      · exact .same (Sized.same rfl rfl) rfl rfl rfl (fun _ => rfl)
    | repairPuts task => exact roomCase_repairPuts connector hb task
    | drainTakes => exact roomCase_drainTakes connector s
    | drainIdles => exact roomCase_drainIdles connector s
    | drainRaises took => exact roomCase_drainRaises connector s took
    | socketReturns =>
      simp only [IngestRunner.step]
      split <;> exact .same (Sized.same rfl rfl) rfl rfl rfl (fun _ => rfl)
    | runReturns =>
      simp only [IngestRunner.step]
      split
      · split <;> exact .same (Sized.same rfl rfl) rfl rfl rfl (fun _ => rfl)
      · split <;> exact .same (Sized.same rfl rfl) rfl rfl rfl (fun _ => rfl)
      · exact .same (Sized.same rfl rfl) rfl rfl rfl (fun _ => rfl)

/-- Once drain has ended, what the repair tasks hold fits beside what is queued. -/
def IngestRunner.Roomy (s : IngestRunner) : Prop := s.drain ≠ .running → s.Fits s.queue.qsize

theorem Sized.fits {s s' : IngestRunner} {queued held : Nat} (h : Sized s s' queued held) :
    s'.Fits s'.queue.qsize ↔ s.queue.maxsize = 0 ∨ queued + held ≤ s.queue.maxsize := by
  unfold IngestRunner.Fits
  rw [h.maxsize, h.queued, h.held]

theorem fill_le {maxsize queued : Nat} : maxsize = 0 ∨ fill maxsize queued ≤ maxsize := by
  unfold fill
  split <;> omega

/-- **An event leaves room exactly when** it keeps it. -/
theorem step_roomy_iff {s : IngestRunner} (hb : s.Bounded) (hr : s.Roomy) (e : Event Frame) :
    (s.step connector e).Roomy ↔ KeepsRoom connector s e := by
  unfold IngestRunner.Roomy KeepsRoom
  unfold IngestRunner.Roomy at hr
  have hbound := hb.2
  by_cases hd : s.drain = .running
  · cases step_roomCase connector hb e with
    | same h hdrain hpumped hanswered hends => simp [hd, hdrain, hends hd]
    | pumps h hdrain hanswered hends => simp [hd, hdrain, hends]
    | answers h hdrain hpumped hends => simp [hd, hdrain, hends]
    | puts held h hheld hroom hdrain hpumped hanswered hends => simp [hd, hdrain, hends]
    | takes h hd' hdrain hends => simp [hd, hdrain, hends]
    | ends taken h hd' hdrain hends =>
      rw [h.fits]
      unfold IngestRunner.Fits
      simp [hd, hdrain, hends]
  · have hfits := hr hd
    unfold IngestRunner.Fits at hfits
    cases step_roomCase connector hb e with
    | same h hdrain hpumped hanswered hends =>
      rw [h.fits, hdrain, hpumped, hanswered]
      unfold IngestRunner.Fits
      simp only [hd, not_false_eq_true, ne_eq, forall_const, false_implies, true_and, Nat.add_zero]
      omega
    | pumps h hdrain hanswered hends =>
      rw [h.fits, hdrain, hanswered]
      unfold IngestRunner.Fits fill
      simp only [hd, not_false_eq_true, ne_eq, forall_const, false_implies, true_and, Nat.add_zero]
      split <;> omega
    | answers h hdrain hpumped hends =>
      rw [h.fits, hdrain, hpumped]
      unfold IngestRunner.Fits
      simp only [hd, not_false_eq_true, ne_eq, forall_const, false_implies, true_and, Nat.add_zero]
      omega
    | puts held h hheld hroom hdrain hpumped hanswered hends =>
      rw [h.fits, hdrain, hpumped, hanswered]
      unfold IngestRunner.Fits
      simp only [hd, not_false_eq_true, ne_eq, forall_const, false_implies, true_and, Nat.add_zero]
      omega
    | takes h hd' hdrain hends => exact absurd hd' hd
    | ends taken h hd' hdrain hends => exact absurd hd' hd

theorem step_bounded {s : IngestRunner} (hb : s.Bounded) (e : Event Frame) : (s.step connector e).Bounded := by
  have hsized : ∀ {s' : IngestRunner} {queued held : Nat}, Sized s s' queued held →
      (s.queue.maxsize = 0 ∨ queued ≤ s.queue.maxsize) → s'.Bounded := by
    intro s' queued held h hle
    refine ⟨h.policy.trans hb.1, ?_⟩
    rw [h.maxsize, h.queued]
    exact hle
  have hbound := hb.2
  cases step_roomCase connector hb e with
  | same h hdrain hpumped hanswered hends => exact hsized h hbound
  | pumps h hdrain hanswered hends => exact hsized h fill_le
  | answers h hdrain hpumped hends => exact hsized h hbound
  | puts held h hheld hroom hdrain hpumped hanswered hends => exact hsized h (by omega)
  | takes h hd hdrain hends => exact hsized h (by omega)
  | ends taken h hd hdrain hends => exact hsized h (by omega)

/-- **What no longer fits never will**: nothing is taken off the queue any more. -/
theorem step_not_roomy {s : IngestRunner} (hb : s.Bounded) (hr : ¬ s.Roomy) (e : Event Frame) :
    ¬ (s.step connector e).Roomy := by
  unfold IngestRunner.Roomy IngestRunner.Fits at hr ⊢
  rw [Classical.not_imp] at hr ⊢
  obtain ⟨hd, hover⟩ := hr
  have hbound := hb.2
  have hkeep : ∀ {s' : IngestRunner} {queued held : Nat}, Sized s s' queued held → s'.drain = s.drain →
      (s.queue.maxsize < s.queue.qsize + s.held → s.queue.maxsize ≠ 0 → s.queue.maxsize < queued + held) →
      s'.drain ≠ .running ∧ ¬ (s'.queue.maxsize = 0 ∨ s'.queue.qsize + s'.held ≤ s'.queue.maxsize) := by
    intro s' queued held h hdrain hmore
    refine ⟨by rw [hdrain]; exact hd, ?_⟩
    rw [h.maxsize, h.queued, h.held]
    omega
  cases step_roomCase connector hb e with
  | same h hdrain hpumped hanswered hends => exact hkeep h hdrain (fun h _ => h)
  | pumps h hdrain hanswered hends =>
    refine hkeep h hdrain (fun hmore hne => ?_)
    unfold fill
    rw [if_neg hne]
    omega
  | answers h hdrain hpumped hends => exact hkeep h hdrain (fun hmore _ => by omega)
  | puts held h hheld hroom hdrain hpumped hanswered hends => exact hkeep h hdrain (fun hmore _ => by omega)
  | takes h hd' hdrain hends => exact absurd hd' hd
  | ends taken h hd' hdrain hends => exact absurd hd' hd

/-! ## The end of a run -/

/-- Once the socket has returned it stays so, and a run ends when every repair task has. -/
structure IngestRunner.Sound (s : IngestRunner) : Prop where
  bounded : s.Bounded
  finished : s.run ≠ .running → s.socket = .finished
  ended : s.Ended → s.repairs.all (fun t => t.phase.isDone) = true

theorem step_of_finished {s : IngestRunner} (hs : s.socket = .finished) {e : Event Frame} (he : e.ofSocket = true) :
    s.step connector e = s := by
  cases e with
  | dialed | dialFails | frame | putResumes | socketFails | socketCloses | lifetimeExpires | stopSeen | slept =>
    simp only [IngestRunner.step, hs]
  | _ => cases he

theorem drainTest_run (s : IngestRunner) : s.drainTest.run = s.run := by
  unfold IngestRunner.drainTest
  split <;> rfl

theorem drainTest_repairs (s : IngestRunner) : s.drainTest.repairs = s.repairs := by
  unfold IngestRunner.drainTest
  split <;> rfl

theorem not_done {s : IngestRunner} {task : Nat} {phase : RepairPhase}
    (h : (s.repairs[task]?).map RepairTask.phase = some phase) (hphase : phase.isDone = false) :
    s.repairs.all (fun t => t.phase.isDone) = false := by
  obtain ⟨t, ht, rfl⟩ := Option.map_eq_some_iff.1 h
  rw [List.all_eq_false]
  exact ⟨t, List.mem_of_getElem? ht, by rw [hphase]; exact Bool.false_ne_true⟩

/-- What an event of no socket does to the run and its repairs. -/
inductive EndCase (s s' : IngestRunner) : Prop
  | kept (hrun : s'.run = s.run) (hrepairs : s'.repairs = s.repairs)
  | repairs (hrun : s'.run = s.run) (hbusy : s.repairs.all (fun t => t.phase.isDone) = false)
  | finishes (hsocket : s.socket = .finished) (hrun : s'.run = .finishing)
  | ends (hrun : s.run = .finishing) (hdone : s'.repairs.all (fun t => t.phase.isDone) = true)

/-- An answer reaches a task that is fetching, and no other. -/
theorem endCase_answers (s : IngestRunner) (task : Nat) {e : Event Frame}
    (he : (∃ trades, e = .repairAnswers task trades) ∨ e = .repairFails task) : EndCase s (s.step connector e) := by
  by_cases hfetching : (s.repairs[task]?).map RepairTask.phase = some .fetching
  · have hbusy := not_done hfetching rfl
    rcases he with ⟨trades, rfl⟩ | rfl
    · refine .repairs ?_ hbusy
      simp only [IngestRunner.step, hfetching]
      rfl
    · refine .repairs ?_ hbusy
      simp only [IngestRunner.step, hfetching]
      rfl
  · rcases he with ⟨trades, rfl⟩ | rfl
    · apply EndCase.kept
      · simp only [IngestRunner.step]
      · simp only [IngestRunner.step]
    · apply EndCase.kept
      · simp only [IngestRunner.step]
      · simp only [IngestRunner.step]

theorem endCase_repairPuts (s : IngestRunner) (task : Nat) : EndCase s (s.step connector (.repairPuts task)) := by
  simp only [IngestRunner.step]
  split
  · rename_i trade rest hputting
    have hbusy := not_done hputting rfl
    split
    · rename_i s' hput
      exact .repairs (putTrade_aside hput).run hbusy
    · exact .repairs rfl hbusy
  · exact .kept rfl rfl

/-- **The drain leaves the run and the repairs alone.** -/
theorem endCase_drain (s : IngestRunner) {e : Event Frame}
    (he : e = .drainTakes ∨ e = .drainIdles ∨ ∃ took, e = .drainRaises took) : EndCase s (s.step connector e) := by
  rcases he with rfl | rfl | ⟨took, rfl⟩
  · simp only [IngestRunner.step]
    split
    · exact .kept (drainTest_run _) (drainTest_repairs _)
    · exact .kept rfl rfl
  · simp only [IngestRunner.step]
    split
    · exact .kept (drainTest_run _) (drainTest_repairs _)
    · exact .kept rfl rfl
  · simp only [IngestRunner.step]
    split
    · exact .kept rfl rfl
    · exact .kept rfl rfl
    · exact .kept rfl rfl

/-- The run finishes after its socket, and ends after its repairs. -/
theorem endCase_returns (s : IngestRunner) {e : Event Frame} (he : e = .socketReturns ∨ e = .runReturns) :
    EndCase s (s.step connector e) := by
  rcases he with rfl | rfl
  · simp only [IngestRunner.step]
    split
    · rename_i hfinished _
      exact .finishes hfinished rfl
    · exact .kept rfl rfl
  · simp only [IngestRunner.step]
    split
    · rename_i hrun _
      split
      · rename_i hall
        exact .ends hrun hall
      · exact .kept rfl rfl
    · rename_i hrun _
      split
      · rename_i hall
        exact .ends hrun hall
      · exact .kept rfl rfl
    · exact .kept rfl rfl

theorem step_endCase (s : IngestRunner) {e : Event Frame} (he : e.ofSocket = false) :
    EndCase s (s.step connector e) := by
  cases e with
  | dialed | dialFails | frame | putResumes | socketFails | socketCloses | lifetimeExpires | stopSeen | slept => cases he
  | setStop => exact .kept rfl rfl
  | repairAnswers task trades => exact endCase_answers connector s task (Or.inl ⟨trades, rfl⟩)
  | repairFails task => exact endCase_answers connector s task (Or.inr rfl)
  | repairPuts task => exact endCase_repairPuts connector s task
  | drainTakes => exact endCase_drain connector s (Or.inl rfl)
  | drainIdles => exact endCase_drain connector s (Or.inr (Or.inl rfl))
  | drainRaises took => exact endCase_drain connector s (Or.inr (Or.inr ⟨took, rfl⟩))
  | socketReturns => exact endCase_returns connector s (Or.inl rfl)
  | runReturns => exact endCase_returns connector s (Or.inr rfl)

theorem step_sound {s : IngestRunner} (hs : s.Sound) (e : Event Frame) : (s.step connector e).Sound := by
  have hb := step_bounded connector hs.bounded e
  cases hsocket : e.ofSocket with
  | true =>
    by_cases hfinished : s.socket = .finished
    · rw [step_of_finished connector hfinished hsocket]
      exact hs
    · have hrunning : s.run = .running := by
        apply Decidable.byContradiction
        intro hne
        exact hfinished (hs.finished hne)
      have hrun := (step_socket_aside connector s hsocket).run.trans hrunning
      refine ⟨hb, fun hne => absurd hrun hne, fun hended => ?_⟩
      unfold IngestRunner.Ended at hended
      rw [hrun] at hended
      simp at hended
  | false =>
    obtain ⟨-, hsame⟩ := step_quiet_of_not_socket connector s hsocket
    cases step_endCase connector s hsocket with
    | kept hrun hrepairs =>
      refine ⟨hb, ?_, ?_⟩
      · rw [hrun, hsame]
        exact hs.finished
      · unfold IngestRunner.Ended
        rw [hrun, hrepairs]
        exact hs.ended
    | repairs hrun hbusy =>
      -- a task that is not done rules out that the run has ended
      refine ⟨hb, ?_, fun hended => ?_⟩
      · rw [hrun, hsame]
        exact hs.finished
      · unfold IngestRunner.Ended at hended
        rw [hrun] at hended
        rw [hs.ended hended] at hbusy
        cases hbusy
    | finishes hfinished hrun =>
      refine ⟨hb, fun _ => hsame.trans hfinished, fun hended => ?_⟩
      unfold IngestRunner.Ended at hended
      rw [hrun] at hended
      simp at hended
    | ends hrun hdone =>
      exact ⟨hb, fun _ => hsame.trans (hs.finished (by rw [hrun]; decide)), fun _ => hdone⟩

theorem held_of_done {s : IngestRunner} (h : s.repairs.all (fun t => t.phase.isDone) = true) : s.held = 0 := by
  unfold IngestRunner.held
  rw [List.sum_eq_zero_iff_forall_eq_nat]
  intro n hn
  obtain ⟨t, ht, rfl⟩ := List.mem_map.1 hn
  have hdone := List.all_eq_true.1 h t ht
  cases hphase : t.phase with
  | done => rfl
  | fetching =>
    rw [hphase] at hdone
    cases hdone
  | putting trade rest =>
    rw [hphase] at hdone
    cases hdone

/-- **A run whose repair tasks hold too much never ends.** -/
theorem never_ends (events : List (Event Frame)) : ∀ {s : IngestRunner}, s.Sound → ¬ s.Roomy →
    ¬ (events.foldl (IngestRunner.step connector) s).Ended := by
  induction events with
  | nil =>
    intro s hs hr hended
    apply hr
    intro _
    unfold IngestRunner.Fits
    have hheld := held_of_done (hs.ended hended)
    have hbound := hs.bounded.2
    omega
  | cons e events ih =>
    exact fun hs hr => ih (step_sound connector hs e) (step_not_roomy connector hs.bounded hr e)

/-! ## Progress -/

def RepairPhase.rank : RepairPhase → Nat
  | .fetching       => 1
  | .putting _ rest => rest.length + 1
  | .done           => 0

def SocketPhase.rank : SocketPhase → Nat
  | .finished => 0
  | _         => 1

def RunPhase.rank : RunPhase → Nat
  | .running   => 2
  | .finishing => 1
  | _          => 0

/-- How much the tasks have still to do, without drain. -/
def IngestRunner.rank (s : IngestRunner) : Nat := s.socket.rank + s.run.rank + (s.repairs.map (fun t => t.phase.rank)).sum

/-- A step that a task can take and that brings the end nearer. -/
def IngestRunner.Nearer (s : IngestRunner) (connector : Connector Frame) (e : Event Frame) : Prop :=
  s.Enabled e ∧ s.pumped connector e = 0 ∧ s.answered e = 0 ∧ (s.step connector e).drain = s.drain ∧
    (s.step connector e).stop = s.stop ∧ (s.step connector e).rank < s.rank

theorem setRepair_rank {s : IngestRunner} {task : Nat} {phase phase' : RepairPhase}
    (h : (s.repairs[task]?).map RepairTask.phase = some phase) (hless : phase'.rank < phase.rank) :
    (s.setRepair task phase').rank < s.rank := by
  obtain ⟨t, ht, rfl⟩ := Option.map_eq_some_iff.1 h
  have hsum := sum_modify (f := fun t => t.phase.rank) (g := fun t => { t with phase := phase' }) ht
  have hrepairs : (s.setRepair task phase').repairs = s.repairs.modify task (fun t => { t with phase := phase' }) := rfl
  unfold IngestRunner.rank
  rw [hrepairs]
  show s.socket.rank + s.run.rank + _ < _
  simp only at hsum
  omega

theorem ofTrades_rank (trades : List Trade) : (RepairPhase.ofTrades trades).rank = trades.length := by
  cases trades <;> rfl

/-- A repair task that is not done can step: its answer fails, or there is room for what it holds. -/
theorem nearer_repair {s : IngestRunner} (hs : s.Sound) (hd : s.drain ≠ .running) (hr : s.Roomy)
    (h : s.repairs.all (fun t => t.phase.isDone) = false) : ∃ e : Event Frame, s.Nearer connector e := by
  rw [List.all_eq_false] at h
  obtain ⟨t, ht, hdone⟩ := h
  obtain ⟨task, htask⟩ := List.mem_iff_getElem?.1 ht
  cases hphase : t.phase with
  | done =>
    rw [hphase] at hdone
    exact absurd rfl hdone
  | fetching =>
    have hfetching : (s.repairs[task]?).map RepairTask.phase = some .fetching := by
      rw [htask, Option.map_some, hphase]
    refine ⟨.repairFails task, hfetching, rfl, rfl, ?_, ?_, ?_⟩
    · simp only [IngestRunner.step, hfetching]
      rfl
    · simp only [IngestRunner.step, hfetching]
      rfl
    · simp only [IngestRunner.step, hfetching]
      exact setRepair_rank hfetching (by decide)
  | putting trade rest =>
    have hputting : (s.repairs[task]?).map RepairTask.phase = some (.putting trade rest) := by
      rw [htask, Option.map_some, hphase]
    have hheld := setRepair_held .done hputting
    have hfits := hr hd
    unfold IngestRunner.Fits at hfits
    simp only [RepairPhase.held] at hheld
    have hroom : s.queue.full = false := by
      rw [← Bool.not_eq_true, full_iff]
      omega
    cases hput : s.putTrade trade with
    | none =>
      rw [(putTrade_eq_none hs.bounded.1 trade).1 hput] at hroom
      cases hroom
    | some s' =>
      have hstep : s.step connector (.repairPuts task) = s'.setRepair task (.ofTrades rest) := by
        simp only [IngestRunner.step, hputting, hput]
      have hsame : s'.stop = s.stop ∧ s'.rank = s.rank := by
        unfold IngestRunner.putTrade at hput
        obtain ⟨queue, -, rfl⟩ := Option.map_eq_some_iff.1 hput
        exact ⟨rfl, rfl⟩
      refine ⟨.repairPuts task, ⟨hroom, trade, rest, hputting⟩, rfl, rfl, ?_, ?_, ?_⟩
      · have hdrain : s'.drain = s.drain := (putTrade_aside hput).drain
        rw [hstep]
        exact hdrain
      · rw [hstep]
        exact hsame.1
      · rw [hstep, ← hsame.2]
        rw [← putTrade_repairs hput] at hputting
        apply setRepair_rank hputting
        rw [ofTrades_rank]
        exact Nat.lt_succ_self _

/-- A socket task that is stopped has a way to finish, wherever it is. -/
theorem nearer_socket {s : IngestRunner} (hstop : s.stop = true) (hopen : s.socket ≠ .finished) :
    ∃ e : Event Frame, s.Nearer connector e := by
  have hsocket : ∀ e : Event Frame, s.step connector e = { s with socket := .finished } → s.Enabled e →
      s.pumped connector e = 0 → s.answered e = 0 → s.socket.rank = 1 → ∃ e : Event Frame, s.Nearer connector e := by
    intro e hstep henabled hpumped hanswered hrank
    refine ⟨e, henabled, hpumped, hanswered, by rw [hstep], by rw [hstep], ?_⟩
    rw [hstep]
    unfold IngestRunner.rank
    rw [hrank]
    show 0 + s.run.rank + (s.repairs.map (fun t => t.phase.rank)).sum < _
    omega
  have hloop : s.loopTest = { s with socket := .finished } := by
    unfold IngestRunner.loopTest
    rw [hstop]
    rfl
  have hfails : s.sessionFails = { s with socket := .finished } := by
    unfold IngestRunner.sessionFails
    rw [hstop]
    rfl
  cases hphase : s.socket with
  | dialing =>
    apply hsocket .dialFails _ hphase rfl rfl (by rw [hphase]; rfl)
    simp only [IngestRunner.step, hphase, hfails]
  | session pump =>
    apply hsocket .stopSeen _ ⟨⟨pump, hphase⟩, hstop⟩ rfl rfl (by rw [hphase]; rfl)
    simp only [IngestRunner.step, hphase, hstop, if_true, hloop]
  | sleeping =>
    apply hsocket .slept _ hphase rfl rfl (by rw [hphase]; rfl)
    simp only [IngestRunner.step, hphase, hloop]
  | finished => exact absurd hphase hopen

/-- A run that waits for its drain alone ends with it. -/
theorem nearer_return {s : IngestRunner} (hd : s.drain ≠ .running) (hrun : s.run = .finishing)
    (hall : s.repairs.all (fun t => t.phase.isDone) = true) : s.Nearer connector .runReturns := by
  have hless : ∀ run : RunPhase, run.rank = 0 → ({ s with run } : IngestRunner).rank < s.rank := by
    intro run hzero
    unfold IngestRunner.rank
    rw [hrun]
    show s.socket.rank + run.rank + (s.repairs.map (fun t => t.phase.rank)).sum < s.socket.rank + 1 + _
    omega
  refine ⟨⟨hrun, hd, hall⟩, rfl, rfl, ?_⟩
  cases hdrain : s.drain with
  | running => exact absurd hdrain hd
  | left =>
    simp only [IngestRunner.step, hrun, hdrain, hall, if_true]
    exact ⟨trivial, trivial, hless .returned rfl⟩
  | failed =>
    simp only [IngestRunner.step, hrun, hdrain, hall, if_true]
    exact ⟨trivial, trivial, hless .raised rfl⟩

/-- **Once drain has ended and there is room, some task brings the end nearer.** -/
theorem nearer {s : IngestRunner} (hs : s.Sound) (hd : s.drain ≠ .running) (hr : s.Roomy) (hstop : s.stop = true)
    (hended : ¬ s.Ended) : ∃ e : Event Frame, s.Nearer connector e := by
  by_cases hphase : s.socket = .finished
  · cases hrun : s.run with
    | returned => exact absurd (Or.inl hrun) hended
    | raised => exact absurd (Or.inr hrun) hended
    | running =>
      have hstep : s.step connector .socketReturns = { s with stop := true, run := .finishing } := by
        simp only [IngestRunner.step, hphase, hrun]
      refine ⟨.socketReturns, ⟨hphase, hrun⟩, rfl, rfl, by rw [hstep], by rw [hstep, hstop], ?_⟩
      rw [hstep]
      unfold IngestRunner.rank
      rw [hrun]
      show s.socket.rank + 1 + (s.repairs.map (fun t => t.phase.rank)).sum < s.socket.rank + 2 + _
      omega
    | finishing =>
      cases hall : s.repairs.all (fun t => t.phase.isDone) with
      | false => exact nearer_repair connector hs hd hr hall
      | true => exact ⟨.runReturns, nearer_return connector hd hrun hall⟩
  · exact nearer_socket connector hstop hphase

/-- **With room for what the repair tasks hold, a run without drain can end.** -/
theorem can_end (rank : Nat) : ∀ {s : IngestRunner}, s.rank ≤ rank → s.Sound → s.drain ≠ .running → s.Roomy →
    s.stop = true → ∃ events : List (Event Frame), (events.foldl (IngestRunner.step connector) s).Ended := by
  induction rank with
  | zero =>
    intro s hle hs hd hr hstop
    by_cases hended : s.Ended
    · exact ⟨[], hended⟩
    · obtain ⟨e, -, -, -, -, -, hless⟩ := nearer connector hs hd hr hstop hended
      omega
  | succ rank ih =>
    intro s hle hs hd hr hstop
    by_cases hended : s.Ended
    · exact ⟨[], hended⟩
    · obtain ⟨e, henabled, hpumped, hanswered, hdrain, hkeep, hless⟩ := nearer connector hs hd hr hstop hended
      have hroom : (s.step connector e).Roomy := by
        rw [step_roomy_iff connector hs.bounded hr]
        refine ⟨fun h => absurd h hd, fun _ => Or.inr ?_⟩
        rw [hpumped, hanswered]
        exact hr hd
      obtain ⟨events, hend⟩ := ih (by omega) (step_sound connector hs e) (by rw [hdrain]; exact hd) hroom
        (hkeep.trans hstop)
      exact ⟨e :: events, hend⟩

/-- **The run does not hang exactly as long as there is room.** -/
theorem shutsDown_iff_roomy {s : IngestRunner} (hs : s.Sound) : ShutsDown connector s ↔ s.Roomy := by
  constructor
  · rintro ⟨-, hend⟩ hd
    obtain ⟨events, hended⟩ := hend hd
    apply Classical.byContradiction
    intro hfits
    exact never_ends connector events hs (fun hr => hfits (hr hd)) hended
  · intro hr
    constructor
    · intro hstop hended
      by_cases hd : s.drain = .running
      · by_cases hitems : s.queue.items = []
        · exact ⟨.drainIdles, hd, hitems⟩
        · exact ⟨.drainTakes, hd, hitems⟩
      · obtain ⟨e, henabled, -⟩ := nearer connector hs hd hr hstop hended
        exact ⟨e, henabled⟩
    · intro hd
      obtain ⟨events, hended⟩ := can_end connector _ (Nat.le_refl _) (step_sound connector hs .setStop) hd hr rfl
      exact ⟨.setStop :: events, hended⟩

/-- **No run hangs exactly when** what the repair tasks hold fits on the queue when drain ends, with whatever comes after
it. -/
theorem shutsDown_iff (maxsize : Nat) (events : List (Event Frame)) :
    AllReached (IngestRunner.step connector) (ShutsDown connector) (.start maxsize .block) events ↔
      AllSteps (IngestRunner.step connector) (KeepsRoom connector) (.start maxsize .block) events := by
  have hstart : (IngestRunner.start maxsize .block).Sound ∧ (IngestRunner.start maxsize .block).Roomy := by
    refine ⟨⟨⟨rfl, Or.inr (Nat.zero_le _)⟩, fun h => absurd rfl h, fun _ => rfl⟩, fun h => absurd rfl h⟩
  refine AllSteps.congr (I := fun s : IngestRunner => s.Sound ∧ s.Roomy) (fun s e h => ?_) (fun s e h hdown => ?_) hstart
  · rw [shutsDown_iff_roomy connector (step_sound connector h.1 e), step_roomy_iff connector h.1.bounded h.2]
  · have hs := step_sound connector h.1 e
    exact ⟨hs, (shutsDown_iff_roomy connector hs).1 hdown⟩

/-- Drain leaves the empty queue before the repair's answer: trades 2 and 3, for a queue of one. -/
def abandonedRepair : List (Event BinanceFrame) :=
  [.slept, .dialed, .frame 0 (aggTrade 1), .drainTakes, .frame 0 (aggTrade 4), .drainTakes, .setStop, .drainIdles, .stopSeen,
    .socketReturns, .repairAnswers 0 (repaired 2 ++ repaired 3)]

theorem abandoned_repair_hangs :
    ¬ ∀ (instruments : InstrumentMap) (maxsize : Nat) (events : List (Event BinanceFrame)),
      AllReached (IngestRunner.step (binance instruments)) (ShutsDown (binance instruments)) (.start maxsize .block)
        events := by
  intro h
  obtain ⟨hstep, -⟩ := h bitcoin 1 (abandonedRepair ++ [.repairPuts 0]) abandonedRepair (.repairPuts 0) [] rfl
  obtain ⟨e, he⟩ := hstep rfl (by rintro (h | h) <;> cases h)
  cases e with
  | repairPuts task => cases he.1
  | repairAnswers task trades => cases task <;> cases he
  | repairFails task => cases task <;> cases he
  | putResumes => cases he.2
  | stopSeen =>
    obtain ⟨⟨pump, hpump⟩, -⟩ := he
    cases hpump
  | drainTakes | drainIdles | socketReturns => cases he.1 <;> cases he.2
  | runReturns => cases he.2.2
  | _ => cases he

end Ingest
