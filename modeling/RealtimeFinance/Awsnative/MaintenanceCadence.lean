import Mathlib.Logic.ExistsUnique
import RealtimeFinance.Awsnative.OverlapGuard
import RealtimeFinance.StepFunctions.Clock
/-!
# MaintenanceCadence — which executions of the micro-batch maintain the tables

`IsTopOfHour` and `IsTopOfDay` compare the minute and the hour of the start time with `00`.  A tick of every five minutes
keeps its place within the five minutes, so either one tick of every hour falls in the first minute, or none ever does
(`maintenanceCadence_iff`).
-/
namespace Awsnative

open StepFunctions

/-- The ticks of `rate(5 minutes)`, in milliseconds since 1970. -/
def tick (first k : Nat) : Nat := first + 300000 * k

/-- The execution started at `startTime` and past the guard enters the state as its tasks complete. -/
def Enters (startTime : String) (tasks : List MicrobatchTask) (state : Microbatch) : Prop :=
  ∃ clock, deriveMaintenanceClock startTime = some clock ∧
    (admitted microbatch.definition clock).Visits microbatch.definition tasks state

/-- Every task it waits for has completed. -/
def RunsOut (startTime : String) (tasks : List MicrobatchTask) : Prop :=
  ∃ clock, deriveMaintenanceClock startTime = some clock ∧
    (admitted microbatch.definition clock).Exhausted microbatch.definition tasks

/-! ## The machine -/

theorem completed_past_guard {x : MachineExecution Microbatch} {task : MicrobatchTask} {startTime : StartTime}
    (h : x = ⟨startTime, .ended⟩ ∨ ∃ state, x = ⟨startTime, .guarded state⟩) :
    x.completed microbatch.definition task = ⟨startTime, .ended⟩ ∨
      ∃ state, x.completed microbatch.definition task = ⟨startTime, .guarded state⟩ := by
  rcases h with rfl | ⟨state, rfl⟩
  · exact Or.inl rfl
  · simp only [MachineExecution.completed]
    split
    · exact Or.inr ⟨state, rfl⟩
    · exact Or.inr ⟨_, rfl⟩
    · exact Or.inl rfl

theorem after_past_guard {startTime : StartTime} (tasks : List MicrobatchTask) :
    ∀ {x : MachineExecution Microbatch}, (x = ⟨startTime, .ended⟩ ∨ ∃ state, x = ⟨startTime, .guarded state⟩) →
      x.after microbatch.definition tasks = ⟨startTime, .ended⟩ ∨
        ∃ state, x.after microbatch.definition tasks = ⟨startTime, .guarded state⟩ := by
  induction tasks with
  | nil => exact fun h => h
  | cons task tasks ih => exact fun h => ih (completed_past_guard h)

/-- Every state waits for some task. -/
theorem exists_awaited (startTime : StartTime) (state : Microbatch) : ∃ task,
    (⟨startTime, .guarded state⟩ : MachineExecution Microbatch).completed microbatch.definition task ≠
      ⟨startTime, .guarded state⟩ := by
  cases state with
  | silverAndQuarantine mergeSilver mergeQuarantine =>
    cases mergeSilver with
    | true => exact ⟨.mergeSilver, by
        cases mergeQuarantine <;> simp [MachineExecution.completed, microbatch, silverAndQuarantine]⟩
    | false => exact ⟨.mergeQuarantine, by
        cases mergeQuarantine <;> simp [MachineExecution.completed, microbatch, silverAndQuarantine]⟩
  | isTopOfHour =>
    refine ⟨.state, ?_⟩
    by_cases h : startTime.minute = "00" <;> simp [MachineExecution.completed, microbatch, h]
  | isTopOfDay =>
    refine ⟨.state, ?_⟩
    by_cases h : startTime.hour = "00" <;> simp [MachineExecution.completed, microbatch, h]
  | _ => exact ⟨.state, by simp [MachineExecution.completed, microbatch]⟩

/-- **An execution whose tasks have all completed has ended.** -/
theorem ended_of_exhausted {startTime : StartTime} {tasks : List MicrobatchTask}
    (h : (admitted microbatch.definition startTime).Exhausted microbatch.definition tasks) :
    ((admitted microbatch.definition startTime).after microbatch.definition tasks).phase = .ended := by
  have hpast : admitted microbatch.definition startTime = ⟨startTime, .ended⟩ ∨
      ∃ state, admitted microbatch.definition startTime = ⟨startTime, .guarded state⟩ := Or.inr ⟨_, rfl⟩
  rcases after_past_guard tasks hpast with hended | ⟨state, hstate⟩
  · rw [hended]
  · obtain ⟨task, htask⟩ := exists_awaited startTime state
    have hfixed := h task
    rw [hstate] at hfixed
    exact absurd hfixed htask

/-- The states that lead to the OPTIMIZEs. -/
def leadsToOptimize (startTime : StartTime) : Microbatch → Prop
  | .silverAndQuarantine _ _ | .mergeGold | .deriveMaintenanceClock | .isTopOfHour => startTime.minute = "00"
  | .optimizeSilverTrades => True
  | _ => False

/-- The states that lead to the VACUUMs. -/
def leadsToVacuum (startTime : StartTime) : Microbatch → Prop
  | .silverAndQuarantine _ _ | .mergeGold | .deriveMaintenanceClock | .isTopOfHour =>
    startTime.minute = "00" ∧ startTime.hour = "00"
  | .optimizeSilverTrades | .optimizeQuarantine | .optimizeGold | .optimizeNativeHealthMetrics | .isTopOfDay =>
    startTime.hour = "00"
  | .vacuumSilverTrades => True
  | _ => False

variable {startTime : StartTime} {tasks : List MicrobatchTask}

/-- What `completes` of the micro-batch leads to, state by state. -/
theorem microbatch_completes (state : Microbatch) (task : MicrobatchTask) (state' : Microbatch)
    (h : microbatch.definition.completes startTime state task = .next state') :
    (leadsToOptimize startTime state ↔ state = .optimizeSilverTrades ∨ leadsToOptimize startTime state') ∧
    (leadsToVacuum startTime state ↔ state = .vacuumSilverTrades ∨ leadsToVacuum startTime state') ∧
    state ≠ .collectHealthMetrics := by
  cases state with
  | silverAndQuarantine mergeSilver mergeQuarantine =>
    cases task with
    | mergeSilver =>
      cases mergeQuarantine <;> cases h <;> simp [leadsToOptimize, leadsToVacuum]
    | mergeQuarantine =>
      cases mergeSilver <;> cases h <;> simp [leadsToOptimize, leadsToVacuum]
    | state => cases h
  | isTopOfHour =>
    cases task with
    | state =>
      cases h
      by_cases hm : startTime.minute = "00" <;> simp [leadsToOptimize, leadsToVacuum, hm]
    | mergeSilver | mergeQuarantine => cases h
  | isTopOfDay =>
    cases task with
    | state =>
      cases h
      by_cases hh : startTime.hour = "00" <;> simp [leadsToOptimize, leadsToVacuum, hh]
    | mergeSilver | mergeQuarantine => cases h
  | _ => cases task <;> cases h <;> simp [leadsToOptimize, leadsToVacuum]

theorem microbatch_finishes (state : Microbatch) (task : MicrobatchTask)
    (h : microbatch.definition.completes startTime state task = .finishes) : state = .collectHealthMetrics := by
  cases state with
  | silverAndQuarantine mergeSilver mergeQuarantine =>
    cases task with
    | mergeSilver => cases mergeQuarantine <;> cases h
    | mergeQuarantine => cases mergeSilver <;> cases h
    | state => cases h
  | collectHealthMetrics => rfl
  | _ => cases task <;> cases h

theorem visits_optimize (h : (admitted microbatch.definition startTime).Exhausted microbatch.definition tasks) :
    (admitted microbatch.definition startTime).Visits microbatch.definition tasks .optimizeSilverTrades ↔
      startTime.minute = "00" := by
  refine MachineExecution.visits_iff Microbatch.optimizeSilverTrades (leadsToOptimize startTime) trivial
    (fun state task state' hc => (microbatch_completes state task state' hc).1) ?_ tasks _ (ended_of_exhausted h)
  intro state task hc
  rw [microbatch_finishes state task hc]
  simp [leadsToOptimize]

theorem visits_vacuum (h : (admitted microbatch.definition startTime).Exhausted microbatch.definition tasks) :
    (admitted microbatch.definition startTime).Visits microbatch.definition tasks .vacuumSilverTrades ↔
      startTime.minute = "00" ∧ startTime.hour = "00" := by
  refine MachineExecution.visits_iff Microbatch.vacuumSilverTrades (leadsToVacuum startTime) trivial
    (fun state task state' hc => (microbatch_completes state task state' hc).2.1) ?_ tasks _ (ended_of_exhausted h)
  intro state task hc
  rw [microbatch_finishes state task hc]
  simp [leadsToVacuum]

/-- **Every path through maintenance**, run or skipped, ends at `CollectHealthMetrics`. -/
theorem visits_collect (h : (admitted microbatch.definition startTime).Exhausted microbatch.definition tasks) :
    (admitted microbatch.definition startTime).Visits microbatch.definition tasks .collectHealthMetrics := by
  refine (MachineExecution.visits_iff Microbatch.collectHealthMetrics (fun _ => True) trivial ?_ ?_ tasks _ (ended_of_exhausted h)).2 trivial
  · intro state task state' hc
    simp
  · intro state task hc
    simp [microbatch_finishes state task hc]

/-! ## The schedule -/

def InHour (hour ms : Nat) : Prop := 3600000 * hour ≤ ms ∧ ms < 3600000 * (hour + 1)

def InDay (day ms : Nat) : Prop := 86400000 * day ≤ ms ∧ ms < 86400000 * (day + 1)

theorem minuteOf_eq_zero {hour ms : Nat} (h : InHour hour ms) : minuteOf ms = 0 ↔ ms < 3600000 * hour + 60000 := by
  unfold InHour at h
  unfold minuteOf
  omega

theorem hourOf_eq_zero {day ms : Nat} (h : InDay day ms) : hourOf ms = 0 ↔ InHour (24 * day) ms := by
  unfold InDay at h
  unfold hourOf InHour
  omega

/-- A tick keeps its place within the five minutes. -/
theorem tick_mod (first k : Nat) : tick first k % 300000 = first % 300000 := Nat.add_mul_mod_self_left first 300000 k

/-- **A tick in the first minute of an hour** tells where every tick falls. -/
theorem lt_of_minuteOf_tick {first k : Nat} (h : minuteOf (tick first k) = 0) : first % 300000 < 60000 := by
  have hmod := tick_mod first k
  unfold minuteOf at h
  omega

theorem tick_injective {first k k' start : Nat} (hk : start ≤ tick first k ∧ tick first k < start + 60000)
    (hk' : start ≤ tick first k' ∧ tick first k' < start + 60000) : k = k' := by
  unfold tick at hk hk'
  omega

/-- The tick of the first minute of an hour. -/
theorem exists_tick_of_hour {first : Nat} (hphase : first % 300000 < 60000) {hour : Nat} (hfull : first ≤ 3600000 * hour) :
    ∃ k, InHour hour (tick first k) ∧ minuteOf (tick first k) = 0 := by
  refine ⟨12 * hour - first / 300000, ?_⟩
  have htick : tick first (12 * hour - first / 300000) = 3600000 * hour + first % 300000 := by
    unfold tick
    omega
  have hin : InHour hour (tick first (12 * hour - first / 300000)) := by
    unfold InHour
    omega
  exact ⟨hin, (minuteOf_eq_zero hin).2 (by omega)⟩

/-! ## The cadence -/

section Entries

variable {ms : Nat}

theorem enters_iff (state : Microbatch) : Enters (isoInstant ms) tasks state ↔
    (admitted microbatch.definition ⟨Python.Date.padded 2 (hourOf ms), Python.Date.padded 2 (minuteOf ms)⟩).Visits
      microbatch.definition tasks state := by
  unfold Enters
  rw [deriveMaintenanceClock_isoInstant]
  exact ⟨fun ⟨clock, hclock, h⟩ => by cases hclock; exact h, fun h => ⟨_, rfl, h⟩⟩

variable (h : RunsOut (isoInstant ms) tasks)
include h

theorem RunsOut.exhausted :
    (admitted microbatch.definition ⟨Python.Date.padded 2 (hourOf ms), Python.Date.padded 2 (minuteOf ms)⟩).Exhausted
      microbatch.definition tasks := by
  obtain ⟨clock, hclock, hexhausted⟩ := h
  rw [deriveMaintenanceClock_isoInstant] at hclock
  cases hclock
  exact hexhausted

theorem enters_optimize : Enters (isoInstant ms) tasks .optimizeSilverTrades ↔ minuteOf ms = 0 := by
  rw [enters_iff, visits_optimize h.exhausted]
  exact padded_eq_zeros (Nat.mod_lt _ (by decide))

theorem enters_vacuum : Enters (isoInstant ms) tasks .vacuumSilverTrades ↔ minuteOf ms = 0 ∧ hourOf ms = 0 := by
  have hhour : hourOf ms < 60 := Nat.lt_of_lt_of_le (Nat.mod_lt _ (by decide)) (by decide : 24 ≤ 60)
  rw [enters_iff, visits_vacuum h.exhausted]
  exact and_congr (padded_eq_zeros (Nat.mod_lt _ (by decide))) (padded_eq_zeros hhour)

theorem enters_collect : Enters (isoInstant ms) tasks .collectHealthMetrics :=
  (enters_iff _).2 (visits_collect h.exhausted)

end Entries

/-- Every hour has one execution that takes the OPTIMIZE branch, every day one that takes the VACUUM branch, and every
execution collects the health metrics.  An hour or a day is full that begins no earlier than the first tick. -/
def KeepsCadence (first : Nat) (tasks : Nat → List MicrobatchTask) : Prop :=
  (∀ hour, first ≤ 3600000 * hour → ∃! k, InHour hour (tick first k) ∧
    Enters (isoInstant (tick first k)) (tasks k) .optimizeSilverTrades) ∧
  (∀ day, first ≤ 86400000 * day → ∃! k, InDay day (tick first k) ∧
    Enters (isoInstant (tick first k)) (tasks k) .vacuumSilverTrades) ∧
  ∀ k, Enters (isoInstant (tick first k)) (tasks k) .collectHealthMetrics

/-- **Maintenance keeps its cadence exactly when the first tick falls in the first of its five minutes**; otherwise no
execution ever maintains anything. -/
theorem maintenanceCadence_iff (first : Nat) (tasks : Nat → List MicrobatchTask)
    (h : ∀ k, RunsOut (isoInstant (tick first k)) (tasks k)) :
    (KeepsCadence first tasks ↔ first % 300000 < 60000) ∧
    (¬ first % 300000 < 60000 → ∀ k, ¬ Enters (isoInstant (tick first k)) (tasks k) .optimizeSilverTrades ∧
      ¬ Enters (isoInstant (tick first k)) (tasks k) .vacuumSilverTrades) := by
  refine ⟨⟨fun hkeeps => ?_, fun hphase => ⟨fun hour hfull => ?_, fun day hfull => ?_, fun k => enters_collect (h k)⟩⟩,
    fun hphase k => ?_⟩
  · obtain ⟨k, ⟨-, henters⟩, -⟩ := hkeeps.1 first (by omega)
    exact lt_of_minuteOf_tick ((enters_optimize (h k)).1 henters)
  · obtain ⟨k, hin, hminute⟩ := exists_tick_of_hour hphase hfull
    refine ⟨k, ⟨hin, (enters_optimize (h k)).2 hminute⟩, fun k' hk' => ?_⟩
    have hminute' := (enters_optimize (h k')).1 hk'.2
    exact tick_injective ⟨hk'.1.1, (minuteOf_eq_zero hk'.1).1 hminute'⟩ ⟨hin.1, (minuteOf_eq_zero hin).1 hminute⟩
  · obtain ⟨k, hin, hminute⟩ := exists_tick_of_hour hphase (show first ≤ 3600000 * (24 * day) by omega)
    have hday : InDay day (tick first k) := by
      unfold InDay
      unfold InHour at hin
      omega
    refine ⟨k, ⟨hday, (enters_vacuum (h k)).2 ⟨hminute, (hourOf_eq_zero hday).2 hin⟩⟩, fun k' hk' => ?_⟩
    obtain ⟨hminute', hhour'⟩ := (enters_vacuum (h k')).1 hk'.2
    have hin' := (hourOf_eq_zero hk'.1).1 hhour'
    exact tick_injective ⟨hin'.1, (minuteOf_eq_zero hin').1 hminute'⟩ ⟨hin.1, (minuteOf_eq_zero hin).1 hminute⟩
  · refine ⟨fun henters => hphase ?_, fun henters => hphase ?_⟩
    · exact lt_of_minuteOf_tick ((enters_optimize (h k)).1 henters)
    · exact lt_of_minuteOf_tick ((enters_vacuum (h k)).1 henters).1

/-- The two merges, and as many completions as the longest way has. -/
def everyTask : List MicrobatchTask := .mergeSilver :: .mergeQuarantine :: List.replicate 13 .state

/-- The completions that the longest way from a state past the merges takes. -/
def statesLeft : Microbatch → Nat
  | .silverAndQuarantine _ _     => 14
  | .mergeGold                   => 13
  | .deriveMaintenanceClock      => 12
  | .isTopOfHour                 => 11
  | .optimizeSilverTrades        => 10
  | .optimizeQuarantine          => 9
  | .optimizeGold                => 8
  | .optimizeNativeHealthMetrics => 7
  | .isTopOfDay                  => 6
  | .vacuumSilverTrades          => 5
  | .vacuumQuarantine            => 4
  | .vacuumGold                  => 3
  | .vacuumNativeHealthMetrics   => 2
  | .collectHealthMetrics        => 1

/-- Past the merges each completion leads on. -/
theorem completes_state (startTime : StartTime) (state : Microbatch) (h : statesLeft state ≤ 13) :
    microbatch.definition.completes startTime state .state = .finishes ∨
      ∃ state', microbatch.definition.completes startTime state .state = .next state' ∧
        statesLeft state' < statesLeft state := by
  cases state with
  | silverAndQuarantine mergeSilver mergeQuarantine => exact absurd h (show ¬ 14 ≤ 13 by decide)
  | collectHealthMetrics => exact Or.inl rfl
  | isTopOfHour =>
    refine Or.inr ⟨_, rfl, ?_⟩
    by_cases hm : startTime.minute = "00" <;> simp [hm, statesLeft]
  | isTopOfDay =>
    refine Or.inr ⟨_, rfl, ?_⟩
    by_cases hh : startTime.hour = "00" <;> simp [hh, statesLeft]
  | _ => exact Or.inr ⟨_, rfl, by decide⟩

/-- **Enough completions end an execution** that is past the merges. -/
theorem after_states (startTime : StartTime) : ∀ (n : Nat) (state : Microbatch), statesLeft state ≤ 13 →
    statesLeft state ≤ n → (⟨startTime, .guarded state⟩ : MachineExecution Microbatch).after microbatch.definition
      (List.replicate n .state) = ⟨startTime, .ended⟩
  | 0, state, _, hn => by cases state <;> cases hn
  | n + 1, state, hpast, hn => by
    have hended : ∀ m, (⟨startTime, .ended⟩ : MachineExecution Microbatch).after microbatch.definition
        (List.replicate m .state) = ⟨startTime, .ended⟩ := by
      intro m
      induction m with
      | zero => rfl
      | succ m ih => exact ih
    rw [List.replicate_succ]
    show MachineExecution.after _ (MachineExecution.completed _ _ _) _ = _
    rcases completes_state startTime state hpast with hfinishes | ⟨state', hnext, hlt⟩
    · have hcompleted : (⟨startTime, .guarded state⟩ : MachineExecution Microbatch).completed microbatch.definition .state =
          ⟨startTime, .ended⟩ := by
        simp only [MachineExecution.completed, hfinishes]
      rw [hcompleted]
      exact hended n
    · have hcompleted : (⟨startTime, .guarded state⟩ : MachineExecution Microbatch).completed microbatch.definition .state =
          ⟨startTime, .guarded state'⟩ := by
        simp only [MachineExecution.completed, hnext]
      rw [hcompleted]
      exact after_states startTime n state' (by omega) (by omega)

theorem after_everyTask (startTime : StartTime) :
    (admitted microbatch.definition startTime).after microbatch.definition everyTask = ⟨startTime, .ended⟩ :=
  after_states startTime 13 .mergeGold (Nat.le_refl 13) (Nat.le_refl 13)

theorem runsOut_everyTask (ms : Nat) : RunsOut (isoInstant ms) everyTask := by
  refine ⟨_, deriveMaintenanceClock_isoInstant ms, fun task => ?_⟩
  rw [after_everyTask]
  rfl

/-- 2026-08-18, the first tick at half a minute past midnight. -/
theorem maintenanceCadence_iff_halfMinute : KeepsCadence 1787011230000 (fun _ => everyTask) :=
  (maintenanceCadence_iff 1787011230000 (fun _ => everyTask) (fun _ => runsOut_everyTask _)).1.2 (by decide)

/-- The schedule's first tick at 2026-08-18T00:02:00Z: nothing is optimized in any hour. -/
theorem tables_never_maintained : isoInstant 1787011320000 = "2026-08-18T00:02:00.000Z" ∧
    (∀ k, RunsOut (isoInstant (tick 1787011320000 k)) everyTask) ∧
    ¬ KeepsCadence 1787011320000 (fun _ => everyTask) := by
  refine ⟨by decide +kernel, fun k => runsOut_everyTask _, fun hkeeps => ?_⟩
  obtain ⟨k, ⟨-, henters⟩, -⟩ := hkeeps.1 1787011320000 (by decide)
  have hphase := lt_of_minuteOf_tick ((enters_optimize (runsOut_everyTask _)).1 henters)
  exact absurd hphase (by decide)

end Awsnative
