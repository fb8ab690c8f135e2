import Mathlib.Data.List.Nodup
import RealtimeFinance.StepFunctions.Executions
/-!
# OverlapGuard — the micro-batch machine and the enrichment merges behind the one guard

Each definition as Terraform writes it, from the guard's `Default` on.  A state that is running a MERGE names the table
it merges into; the two branches of `SilverAndQuarantine` run side by side and name different ones.  So with one
execution past the guard at a time, no table has two MERGEs into it at once (`overlapGuard`).
-/
namespace Awsnative

open StepFunctions

inductive Table
  | silverTrades
  | silverTradesQuarantine
  | goldBars1m
  | silverPerpContext
  | silverMacro
  deriving DecidableEq

/-- A machine's states, with the MERGEs each of them runs. -/
structure MergeMachine (β τ : Type) where
  definition : Definition β τ
  merging : β → List Table

inductive Microbatch
  /-- Which of the two branches have not completed yet. -/
  | silverAndQuarantine (mergeSilver mergeQuarantine : Bool)
  | mergeGold
  | deriveMaintenanceClock
  | isTopOfHour
  | optimizeSilverTrades
  | optimizeQuarantine
  | optimizeGold
  | optimizeNativeHealthMetrics
  | isTopOfDay
  | vacuumSilverTrades
  | vacuumQuarantine
  | vacuumGold
  | vacuumNativeHealthMetrics
  | collectHealthMetrics
  deriving DecidableEq

/-- What completes: a branch of `SilverAndQuarantine`, or the one state the execution is in. -/
inductive MicrobatchTask
  | mergeSilver
  | mergeQuarantine
  | state
  deriving DecidableEq

def silverAndQuarantine : Bool → Bool → Transition Microbatch
  | false, false              => .next .mergeGold
  | mergeSilver, mergeQuarantine => .next (.silverAndQuarantine mergeSilver mergeQuarantine)

def microbatch : MergeMachine Microbatch MicrobatchTask where
  definition :=
    { default := .silverAndQuarantine true true
      completes := fun startTime state task => match state, task with
        | .silverAndQuarantine _ mergeQuarantine, .mergeSilver => silverAndQuarantine false mergeQuarantine
        | .silverAndQuarantine mergeSilver _, .mergeQuarantine => silverAndQuarantine mergeSilver false
        | .silverAndQuarantine _ _, .state                     => .stays
        | _, .mergeSilver                                      => .stays
        | _, .mergeQuarantine                                  => .stays
        | .mergeGold, .state                                   => .next .deriveMaintenanceClock
        | .deriveMaintenanceClock, .state                      => .next .isTopOfHour
        | .isTopOfHour, .state                                 =>
          .next (if startTime.minute = "00" then .optimizeSilverTrades else .collectHealthMetrics)
        | .optimizeSilverTrades, .state                        => .next .optimizeQuarantine
        | .optimizeQuarantine, .state                          => .next .optimizeGold
        | .optimizeGold, .state                                => .next .optimizeNativeHealthMetrics
        | .optimizeNativeHealthMetrics, .state                 => .next .isTopOfDay
        | .isTopOfDay, .state                                  =>
          .next (if startTime.hour = "00" then .vacuumSilverTrades else .collectHealthMetrics)
        | .vacuumSilverTrades, .state                          => .next .vacuumQuarantine
        | .vacuumQuarantine, .state                            => .next .vacuumGold
        | .vacuumGold, .state                                  => .next .vacuumNativeHealthMetrics
        | .vacuumNativeHealthMetrics, .state                   => .next .collectHealthMetrics
        | .collectHealthMetrics, .state                        => .finishes }
  merging
    | .silverAndQuarantine mergeSilver mergeQuarantine =>
      (if mergeSilver then [.silverTrades] else []) ++ if mergeQuarantine then [.silverTradesQuarantine] else []
    | .mergeGold => [.goldBars1m]
    | _          => []

inductive MergePerp
  | mergePerpContext
  | deriveMaintenanceClock
  | isTopOfHour
  | optimizeSilverPerpContext
  | isTopOfDay
  | vacuumSilverPerpContext
  | collectHealthMetrics
  deriving DecidableEq

def mergePerp : MergeMachine MergePerp Unit where
  definition :=
    { default := .mergePerpContext
      completes := fun startTime state _ => match state with
        | .mergePerpContext          => .next .deriveMaintenanceClock
        | .deriveMaintenanceClock    => .next .isTopOfHour
        | .isTopOfHour               =>
          .next (if startTime.minute = "00" then .optimizeSilverPerpContext else .collectHealthMetrics)
        | .optimizeSilverPerpContext => .next .isTopOfDay
        | .isTopOfDay                =>
          .next (if startTime.hour = "00" then .vacuumSilverPerpContext else .collectHealthMetrics)
        | .vacuumSilverPerpContext   => .next .collectHealthMetrics
        | .collectHealthMetrics      => .finishes }
  merging
    | .mergePerpContext => [.silverPerpContext]
    | _                 => []

inductive MergeMacro
  | mergeMacro
  | vacuumSilverMacro
  | collectHealthMetrics
  deriving DecidableEq

def mergeMacro : MergeMachine MergeMacro Unit where
  definition :=
    { default := .mergeMacro
      completes := fun _ state _ => match state with
        | .mergeMacro           => .next .vacuumSilverMacro
        | .vacuumSilverMacro    => .next .collectHealthMetrics
        | .collectHealthMetrics => .finishes }
  merging
    | .mergeMacro => [.silverMacro]
    | _           => []

variable {β τ : Type} (machine : MergeMachine β τ)

/-- The MERGEs an execution is running. -/
def MergeMachine.mergingOf (x : MachineExecution β) : List Table :=
  match x.phase with
  | .guarded state => machine.merging state
  | _              => []

/-- Every MERGE running in some execution. -/
def MergeMachine.running (xs : List (MachineExecution β)) : List Table := xs.flatMap machine.mergingOf

theorem MergeMachine.mergingOf_guarded {x : MachineExecution β} {t : Table} (h : t ∈ machine.mergingOf x) :
    x.isGuarded = true := by
  cases x with
  | mk startTime phase => cases phase <;> first | rfl | cases h

/-- **With one execution past the guard, the MERGEs that run are those of one state.** -/
theorem MergeMachine.running_nodup (hstate : ∀ state, (machine.merging state).Nodup) {xs : List (MachineExecution β)}
    (h : Exclusive xs) : (machine.running xs).Nodup := by
  unfold MergeMachine.running
  refine List.nodup_flatMap.2 ⟨fun x _ => ?_, ?_⟩
  · unfold MergeMachine.mergingOf
    cases x.phase with
    | guarded state => exact hstate state
    | countRunningExecutions | alreadyRunning | skippedOverlappingRun | ended => exact List.nodup_nil
  · rw [List.pairwise_iff_getElem]
    intro i j hi hj hij t ht ht'
    have heq := h i j xs[i] xs[j] (List.getElem?_eq_getElem hi) (List.getElem?_eq_getElem hj)
      (machine.mergingOf_guarded ht) (machine.mergingOf_guarded ht')
    omega

theorem microbatch_merging_nodup (state : Microbatch) : (microbatch.merging state).Nodup := by
  cases state with
  | silverAndQuarantine mergeSilver mergeQuarantine => cases mergeSilver <;> cases mergeQuarantine <;> decide
  | _ => decide

theorem mergePerp_running (events : List (Event Unit)) :
    Exclusive (run mergePerp.definition events) ∧ (mergePerp.running (run mergePerp.definition events)).Nodup := by
  have hex := run_exclusive mergePerp.definition events
  exact ⟨hex, mergePerp.running_nodup (fun state => by cases state <;> decide) hex⟩

theorem mergeMacro_running (events : List (Event Unit)) :
    Exclusive (run mergeMacro.definition events) ∧ (mergeMacro.running (run mergeMacro.definition events)).Nodup := by
  have hex := run_exclusive mergeMacro.definition events
  exact ⟨hex, mergeMacro.running_nodup (fun state => by cases state <;> decide) hex⟩

/-- **The overlap guard is mutually exclusive**: over any run of any number of executions of the micro-batch, no two are
past `AlreadyRunning` on its `Default` branch and unfinished, and no table has two MERGEs running into it. -/
theorem overlapGuard (events : List (Event MicrobatchTask)) :
    Exclusive (run microbatch.definition events) ∧ (microbatch.running (run microbatch.definition events)).Nodup := by
  have hex := run_exclusive microbatch.definition events
  exact ⟨hex, microbatch.running_nodup microbatch_merging_nodup hex⟩

/-- Two ticks that overlap: the second lists the first, and skips. -/
example : (run microbatch.definition [.starts ⟨"00", "05"⟩, .counts 0, .chooses 0, .starts ⟨"00", "10"⟩, .counts 1,
    .chooses 1]).map MachineExecution.phase = [.guarded (.silverAndQuarantine true true), .skippedOverlappingRun] := by decide

end Awsnative
