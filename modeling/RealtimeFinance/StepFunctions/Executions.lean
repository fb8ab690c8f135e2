import RealtimeFinance.Runs
/-!
# Executions — the executions of one guarded state machine

Every machine that merges starts with `CountRunningExecutions` and `AlreadyRunning`, and differs only in what its
`Default` leads to.  Executions are numbered as they are started, by the schedule or by hand; one event is a state of
one execution completing, or the execution failing, timing out or being aborted.  A task's retries are within its state.

The guard is a check and then an act, with no lock between them.  What carries it: an execution that listed no other is
one no other was running beside, so nobody else had passed or was about to pass, and whoever lists later sees it.
-/
namespace StepFunctions

open Runs

/-- `$$.Execution.StartTime`, as far as the definitions read it. -/
structure StartTime where
  hour : String
  minute : String
  deriving DecidableEq

/-- What the completion of a task leads to. -/
inductive Transition (β : Type)
  | stays
  | next (state : β)
  | finishes

/-- A machine behind its guard: the guard's `Default`, and the transitions from there. -/
structure Definition (β τ : Type) where
  default : β
  completes : StartTime → β → τ → Transition β

inductive Phase (β : Type)
  | countRunningExecutions
  | alreadyRunning (running : Nat)
  | skippedOverlappingRun
  | guarded (state : β)
  | ended
  deriving DecidableEq

structure MachineExecution (β : Type) where
  startTime : StartTime
  phase : Phase β
  deriving DecidableEq

inductive Event (τ : Type)
  | starts (startTime : StartTime)
  | counts (execution : Nat)
  | chooses (execution : Nat)
  | completes (execution : Nat) (task : τ)
  /-- The skip's `Succeed`, or an execution that fails, times out or is aborted. -/
  | stops (execution : Nat)

variable {β τ : Type}

def MachineExecution.isRunning (x : MachineExecution β) : Bool :=
  match x.phase with
  | .ended => false
  | _      => true

/-- Past `AlreadyRunning` on its `Default` branch, and unfinished. -/
def MachineExecution.isGuarded (x : MachineExecution β) : Bool :=
  match x.phase with
  | .guarded _ => true
  | _          => false

/-- `ListExecutions`, `StatusFilter = RUNNING`. -/
def listExecutions (maxResults : Nat) (xs : List (MachineExecution β)) : List (MachineExecution β) :=
  (xs.filter MachineExecution.isRunning).take maxResults

def MachineExecution.counted (running : Nat) (x : MachineExecution β) : MachineExecution β :=
  match x.phase with
  | .countRunningExecutions => { x with phase := .alreadyRunning running }
  | _                       => x

variable (definition : Definition β τ)

def MachineExecution.chosen (x : MachineExecution β) : MachineExecution β :=
  match x.phase with
  | .alreadyRunning running =>
    { x with phase := if 1 < running then .skippedOverlappingRun else .guarded definition.default }
  | _ => x

def MachineExecution.completed (task : τ) (x : MachineExecution β) : MachineExecution β :=
  match x.phase with
  | .guarded state =>
    match definition.completes x.startTime state task with
    | .stays      => x
    | .next state => { x with phase := .guarded state }
    | .finishes   => { x with phase := .ended }
  | _ => x

def MachineExecution.stopped (x : MachineExecution β) : MachineExecution β := { x with phase := .ended }

def step (xs : List (MachineExecution β)) : Event τ → List (MachineExecution β)
  | .starts startTime       => xs ++ [⟨startTime, .countRunningExecutions⟩]
  | .counts i         => xs.modify i (MachineExecution.counted (listExecutions 2 xs).length)
  | .chooses i        => xs.modify i (MachineExecution.chosen definition)
  | .completes i task => xs.modify i (MachineExecution.completed definition task)
  | .stops i          => xs.modify i MachineExecution.stopped

def run (events : List (Event τ)) : List (MachineExecution β) := events.foldl (step definition) []

/-! ## Mutual exclusion -/

def AtMostOne (p : MachineExecution β → Bool) (xs : List (MachineExecution β)) : Prop :=
  ∀ (i j : Nat) (x y : MachineExecution β), xs[i]? = some x → xs[j]? = some y → p x = true → p y = true → i = j

/-- No two executions are both past the guard. -/
def Exclusive (xs : List (MachineExecution β)) : Prop := AtMostOne MachineExecution.isGuarded xs

/-- Past the guard, or about to pass it: the list it took held no other. -/
def MachineExecution.isAdmitted (x : MachineExecution β) : Bool :=
  match x.phase with
  | .guarded _              => true
  | .alreadyRunning running => decide (running ≤ 1)
  | _                       => false

/-- At most one execution has been admitted and has not finished. -/
def OneAdmitted (xs : List (MachineExecution β)) : Prop := AtMostOne MachineExecution.isAdmitted xs

theorem MachineExecution.isGuarded_admitted {x : MachineExecution β} (h : x.isGuarded = true) : x.isAdmitted = true := by
  cases x with
  | mk startTime phase => cases phase <;> first | rfl | cases h

theorem MachineExecution.isAdmitted_running {x : MachineExecution β} (h : x.isAdmitted = true) : x.isRunning = true := by
  cases x with
  | mk startTime phase => cases phase <;> first | rfl | cases h

theorem OneAdmitted.exclusive {xs : List (MachineExecution β)} (h : OneAdmitted xs) : Exclusive xs := by
  intro i j x y hi hj hx hy
  exact h i j x y hi hj (MachineExecution.isGuarded_admitted hx) (MachineExecution.isGuarded_admitted hy)

/-- **An execution that is not alone is in a list of two**, whichever two `MaxResults` leaves. -/
theorem two_le_listExecutions {xs : List (MachineExecution β)} {i j : Nat} {x y : MachineExecution β} (hij : i < j)
    (hi : xs[i]? = some x) (hj : xs[j]? = some y) (hx : x.isRunning = true) (hy : y.isRunning = true) :
    2 ≤ (listExecutions 2 xs).length := by
  have hsplit : xs = xs.take j ++ xs.drop j := (List.take_append_drop j xs).symm
  have hbefore : x ∈ (xs.take j).filter MachineExecution.isRunning := by
    refine List.mem_filter.2 ⟨?_, hx⟩
    rw [List.mem_iff_getElem?]
    exact ⟨i, by rw [List.getElem?_take_of_lt hij]; exact hi⟩
  have hafter : y ∈ (xs.drop j).filter MachineExecution.isRunning := by
    refine List.mem_filter.2 ⟨?_, hy⟩
    rw [List.mem_iff_getElem?]
    exact ⟨0, by rw [List.getElem?_drop]; exact hj⟩
  have hcount : 2 ≤ (xs.filter MachineExecution.isRunning).length := by
    rw [hsplit, List.filter_append, List.length_append]
    have := List.length_pos_of_mem hbefore
    have := List.length_pos_of_mem hafter
    omega
  unfold listExecutions
  rw [List.length_take]
  omega

/-- A change of one execution that admits it only where no other is running keeps the invariant. -/
theorem OneAdmitted.modify {xs : List (MachineExecution β)} (h : OneAdmitted xs) {k : Nat} {f : MachineExecution β → MachineExecution β}
    (hf : ∀ x, xs[k]? = some x → (f x).isAdmitted = true →
      x.isAdmitted = true ∨ ∀ j y, xs[j]? = some y → y.isRunning = true → j = k) :
    OneAdmitted (xs.modify k f) := by
  have hold : ∀ (i : Nat) (x : MachineExecution β), (xs.modify k f)[i]? = some x → x.isAdmitted = true → i ≠ k → xs[i]? = some x := by
    intro i x hi _ hik
    rw [List.getElem?_modify_ne _ _ (Ne.symm hik)] at hi
    exact hi
  have hnew : ∀ x : MachineExecution β, (xs.modify k f)[k]? = some x → ∃ x', xs[k]? = some x' ∧ f x' = x := by
    intro x hk
    rw [List.getElem?_modify_eq] at hk
    cases hx : xs[k]? with
    | none => rw [hx] at hk; cases hk
    | some x' => rw [hx] at hk; exact ⟨x', rfl, Option.some.inj hk⟩
  have hcross : ∀ (j : Nat) (y x : MachineExecution β), (xs.modify k f)[k]? = some x → x.isAdmitted = true → (xs.modify k f)[j]? = some y →
      y.isAdmitted = true → j = k := by
    intro j y x hk hx hj hy
    by_cases hjk : j = k
    · exact hjk
    · have hy' := hold j y hj hy hjk
      obtain ⟨x', hx', rfl⟩ := hnew x hk
      rcases hf x' hx' hx with hadm | halone
      · exact h j k y x' hy' hx' hy hadm
      · exact halone j y hy' (MachineExecution.isAdmitted_running hy)
  intro i j x y hi hj hx hy
  by_cases hik : i = k
  · subst hik
    exact (hcross j y x hi hx hj hy).symm
  · by_cases hjk : j = k
    · subst hjk
      exact hcross i x y hj hy hi hx
    · exact h i j x y (hold i x hi hx hik) (hold j y hj hy hjk) hx hy

theorem MachineExecution.counted_admitted {running : Nat} {x : MachineExecution β} (h : (x.counted running).isAdmitted = true) :
    x.isAdmitted = true ∨ (x.isRunning = true ∧ running ≤ 1) := by
  cases x with
  | mk startTime phase =>
    cases phase with
    | countRunningExecutions => exact Or.inr ⟨rfl, of_decide_eq_true h⟩
    | alreadyRunning | skippedOverlappingRun | guarded | ended => exact Or.inl h

theorem MachineExecution.chosen_admitted {x : MachineExecution β} (h : (x.chosen definition).isAdmitted = true) :
    x.isAdmitted = true := by
  cases x with
  | mk startTime phase =>
    cases phase with
    | alreadyRunning running =>
      by_cases hr : 1 < running
      · simp [MachineExecution.chosen, hr, MachineExecution.isAdmitted] at h
      · exact decide_eq_true (Nat.not_lt.1 hr)
    | countRunningExecutions | skippedOverlappingRun | guarded | ended => exact h

theorem MachineExecution.completed_admitted {task : τ} {x : MachineExecution β} (h : (x.completed definition task).isAdmitted = true) :
    x.isAdmitted = true := by
  cases x with
  | mk startTime phase =>
    cases phase with
    | guarded state => rfl
    | countRunningExecutions | alreadyRunning | skippedOverlappingRun | ended => exact h

theorem step_oneAdmitted {xs : List (MachineExecution β)} (h : OneAdmitted xs) (e : Event τ) :
    OneAdmitted (step definition xs e) := by
  cases e with
  | starts startTime =>
    have hold : ∀ (i : Nat) (x : MachineExecution β), (xs ++ [⟨startTime, .countRunningExecutions⟩])[i]? = some x → x.isAdmitted = true → xs[i]? = some x := by
      intro i x hi hx
      by_cases hlt : i < xs.length
      · rw [List.getElem?_append_left hlt] at hi
        exact hi
      · rw [List.getElem?_append_right (Nat.not_lt.1 hlt)] at hi
        have hmem := List.mem_of_getElem? hi
        rw [List.mem_singleton] at hmem
        rw [hmem] at hx
        cases hx
    intro i j x y hi hj hx hy
    exact h i j x y (hold i x hi hx) (hold j y hj hy) hx hy
  | counts k =>
    refine h.modify (fun x hk hx => ?_)
    rcases MachineExecution.counted_admitted hx with hadm | ⟨hrun, hle⟩
    · exact Or.inl hadm
    · refine Or.inr (fun j y hj hy => ?_)
      rcases Nat.lt_trichotomy j k with hlt | heq | hlt
      · have := two_le_listExecutions hlt hj hk hy hrun
        omega
      · exact heq
      · have := two_le_listExecutions hlt hk hj hrun hy
        omega
  | chooses k => exact h.modify (fun x _ hx => Or.inl (MachineExecution.chosen_admitted definition hx))
  | completes k task => exact h.modify (fun x _ hx => Or.inl (MachineExecution.completed_admitted definition hx))
  | stops k => exact h.modify (fun x _ hx => by cases hx)

/-- **Over any run of any number of executions, at most one is past the guard.** -/
theorem run_exclusive (events : List (Event τ)) : Exclusive (run definition events) := by
  have hnil : OneAdmitted ([] : List (MachineExecution β)) := fun i j x y hi => by cases hi
  exact (run_invariant (I := OneAdmitted) (fun _ e h => step_oneAdmitted definition h e) events hnil).exclusive

end StepFunctions
