import RealtimeFinance.Awsnative.Classification
import RealtimeFinance.Awsnative.OverlapGuard
import RealtimeFinance.Awsnative.SilverKeys
import RealtimeFinance.StepFunctions.Progress
/-!
# MicrobatchRuns — the executions of the micro-batch over the lake

The guarded machine of `OverlapGuard` and the lake side by side: what an execution is waiting for are attempts of a query,
and each attempt may commit and succeed, commit and be reported as failed, or commit nothing.  `athena_retry` makes three
more attempts of a failed one, and the execution fails with the last.  Whatever its executions do, the machine is still
the guarded one (`Stage.executions_run`) and the lake has run some statements one by one (`Stage.lake_run`).
-/
namespace Awsnative

open Runs Sql StepFunctions

/-! ## The stage -/

/-- The queries that write one of the three tables. -/
inductive Query
  | mergeSilver
  | mergeQuarantine
  | mergeGold
  | optimizeSilverTrades
  deriving DecidableEq

/-- What a task of a state runs, where it is not done yet. -/
def queryOf : Microbatch → MicrobatchTask → Option Query
  | .silverAndQuarantine true _, .mergeSilver     => some .mergeSilver
  | .silverAndQuarantine _ true, .mergeQuarantine => some .mergeQuarantine
  | .mergeGold, .state                            => some .mergeGold
  | .optimizeSilverTrades, .state                 => some .optimizeSilverTrades
  | _, _                                          => none

def Query.statement (lookbackDays : Nat) (now : Int) (bronze : List BronzeRow) (rewritten : List SilverRow) : Query → Statement
  | .mergeSilver          => .mergeSilverTrades now lookbackDays bronze
  | .mergeQuarantine      => .mergeSilverQuarantine now lookbackDays bronze
  | .mergeGold            => .mergeGoldBars1m now lookbackDays bronze
  | .optimizeSilverTrades => .optimizeSilverTrades rewritten

inductive QueryAttempt
  | succeeds
  /-- The commit landed, and the task failed or timed out all the same. -/
  | commitsAndFails
  | fails

/-- `failed` has each failed attempt of a query, by its execution. -/
structure Stage where
  executions : List (MachineExecution Microbatch)
  failed : List (Nat × Query)
  clock : Int
  bronze : List BronzeRow
  lake : Lake

def Stage.start : Stage := { executions := [], failed := [], clock := 0, bronze := [], lake := Lake.empty }

inductive StageEvent
  | ticks (millis : Nat)
  /-- Firehose adds rows to Bronze. -/
  | lands (rows : List BronzeRow)
  | starts (startTime : StartTime)
  | counts (execution : Nat)
  | chooses (execution : Nat)
  /-- With the order in which the query scans Bronze, and the one in which `OPTIMIZE` leaves Silver. -/
  | attempts (execution : Nat) (task : MicrobatchTask) (attempt : QueryAttempt) (scan : List BronzeRow) (rewritten : List SilverRow)
  /-- A state that writes none of the tables. -/
  | passes (execution : Nat)
  | stops (execution : Nat)
  /-- A statement of a backfill, of someone at a console, or of an attempt that nobody waits for any more. -/
  | writes (st : Statement)

/-- `MaxAttempts` of `athena_retry`. -/
def maxAttempts : Nat := 3

def Stage.queryOf (s : Stage) (i : Nat) (task : MicrobatchTask) : Option Query :=
  (guardedState s.executions i).bind (fun state => Awsnative.queryOf state task)

def Stage.moved (s : Stage) (e : Event MicrobatchTask) : Stage :=
  { s with executions := StepFunctions.step microbatch.definition s.executions e }

def Stage.failedAttempt (s : Stage) (i : Nat) (q : Query) : Stage :=
  let s' := { s with failed := (i, q) :: s.failed }
  if maxAttempts < s'.failed.count (i, q) then s'.moved (.stops i) else s'

/-- What a query scans of Bronze. -/
def Stage.scanned (s : Stage) (scan : List BronzeRow) : List BronzeRow := if scan.isPerm s.bronze then scan else s.bronze

theorem Stage.scanned_perm (s : Stage) (scan : List BronzeRow) : (s.scanned scan).Perm s.bronze := by
  unfold Stage.scanned
  split
  · rename_i h
    exact List.isPerm_iff.1 h
  · exact List.Perm.refl _

section Steps

variable (hexMd5 : String → String) (lookbackDays : Nat)

def Stage.wrote (s : Stage) (st : Statement) : Stage := { s with lake := s.lake.step hexMd5 st }

def Stage.attempted (s : Stage) (i : Nat) (task : MicrobatchTask) (attempt : QueryAttempt) (scan : List BronzeRow)
    (rewritten : List SilverRow) : Stage :=
  match s.queryOf i task with
  | none   => s
  | some q =>
    let st := q.statement lookbackDays s.clock (s.scanned scan) rewritten
    match attempt with
    | .fails           => s.failedAttempt i q
    | .commitsAndFails => (s.wrote hexMd5 st).failedAttempt i q
    | .succeeds        => if s.lake.commits hexMd5 st then (s.wrote hexMd5 st).moved (.completes i task) else s.failedAttempt i q

def Stage.step (s : Stage) : StageEvent → Stage
  | .ticks millis    => { s with clock := s.clock + millis }
  | .lands rows      => { s with bronze := s.bronze ++ rows }
  | .starts start    => s.moved (.starts start)
  | .counts i        => s.moved (.counts i)
  | .chooses i       => s.moved (.chooses i)
  | .attempts i task attempt scan rewritten => s.attempted hexMd5 lookbackDays i task attempt scan rewritten
  | .passes i        => if s.queryOf i .state = none then s.moved (.completes i .state) else s
  | .stops i         => s.moved (.stops i)
  | .writes st       => s.wrote hexMd5 st

def Stage.run (es : List StageEvent) : Stage := es.foldl (Stage.step hexMd5 lookbackDays) Stage.start

/-! ## What a step can do -/

variable {hexMd5 lookbackDays} {s : Stage} {e : StageEvent} {i : Nat} {q : Query}

@[simp] theorem Stage.failedAttempt_lake : (s.failedAttempt i q).lake = s.lake := by
  unfold Stage.failedAttempt
  simp only
  split <;> rfl

@[simp] theorem Stage.failedAttempt_clock : (s.failedAttempt i q).clock = s.clock := by
  unfold Stage.failedAttempt
  simp only
  split <;> rfl

@[simp] theorem Stage.failedAttempt_bronze : (s.failedAttempt i q).bronze = s.bronze := by
  unfold Stage.failedAttempt
  simp only
  split <;> rfl

theorem Stage.failedAttempt_executions (s : Stage) : (s.failedAttempt i q).executions = s.executions ∨
    (s.failedAttempt i q).executions = StepFunctions.step microbatch.definition s.executions (.stops i) := by
  unfold Stage.failedAttempt
  simp only
  split
  · exact Or.inr rfl
  · exact Or.inl rfl

/-- **What an attempt can do**: nothing, fail with or without its commit, or commit and complete its task. -/
theorem Stage.attempted_cases (s : Stage) (i : Nat) (task : MicrobatchTask) (attempt : QueryAttempt) (scan : List BronzeRow)
    (rewritten : List SilverRow) :
    (s.queryOf i task = none ∧ s.attempted hexMd5 lookbackDays i task attempt scan rewritten = s) ∨
    ∃ q, s.queryOf i task = some q ∧
      (s.attempted hexMd5 lookbackDays i task attempt scan rewritten = s.failedAttempt i q ∨
       s.attempted hexMd5 lookbackDays i task attempt scan rewritten =
        (s.wrote hexMd5 (q.statement lookbackDays s.clock (s.scanned scan) rewritten)).failedAttempt i q ∨
       (s.lake.commits hexMd5 (q.statement lookbackDays s.clock (s.scanned scan) rewritten) = true ∧
        s.attempted hexMd5 lookbackDays i task attempt scan rewritten =
          (s.wrote hexMd5 (q.statement lookbackDays s.clock (s.scanned scan) rewritten)).moved (.completes i task))) := by
  unfold Stage.attempted
  cases hq : s.queryOf i task with
  | none => exact Or.inl ⟨rfl, rfl⟩
  | some q =>
    refine Or.inr ⟨q, rfl, ?_⟩
    cases attempt with
    | fails => exact Or.inl rfl
    | commitsAndFails => exact Or.inr (Or.inl rfl)
    | succeeds =>
      simp only
      split
      · rename_i hc
        exact Or.inr (Or.inr ⟨hc, rfl⟩)
      · exact Or.inl rfl

theorem Stage.step_attempts (s : Stage) (i : Nat) (task : MicrobatchTask) (attempt : QueryAttempt) (scan : List BronzeRow)
    (rewritten : List SilverRow) : s.step hexMd5 lookbackDays (.attempts i task attempt scan rewritten) =
      s.attempted hexMd5 lookbackDays i task attempt scan rewritten := rfl

theorem Stage.step_passes (s : Stage) (i : Nat) : s.step hexMd5 lookbackDays (.passes i) = s ∨
    (s.queryOf i .state = none ∧ s.step hexMd5 lookbackDays (.passes i) = s.moved (.completes i .state)) := by
  cases hq : s.queryOf i .state with
  | none => exact Or.inr ⟨rfl, if_pos hq⟩
  | some q => exact Or.inl (if_neg (by rw [hq]; exact Option.some_ne_none q))

variable (hexMd5 lookbackDays) in
/-- **The executions take a step of the guarded machine, or none.** -/
theorem Stage.step_executions (s : Stage) (e : StageEvent) :
    (s.step hexMd5 lookbackDays e).executions = s.executions ∨
    ∃ e', (s.step hexMd5 lookbackDays e).executions = StepFunctions.step microbatch.definition s.executions e' := by
  cases e with
  | ticks | lands | writes => exact Or.inl rfl
  | starts startTime => exact Or.inr ⟨.starts startTime, rfl⟩
  | counts i => exact Or.inr ⟨.counts i, rfl⟩
  | chooses i => exact Or.inr ⟨.chooses i, rfl⟩
  | stops i => exact Or.inr ⟨.stops i, rfl⟩
  | passes i =>
    rcases s.step_passes i with h | ⟨-, h⟩
    · exact Or.inl (congrArg Stage.executions h)
    · exact Or.inr ⟨.completes i .state, congrArg Stage.executions h⟩
  | attempts i task attempt scan rewritten =>
    rcases s.attempted_cases i task attempt scan rewritten with ⟨-, h⟩ | ⟨q, -, h | h | ⟨-, h⟩⟩
    · exact Or.inl (congrArg Stage.executions h)
    · rw [Stage.step_attempts, h]
      exact s.failedAttempt_executions.imp_right (fun h => ⟨_, h⟩)
    · rw [Stage.step_attempts, h]
      exact (Stage.failedAttempt_executions (s.wrote hexMd5 _)).imp_right (fun h => ⟨_, h⟩)
    · exact Or.inr ⟨.completes i task, congrArg Stage.executions h⟩

variable (hexMd5 lookbackDays) in
/-- **The lake takes a step of one statement, or none.** -/
theorem Stage.step_lake (s : Stage) (e : StageEvent) :
    (s.step hexMd5 lookbackDays e).lake = s.lake ∨ ∃ st, (s.step hexMd5 lookbackDays e).lake = s.lake.step hexMd5 st := by
  cases e with
  | ticks | lands | starts | counts | chooses | stops => exact Or.inl rfl
  | writes st => exact Or.inr ⟨st, rfl⟩
  | passes i =>
    refine Or.inl ?_
    rcases s.step_passes i with h | ⟨-, h⟩
    · rw [h]
    · rw [h]
      rfl
  | attempts i task attempt scan rewritten =>
    rcases s.attempted_cases i task attempt scan rewritten with ⟨-, h⟩ | ⟨q, -, h | h | ⟨-, h⟩⟩
    · exact Or.inl (congrArg Stage.lake h)
    · rw [Stage.step_attempts, h]
      exact Or.inl Stage.failedAttempt_lake
    · rw [Stage.step_attempts, h]
      exact Or.inr ⟨_, Stage.failedAttempt_lake⟩
    · exact Or.inr ⟨_, congrArg Stage.lake h⟩

/-- Neither Bronze nor the clock is the machine's. -/
theorem Stage.step_frame (s : Stage) (e : StageEvent) (hl : ∀ rows, e ≠ .lands rows) (ht : ∀ millis, e ≠ .ticks millis) :
    (s.step hexMd5 lookbackDays e).bronze = s.bronze ∧ (s.step hexMd5 lookbackDays e).clock = s.clock := by
  cases e with
  | lands rows => exact absurd rfl (hl rows)
  | ticks millis => exact absurd rfl (ht millis)
  | starts | counts | chooses | stops | writes => exact ⟨rfl, rfl⟩
  | passes i =>
    rcases s.step_passes i with h | ⟨-, h⟩
    · rw [h]
      exact ⟨rfl, rfl⟩
    · rw [h]
      exact ⟨rfl, rfl⟩
  | attempts i task attempt scan rewritten =>
    rw [Stage.step_attempts]
    rcases s.attempted_cases i task attempt scan rewritten with ⟨-, h⟩ | ⟨q, -, h | h | ⟨-, h⟩⟩
    · rw [h]
      exact ⟨rfl, rfl⟩
    · rw [h]
      exact ⟨Stage.failedAttempt_bronze, Stage.failedAttempt_clock⟩
    · rw [h]
      exact ⟨Stage.failedAttempt_bronze, Stage.failedAttempt_clock⟩
    · rw [h]
      exact ⟨rfl, rfl⟩

theorem Stage.mem_step_bronze (e : StageEvent) {b : BronzeRow} (h : b ∈ s.bronze) : b ∈ (s.step hexMd5 lookbackDays e).bronze := by
  cases e with
  | lands rows => exact List.mem_append_left _ h
  | ticks => exact h
  | starts | counts | chooses | attempts | passes | stops | writes =>
    rw [(s.step_frame _ (fun _ he => by cases he) (fun _ he => by cases he)).1]
    exact h

theorem Stage.step_clock (s : Stage) (e : StageEvent) : s.clock ≤ (s.step hexMd5 lookbackDays e).clock := by
  cases e with
  | ticks millis => exact Int.le_add_of_nonneg_right (Int.natCast_nonneg millis)
  | lands => exact Int.le_refl _
  | starts | counts | chooses | attempts | passes | stops | writes =>
    exact Int.le_of_eq (s.step_frame _ (fun _ he => by cases he) (fun _ he => by cases he)).2.symm

theorem Stage.moved_state {e : Event MicrobatchTask} {state : Microbatch} (h : guardedState (s.moved e).executions i = some state) :
    guardedState s.executions i = some state ∨
    (guardedState s.executions i = none ∧ state = .silverAndQuarantine true true) ∨
    ∃ before task startTime, e = .completes i task ∧ guardedState s.executions i = some before ∧
      microbatch.definition.completes startTime before task = .next state :=
  guardedState_step (show guardedState (StepFunctions.step microbatch.definition s.executions e) i = some state from h)

/-- **How an execution comes into a state**: it was there, it passed the guard, or its task was done — a task without a
query, or one whose query was committed. -/
theorem Stage.step_state {state : Microbatch} (h : guardedState (s.step hexMd5 lookbackDays e).executions i = some state) :
    guardedState s.executions i = some state ∨
    (guardedState s.executions i = none ∧ state = .silverAndQuarantine true true) ∨
    ∃ before task startTime, guardedState s.executions i = some before ∧
      microbatch.definition.completes startTime before task = .next state ∧
      ((task = .state ∧ Awsnative.queryOf before task = none) ∨
        ∃ q scan rewritten, Awsnative.queryOf before task = some q ∧ scan.Perm s.bronze ∧
          s.lake.commits hexMd5 (q.statement lookbackDays s.clock scan rewritten) = true ∧
          (s.step hexMd5 lookbackDays e).lake = s.lake.step hexMd5 (q.statement lookbackDays s.clock scan rewritten)) := by
  have hmoved : ∀ e', (∀ k task, e' ≠ .completes k task) →
      guardedState (s.moved e').executions i = some state →
      guardedState s.executions i = some state ∨
        (guardedState s.executions i = none ∧ state = .silverAndQuarantine true true) := by
    intro e' he' h
    rcases Stage.moved_state h with h | h | ⟨before, task, startTime, heq, -⟩
    · exact Or.inl h
    · exact Or.inr h
    · exact absurd heq (he' i task)
  have hfailed : ∀ (s' : Stage) (k : Nat) (q : Query), s'.executions = s.executions →
      guardedState (s'.failedAttempt k q).executions i = some state →
      guardedState s.executions i = some state ∨
        (guardedState s.executions i = none ∧ state = .silverAndQuarantine true true) := by
    intro s' k q hs' h
    rcases s'.failedAttempt_executions (i := k) (q := q) with hx | hx
    · rw [hx, hs'] at h
      exact Or.inl h
    · rw [hx, hs'] at h
      exact hmoved (.stops k) (fun _ _ he => by cases he) h
  cases e with
  | ticks | lands | writes => exact Or.inl h
  | starts startTime => exact (hmoved (.starts startTime) (fun _ _ he => by cases he) h).imp_right Or.inl
  | counts k => exact (hmoved (.counts k) (fun _ _ he => by cases he) h).imp_right Or.inl
  | chooses k => exact (hmoved (.chooses k) (fun _ _ he => by cases he) h).imp_right Or.inl
  | stops k => exact (hmoved (.stops k) (fun _ _ he => by cases he) h).imp_right Or.inl
  | passes k =>
    rcases s.step_passes k with hp | ⟨hquery, hp⟩
    · rw [hp] at h
      exact Or.inl h
    · rw [hp] at h
      rcases Stage.moved_state h with h | h | ⟨before, task, startTime, heq, hbefore, hnext⟩
      · exact Or.inl h
      · exact Or.inr (Or.inl h)
      · cases heq
        rw [Stage.queryOf, hbefore] at hquery
        exact Or.inr (Or.inr ⟨before, .state, startTime, hbefore, hnext, Or.inl ⟨rfl, hquery⟩⟩)
  | attempts k task attempt scan rewritten =>
    rw [Stage.step_attempts] at h ⊢
    rcases s.attempted_cases k task attempt scan rewritten with ⟨-, ha⟩ | ⟨q, hq, ha | ha | ⟨hc, ha⟩⟩
    · rw [ha] at h
      exact Or.inl h
    · rw [ha] at h
      exact (hfailed s k q rfl h).imp_right Or.inl
    · rw [ha] at h
      exact (hfailed (s.wrote hexMd5 _) k q rfl h).imp_right Or.inl
    · rw [ha] at h ⊢
      rcases Stage.moved_state h with h | h | ⟨before, task', startTime, heq, hbefore, hnext⟩
      · exact Or.inl h
      · exact Or.inr (Or.inl h)
      · cases heq
        have hbefore : guardedState s.executions i = some before := hbefore
        rw [Stage.queryOf, hbefore] at hq
        exact Or.inr (Or.inr ⟨before, task, startTime, hbefore, hnext, Or.inr ⟨q, s.scanned scan, rewritten, hq,
          s.scanned_perm scan, hc, rfl⟩⟩)

/-! ## Runs -/

variable (hexMd5 lookbackDays) in
/-- **The executions are a run of the guarded machine.** -/
theorem Stage.executions_run (es : List StageEvent) :
    ∃ events, (Stage.run hexMd5 lookbackDays es).executions = StepFunctions.run microbatch.definition events := by
  refine run_invariant (I := fun s : Stage => ∃ events, s.executions = StepFunctions.run microbatch.definition events)
    (fun s e => ?_) es ⟨[], rfl⟩
  rintro ⟨events, hevents⟩
  rcases s.step_executions hexMd5 lookbackDays e with h | ⟨e', h⟩
  · exact ⟨events, h.trans hevents⟩
  · refine ⟨events ++ [e'], ?_⟩
    rw [h, hevents, StepFunctions.run, StepFunctions.run, List.foldl_append]
    rfl

variable (hexMd5 lookbackDays) in
/-- **The lake is a run of statements.** -/
theorem Stage.lake_run (es : List StageEvent) :
    ∃ statements, (Stage.run hexMd5 lookbackDays es).lake = Lake.empty.run hexMd5 statements := by
  refine run_invariant (I := fun s : Stage => ∃ statements, s.lake = Lake.empty.run hexMd5 statements)
    (fun s e => ?_) es ⟨[], rfl⟩
  rintro ⟨statements, hstatements⟩
  rcases s.step_lake hexMd5 lookbackDays e with h | ⟨st, h⟩
  · exact ⟨statements, h.trans hstatements⟩
  · refine ⟨statements ++ [st], ?_⟩
    rw [h, hstatements, Lake.run_append]
    rfl

/-! ## Attempts -/

/-- No query of an execution has failed more often than it may, and one that has failed so often has ended it. -/
structure Stage.Bounded (s : Stage) : Prop where
  attempts : ∀ i q, s.failed.count (i, q) ≤ maxAttempts + 1
  last : ∀ i q, s.failed.count (i, q) = maxAttempts + 1 → Ended s.executions i

theorem Stage.Bounded.moved (h : s.Bounded) (e : Event MicrobatchTask) : (s.moved e).Bounded where
  attempts := h.attempts
  last i q hq := (h.last i q hq).step e

theorem Stage.Bounded.failedAttempt (h : s.Bounded) {state : Microbatch} (hstate : guardedState s.executions i = some state)
    (q : Query) : (s.failedAttempt i q).Bounded := by
  have hopen : s.failed.count (i, q) < maxAttempts + 1 := by
    refine Nat.lt_of_le_of_ne (h.attempts i q) (fun heq => ?_)
    have hnone := (h.last i q heq).guardedState
    rw [hstate] at hnone
    cases hnone
  have hself : ((i, q) :: s.failed).count (i, q) = s.failed.count (i, q) + 1 := List.count_cons_self
  have hother : ∀ j r, (j, r) ≠ (i, q) → ((i, q) :: s.failed).count (j, r) = s.failed.count (j, r) := fun j r hne =>
    List.count_cons_of_ne (Ne.symm hne)
  have hattempts : ∀ j r, ((i, q) :: s.failed).count (j, r) ≤ maxAttempts + 1 := by
    intro j r
    by_cases hjr : (j, r) = (i, q)
    · rw [hjr, hself]
      exact hopen
    · rw [hother j r hjr]
      exact h.attempts j r
  unfold Stage.failedAttempt
  simp only
  split
  · refine ⟨hattempts, fun j r hcount => ?_⟩
    by_cases hjr : (j, r) = (i, q)
    · cases hjr
      have hended : Ended (StepFunctions.step microbatch.definition s.executions (.stops i)) i := ended_stops hstate
      exact hended
    · have hended : Ended (StepFunctions.step microbatch.definition s.executions (.stops i)) j :=
        (h.last j r ((hother j r hjr).symm.trans hcount)).step _
      exact hended
  · rename_i hle
    refine ⟨hattempts, fun j r hcount => ?_⟩
    by_cases hjr : (j, r) = (i, q)
    · cases hjr
      have hcount : ((i, q) :: s.failed).count (i, q) = maxAttempts + 1 := hcount
      omega
    · exact h.last j r ((hother j r hjr).symm.trans hcount)

theorem Stage.Bounded.step (h : s.Bounded) (e : StageEvent) : (s.step hexMd5 lookbackDays e).Bounded := by
  cases e with
  | ticks | lands | writes => exact ⟨h.attempts, h.last⟩
  | starts startTime => exact h.moved (.starts startTime)
  | counts k => exact h.moved (.counts k)
  | chooses k => exact h.moved (.chooses k)
  | stops k => exact h.moved (.stops k)
  | passes k =>
    rcases s.step_passes k with hp | ⟨-, hp⟩
    · rw [hp]
      exact h
    · rw [hp]
      exact h.moved _
  | attempts k task attempt scan rewritten =>
    rw [Stage.step_attempts]
    rcases s.attempted_cases k task attempt scan rewritten with ⟨-, ha⟩ | ⟨q, hq, ha | ha | ⟨-, ha⟩⟩
    · rw [ha]
      exact h
    · obtain ⟨state, hstate, -⟩ := Option.bind_eq_some_iff.1 hq
      rw [ha]
      exact h.failedAttempt hstate q
    · obtain ⟨state, hstate, -⟩ := Option.bind_eq_some_iff.1 hq
      have hwrote : (s.wrote hexMd5 (q.statement lookbackDays s.clock (s.scanned scan) rewritten)).Bounded := ⟨h.attempts, h.last⟩
      rw [ha]
      exact hwrote.failedAttempt hstate q
    · have hwrote : (s.wrote hexMd5 (q.statement lookbackDays s.clock (s.scanned scan) rewritten)).Bounded := ⟨h.attempts, h.last⟩
      rw [ha]
      exact hwrote.moved _

/-- **A query of an execution fails at most four times**, and with the fourth the execution is over for good. -/
theorem Stage.run_bounded (es : List StageEvent) : (Stage.run hexMd5 lookbackDays es).Bounded :=
  run_invariant (I := Stage.Bounded) (fun _ e h => h.step e) es
    ⟨fun _ _ => Nat.zero_le _, fun _ _ hcount => by cases hcount⟩

/-- **Blind retries are safe**: whatever fails, with or without its commit, one execution at a time is past the guard, and
no `(venue, trade_id)` is in Silver twice. -/
theorem Stage.run_safe (es : List StageEvent) : Exclusive (Stage.run hexMd5 lookbackDays es).executions ∧
    UniqueKeys SilverRow.key fullKey (Stage.run hexMd5 lookbackDays es).lake.silver := by
  obtain ⟨events, hevents⟩ := Stage.executions_run hexMd5 lookbackDays es
  obtain ⟨statements, hstatements⟩ := Stage.lake_run hexMd5 lookbackDays es
  rw [hevents, hstatements]
  exact ⟨run_exclusive microbatch.definition events, uniqueKeys_run hexMd5 statements⟩

end Steps

end Awsnative
