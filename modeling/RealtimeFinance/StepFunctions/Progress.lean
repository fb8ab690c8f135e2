import RealtimeFinance.StepFunctions.Executions
/-!
# Progress — where an execution is, and how it gets there

An execution past its guard is in one state: it came there through `Default` or by completing a task of the state before
(`guardedState_step`).  One that has ended stays so.
-/
namespace StepFunctions

variable {β τ : Type} {definition : Definition β τ} {xs : List (MachineExecution β)} {i : Nat}

/-- The state that an execution past the guard is in. -/
def guardedState (xs : List (MachineExecution β)) (i : Nat) : Option β :=
  match xs[i]? with
  | some ⟨_, .guarded state⟩ => some state
  | _                        => none

def Ended (xs : List (MachineExecution β)) (i : Nat) : Prop := ∃ startTime, xs[i]? = some ⟨startTime, .ended⟩

theorem guardedState_eq_some {state : β} :
    guardedState xs i = some state ↔ ∃ startTime, xs[i]? = some ⟨startTime, .guarded state⟩ := by
  unfold guardedState
  constructor
  · intro h
    split at h
    · rename_i startTime state' hx
      cases h
      exact ⟨startTime, hx⟩
    · cases h
  · rintro ⟨startTime, hx⟩
    rw [hx]

/-- What an execution is after a change of one of them. -/
theorem getElem?_modify_eq_some {k : Nat} {f : MachineExecution β → MachineExecution β} {x : MachineExecution β}
    (h : (xs.modify k f)[i]? = some x) : xs[i]? = some x ∨ (i = k ∧ ∃ x', xs[i]? = some x' ∧ x = f x') := by
  by_cases hik : k = i
  · subst hik
    rw [List.getElem?_modify_eq] at h
    obtain ⟨x', hx', hf⟩ := Option.map_eq_some_iff.1 h
    exact Or.inr ⟨rfl, x', hx', hf.symm⟩
  · rw [List.getElem?_modify_ne _ _ hik] at h
    exact Or.inl h

theorem guardedState_modify {k : Nat} {f : MachineExecution β → MachineExecution β} {state : β}
    (h : guardedState (xs.modify k f) i = some state) : guardedState xs i = some state ∨
      (i = k ∧ ∃ startTime x, xs[i]? = some x ∧ f x = ⟨startTime, .guarded state⟩) := by
  obtain ⟨startTime, hx⟩ := guardedState_eq_some.1 h
  rcases getElem?_modify_eq_some hx with hold | ⟨hk, x, hx, hf⟩
  · exact Or.inl (guardedState_eq_some.2 ⟨startTime, hold⟩)
  · exact Or.inr ⟨hk, startTime, x, hx, hf.symm⟩

/-- **How an execution comes into a state**: it was there, it passed the guard, or it completed a task. -/
theorem guardedState_step {e : Event τ} {state : β} (h : guardedState (step definition xs e) i = some state) :
    guardedState xs i = some state ∨ (guardedState xs i = none ∧ state = definition.default) ∨
    ∃ before task startTime, e = .completes i task ∧ guardedState xs i = some before ∧
      definition.completes startTime before task = .next state := by
  cases e with
  | starts startTime =>
    obtain ⟨startTime', hx⟩ := guardedState_eq_some.1 h
    refine Or.inl (guardedState_eq_some.2 ⟨startTime', ?_⟩)
    rw [step, List.getElem?_append] at hx
    split at hx
    · exact hx
    · have hmem := List.mem_of_getElem? hx
      rw [List.mem_singleton] at hmem
      cases hmem
  | counts k =>
    rcases guardedState_modify h with h | ⟨rfl, startTime', x, hx, hf⟩
    · exact Or.inl h
    · cases x with
      | mk startTime phase =>
        cases phase with
        | guarded before =>
          cases hf
          exact Or.inl (guardedState_eq_some.2 ⟨_, hx⟩)
        | countRunningExecutions | alreadyRunning | skippedOverlappingRun | ended => cases hf
  | chooses k =>
    rcases guardedState_modify h with h | ⟨rfl, startTime', x, hx, hf⟩
    · exact Or.inl h
    · cases x with
      | mk startTime phase =>
        cases phase with
        | alreadyRunning running =>
          refine Or.inr (Or.inl ⟨?_, ?_⟩)
          · unfold guardedState
            rw [hx]
          · unfold MachineExecution.chosen at hf
            simp only [MachineExecution.mk.injEq] at hf
            obtain ⟨-, hf⟩ := hf
            split at hf <;> cases hf
            rfl
        | guarded before =>
          cases hf
          exact Or.inl (guardedState_eq_some.2 ⟨_, hx⟩)
        | countRunningExecutions | skippedOverlappingRun | ended => cases hf
  | completes k task =>
    rcases guardedState_modify h with h | ⟨rfl, startTime', x, hx, hf⟩
    · exact Or.inl h
    · cases x with
      | mk startTime phase =>
        cases phase with
        | guarded before =>
          unfold MachineExecution.completed at hf
          simp only at hf
          split at hf
          · cases hf
            exact Or.inl (guardedState_eq_some.2 ⟨_, hx⟩)
          · rename_i hc
            cases hf
            exact Or.inr (Or.inr ⟨before, task, startTime', rfl, guardedState_eq_some.2 ⟨_, hx⟩, hc⟩)
          · cases hf
        | countRunningExecutions | alreadyRunning | skippedOverlappingRun | ended => cases hf
  | stops k =>
    rcases guardedState_modify h with h | ⟨rfl, startTime', x, hx, hf⟩
    · exact Or.inl h
    · cases hf

theorem Ended.modify (h : Ended xs i) {k : Nat} {f : MachineExecution β → MachineExecution β}
    (hf : ∀ startTime, f ⟨startTime, .ended⟩ = ⟨startTime, .ended⟩) : Ended (xs.modify k f) i := by
  obtain ⟨startTime, hx⟩ := h
  refine ⟨startTime, ?_⟩
  rw [List.getElem?_modify, hx]
  split
  · exact congrArg some (hf startTime)
  · rfl

/-- **What has ended stays so.** -/
theorem Ended.step (h : Ended xs i) (e : Event τ) : Ended (step definition xs e) i := by
  cases e with
  | starts startTime =>
    obtain ⟨startTime', hx⟩ := h
    refine ⟨startTime', ?_⟩
    rw [StepFunctions.step, List.getElem?_append_left (List.getElem?_eq_some_iff.1 hx).1]
    exact hx
  | counts | chooses | completes | stops => exact h.modify (fun _ => rfl)

theorem Ended.guardedState (h : Ended xs i) : guardedState xs i = none := by
  obtain ⟨startTime, hx⟩ := h
  unfold StepFunctions.guardedState
  rw [hx]

theorem ended_stops {state : β} (h : guardedState xs i = some state) : Ended (step definition xs (.stops i)) i := by
  obtain ⟨startTime, hx⟩ := guardedState_eq_some.1 h
  refine ⟨startTime, ?_⟩
  rw [StepFunctions.step, List.getElem?_modify_eq, hx]
  rfl

end StepFunctions
