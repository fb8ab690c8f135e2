/-!
# Runs — a step function folded over a list of events

A run is a list of events; the state before an event is the fold of the events before it.  `AllSteps P` says of a run
that every step meets `P`, read at the state before it.  What every step keeps, a run keeps (`run_invariant`); what a run
has gained, one of its steps gained (`run_gained`); and two conditions on steps that agree wherever an invariant holds
agree on whole runs (`AllSteps.congr`).
-/
namespace Runs

variable {σ ε α : Type} {step : σ → ε → σ} {P Q : σ → ε → Prop} {I : σ → Prop}

def AllSteps (step : σ → ε → σ) (P : σ → ε → Prop) (s : σ) (es : List ε) : Prop :=
  ∀ pre e post, es = pre ++ e :: post → P (pre.foldl step s) e

/-- A property of every state a run reaches after a step. -/
def AllReached (step : σ → ε → σ) (I : σ → Prop) (s : σ) (es : List ε) : Prop :=
  AllSteps step (fun s e => I (step s e)) s es

/-- Some step of the run meets `P`. -/
def SomeStep (step : σ → ε → σ) (P : σ → ε → Prop) (s : σ) (es : List ε) : Prop :=
  ∃ pre e post, es = pre ++ e :: post ∧ P (pre.foldl step s) e

/-- What the steps of a run show, in order. -/
def outputs (step : σ → ε → σ) (out : σ → ε → Option α) : σ → List ε → List α
  | _, []      => []
  | s, e :: es => (out s e).toList ++ outputs step out (step s e) es

theorem allSteps_nil (s : σ) : AllSteps step P s [] := by
  intro pre e post hs
  cases pre <;> cases hs

theorem allSteps_cons (s : σ) (e : ε) (es : List ε) :
    AllSteps step P s (e :: es) ↔ P s e ∧ AllSteps step P (step s e) es := by
  constructor
  · intro h
    exact ⟨h [] e es rfl, fun pre x post hs => h (e :: pre) x post (by rw [hs]; rfl)⟩
  · rintro ⟨he, h⟩ pre x post hs
    cases pre with
    | nil =>
      simp only [List.nil_append, List.cons.injEq] at hs
      obtain ⟨rfl, rfl⟩ := hs
      exact he
    | cons y pre =>
      simp only [List.cons_append, List.cons.injEq] at hs
      obtain ⟨rfl, rfl⟩ := hs
      exact h pre x post rfl

theorem someStep_nil (s : σ) : ¬ SomeStep step P s [] := by
  rintro ⟨pre, e, post, hs, -⟩
  cases pre <;> cases hs

theorem someStep_cons (s : σ) (e : ε) (es : List ε) :
    SomeStep step P s (e :: es) ↔ P s e ∨ SomeStep step P (step s e) es := by
  constructor
  · rintro ⟨pre, x, post, hs, hx⟩
    cases pre with
    | nil =>
      cases hs
      exact Or.inl hx
    | cons y pre =>
      cases hs
      exact Or.inr ⟨pre, x, post, rfl, hx⟩
  · rintro (he | ⟨pre, x, post, rfl, hx⟩)
    · exact ⟨[], e, es, rfl, he⟩
    · exact ⟨e :: pre, x, post, rfl, hx⟩

theorem outputs_append (out : σ → ε → Option α) (fs : List ε) : ∀ (es : List ε) (s : σ),
    outputs step out s (es ++ fs) = outputs step out s es ++ outputs step out (es.foldl step s) fs
  | [], _ => rfl
  | e :: es, s => by
    rw [List.cons_append, outputs, outputs, outputs_append out fs es, List.append_assoc, List.foldl_cons]

theorem outputs_concat (out : σ → ε → Option α) (es : List ε) (e : ε) (s : σ) :
    outputs step out s (es ++ [e]) = outputs step out s es ++ (out (es.foldl step s) e).toList := by
  rw [outputs_append, outputs, outputs, List.append_nil]

theorem mem_outputs {out : σ → ε → Option α} {x : α} : ∀ {es : List ε} {s : σ},
    x ∈ outputs step out s es ↔ SomeStep step (fun s e => out s e = some x) s es
  | [], s => by simp [outputs, someStep_nil]
  | e :: es, s => by
    rw [outputs, List.mem_append, Option.mem_toList, mem_outputs, someStep_cons]

/-- **What every step keeps, a run keeps.** -/
theorem run_invariant (hstep : ∀ s e, I s → I (step s e)) (es : List ε) : ∀ {s : σ}, I s → I (es.foldl step s) := by
  induction es with
  | nil => exact fun h => h
  | cons e es ih => exact fun h => ih (hstep _ e h)

/-- **What a run has gained, one of its steps gained.** -/
theorem run_gained {A : σ → α → Prop} {N : σ → ε → α → Prop} (hstep : ∀ s e x, A (step s e) x → A s x ∨ N s e x)
    (es : List ε) : ∀ {s : σ} {x : α}, A (es.foldl step s) x →
      A s x ∨ ∃ pre e post, es = pre ++ e :: post ∧ N (pre.foldl step s) e x := by
  induction es with
  | nil => exact fun h => Or.inl h
  | cons e es ih =>
    intro s x h
    rcases ih h with h | ⟨pre, e', post, rfl, hnew⟩
    · rcases hstep s e x h with h | hnew
      · exact Or.inl h
      · exact Or.inr ⟨[], e, es, rfl, hnew⟩
    · exact Or.inr ⟨e :: pre, e', post, rfl, hnew⟩

/-- **What a step under its condition keeps, every reached state has.** -/
theorem AllSteps.reached (hstep : ∀ s e, I s → P s e → I (step s e)) (es : List ε) :
    ∀ {s : σ}, I s → AllSteps step P s es → AllReached step I s es := by
  induction es with
  | nil => exact fun _ _ => allSteps_nil _
  | cons e es ih =>
    intro s hs h
    obtain ⟨he, hrest⟩ := (allSteps_cons s e es).1 h
    exact (allSteps_cons s e es).2 ⟨hstep s e hs he, ih (hstep s e hs he) hrest⟩

/-- **Two conditions on steps that agree under an invariant agree on runs**, when one of them keeps the invariant. -/
theorem AllSteps.congr (hPQ : ∀ s e, I s → (P s e ↔ Q s e)) (hstep : ∀ s e, I s → P s e → I (step s e)) :
    ∀ {es : List ε} {s : σ}, I s → (AllSteps step P s es ↔ AllSteps step Q s es)
  | [], s, _ => ⟨fun _ => allSteps_nil s, fun _ => allSteps_nil s⟩
  | e :: es, s, h0 => by
    rw [allSteps_cons, allSteps_cons, hPQ s e h0]
    refine and_congr_right (fun hQ => ?_)
    exact AllSteps.congr hPQ hstep (hstep s e h0 ((hPQ s e h0).2 hQ))

/-- **A property that each step keeps exactly under its condition**, a run keeps exactly when its steps meet theirs. -/
theorem foldl_iff_allSteps {A : σ → Prop} (hiff : ∀ s e, I s → (A (step s e) ↔ A s ∧ P s e))
    (hstep : ∀ s e, I s → I (step s e)) (es : List ε) : ∀ {s : σ}, I s →
      (A (es.foldl step s) ↔ A s ∧ AllSteps step P s es) := by
  induction es with
  | nil => exact fun _ => ⟨fun h => ⟨h, allSteps_nil _⟩, fun h => h.1⟩
  | cons e es ih =>
    intro s hs
    rw [List.foldl_cons, ih (hstep s e hs), hiff s e hs, allSteps_cons, and_assoc]

end Runs
