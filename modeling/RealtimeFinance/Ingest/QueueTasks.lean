import RealtimeFinance.Fifo
import RealtimeFinance.Ingest.Queue
import RealtimeFinance.Runs
/-!
# QueueTasks — `ingest.core.queue` between any number of tasks

`BoundedTopicQueue` over `asyncio.Queue`, a section of code between two awaits at a time.  A task whose call cannot go on
leaves a future in `_putters` or `_getters`; the other end sets the first one that is not done; a task runs on once its
future is done, and looks at the queue again.  A run is any list of events, so any interleaving of the tasks' sections.
-/
namespace Ingest

open Fifo (Move puts gets drops departures Replays puts_concat drops_concat)

variable {α : Type}

inductive QueueCall (α : Type)
  | put (item : α)
  | get

/-- A call at its `await`: `woken` once its future has a result, `cancelled` once its task is to be cancelled. -/
structure Suspended (α : Type) where
  call : QueueCall α
  woken : Bool
  cancelled : Bool

def Suspended.done (w : Suspended α) : Bool := w.woken || w.cancelled

structure QueueTasks (α : Type) where
  queue : BoundedTopicQueue α
  getters : List Nat
  putters : List Nat
  calls : Nat → Option (Suspended α)
  log : List (Move α)

inductive QueueEvent (α : Type)
  | put (task : Nat) (item : α)
  | get (task : Nat)
  | resume (task : Nat)
  | cancel (task : Nat)

def QueueTasks.new (maxsize : Nat) (policy : DropPolicy) : QueueTasks α :=
  { queue := BoundedTopicQueue.new maxsize policy, getters := [], putters := [], calls := fun _ => none, log := [] }

def setCall (calls : Nat → Option (Suspended α)) (task : Nat) (call : Option (Suspended α)) :
    Nat → Option (Suspended α) := fun t => if t = task then call else calls t

theorem setCall_ne {t t' : Nat} (h : t' ≠ t) (call : Option (Suspended α)) : setCall calls t call t' = calls t' := if_neg h

/-- `_wakeup_next`: pop waiters up to the first that is not done, and set that one's result. -/
def wakeupNext (calls : Nat → Option (Suspended α)) : List Nat → List Nat × (Nat → Option (Suspended α))
  | []              => ([], calls)
  | task :: waiters =>
    match calls task with
    | none   => wakeupNext calls waiters
    | some w => if w.done then wakeupNext calls waiters else (waiters, setCall calls task (some { w with woken := true }))

def QueueTasks.wakeGetter (s : QueueTasks α) : QueueTasks α :=
  { s with getters := (wakeupNext s.calls s.getters).1, calls := (wakeupNext s.calls s.getters).2 }

def QueueTasks.wakePutter (s : QueueTasks α) : QueueTasks α :=
  { s with putters := (wakeupNext s.calls s.putters).1, calls := (wakeupNext s.calls s.putters).2 }

def QueueTasks.hold (s : QueueTasks α) (items : List α) (m : Move α) : QueueTasks α :=
  { s with queue := { s.queue with items := items }, log := s.log ++ [m] }

/-- `none` is `QueueFull`. -/
def QueueTasks.putNowait (s : QueueTasks α) (item : α) : Option (QueueTasks α) :=
  if s.queue.full then none else some (s.hold (s.queue.items ++ [item]) (.put item)).wakeGetter

/-- `none` is `QueueEmpty`; `m` is how the log notes the item. -/
def QueueTasks.getNowait (s : QueueTasks α) (m : α → Move α) : Option (QueueTasks α) :=
  match s.queue.items with
  | []           => none
  | item :: rest => some (s.hold rest (m item)).wakePutter

def QueueTasks.countDropped (s : QueueTasks α) : QueueTasks α :=
  { s with queue := { s.queue with dropped := s.queue.dropped + 1 } }

/-- The loop of `put` under `DROP_OLDEST`; `none` where it has not returned after `fuel` rounds. -/
def QueueTasks.putLoop (item : α) : Nat → QueueTasks α → Option (QueueTasks α)
  | 0, _        => none
  | fuel + 1, s =>
    match s.putNowait item with
    | some s' => some s'
    | none    =>
      match s.getNowait .drop with
      | some s' => QueueTasks.putLoop item fuel s'.countDropped
      | none    => QueueTasks.putLoop item fuel s

/-- The task's call has returned. -/
def QueueTasks.returned (s : QueueTasks α) (task : Nat) : QueueTasks α := { s with calls := setCall s.calls task none }

def QueueTasks.suspend (s : QueueTasks α) (task : Nat) (call : QueueCall α) : QueueTasks α :=
  { s with calls := setCall s.calls task (some { call, woken := false, cancelled := false }) }

/-- `asyncio.Queue.put` from its `while` on. -/
def QueueTasks.putOrWait (s : QueueTasks α) (task : Nat) (item : α) : QueueTasks α :=
  match s.putNowait item with
  | some s' => s'.returned task
  | none    => { s with putters := s.putters ++ [task] }.suspend task (.put item)

/-- `asyncio.Queue.get` from its `while` on. -/
def QueueTasks.getOrWait (s : QueueTasks α) (task : Nat) : QueueTasks α :=
  match s.getNowait .get with
  | some s' => s'.returned task
  | none    => { s with getters := s.getters ++ [task] }.suspend task .get

/-- A call of `put`; the loop gets at the most a round for each item held, and one more. -/
def QueueTasks.put (s : QueueTasks α) (task : Nat) (item : α) : QueueTasks α :=
  match s.queue.policy with
  | .block      => s.putOrWait task item
  | .dropOldest => (QueueTasks.putLoop item (s.queue.qsize + 1) s).getD s

/-- The `except` of `asyncio.Queue.put` and of `asyncio.Queue.get`: the waiter goes, and one that was woken in vain wakes
the next. -/
def QueueTasks.unwind (s : QueueTasks α) (task : Nat) (w : Suspended α) : QueueTasks α :=
  match w.call with
  | .put _ =>
    let s := { s with putters := s.putters.erase task }
    (if !s.queue.full && w.woken then s.wakePutter else s).returned task
  | .get   =>
    let s := { s with getters := s.getters.erase task }
    (if !s.queue.items.isEmpty && w.woken then s.wakeGetter else s).returned task

/-- A task whose future is done runs on. -/
def QueueTasks.resume (s : QueueTasks α) (task : Nat) (w : Suspended α) : QueueTasks α :=
  if w.cancelled then s.unwind task w
  else if w.woken then
    match w.call with
    | .put item => s.putOrWait task item
    | .get      => s.getOrWait task
  else s

/-- A section of code of one task.  A task in a call calls nothing else, and only a task in a call resumes. -/
def QueueTasks.step (s : QueueTasks α) : QueueEvent α → QueueTasks α
  | .put task item => if (s.calls task).isNone then s.put task item else s
  | .get task      => if (s.calls task).isNone then s.getOrWait task else s
  | .resume task   => (s.calls task).elim s (s.resume task)
  | .cancel task   => { s with calls := setCall s.calls task ((s.calls task).map (fun w => { w with cancelled := true })) }

section Calls

variable (s : QueueTasks α)

theorem wakeupNext_call (calls : Nat → Option (Suspended α)) (t : Nat) : ∀ waiters : List Nat,
    ((wakeupNext calls waiters).2 t).map Suspended.call = (calls t).map Suspended.call
  | []              => rfl
  | task :: waiters => by
    unfold wakeupNext
    cases hw : calls task with
    | none => exact wakeupNext_call calls t waiters
    | some w =>
      dsimp only
      by_cases hd : w.done = true
      · rw [if_pos hd]
        exact wakeupNext_call calls t waiters
      · rw [if_neg hd]
        by_cases ht : t = task
        · simp [setCall, ht, hw]
        · simp [setCall, ht]

/-- What task `t` waits for. -/
def QueueTasks.callOf (s : QueueTasks α) (t : Nat) : Option (QueueCall α) := (s.calls t).map Suspended.call

@[simp] theorem QueueTasks.callOf_wakeGetter (t : Nat) : s.wakeGetter.callOf t = s.callOf t :=
  wakeupNext_call s.calls t s.getters

@[simp] theorem QueueTasks.callOf_wakePutter (t : Nat) : s.wakePutter.callOf t = s.callOf t :=
  wakeupNext_call s.calls t s.putters

@[simp] theorem QueueTasks.callOf_hold (items : List α) (m : Move α) (t : Nat) : (s.hold items m).callOf t = s.callOf t :=
  rfl

@[simp] theorem QueueTasks.callOf_countDropped (t : Nat) : s.countDropped.callOf t = s.callOf t := rfl

theorem QueueTasks.callOf_returned (task t : Nat) :
    (s.returned task).callOf t = if t = task then none else s.callOf t := by
  simp only [QueueTasks.callOf, QueueTasks.returned, setCall]
  split <;> rfl

theorem QueueTasks.callOf_suspend (task t : Nat) (call : QueueCall α) :
    (s.suspend task call).callOf t = if t = task then some call else s.callOf t := by
  simp only [QueueTasks.callOf, QueueTasks.suspend, setCall]
  split <;> rfl

@[simp] theorem QueueTasks.queue_wakeGetter : s.wakeGetter.queue = s.queue := rfl

@[simp] theorem QueueTasks.queue_wakePutter : s.wakePutter.queue = s.queue := rfl

end Calls

/-- Everything a section can do to the queue and its log. -/
inductive QueueTasks.Moved (s s' : QueueTasks α) : Prop
  | stays (hqueue : s'.queue = s.queue) (hlog : s'.log = s.log)
  | enters (item : α) (hfull : s.queue.full = false)
      (hqueue : s'.queue = { s.queue with items := s.queue.items ++ [item] }) (hlog : s'.log = s.log ++ [.put item])
  | leaves (item : α) (rest : List α) (hitems : s.queue.items = item :: rest)
      (hqueue : s'.queue = { s.queue with items := rest }) (hlog : s'.log = s.log ++ [.get item])
  | replaces (oldest item : α) (rest : List α) (hpolicy : s.queue.policy = .dropOldest)
      (hitems : s.queue.items = oldest :: rest) (hroom : rest.length < s.queue.maxsize)
      (hqueue : s'.queue = { s.queue with items := rest ++ [item], dropped := s.queue.dropped + 1 })
      (hlog : s'.log = s.log ++ [.drop oldest] ++ [.put item])

section Sections

variable (s : QueueTasks α) (task : Nat) (item : α)

theorem QueueTasks.putOrWait_moved : s.Moved (s.putOrWait task item) := by
  unfold QueueTasks.putOrWait QueueTasks.putNowait
  cases hfull : s.queue.full with
  | true => exact .stays rfl rfl
  | false => exact .enters item hfull rfl rfl

theorem QueueTasks.getOrWait_moved : s.Moved (s.getOrWait task) := by
  unfold QueueTasks.getOrWait QueueTasks.getNowait
  cases hitems : s.queue.items with
  | nil => exact .stays rfl rfl
  | cons item rest => exact .leaves item rest hitems rfl rfl

theorem QueueTasks.unwind_moved (w : Suspended α) : s.Moved (s.unwind task w) := by
  unfold QueueTasks.unwind
  cases w.call with
  | put item => dsimp only; split <;> exact .stays rfl rfl
  | get => dsimp only; split <;> exact .stays rfl rfl

theorem QueueTasks.resume_moved (w : Suspended α) : s.Moved (s.resume task w) := by
  unfold QueueTasks.resume
  by_cases hc : w.cancelled = true
  · rw [if_pos hc]
    exact s.unwind_moved task w
  · rw [if_neg hc]
    by_cases hw : w.woken = true
    · rw [if_pos hw]
      cases w.call with
      | put item => exact s.putOrWait_moved task item
      | get => exact s.getOrWait_moved task
    · rw [if_neg hw]
      exact .stays rfl rfl

/-- **The loop of `put` returns**, from any queue: each round but the last takes an item out. -/
theorem QueueTasks.putLoop_isSome : ∀ (fuel : Nat) (s : QueueTasks α), s.queue.qsize < fuel →
    (QueueTasks.putLoop item fuel s).isSome = true
  | 0, _, h        => absurd h (Nat.not_lt_zero _)
  | fuel + 1, s, h => by
    unfold QueueTasks.putLoop QueueTasks.putNowait
    cases hfull : s.queue.full with
    | false => rfl
    | true =>
      unfold QueueTasks.getNowait
      cases hitems : s.queue.items with
      | nil => simp [BoundedTopicQueue.full, BoundedTopicQueue.qsize, hitems] at hfull
      | cons oldest rest =>
        refine putLoop_isSome fuel _ ?_
        simp only [BoundedTopicQueue.qsize, hitems, List.length_cons] at h
        exact Nat.lt_of_succ_lt_succ h

variable {s}

/-- **The loop of `put` on a queue within its bound** puts the item, after at the most one drop; no call waits for it. -/
theorem QueueTasks.putLoop_moved (hpolicy : s.queue.policy = .dropOldest) (hbound : s.queue.qsize ≤ s.queue.maxsize)
    {fuel : Nat} (hfuel : s.queue.qsize < fuel) :
    ∃ s', QueueTasks.putLoop item fuel s = some s' ∧ s.Moved s' ∧ puts s'.log = puts s.log ++ [item] ∧
      ∀ t, s'.callOf t = s.callOf t := by
  obtain ⟨fuel, rfl⟩ := Nat.exists_eq_add_of_lt hfuel
  unfold QueueTasks.putLoop QueueTasks.putNowait
  cases hfull : s.queue.full with
  | false =>
    refine ⟨_, rfl, .enters item hfull rfl rfl, ?_, fun t => ?_⟩
    · exact puts_concat _ _
    · simp
  | true =>
    cases hitems : s.queue.items with
    | nil => simp [BoundedTopicQueue.full, BoundedTopicQueue.qsize, hitems] at hfull
    | cons oldest rest =>
      have hroom : rest.length < s.queue.maxsize := by
        rw [BoundedTopicQueue.qsize, hitems] at hbound
        exact hbound
      let afterDrop := (s.hold rest (.drop oldest)).wakePutter.countDropped
      have hdrop : s.getNowait .drop = some (s.hold rest (.drop oldest)).wakePutter := by
        unfold QueueTasks.getNowait
        rw [hitems]
      have hput : afterDrop.putNowait item = some (afterDrop.hold (rest ++ [item]) (.put item)).wakeGetter := by
        refine if_neg (fun h => ?_)
        have h := of_decide_eq_true h
        exact Nat.not_le_of_lt hroom h.2
      refine ⟨(afterDrop.hold (rest ++ [item]) (.put item)).wakeGetter, ?_, ?_, ?_, fun t => ?_⟩
      · have hqsize : s.queue.qsize = rest.length + 1 := by rw [BoundedTopicQueue.qsize, hitems, List.length_cons]
        rw [hqsize, Nat.add_right_comm rest.length 1 fuel]
        simp only [hdrop, if_true]
        unfold QueueTasks.putLoop
        rw [hput]
      · exact .replaces oldest item rest hpolicy hitems hroom rfl rfl
      · show puts (s.log ++ [.drop oldest] ++ [.put item]) = _
        rw [puts_concat, puts_concat]
        simp [Move.entered]
      · simp [afterDrop]

theorem QueueTasks.put_moved (hbound : s.queue.qsize ≤ s.queue.maxsize) : s.Moved (s.put task item) := by
  unfold QueueTasks.put
  cases hpolicy : s.queue.policy with
  | block => exact s.putOrWait_moved task item
  | dropOldest =>
    obtain ⟨s', hs', hmoved, -, -⟩ := QueueTasks.putLoop_moved item hpolicy hbound (Nat.lt_succ_self _)
    simp only [hs', Option.getD_some]
    exact hmoved

/-- **Every section** leaves the queue alone, adds an item at the back of one that is not full, takes the front item, or
replaces the front item. -/
theorem QueueTasks.step_moved (hbound : s.queue.qsize ≤ s.queue.maxsize) (e : QueueEvent α) : s.Moved (s.step e) := by
  cases e with
  | put task item =>
    unfold QueueTasks.step
    dsimp only
    split
    · exact QueueTasks.put_moved task item hbound
    · exact .stays rfl rfl
  | get task =>
    unfold QueueTasks.step
    dsimp only
    split
    · exact s.getOrWait_moved task
    · exact .stays rfl rfl
  | resume task =>
    cases hw : s.calls task with
    | none => simp only [QueueTasks.step, hw, Option.elim_none]; exact .stays rfl rfl
    | some w => simp only [QueueTasks.step, hw, Option.elim_some]; exact s.resume_moved task w
  | cancel task => exact .stays rfl rfl

end Sections

/-- What every run keeps of the queue: its bound, and that its log is a first-in first-out log which ends with the items
held. -/
structure QueueTasks.Sound (maxsize : Nat) (policy : DropPolicy) (s : QueueTasks α) : Prop where
  maxsize_eq : s.queue.maxsize = maxsize
  policy_eq : s.queue.policy = policy
  qsize_le : s.queue.qsize ≤ maxsize
  replays : Replays s.log s.queue.items
  dropped_eq : s.queue.dropped = (drops s.log).length
  drops_nil : policy = .block → drops s.log = []

section Runs

variable {maxsize : Nat} {policy : DropPolicy} {s s' : QueueTasks α}

theorem QueueTasks.Sound.new (maxsize : Nat) (policy : DropPolicy) :
    (QueueTasks.new maxsize policy : QueueTasks α).Sound maxsize policy where
  maxsize_eq := rfl
  policy_eq := rfl
  qsize_le := Nat.zero_le _
  replays := .nil
  dropped_eq := rfl
  drops_nil _ := rfl

theorem QueueTasks.Moved.settings (h : s.Moved s') :
    s'.queue.maxsize = s.queue.maxsize ∧ s'.queue.policy = s.queue.policy := by
  cases h with
  | stays hqueue _ => rw [hqueue]; exact ⟨rfl, rfl⟩
  | enters _ _ hqueue _ => rw [hqueue]; exact ⟨rfl, rfl⟩
  | leaves _ _ _ hqueue _ => rw [hqueue]; exact ⟨rfl, rfl⟩
  | replaces _ _ _ _ _ _ hqueue _ => rw [hqueue]; exact ⟨rfl, rfl⟩

theorem QueueTasks.Moved.replays (h : s.Moved s') (hr : Replays s.log s.queue.items) :
    Replays s'.log s'.queue.items := by
  cases h with
  | stays hqueue hlog =>
    rw [hqueue, hlog]
    exact hr
  | enters item _ hqueue hlog =>
    rw [hqueue, hlog]
    exact .put item hr
  | leaves item rest hitems hqueue hlog =>
    rw [hqueue, hlog]
    exact .get (hitems ▸ hr)
  | replaces oldest item rest _ hitems _ hqueue hlog =>
    rw [hqueue, hlog]
    exact .put item (.drop (hitems ▸ hr))

/-- An item enters a queue with room, or in the place of another. -/
theorem QueueTasks.Moved.qsize_le (h : s.Moved s') (hmax : 1 ≤ s.queue.maxsize)
    (hbound : s.queue.qsize ≤ s.queue.maxsize) : s'.queue.qsize ≤ s.queue.maxsize := by
  cases h with
  | stays hqueue _ =>
    rw [hqueue]
    exact hbound
  | enters item hfull hqueue _ =>
    have hroom := of_decide_eq_false hfull
    rw [hqueue]
    simp only [BoundedTopicQueue.qsize, List.length_append, List.length_singleton] at hroom ⊢
    omega
  | leaves item rest hitems hqueue _ =>
    rw [BoundedTopicQueue.qsize, hitems] at hbound
    rw [hqueue]
    exact Nat.le_of_succ_le hbound
  | replaces oldest item rest _ _ hroom hqueue _ =>
    rw [hqueue, BoundedTopicQueue.qsize, List.length_append]
    exact hroom

/-- The count of drops is of the drops in the log; there are none without the policy. -/
theorem QueueTasks.Moved.dropped (h : s.Moved s') :
    s'.queue.dropped + (drops s.log).length = s.queue.dropped + (drops s'.log).length ∧
      (s.queue.policy = .block → drops s'.log = drops s.log) := by
  cases h with
  | stays hqueue hlog =>
    rw [hqueue, hlog]
    exact ⟨rfl, fun _ => rfl⟩
  | enters item _ hqueue hlog =>
    rw [hqueue, hlog, drops_concat]
    simp [Move.lost]
  | leaves item rest _ hqueue hlog =>
    rw [hqueue, hlog, drops_concat]
    simp [Move.lost]
  | replaces oldest item rest hpolicy _ _ hqueue hlog =>
    rw [hqueue, hlog, drops_concat, drops_concat, hpolicy]
    simp only [Move.lost, Option.toList_some, Option.toList_none, List.append_nil, List.length_append,
      List.length_singleton]
    refine ⟨by omega, ?_⟩
    intro hblock
    cases hblock

theorem QueueTasks.Sound.moved (hmax : 1 ≤ maxsize) (hs : s.Sound maxsize policy) (h : s.Moved s') :
    s'.Sound maxsize policy where
  maxsize_eq := h.settings.1.trans hs.maxsize_eq
  policy_eq := h.settings.2.trans hs.policy_eq
  qsize_le := by
    obtain ⟨rfl, -, hqsize, -⟩ := hs
    exact h.qsize_le hmax hqsize
  replays := h.replays hs.replays
  dropped_eq := by
    have hcount := h.dropped.1
    have hdropped := hs.dropped_eq
    omega
  drops_nil hblock := (h.dropped.2 (hs.policy_eq.trans hblock)).trans (hs.drops_nil hblock)

theorem QueueTasks.Sound.qsize_le_maxsize (hs : s.Sound maxsize policy) : s.queue.qsize ≤ s.queue.maxsize :=
  Nat.le_trans hs.qsize_le (Nat.le_of_eq hs.maxsize_eq.symm)

/-- **The invariant of a section.** -/
theorem QueueTasks.Sound.step (hmax : 1 ≤ maxsize) (hs : s.Sound maxsize policy) (e : QueueEvent α) :
    (s.step e).Sound maxsize policy :=
  hs.moved hmax (QueueTasks.step_moved hs.qsize_le_maxsize e)

/-- **The invariant of a run.** -/
theorem QueueTasks.Sound.run (hmax : 1 ≤ maxsize) (es : List (QueueEvent α)) :
    (es.foldl QueueTasks.step (QueueTasks.new maxsize policy)).Sound maxsize policy :=
  Runs.run_invariant (fun _ e hs => hs.step hmax e) es (QueueTasks.Sound.new maxsize policy)

theorem QueueTasks.calls_eq_none {t : Nat} : s.calls t = none ↔ s.callOf t = none := Option.map_eq_none_iff.symm

def QueueTasks.NoPutter (s : QueueTasks α) : Prop := ∀ t item, s.callOf t ≠ some (.put item)

theorem QueueTasks.NoPutter.of_callOf (hs : s.NoPutter)
    (h : ∀ t, s'.callOf t = s.callOf t ∨ s'.callOf t = none ∨ s'.callOf t = some .get) : s'.NoPutter := by
  intro t item hput
  rcases h t with h | h | h
  · exact hs t item (h.symm.trans hput)
  · cases h.symm.trans hput
  · cases h.symm.trans hput

theorem QueueTasks.NoPutter.getOrWait (hs : s.NoPutter) (task : Nat) : (s.getOrWait task).NoPutter := by
  refine hs.of_callOf (fun t => ?_)
  unfold QueueTasks.getOrWait QueueTasks.getNowait
  cases s.queue.items with
  | nil =>
    simp only [QueueTasks.callOf_suspend]
    split
    · exact Or.inr (Or.inr rfl)
    · exact Or.inl rfl
  | cons item rest =>
    simp only [QueueTasks.callOf_returned]
    split
    · exact Or.inr (Or.inl rfl)
    · exact Or.inl (by simp)

theorem QueueTasks.NoPutter.unwind (hs : s.NoPutter) (task : Nat) (w : Suspended α) : (s.unwind task w).NoPutter := by
  refine hs.of_callOf (fun t => ?_)
  unfold QueueTasks.unwind
  cases w.call with
  | put item =>
    simp only [QueueTasks.callOf_returned]
    by_cases ht : t = task
    · exact Or.inr (Or.inl (if_pos ht))
    · rw [if_neg ht]
      split
      · exact Or.inl (QueueTasks.callOf_wakePutter _ t)
      · exact Or.inl rfl
  | get =>
    simp only [QueueTasks.callOf_returned]
    by_cases ht : t = task
    · exact Or.inr (Or.inl (if_pos ht))
    · rw [if_neg ht]
      split
      · exact Or.inl (QueueTasks.callOf_wakeGetter _ t)
      · exact Or.inl rfl

/-- **Under `DROP_OLDEST` no call of `put` waits.** -/
theorem QueueTasks.NoPutter.step (hpolicy : s.queue.policy = .dropOldest) (hbound : s.queue.qsize ≤ s.queue.maxsize)
    (hs : s.NoPutter) (e : QueueEvent α) : (s.step e).NoPutter := by
  cases e with
  | put task item =>
    obtain ⟨s', hs', -, -, hcall⟩ := QueueTasks.putLoop_moved item hpolicy hbound (Nat.lt_succ_self _)
    simp only [QueueTasks.step, QueueTasks.put, hpolicy, hs', Option.getD_some]
    split
    · exact hs.of_callOf (fun t => Or.inl (hcall t))
    · exact hs
  | get task =>
    simp only [QueueTasks.step]
    split
    · exact hs.getOrWait task
    · exact hs
  | resume task =>
    cases hw : s.calls task with
    | none => simpa only [QueueTasks.step, hw, Option.elim_none] using hs
    | some w =>
      simp only [QueueTasks.step, hw, Option.elim_some, QueueTasks.resume]
      split
      · exact hs.unwind task w
      · split
        · cases hcall : w.call with
          | put item => exact absurd (by simp [QueueTasks.callOf, hw, hcall]) (hs task item)
          | get => exact hs.getOrWait task
        · exact hs
  | cancel task =>
    refine hs.of_callOf (fun t => Or.inl ?_)
    simp only [QueueTasks.step, QueueTasks.callOf, setCall]
    split
    · rename_i ht
      rw [ht]
      cases s.calls task <;> rfl
    · rfl

theorem QueueTasks.NoPutter.run (hmax : 1 ≤ maxsize) (es : List (QueueEvent α)) :
    (es.foldl QueueTasks.step (QueueTasks.new maxsize .dropOldest)).NoPutter := by
  have hstep : ∀ (s : QueueTasks α) e, s.Sound maxsize .dropOldest ∧ s.NoPutter →
      (s.step e).Sound maxsize .dropOldest ∧ (s.step e).NoPutter := fun s e h =>
    ⟨h.1.step hmax e, h.2.step h.1.policy_eq h.1.qsize_le_maxsize e⟩
  exact (Runs.run_invariant hstep es ⟨QueueTasks.Sound.new maxsize .dropOldest, fun _ _ h => nomatch h⟩).2

def QueueEvent.task : QueueEvent α → Nat
  | .put task _  => task
  | .get task    => task
  | .resume task => task
  | .cancel task => task

theorem QueueTasks.callOf_putNowait {item : α} (h : s.putNowait item = some s') (t : Nat) : s'.callOf t = s.callOf t := by
  unfold QueueTasks.putNowait at h
  split at h
  · cases h
  · cases h
    simp

theorem QueueTasks.callOf_getNowait {m : α → Fifo.Move α} (h : s.getNowait m = some s') (t : Nat) :
    s'.callOf t = s.callOf t := by
  unfold QueueTasks.getNowait at h
  split at h
  · cases h
  · cases h
    simp

/-- Only the task of the section begins to wait. -/
theorem QueueTasks.step_callOf (hbound : s.queue.qsize ≤ s.queue.maxsize) (e : QueueEvent α) (t : Nat)
    (ht : t ≠ e.task) : (s.step e).callOf t = s.callOf t := by
  have hput : ∀ item task, t ≠ task → (s.putOrWait task item).callOf t = s.callOf t := by
    intro item task hne
    unfold QueueTasks.putOrWait
    cases hnow : s.putNowait item with
    | none => rw [QueueTasks.callOf_suspend, if_neg hne]; rfl
    | some s' => rw [QueueTasks.callOf_returned, if_neg hne, QueueTasks.callOf_putNowait hnow]
  have hget : ∀ task, t ≠ task → (s.getOrWait task).callOf t = s.callOf t := by
    intro task hne
    unfold QueueTasks.getOrWait
    cases hnow : s.getNowait .get with
    | none => rw [QueueTasks.callOf_suspend, if_neg hne]; rfl
    | some s' => rw [QueueTasks.callOf_returned, if_neg hne, QueueTasks.callOf_getNowait hnow]
  have hunwind : ∀ task w, t ≠ task → (s.unwind task w).callOf t = s.callOf t := by
    intro task w hne
    unfold QueueTasks.unwind
    cases w.call with
    | put item =>
      dsimp only
      rw [QueueTasks.callOf_returned, if_neg hne]
      split
      · exact QueueTasks.callOf_wakePutter _ t
      · rfl
    | get =>
      dsimp only
      rw [QueueTasks.callOf_returned, if_neg hne]
      split
      · exact QueueTasks.callOf_wakeGetter _ t
      · rfl
  cases e with
  | put task item =>
    simp only [QueueTasks.step]
    split
    · unfold QueueTasks.put
      cases hpolicy : s.queue.policy with
      | block => exact hput item task ht
      | dropOldest =>
        obtain ⟨s', hs', -, -, hcall⟩ := QueueTasks.putLoop_moved item hpolicy hbound (Nat.lt_succ_self _)
        simp only [hs', Option.getD_some]
        exact hcall t
    · rfl
  | get task =>
    simp only [QueueTasks.step]
    split
    · exact hget task ht
    · rfl
  | resume task =>
    cases hw : s.calls task with
    | none => simp only [QueueTasks.step, hw, Option.elim_none]
    | some w =>
      simp only [QueueTasks.step, hw, Option.elim_some, QueueTasks.resume]
      split
      · exact hunwind task w ht
      · split
        · cases w.call with
          | put item => exact hput item task ht
          | get => exact hget task ht
        · rfl
  | cancel task =>
    have hne : t ≠ task := ht
    simp only [QueueTasks.step, QueueTasks.callOf]
    rw [setCall_ne hne]

end Runs

/-- **A call of `put` on a queue within its bound** leaves it as `BoundedTopicQueue.put` does, and as it was where the
call waits. -/
theorem QueueTasks.put_queue {s : QueueTasks α} (hbound : s.queue.qsize ≤ s.queue.maxsize) (task : Nat) (item : α) :
    (s.put task item).queue = (s.queue.put item).getD s.queue := by
  cases hfull : s.queue.full with
  | false =>
    have hnow : s.putNowait item = some (s.hold (s.queue.items ++ [item]) (.put item)).wakeGetter :=
      if_neg (Bool.eq_false_iff.1 hfull)
    have hput : s.queue.put item = some { s.queue with items := s.queue.items ++ [item] } := by
      simp [BoundedTopicQueue.put, hfull]
    rw [hput, Option.getD_some]
    unfold QueueTasks.put
    split
    · rw [QueueTasks.putOrWait, hnow]
      rfl
    · rw [QueueTasks.putLoop, hnow]
      rfl
  | true =>
    have hnow : s.putNowait item = none := if_pos hfull
    cases hpolicy : s.queue.policy with
    | block =>
      rw [(BoundedTopicQueue.put_eq_none hpolicy).2 hfull, QueueTasks.put, hpolicy]
      dsimp only
      rw [QueueTasks.putOrWait, hnow]
      rfl
    | dropOldest =>
      obtain ⟨s', hs', hmoved, hputs, -⟩ := QueueTasks.putLoop_moved item hpolicy hbound (Nat.lt_succ_self _)
      simp only [QueueTasks.put, hpolicy, hs', Option.getD_some]
      cases hmoved with
      | stays _ hlog => simp [hlog] at hputs
      | enters _ hroom _ _ => exact absurd hfull (by simp [hroom])
      | leaves _ _ _ _ hlog => simp [hlog, puts_concat, Move.entered] at hputs
      | replaces oldest item' rest _ hitems _ hqueue hlog =>
        rw [hlog, puts_concat, puts_concat] at hputs
        have hitem : item' = item := by simpa [Move.entered] using hputs
        simp [hqueue, hitem, hitems, BoundedTopicQueue.put, hfull, hpolicy]

/-- The section `e` from `s` drops nothing but the oldest item held. -/
def QueueTasks.DropsOldest (s : QueueTasks α) (e : QueueEvent α) : Prop :=
  ∃ moves, (s.step e).log = s.log ++ moves ∧ ∀ item, .drop item ∈ moves → s.queue.items.head? = some item

theorem QueueTasks.Moved.dropsOldest {s : QueueTasks α} {e : QueueEvent α} (h : s.Moved (s.step e)) :
    s.DropsOldest e := by
  cases h with
  | stays _ hlog => exact ⟨[], by rw [hlog, List.append_nil], fun item h => nomatch h⟩
  | enters item _ _ hlog => exact ⟨_, hlog, fun item h => by simp at h⟩
  | leaves item rest _ _ hlog => exact ⟨_, hlog, fun item h => by simp at h⟩
  | replaces oldest item rest _ hitems _ _ hlog =>
    refine ⟨[.drop oldest, .put item], by rw [hlog, List.append_assoc]; rfl, fun x hx => ?_⟩
    simp only [List.mem_cons, Move.drop.injEq, List.not_mem_nil, or_false, reduceCtorEq] at hx
    rw [hitems, hx, List.head?_cons]

/-- The section leaves a `put` of the task with its item in the queue, or at its `await` with the item in hand, or
cancelled. -/
def QueueTasks.KeepsPut (s : QueueTasks α) (e : QueueEvent α) (task : Nat) (item : α) : Prop :=
  (s.step e).callOf task = some (.put item) ∧ (e.task = task → puts (s.step e).log = puts s.log) ∨
  (s.step e).calls task = none ∧
    (puts (s.step e).log = puts s.log ++ [item] ∨ ∃ w, s.calls task = some w ∧ w.cancelled = true)

theorem QueueTasks.putOrWait_keeps (s : QueueTasks α) (task : Nat) (item : α) :
    (s.putOrWait task item).callOf task = some (.put item) ∧ puts (s.putOrWait task item).log = puts s.log ∨
    (s.putOrWait task item).calls task = none ∧ puts (s.putOrWait task item).log = puts s.log ++ [item] := by
  unfold QueueTasks.putOrWait QueueTasks.putNowait
  cases s.queue.full with
  | true =>
    refine Or.inl ⟨?_, rfl⟩
    rw [if_pos rfl, QueueTasks.callOf_suspend, if_pos rfl]
  | false =>
    refine Or.inr ⟨?_, puts_concat _ _⟩
    rw [if_neg Bool.false_ne_true, QueueTasks.calls_eq_none, QueueTasks.callOf_returned, if_pos rfl]

/-- A section of the task that waits: it runs on or stays, or is cancelled. -/
theorem QueueTasks.own_section (s : QueueTasks α) (e : QueueEvent α) {item : α}
    (hwaits : s.callOf e.task = some (.put item)) : s.KeepsPut e e.task item := by
  obtain ⟨w, hw, hcall⟩ := Option.map_eq_some_iff.1 hwaits
  have hstays : s.step e = s → s.KeepsPut e e.task item := by
    intro hsame
    unfold QueueTasks.KeepsPut
    rw [hsame]
    exact Or.inl ⟨hwaits, fun _ => rfl⟩
  cases e with
  | put task other =>
    have hw : s.calls task = some w := hw
    exact hstays (by simp only [QueueTasks.step, hw, Option.isNone_some, Bool.false_eq_true, if_false])
  | get task =>
    have hw : s.calls task = some w := hw
    exact hstays (by simp only [QueueTasks.step, hw, Option.isNone_some, Bool.false_eq_true, if_false])
  | cancel task =>
    refine Or.inl ⟨?_, fun _ => rfl⟩
    have hw : s.calls task = some w := hw
    simp only [QueueTasks.callOf, QueueTasks.step, QueueEvent.task, setCall, if_true, hw, Option.map_some, hcall]
  | resume task =>
    have hw : s.calls task = some w := hw
    have hstep : s.step (.resume task) = s.resume task w := by simp only [QueueTasks.step, hw, Option.elim_some]
    by_cases hcancelled : w.cancelled = true
    · refine Or.inr ⟨?_, Or.inr ⟨w, hw, hcancelled⟩⟩
      rw [hstep, QueueTasks.resume, if_pos hcancelled, QueueTasks.unwind, hcall]
      exact QueueTasks.calls_eq_none.2 ((QueueTasks.callOf_returned _ task task).trans (if_pos rfl))
    · by_cases hwoken : w.woken = true
      · have hruns : s.step (.resume task) = s.putOrWait task item := by
          rw [hstep, QueueTasks.resume, if_neg hcancelled, if_pos hwoken, hcall]
        unfold QueueTasks.KeepsPut
        rw [hruns]
        rcases s.putOrWait_keeps task item with ⟨hagain, hputs⟩ | ⟨hdone, hputs⟩
        · exact Or.inl ⟨hagain, fun _ => hputs⟩
        · exact Or.inr ⟨hdone, Or.inl hputs⟩
      · exact hstays (by rw [hstep, QueueTasks.resume, if_neg hcancelled, if_neg hwoken])

/-- **A `put` under `BLOCK` does not lose its item**, in the section that calls it and in every one after. -/
theorem QueueTasks.Sound.keepsPut {maxsize : Nat} {s : QueueTasks α} (hs : s.Sound maxsize .block) (e : QueueEvent α)
    {task : Nat} {item : α} (h : (e = .put task item ∧ s.calls task = none) ∨ s.callOf task = some (.put item)) :
    s.KeepsPut e task item := by
  rcases h with ⟨rfl, hidle⟩ | hwaits
  · have hstep : s.step (.put task item) = s.putOrWait task item := by
      simp only [QueueTasks.step, QueueTasks.put, hidle, Option.isNone_none, if_true, hs.policy_eq]
    unfold QueueTasks.KeepsPut
    rw [hstep]
    rcases s.putOrWait_keeps task item with ⟨hcall, hputs⟩ | ⟨hcall, hputs⟩
    · exact Or.inl ⟨hcall, fun _ => hputs⟩
    · exact Or.inr ⟨hcall, Or.inl hputs⟩
  · by_cases htask : e.task = task
    · subst htask
      exact s.own_section e hwaits
    · refine Or.inl ⟨?_, fun h => absurd h htask⟩
      rw [QueueTasks.step_callOf hs.qsize_le_maxsize e task (fun h => htask h.symm)]
      exact hwaits

/-- **What an idle task puts under `DROP_OLDEST` is in at once.** -/
theorem QueueTasks.Sound.put_returns {maxsize : Nat} {s : QueueTasks α} (hs : s.Sound maxsize .dropOldest) {task : Nat}
    (hidle : s.calls task = none) (item : α) :
    (s.step (.put task item)).calls task = none ∧ puts (s.step (.put task item)).log = puts s.log ++ [item] := by
  obtain ⟨s', hs', -, hputs, hcall⟩ :=
    QueueTasks.putLoop_moved item hs.policy_eq hs.qsize_le_maxsize (Nat.lt_succ_self _)
  simp only [QueueTasks.step, QueueTasks.put, hidle, Option.isNone_none, if_true, hs.policy_eq, hs', Option.getD_some]
  exact ⟨QueueTasks.calls_eq_none.2 ((hcall task).trans (QueueTasks.calls_eq_none.1 hidle)), hputs⟩

def QueueTasks.run (maxsize : Nat) (policy : DropPolicy) (es : List (QueueEvent α)) : QueueTasks α :=
  es.foldl QueueTasks.step (QueueTasks.new maxsize policy)

/-- **A bounded queue between any tasks.**  Whatever the order of their sections: items come out in the order they went
in, the queue keeps its bound, and a call of `put` makes of it what `BoundedTopicQueue.put` says.  `BLOCK` drops nothing: a
`put` returns with its item in, or waits with it in hand until it does so or is cancelled.  Under `DROP_OLDEST` no call of
`put` waits, what is held is what was put last, each item dropped is the oldest held, and the count of drops is what is put
and neither taken nor held. -/
theorem boundedTopicQueue_interleaved {maxsize : Nat} (hmax : 1 ≤ maxsize) (policy : DropPolicy)
    (es : List (QueueEvent α)) (s : QueueTasks α) (hs : s = QueueTasks.run maxsize policy es) :
    puts s.log = departures s.log ++ s.queue.items ∧ (gets s.log).Sublist (puts s.log) ∧ s.queue.qsize ≤ maxsize ∧
    (∀ task item, s.calls task = none → (s.step (.put task item)).queue = (s.queue.put item).getD s.queue) ∧
    (policy = .block → drops s.log = [] ∧ s.queue.dropped = 0 ∧ puts s.log = gets s.log ++ s.queue.items ∧
      ∀ e task item, (e = .put task item ∧ s.calls task = none) ∨ s.callOf task = some (.put item) →
        s.KeepsPut e task item) ∧
    (policy = .dropOldest →
      (∀ task item, s.calls task = none → (s.step (.put task item)).calls task = none ∧
        puts (s.step (.put task item)).log = puts s.log ++ [item]) ∧
      (∀ task item, s.callOf task ≠ some (.put item)) ∧
      s.queue.items <:+ puts s.log ∧
      Runs.AllSteps QueueTasks.step QueueTasks.DropsOldest (QueueTasks.new maxsize policy) es ∧
      (s.queue.dropped : Int) = (puts s.log).length - (gets s.log).length - s.queue.qsize) := by
  have hsound : s.Sound maxsize policy := hs ▸ QueueTasks.Sound.run hmax es
  refine ⟨hsound.replays.puts_eq, hsound.replays.gets_sublist_puts, hsound.qsize_le, fun task item hidle => ?_,
    fun hblock => ?_, fun hdrop => ?_⟩
  · rw [← QueueTasks.put_queue hsound.qsize_le_maxsize task item]
    simp only [QueueTasks.step, hidle, Option.isNone_none, if_true]
  · have hnil := hsound.drops_nil hblock
    subst hblock
    exact ⟨hnil, by rw [hsound.dropped_eq, hnil, List.length_nil], hsound.replays.puts_of_drops_nil hnil,
      fun e task item => hsound.keepsPut e⟩
  · subst hdrop
    refine ⟨fun task item hidle => hsound.put_returns hidle item, ?_, hsound.replays.suffix, ?_, ?_⟩
    · rw [hs]
      exact QueueTasks.NoPutter.run hmax es
    · intro pre e post _
      have hpre : (pre.foldl QueueTasks.step (QueueTasks.new maxsize .dropOldest)).Sound maxsize .dropOldest :=
        QueueTasks.Sound.run hmax pre
      exact (QueueTasks.step_moved hpre.qsize_le_maxsize e).dropsOldest
    · have hlen := hsound.replays.length
      rw [hsound.dropped_eq, BoundedTopicQueue.qsize]
      omega

/-- The first test of the queue: three puts into room for two, and a get; and a put that waited for the room of one. -/
theorem boundedTopicQueue_interleaved_two :
    ((QueueTasks.run 2 .dropOldest [.put 0 "a", .put 1 "b", .put 2 "c", .get 3]).queue.dropped : Int) = 3 - 1 - 1 ∧
      (QueueTasks.run 1 .block [.put 0 "a", .put 1 "b", .get 2]).KeepsPut (.resume 1) 1 "b" :=
  ⟨((boundedTopicQueue_interleaved (by decide : 1 ≤ 2) .dropOldest [.put 0 "a", .put 1 "b", .put 2 "c", .get 3] _
      rfl).2.2.2.2.2 rfl).2.2.2.2,
    ((boundedTopicQueue_interleaved (by decide : 1 ≤ 1) .block [.put 0 "a", .put 1 "b", .get 2] _
      rfl).2.2.2.2.1 rfl).2.2.2 (.resume 1) 1 "b" (Or.inr rfl)⟩

/-- A put that waits for room under `BLOCK` goes on once a get has made it. -/
example :
    let s := QueueTasks.run 1 .block [.put 0 "a", .put 1 "b", .get 2, .resume 1]
    gets s.log = ["a"] ∧ s.queue.items = ["b"] ∧ s.queue.dropped = 0 := by decide

end Ingest
