import Mathlib.Data.List.Dedup
import RealtimeFinance.Ingest.QueueTasks
/-!
# QueueWakes — no wake-up of `ingest.core.queue` is lost

`asyncio.Queue` wakes one waiter for each item put and one for each item taken, a waiter it woke may find the queue changed
and wait again, and a cancelled one passes its wake-up on.  While a `get` waits, as many others are woken as items are held;
while a `put` waits, as many as there is room for.  Every section that resumes a call lowers a rank, so the tasks settle.
-/
namespace Ingest

open Fifo (puts departures)

variable {α : Type}

def QueueCall.isGet : QueueCall α → Bool
  | .get   => true
  | .put _ => false

def QueueCall.isPut : QueueCall α → Bool
  | .get   => false
  | .put _ => true

/-- Task `t` is at the `await` of a call of this kind, its future pending. -/
def Waits (calls : Nat → Option (Suspended α)) (kind : QueueCall α → Bool) (t : Nat) : Prop :=
  ∃ w, calls t = some w ∧ kind w.call = true ∧ w.done = false

def Woken (calls : Nat → Option (Suspended α)) (kind : QueueCall α → Bool) (t : Nat) : Prop :=
  ∃ w, calls t = some w ∧ kind w.call = true ∧ w.woken = true

/-- A deque of waiters over the calls, `avail` of them to be served. -/
structure WaitersOk (kind : QueueCall α → Bool) (waiters : List Nat) (calls : Nat → Option (Suspended α)) (avail : Nat) :
    Prop where
  nodup : waiters.Nodup
  mem : ∀ t ∈ waiters, ∃ w, calls t = some w ∧ kind w.call = true ∧ w.woken = false
  waits : ∀ t, Waits calls kind t → t ∈ waiters
  signalled : (∃ t, Waits calls kind t) →
    ∃ ts : List Nat, ts.Nodup ∧ (∀ t ∈ ts, Woken calls kind t) ∧ avail ≤ ts.length

section Waiters

variable {kind : QueueCall α → Bool} {waiters : List Nat} {calls calls' : Nat → Option (Suspended α)} {avail : Nat}

theorem setCall_self (calls : Nat → Option (Suspended α)) (t : Nat) (call : Option (Suspended α)) :
    setCall calls t call t = call := if_pos rfl

theorem WaitersOk.nil (kind : QueueCall α → Bool) (avail : Nat) : WaitersOk kind [] (fun _ => none) avail where
  nodup := List.nodup_nil
  mem _ h := by cases h
  waits _ h := by
    obtain ⟨w, hw, -⟩ := h
    cases hw
  signalled h := by
    obtain ⟨t, w, hw, -⟩ := h
    cases hw

theorem WaitersOk.anti {avail' : Nat} (h : WaitersOk kind waiters calls avail) (hle : avail' ≤ avail) :
    WaitersOk kind waiters calls avail' where
  nodup := h.nodup
  mem := h.mem
  waits := h.waits
  signalled hw := by
    obtain ⟨ts, hnodup, hwoken, hlen⟩ := h.signalled hw
    exact ⟨ts, hnodup, hwoken, Nat.le_trans hle hlen⟩

/-- Calls of the other kind do not matter. -/
theorem WaitersOk.congr (h : WaitersOk kind waiters calls avail)
    (hcalls : ∀ t w, kind w.call = true → (calls' t = some w ↔ calls t = some w)) :
    WaitersOk kind waiters calls' avail := by
  have hwaits : ∀ t, Waits calls' kind t ↔ Waits calls kind t := fun t =>
    exists_congr (fun w => ⟨fun hw => ⟨(hcalls t w hw.2.1).1 hw.1, hw.2⟩, fun hw => ⟨(hcalls t w hw.2.1).2 hw.1, hw.2⟩⟩)
  refine ⟨h.nodup, fun t ht => ?_, fun t ht => h.waits t ((hwaits t).1 ht), fun hw => ?_⟩
  · obtain ⟨w, hw, hkind, hwoken⟩ := h.mem t ht
    exact ⟨w, (hcalls t w hkind).2 hw, hkind, hwoken⟩
  · obtain ⟨t, ht⟩ := hw
    obtain ⟨ts, hnodup, hwoken, hlen⟩ := h.signalled ⟨t, (hwaits t).1 ht⟩
    refine ⟨ts, hnodup, fun t' ht' => ?_, hlen⟩
    obtain ⟨w, hw, hkind, hw'⟩ := hwoken t' ht'
    exact ⟨w, (hcalls t' w hkind).2 hw, hkind, hw'⟩

/-- A call of the other kind, or none, changes to another such. -/
theorem WaitersOk.setCall_other {task : Nat} {call : Option (Suspended α)} (h : WaitersOk kind waiters calls avail)
    (hold : ∀ w, calls task = some w → kind w.call = false) (hnew : ∀ w, call = some w → kind w.call = false) :
    WaitersOk kind waiters (setCall calls task call) avail := by
  refine h.congr (fun t w hkind => ?_)
  by_cases ht : t = task
  · rw [ht, setCall_self]
    constructor
    · intro hw
      exact absurd hkind (by rw [hnew w hw]; decide)
    · intro hw
      exact absurd hkind (by rw [hold w hw]; decide)
  · rw [setCall_ne ht]

/-- **All that `_wakeup_next` can do**: it pops waiters that are done, and wakes the first that is not. -/
theorem wakeupNext_cases (calls : Nat → Option (Suspended α)) : ∀ waiters : List Nat,
    ((∀ t ∈ waiters, ∀ w, calls t = some w → w.done = true) ∧ wakeupNext calls waiters = ([], calls)) ∨
    ∃ pre t post w, waiters = pre ++ t :: post ∧ (∀ t ∈ pre, ∀ w, calls t = some w → w.done = true) ∧
      calls t = some w ∧ w.done = false ∧
      wakeupNext calls waiters = (post, setCall calls t (some { w with woken := true }))
  | []              => Or.inl ⟨List.forall_mem_nil _, rfl⟩
  | task :: waiters => by
    have hskip : (∀ w, calls task = some w → w.done = true) →
        wakeupNext calls (task :: waiters) = wakeupNext calls waiters := by
      intro hdone
      rw [wakeupNext]
      cases hw : calls task with
      | none => rfl
      | some w => exact if_pos (hdone w hw)
    by_cases hdone : ∀ w, calls task = some w → w.done = true
    · rw [hskip hdone]
      rcases wakeupNext_cases calls waiters with ⟨hall, heq⟩ | ⟨pre, t, post, w, rfl, hpre, hw, hd, heq⟩
      · exact Or.inl ⟨List.forall_mem_cons.2 ⟨hdone, hall⟩, heq⟩
      · exact Or.inr ⟨task :: pre, t, post, w, rfl, List.forall_mem_cons.2 ⟨hdone, hpre⟩, hw, hd, heq⟩
    · obtain ⟨w, hw⟩ := Classical.not_forall.1 hdone
      obtain ⟨hw, hd⟩ := Classical.not_imp.1 hw
      refine Or.inr ⟨[], task, waiters, w, rfl, List.forall_mem_nil _, hw, Bool.eq_false_iff.2 hd, ?_⟩
      rw [wakeupNext, hw]
      exact if_neg hd

/-- **One more to be served, one more woken.** -/
theorem WaitersOk.wake (h : WaitersOk kind waiters calls avail) :
    WaitersOk kind (wakeupNext calls waiters).1 (wakeupNext calls waiters).2 (avail + 1) := by
  rcases wakeupNext_cases calls waiters with ⟨hall, heq⟩ | ⟨pre, t, post, w, rfl, hpre, hw, hd, heq⟩
  · have hnone : ∀ t, ¬ Waits calls kind t := by
      rintro t ⟨w, hw, hkind, hd⟩
      exact absurd (hall t (h.waits t ⟨w, hw, hkind, hd⟩) w hw) (by rw [hd]; decide)
    rw [heq]
    exact ⟨List.nodup_nil, List.forall_mem_nil _, fun t ht => absurd ht (hnone t),
      fun ⟨t, ht⟩ => absurd ht (hnone t)⟩
  · rw [heq]
    have hkind : kind w.call = true := by
      obtain ⟨w', hw', hkind, -⟩ := h.mem t (by simp)
      rw [hw, Option.some.injEq] at hw'
      rw [hw']
      exact hkind
    have hnodup := List.nodup_append.1 h.nodup
    obtain ⟨htpost, hpost⟩ := List.nodup_cons.1 hnodup.2.1
    have hback : ∀ t', Waits (setCall calls t (some { w with woken := true })) kind t' → t' ≠ t ∧ Waits calls kind t' := by
      rintro t' ⟨w', hw', hk', hd'⟩
      by_cases ht' : t' = t
      · rw [ht', setCall_self, Option.some.injEq] at hw'
        subst hw'
        simp [Suspended.done] at hd'
      · exact ⟨ht', w', by rwa [setCall_ne ht'] at hw', hk', hd'⟩
    dsimp only
    refine ⟨hpost, fun t' ht' => ?_, fun t' ht' => ?_, fun _ => ?_⟩
    · obtain ⟨w', hw', hk'⟩ := h.mem t' (by simp [ht'])
      have hne : t' ≠ t := fun heq' => htpost (heq' ▸ ht')
      exact ⟨w', by rw [setCall_ne hne, hw'], hk'⟩
    · obtain ⟨hne, w', hw', hk', hd'⟩ := hback t' ht'
      have hmem := h.waits t' ⟨w', hw', hk', hd'⟩
      rw [List.mem_append, List.mem_cons] at hmem
      rcases hmem with hmem | hmem | hmem
      · exact absurd (hpre t' hmem w' hw') (by rw [hd']; decide)
      · exact absurd hmem hne
      · exact hmem
    · obtain ⟨ts, hts, hwoken, hlen⟩ := h.signalled ⟨t, w, hw, hkind, hd⟩
      have htts : t ∉ ts := by
        intro hmem
        obtain ⟨w', hw', -, hwok⟩ := hwoken t hmem
        rw [hw, Option.some.injEq] at hw'
        rw [Suspended.done, hw', hwok] at hd
        cases hd
      refine ⟨t :: ts, List.nodup_cons.2 ⟨htts, hts⟩, List.forall_mem_cons.2 ⟨⟨_, setCall_self _ _ _, hkind, rfl⟩, ?_⟩, ?_⟩
      · intro t' ht'
        obtain ⟨w', hw', hk'⟩ := hwoken t' ht'
        have hne : t' ≠ t := fun heq' => htts (heq' ▸ ht')
        exact ⟨w', by rw [setCall_ne hne, hw'], hk'⟩
      · exact Nat.succ_le_succ hlen

/-- A wake-up at the one end is nothing to the other. -/
theorem WaitersOk.wake_other {kind' : QueueCall α → Bool} {waiters' : List Nat} {avail' : Nat}
    (h : WaitersOk kind waiters calls avail) (h' : WaitersOk kind' waiters' calls avail')
    (hkinds : ∀ c, kind c = true → kind' c = false) : WaitersOk kind' waiters' (wakeupNext calls waiters).2 avail' := by
  rcases wakeupNext_cases calls waiters with ⟨-, heq⟩ | ⟨pre, t, post, w, rfl, -, hw, -, heq⟩
  · rw [heq]
    exact h'
  · obtain ⟨w', hw', hkind, -⟩ := h.mem t (by simp)
    rw [hw, Option.some.injEq] at hw'
    have hother := hkinds w.call (by rw [hw']; exact hkind)
    rw [heq]
    refine h'.setCall_other (fun w' hw' => ?_) (fun w' hw' => ?_)
    · rw [hw, Option.some.injEq] at hw'
      exact hw' ▸ hother
    · rw [Option.some.injEq] at hw'
      exact hw' ▸ hother

/-- A task that is not in the deque ends its call: at the most one of those woken goes. -/
theorem WaitersOk.leave {task : Nat} (h : WaitersOk kind waiters calls avail) (htask : task ∉ waiters) :
    WaitersOk kind waiters (setCall calls task none) (avail - 1) ∧
      (¬ Woken calls kind task → WaitersOk kind waiters (setCall calls task none) avail) := by
  have hback : ∀ t, Waits (setCall calls task none) kind t → Waits calls kind t := by
    rintro t ⟨w, hw, hk, hd⟩
    by_cases ht : t = task
    · rw [ht, setCall_self] at hw
      cases hw
    · exact ⟨w, by rwa [setCall_ne ht] at hw, hk, hd⟩
  have hmem : ∀ t ∈ waiters, ∃ w, setCall calls task none t = some w ∧ kind w.call = true ∧ w.woken = false := by
    intro t ht
    have hne : t ≠ task := fun heq => htask (heq ▸ ht)
    rw [setCall_ne hne]
    exact h.mem t ht
  have hkeeps : ∀ t, t ≠ task → Woken calls kind t → Woken (setCall calls task none) kind t := by
    rintro t hne ⟨w, hw, hk⟩
    exact ⟨w, by rw [setCall_ne hne, hw], hk⟩
  refine ⟨⟨h.nodup, hmem, fun t ht => h.waits t (hback t ht), fun hw => ?_⟩,
    fun hnot => ⟨h.nodup, hmem, fun t ht => h.waits t (hback t ht), fun hw => ?_⟩⟩
  · obtain ⟨ts, hts, hwoken, hlen⟩ := h.signalled (hw.imp hback)
    refine ⟨ts.erase task, hts.erase task, fun t ht => ?_, ?_⟩
    · obtain ⟨hne, ht⟩ := hts.mem_erase_iff.1 ht
      exact hkeeps t hne (hwoken t ht)
    · have hle := List.le_length_erase (a := task) (l := ts)
      omega
  · obtain ⟨ts, hts, hwoken, hlen⟩ := h.signalled (hw.imp hback)
    refine ⟨ts, hts, fun t ht => hkeeps t ?_ (hwoken t ht), hlen⟩
    intro heq
    exact hnot (heq ▸ hwoken t ht)

/-- A call that finds nothing to be served joins the deque. -/
theorem WaitersOk.join {task : Nat} {c : QueueCall α} (h : WaitersOk kind waiters calls 0) (htask : task ∉ waiters)
    (hkind : kind c = true) :
    WaitersOk kind (waiters ++ [task]) (setCall calls task (some { call := c, woken := false, cancelled := false })) 0 where
  nodup := List.nodup_append.2 ⟨h.nodup, List.pairwise_singleton _ _, fun a ha b hb heq => by
    rw [List.mem_singleton] at hb
    exact htask (hb ▸ heq ▸ ha)⟩
  mem t ht := by
    by_cases heq : t = task
    · rw [heq, setCall_self]
      exact ⟨_, rfl, hkind, rfl⟩
    · rw [setCall_ne heq]
      simp only [List.mem_append, List.mem_singleton, heq, or_false] at ht
      exact h.mem t ht
  waits t ht := by
    by_cases heq : t = task
    · simp [heq]
    · obtain ⟨w, hw, hk⟩ := ht
      rw [setCall_ne heq] at hw
      exact List.mem_append_left _ (h.waits t ⟨w, hw, hk⟩)
  signalled _ := ⟨[], List.nodup_nil, List.forall_mem_nil _, Nat.le_refl 0⟩

/-- A task that does not wait goes from the deque. -/
theorem WaitersOk.erase {task : Nat} (h : WaitersOk kind waiters calls avail) (htask : ¬ Waits calls kind task) :
    WaitersOk kind (waiters.erase task) calls avail where
  nodup := h.nodup.erase task
  mem t ht := h.mem t (List.mem_of_mem_erase ht)
  waits t ht := by
    have hne : t ≠ task := fun heq => htask (heq ▸ ht)
    exact (List.mem_erase_of_ne hne).2 (h.waits t ht)
  signalled := h.signalled

/-- `task.cancel()`: the call waits no more, and a wake-up it had it still has. -/
theorem WaitersOk.cancel (h : WaitersOk kind waiters calls avail) (task : Nat) :
    WaitersOk kind waiters (setCall calls task ((calls task).map (fun w => { w with cancelled := true }))) avail := by
  have hwaits : ∀ t, Waits (setCall calls task ((calls task).map (fun w => { w with cancelled := true }))) kind t →
      Waits calls kind t := by
    rintro t ⟨w, hw, hk, hd⟩
    by_cases ht : t = task
    · rw [ht, setCall_self, Option.map_eq_some_iff] at hw
      obtain ⟨w', -, rfl⟩ := hw
      simp [Suspended.done] at hd
    · exact ⟨w, by rwa [setCall_ne ht] at hw, hk, hd⟩
  refine ⟨h.nodup, fun t ht => ?_, fun t ht => h.waits t (hwaits t ht), fun hw => ?_⟩
  · obtain ⟨w, hw, hk⟩ := h.mem t ht
    by_cases heq : t = task
    · rw [← heq, setCall_self, hw]
      exact ⟨_, rfl, hk⟩
    · rw [setCall_ne heq]
      exact ⟨w, hw, hk⟩
  · obtain ⟨ts, hts, hwoken, hlen⟩ := h.signalled (hw.imp hwaits)
    refine ⟨ts, hts, fun t ht => ?_, hlen⟩
    obtain ⟨w, hw, hk⟩ := hwoken t ht
    by_cases heq : t = task
    · rw [heq] at hw ⊢
      exact ⟨{ w with cancelled := true }, by rw [setCall_self, hw]; rfl, hk⟩
    · exact ⟨w, by rw [setCall_ne heq, hw], hk⟩

theorem wakeupNext_subset {t : Nat} (h : t ∈ (wakeupNext calls waiters).1) : t ∈ waiters := by
  rcases wakeupNext_cases calls waiters with ⟨-, heq⟩ | ⟨pre, t', post, w, rfl, -, -, -, heq⟩
  · rw [heq] at h
    cases h
  · rw [heq] at h
    exact List.mem_append_right pre (List.mem_cons_of_mem t' h)

/-- A cancelled call that was woken, with something to be served, wakes the next. -/
theorem WaitersOk.passOn {task : Nat} (h : WaitersOk kind waiters calls avail)
    (htask : ¬ Waits calls kind task) :
    WaitersOk kind (wakeupNext calls (waiters.erase task)).1
      (setCall (wakeupNext calls (waiters.erase task)).2 task none) avail := by
  refine ((h.erase htask).wake.leave (fun hmem => ?_)).1
  exact (h.nodup.mem_erase_iff.1 (wakeupNext_subset hmem)).1 rfl

/-- Else it just goes. -/
theorem WaitersOk.goes {task : Nat} (h : WaitersOk kind waiters calls avail) (htask : ¬ Waits calls kind task)
    (hnone : avail = 0 ∨ ¬ Woken calls kind task) :
    WaitersOk kind (waiters.erase task) (setCall calls task none) avail := by
  have hleave := (h.erase htask).leave (fun hmem => (h.nodup.mem_erase_iff.1 hmem).1 rfl)
  rcases hnone with hzero | hwoken
  · exact hleave.1.anti (by omega)
  · exact hleave.2 hwoken

end Waiters

def QueueTasks.room (s : QueueTasks α) : Nat := s.queue.maxsize - s.queue.qsize

/-- **What every run keeps of the waiters**: a get is owed for each item held, a put for each place free. -/
structure QueueTasks.Served (s : QueueTasks α) : Prop where
  getters : WaitersOk QueueCall.isGet s.getters s.calls s.queue.qsize
  putters : WaitersOk QueueCall.isPut s.putters s.calls s.room

section Sections

variable {s s' : QueueTasks α}

theorem QueueCall.isPut_of_isGet : ∀ c : QueueCall α, c.isGet = true → c.isPut = false
  | .get, _ => rfl

theorem QueueCall.isGet_of_isPut : ∀ c : QueueCall α, c.isPut = true → c.isGet = false
  | .put _, _ => rfl

theorem QueueTasks.room_eq_zero (hmax : 1 ≤ s.queue.maxsize) : s.queue.full = true ↔ s.room = 0 := by
  unfold BoundedTopicQueue.full QueueTasks.room
  rw [decide_eq_true_iff]
  omega

/-- An item enters: a get is woken for it, and there is room for one put fewer. -/
theorem QueueTasks.Served.putNowait (hs : s.Served) {item : α} (h : s.putNowait item = some s') :
    WaitersOk QueueCall.isGet s'.getters s'.calls s'.queue.qsize ∧
      WaitersOk QueueCall.isPut s'.putters s'.calls s.room ∧ s'.room = s.room - 1 := by
  unfold QueueTasks.putNowait at h
  split at h
  · cases h
  · cases h
    have hlen : (s.hold (s.queue.items ++ [item]) (.put item)).queue.qsize = s.queue.qsize + 1 := by
      simp [QueueTasks.hold, BoundedTopicQueue.qsize]
    refine ⟨?_, hs.getters.wake_other hs.putters QueueCall.isPut_of_isGet, ?_⟩
    · rw [QueueTasks.queue_wakeGetter, hlen]
      exact hs.getters.wake
    · rw [QueueTasks.room, QueueTasks.queue_wakeGetter, hlen, QueueTasks.room, Nat.sub_add_eq]
      rfl

/-- An item leaves: a put is woken for its place, and there is one fewer to get. -/
theorem QueueTasks.Served.getNowait (hbound : s.queue.qsize ≤ s.queue.maxsize) (hs : s.Served) {m : α → Fifo.Move α}
    (h : s.getNowait m = some s') :
    WaitersOk QueueCall.isPut s'.putters s'.calls s'.room ∧
      WaitersOk QueueCall.isGet s'.getters s'.calls s.queue.qsize ∧ s'.queue.qsize = s.queue.qsize - 1 := by
  unfold QueueTasks.getNowait at h
  split at h
  · cases h
  · rename_i item rest hitems
    cases h
    have hqsize : s.queue.qsize = rest.length + 1 := by rw [BoundedTopicQueue.qsize, hitems, List.length_cons]
    have hroom : (s.hold rest (m item)).wakePutter.room = s.room + 1 := by
      simp only [QueueTasks.room, QueueTasks.queue_wakePutter, QueueTasks.hold, BoundedTopicQueue.qsize] at hqsize hbound ⊢
      omega
    refine ⟨?_, hs.putters.wake_other hs.getters QueueCall.isGet_of_isPut, ?_⟩
    · rw [hroom]
      exact hs.putters.wake
    · rw [hqsize]
      rfl

theorem WaitersOk.not_mem {kind : QueueCall α → Bool} {waiters : List Nat} {calls : Nat → Option (Suspended α)}
    {avail task : Nat} (h : WaitersOk kind waiters calls avail) (hcall : ∀ w, calls task = some w → w.woken = true) :
    task ∉ waiters := by
  intro hmem
  obtain ⟨w, hw, -, hwoken⟩ := h.mem task hmem
  rw [hcall w hw] at hwoken
  cases hwoken

/-- What a task's call is, read at the call itself. -/
theorem QueueTasks.kind_of_callOf {kind : QueueCall α → Bool} {t : Nat}
    (h : ∀ c, s.callOf t = some c → kind c = false) : ∀ w, s.calls t = some w → kind w.call = false := by
  intro w hw
  exact h w.call (by rw [QueueTasks.callOf, hw]; rfl)

/-- **`put` from its `while` on**, by a task in no call or woken in a `put`. -/
theorem QueueTasks.Served.putOrWait (hmax : 1 ≤ s.queue.maxsize) (hs : s.Served) {task : Nat} {item : α}
    (hcall : ∀ w, s.calls task = some w → w.woken = true ∧ w.call.isGet = false) : (s.putOrWait task item).Served := by
  have hnot : task ∉ s.putters := hs.putters.not_mem (fun w hw => (hcall w hw).1)
  unfold QueueTasks.putOrWait
  cases hnow : s.putNowait item with
  | none =>
    have hfull : s.queue.full = true := by
      by_cases hfull : s.queue.full = true
      · exact hfull
      · rw [QueueTasks.putNowait, if_neg hfull] at hnow
        cases hnow
    have hroom := (QueueTasks.room_eq_zero hmax).1 hfull
    constructor
    · refine hs.getters.setCall_other (fun w hw => (hcall w hw).2) (fun w hw => ?_)
      cases hw
      rfl
    · have hputters := hs.putters
      rw [hroom] at hputters
      exact (hputters.join (c := .put item) hnot rfl).anti (Nat.le_of_eq hroom)
  | some s' =>
    obtain ⟨hgetters, hputters, hroom⟩ := hs.putNowait hnow
    have hother : ∀ w, s'.calls task = some w → w.call.isGet = false := by
      refine QueueTasks.kind_of_callOf (fun c hc => ?_)
      rw [QueueTasks.callOf_putNowait hnow, QueueTasks.callOf, Option.map_eq_some_iff] at hc
      obtain ⟨w, hw, rfl⟩ := hc
      exact (hcall w hw).2
    constructor
    · exact hgetters.setCall_other hother (fun w hw => by cases hw)
    · have hnot' : task ∉ s'.putters := by
        unfold QueueTasks.putNowait at hnow
        split at hnow
        · cases hnow
        · cases hnow
          exact hnot
      exact (hputters.leave hnot').1.anti (Nat.le_of_eq hroom)

/-- **`get` from its `while` on**, by a task in no call or woken in a `get`. -/
theorem QueueTasks.Served.getOrWait (hbound : s.queue.qsize ≤ s.queue.maxsize) (hs : s.Served) {task : Nat}
    (hcall : ∀ w, s.calls task = some w → w.woken = true ∧ w.call.isPut = false) : (s.getOrWait task).Served := by
  have hnot : task ∉ s.getters := hs.getters.not_mem (fun w hw => (hcall w hw).1)
  unfold QueueTasks.getOrWait
  cases hnow : s.getNowait .get with
  | none =>
    have hempty : s.queue.qsize = 0 := by
      unfold QueueTasks.getNowait at hnow
      split at hnow
      · rename_i hitems
        rw [BoundedTopicQueue.qsize, hitems, List.length_nil]
      · cases hnow
    constructor
    · have hgetters := hs.getters
      rw [hempty] at hgetters
      exact (hgetters.join (c := .get) hnot rfl).anti (Nat.le_of_eq hempty)
    · refine hs.putters.setCall_other (fun w hw => (hcall w hw).2) (fun w hw => ?_)
      cases hw
      rfl
  | some s' =>
    obtain ⟨hputters, hgetters, hqsize⟩ := hs.getNowait hbound hnow
    have hother : ∀ w, s'.calls task = some w → w.call.isPut = false := by
      refine QueueTasks.kind_of_callOf (fun c hc => ?_)
      rw [QueueTasks.callOf_getNowait hnow, QueueTasks.callOf, Option.map_eq_some_iff] at hc
      obtain ⟨w, hw, rfl⟩ := hc
      exact (hcall w hw).2
    constructor
    · have hnot' : task ∉ s'.getters := by
        unfold QueueTasks.getNowait at hnow
        split at hnow
        · cases hnow
        · cases hnow
          exact hnot
      exact (hgetters.leave hnot').1.anti (Nat.le_of_eq hqsize)
    · exact hputters.setCall_other hother (fun w hw => by cases hw)

/-- The loop of `put` under `DROP_OLDEST`: what it takes out wakes a put, what it puts in wakes a get. -/
theorem QueueTasks.Served.putLoop (item : α) : ∀ (fuel : Nat) {s s' : QueueTasks α},
    s.queue.qsize ≤ s.queue.maxsize → s.Served → QueueTasks.putLoop item fuel s = some s' → s'.Served
  | 0, _, _, _, _, h           => by cases h
  | fuel + 1, s, s', hbound, hs, h => by
    unfold QueueTasks.putLoop at h
    cases hnow : s.putNowait item with
    | some s₁ =>
      rw [hnow] at h
      cases h
      obtain ⟨hgetters, hputters, hroom⟩ := hs.putNowait hnow
      exact ⟨hgetters, hputters.anti (by omega)⟩
    | none =>
      cases hget : s.getNowait .drop with
      | none =>
        rw [hnow, hget] at h
        exact QueueTasks.Served.putLoop item fuel hbound hs h
      | some s₁ =>
        rw [hnow, hget] at h
        obtain ⟨hputters, hgetters, hqsize⟩ := hs.getNowait hbound hget
        have hmax : s₁.queue.maxsize = s.queue.maxsize := by
          unfold QueueTasks.getNowait at hget
          split at hget
          · cases hget
          · cases hget
            rfl
        have hle : s₁.queue.qsize ≤ s.queue.qsize := by omega
        exact QueueTasks.Served.putLoop item fuel (s := s₁.countDropped)
          (Nat.le_trans hle (Nat.le_trans hbound (Nat.le_of_eq hmax.symm))) ⟨hgetters.anti hle, hputters⟩ h

/-- A cancelled call: woken in vain, it wakes the next; else its future goes from the deque. -/
theorem QueueTasks.Served.unwind (hmax : 1 ≤ s.queue.maxsize) (hs : s.Served) {task : Nat} {w : Suspended α}
    (hw : s.calls task = some w) (hcancelled : w.cancelled = true) : (s.unwind task w).Served := by
  have hdone : ∀ kind : QueueCall α → Bool, ¬ Waits s.calls kind task := by
    rintro kind ⟨w', hw', -, hd⟩
    rw [hw, Option.some.injEq] at hw'
    rw [← hw', Suspended.done, hcancelled, Bool.or_true] at hd
    cases hd
  have hwoken : ∀ {kind : QueueCall α → Bool}, Woken s.calls kind task → w.woken = true := by
    rintro kind ⟨w', hw', -, hwoken⟩
    rw [hw, Option.some.injEq] at hw'
    exact hw' ▸ hwoken
  have hother : ∀ {kind : QueueCall α → Bool} {calls : Nat → Option (Suspended α)}, kind w.call = false →
      (calls task).map Suspended.call = (s.calls task).map Suspended.call →
      ∀ w', calls task = some w' → kind w'.call = false := by
    intro kind calls hkind hcalls w' hw'
    rw [hw, hw', Option.map_some, Option.map_some, Option.some.injEq] at hcalls
    rw [hcalls]
    exact hkind
  unfold QueueTasks.unwind
  cases hcall : w.call with
  | put item =>
    have hkind : w.call.isGet = false := by rw [hcall]; rfl
    dsimp only
    split
    · exact ⟨((hs.putters.erase (hdone _)).wake_other hs.getters QueueCall.isGet_of_isPut).setCall_other
          (hother hkind (wakeupNext_call _ _ _)) (fun w hw => by cases hw), hs.putters.passOn (hdone _)⟩
    · rename_i hnot
      refine ⟨hs.getters.setCall_other (hother hkind rfl) (fun w hw => by cases hw), hs.putters.goes (hdone _) ?_⟩
      by_cases hfull : s.queue.full = true
      · exact Or.inl ((QueueTasks.room_eq_zero hmax).1 hfull)
      · exact Or.inr (fun h => hnot (by simp [hwoken h, Bool.eq_false_iff.2 hfull]))
  | get =>
    have hkind : w.call.isPut = false := by rw [hcall]; rfl
    dsimp only
    split
    · exact ⟨hs.getters.passOn (hdone _), ((hs.getters.erase (hdone _)).wake_other hs.putters
        QueueCall.isPut_of_isGet).setCall_other (hother hkind (wakeupNext_call _ _ _)) (fun w hw => by cases hw)⟩
    · rename_i hnot
      refine ⟨hs.getters.goes (hdone _) ?_, hs.putters.setCall_other (hother hkind rfl) (fun w hw => by cases hw)⟩
      cases hitems : s.queue.items with
      | nil => exact Or.inl (by rw [BoundedTopicQueue.qsize, hitems, List.length_nil])
      | cons item rest => exact Or.inr (fun h => hnot (by simp [hwoken h, hitems]))

theorem QueueTasks.Served.resume (hmax : 1 ≤ s.queue.maxsize) (hbound : s.queue.qsize ≤ s.queue.maxsize) (hs : s.Served)
    {task : Nat} {w : Suspended α} (hw : s.calls task = some w) : (s.resume task w).Served := by
  unfold QueueTasks.resume
  split
  · rename_i hcancelled
    exact hs.unwind hmax hw hcancelled
  · split
    · rename_i hwoken
      cases hcall : w.call with
      | put item =>
        refine hs.putOrWait hmax (fun w' hw' => ?_)
        rw [hw, Option.some.injEq] at hw'
        exact hw' ▸ ⟨hwoken, by rw [hcall]; rfl⟩
      | get =>
        refine hs.getOrWait hbound (fun w' hw' => ?_)
        rw [hw, Option.some.injEq] at hw'
        exact hw' ▸ ⟨hwoken, by rw [hcall]; rfl⟩
    · exact hs

/-- **The invariant of a section.** -/
theorem QueueTasks.Served.step (hmax : 1 ≤ s.queue.maxsize) (hbound : s.queue.qsize ≤ s.queue.maxsize) (hs : s.Served)
    (e : QueueEvent α) : (s.step e).Served := by
  have hidle : ∀ {task : Nat} {p : Suspended α → Prop}, (s.calls task).isNone = true →
      ∀ w, s.calls task = some w → p w := by
    intro task p hnone w hw
    rw [hw] at hnone
    cases hnone
  cases e with
  | put task item =>
    simp only [QueueTasks.step]
    split
    · rename_i hnone
      unfold QueueTasks.put
      split
      · exact hs.putOrWait hmax (hidle hnone)
      · cases hput : QueueTasks.putLoop item (s.queue.qsize + 1) s with
        | none => exact hs
        | some s' => exact QueueTasks.Served.putLoop item _ hbound hs hput
    · exact hs
  | get task =>
    simp only [QueueTasks.step]
    split
    · rename_i hnone
      exact hs.getOrWait hbound (hidle hnone)
    · exact hs
  | resume task =>
    cases hw : s.calls task with
    | none => simpa only [QueueTasks.step, hw, Option.elim_none] using hs
    | some w =>
      simp only [QueueTasks.step, hw, Option.elim_some]
      exact hs.resume hmax hbound hw
  | cancel task => exact ⟨hs.getters.cancel task, hs.putters.cancel task⟩

/-- **The invariant of a run.** -/
theorem QueueTasks.Served.run {maxsize : Nat} (hmax : 1 ≤ maxsize) (policy : DropPolicy) (es : List (QueueEvent α)) :
    (QueueTasks.run maxsize policy es).Served := by
  have hstep : ∀ (s : QueueTasks α) e, s.Sound maxsize policy ∧ s.Served →
      (s.step e).Sound maxsize policy ∧ (s.step e).Served := fun s e h =>
    ⟨h.1.step hmax e, h.2.step (by rw [h.1.maxsize_eq]; exact hmax) h.1.qsize_le_maxsize e⟩
  exact (Runs.run_invariant hstep es
    ⟨QueueTasks.Sound.new maxsize policy, WaitersOk.nil _ _, WaitersOk.nil _ _⟩).2

end Sections

/-- **No wake-up is lost.**  In every state of every run: while a `get` waits, there are as many others woken and not yet
resumed as items held; while a `put` waits, as many as places free. -/
theorem boundedTopicQueue_wakes {maxsize : Nat} (hmax : 1 ≤ maxsize) (policy : DropPolicy) (es : List (QueueEvent α))
    (s : QueueTasks α) (hs : s = QueueTasks.run maxsize policy es) :
    ((∃ t, Waits s.calls QueueCall.isGet t) →
      ∃ ts : List Nat, ts.Nodup ∧ (∀ t ∈ ts, Woken s.calls QueueCall.isGet t) ∧ s.queue.qsize ≤ ts.length) ∧
    ((∃ t, Waits s.calls QueueCall.isPut t) →
      ∃ ts : List Nat, ts.Nodup ∧ (∀ t ∈ ts, Woken s.calls QueueCall.isPut t) ∧ maxsize - s.queue.qsize ≤ ts.length) := by
  have hserved : s.Served := hs ▸ QueueTasks.Served.run hmax policy es
  have hsound : s.Sound maxsize policy := hs ▸ QueueTasks.Sound.run hmax es
  refine ⟨hserved.getters.signalled, fun hwaits => ?_⟩
  rw [← hsound.maxsize_eq]
  exact hserved.putters.signalled hwaits

/-- A get waits while another, woken for the item held, has yet to run on. -/
theorem boundedTopicQueue_wakes_two : ∃ ts : List Nat, ts.Nodup ∧
    (∀ t ∈ ts, Woken (QueueTasks.run 2 .block [.get 0, .get 1, .put 2 "a"]).calls QueueCall.isGet t) ∧ 1 ≤ ts.length :=
  (boundedTopicQueue_wakes (by decide : 1 ≤ 2) .block [.get 0, .get 1, .put 2 "a"] _ rfl).1
    ⟨1, { call := .get, woken := false, cancelled := false }, rfl, rfl, rfl⟩

section Settling

variable {s s' : QueueTasks α} {tasks : List Nat} {calls : Nat → Option (Suspended α)}

/-- A call whose future is done has yet to run on, and may then wait once more. -/
def callRank : Option (Suspended α) → Nat
  | none   => 0
  | some w => if w.done then 2 else 1

def ranks : List Nat → (Nat → Option (Suspended α)) → Nat
  | [], _             => 0
  | t :: tasks, calls => callRank (calls t) + ranks tasks calls

theorem callRank_le (call : Option (Suspended α)) : callRank call ≤ 2 := by
  cases call with
  | none => exact Nat.zero_le 2
  | some w =>
    rw [callRank]
    split
    · exact Nat.le_refl 2
    · exact Nat.le_succ 1

theorem ranks_le (calls : Nat → Option (Suspended α)) : ∀ tasks : List Nat, ranks tasks calls ≤ 2 * tasks.length
  | []         => Nat.le_refl 0
  | t :: tasks => by
    have hrest := ranks_le calls tasks
    have hle := callRank_le (calls t)
    simp only [ranks, List.length_cons] at hrest ⊢
    omega

theorem ranks_setCall_not_mem {t : Nat} (call : Option (Suspended α)) : ∀ {tasks : List Nat}, t ∉ tasks →
    ranks tasks (setCall calls t call) = ranks tasks calls
  | [], _           => rfl
  | t' :: tasks, ht => by
    obtain ⟨hne, ht⟩ := not_or.1 (List.mem_cons.not.1 ht)
    rw [ranks, ranks, setCall_ne (Ne.symm hne), ranks_setCall_not_mem call ht]

theorem ranks_setCall (t : Nat) (call : Option (Suspended α)) : ∀ {tasks : List Nat}, tasks.Nodup → t ∈ tasks →
    ranks tasks (setCall calls t call) + callRank (calls t) = ranks tasks calls + callRank call
  | t' :: tasks, hnodup, ht => by
    obtain ⟨hnot, hnodup⟩ := List.nodup_cons.1 hnodup
    by_cases heq : t = t'
    · subst heq
      have hrest := @ranks_setCall_not_mem _ calls _ call _ hnot
      simp only [ranks, setCall_self] at hrest ⊢
      omega
    · have hrest := ranks_setCall t call hnodup ((List.mem_cons.1 ht).resolve_left heq)
      simp only [ranks, setCall_ne (Ne.symm heq)] at hrest ⊢
      omega

/-- A wake-up adds one. -/
theorem ranks_wakeupNext (hnodup : tasks.Nodup) (waiters : List Nat) :
    ranks tasks (wakeupNext calls waiters).2 ≤ ranks tasks calls + 1 := by
  rcases wakeupNext_cases calls waiters with ⟨-, heq⟩ | ⟨pre, t, post, w, rfl, -, hw, hd, heq⟩
  · rw [heq]
    exact Nat.le_succ _
  · rw [heq]
    by_cases ht : t ∈ tasks
    · have hset := @ranks_setCall _ calls t (some { w with woken := true }) _ hnodup ht
      have hle := callRank_le (some { w with woken := true })
      have hone : callRank (calls t) = 1 := by
        rw [hw, callRank, hd]
        rfl
      dsimp only
      omega
    · dsimp only
      rw [ranks_setCall_not_mem _ ht]
      exact Nat.le_succ _

/-- A call that is done is not woken again. -/
theorem wakeupNext_of_done {t : Nat} {w : Suspended α} (hw : calls t = some w) (hd : w.done = true) (waiters : List Nat) :
    (wakeupNext calls waiters).2 t = some w := by
  rcases wakeupNext_cases calls waiters with ⟨-, heq⟩ | ⟨pre, t', post, w', rfl, -, hw', hd', heq⟩
  · rw [heq]
    exact hw
  · rw [heq]
    have hne : t ≠ t' := by
      intro heq'
      rw [heq', hw', Option.some.injEq] at hw
      rw [hw, hd] at hd'
      cases hd'
    dsimp only
    rw [setCall_ne hne, hw]

/-- **A call that runs on** may wake one other, and ends or waits: the rank is lower. -/
theorem ranks_resumed (hnodup : tasks.Nodup) {t : Nat} (ht : t ∈ tasks) {w : Suspended α} (hw : calls t = some w)
    (hd : w.done = true) (waiters : List Nat) :
    ranks tasks (setCall (wakeupNext calls waiters).2 t none) < ranks tasks calls ∧
    ranks tasks (setCall calls t none) < ranks tasks calls ∧
    ∀ c, ranks tasks (setCall calls t (some { call := c, woken := false, cancelled := false })) < ranks tasks calls := by
  have htwo : ∀ calls' : Nat → Option (Suspended α), calls' t = some w → callRank (calls' t) = 2 := by
    intro calls' hw'
    rw [hw', callRank, hd]
    rfl
  have hwake := @ranks_wakeupNext _ tasks calls hnodup waiters
  have hdone := htwo _ (wakeupNext_of_done hw hd waiters)
  refine ⟨?_, ?_, fun c => ?_⟩
  · have hset := @ranks_setCall _ (wakeupNext calls waiters).2 t none _ hnodup ht
    rw [show callRank (none : Option (Suspended α)) = 0 from rfl] at hset
    omega
  · have hset := @ranks_setCall _ calls t none _ hnodup ht
    rw [htwo calls hw, show callRank (none : Option (Suspended α)) = 0 from rfl] at hset
    omega
  · have hset := @ranks_setCall _ calls t (some { call := c, woken := false, cancelled := false }) _ hnodup ht
    rw [htwo calls hw, show callRank (some { call := c, woken := false, cancelled := false }) = 1 from rfl] at hset
    omega

theorem QueueTasks.ranks_resume (hnodup : tasks.Nodup) {t : Nat} (ht : t ∈ tasks) {w : Suspended α}
    (hw : s.calls t = some w) (hd : w.done = true) : ranks tasks (s.resume t w).calls < ranks tasks s.calls := by
  have hresumed := ranks_resumed hnodup ht hw hd
  unfold QueueTasks.resume
  split
  · unfold QueueTasks.unwind
    cases w.call with
    | put item =>
      dsimp only
      split
      · exact (hresumed _).1
      · exact (hresumed []).2.1
    | get =>
      dsimp only
      split
      · exact (hresumed _).1
      · exact (hresumed []).2.1
  · split
    · cases w.call with
      | put item =>
        dsimp only
        unfold QueueTasks.putOrWait QueueTasks.putNowait
        by_cases hfull : s.queue.full = true
        · rw [if_pos hfull]
          exact (hresumed []).2.2 _
        · rw [if_neg hfull]
          exact (hresumed _).1
      | get =>
        dsimp only
        unfold QueueTasks.getOrWait QueueTasks.getNowait
        cases s.queue.items with
        | nil => exact (hresumed []).2.2 _
        | cons item rest => exact (hresumed _).1
    · rename_i hcancelled hwoken
      rw [Suspended.done, Bool.or_eq_true] at hd
      exact absurd (hd.resolve_right hcancelled) hwoken

/-- A task whose future is done runs on. -/
def QueueTasks.Resumes (s : QueueTasks α) : QueueEvent α → Prop
  | .resume task => ∃ w, s.calls task = some w ∧ w.done = true
  | _            => False

/-- No task can run on. -/
def QueueTasks.Settled (s : QueueTasks α) : Prop := ∀ t w, s.calls t = some w → w.done = false

/-- The tasks in a call are among those of the run. -/
theorem QueueTasks.run_tasks {maxsize : Nat} (hmax : 1 ≤ maxsize) {policy : DropPolicy} {t : Nat} :
    ∀ (es : List (QueueEvent α)) {s : QueueTasks α}, s.Sound maxsize policy →
      (es.foldl QueueTasks.step s).callOf t ≠ none → s.callOf t ≠ none ∨ t ∈ es.map QueueEvent.task
  | [], _, _, h       => Or.inl h
  | e :: es, s, hs, h => by
    rw [List.map_cons, List.mem_cons]
    rcases QueueTasks.run_tasks hmax es (hs.step hmax e) h with h | h
    · by_cases ht : t = e.task
      · exact Or.inr (Or.inl ht)
      · rw [QueueTasks.step_callOf hs.qsize_le_maxsize e t ht] at h
        exact Or.inl h
    · exact Or.inr (Or.inr h)

/-- A section in which a task runs on: its task was in a call, no other begins one, and the rank is lower. -/
theorem QueueTasks.Resumes.step (hnodup : tasks.Nodup) (hbound : s.queue.qsize ≤ s.queue.maxsize)
    (hcalls : ∀ t, s.callOf t ≠ none → t ∈ tasks) {e : QueueEvent α} (he : s.Resumes e) :
    (∀ t, (s.step e).callOf t ≠ none → t ∈ tasks) ∧ ranks tasks (s.step e).calls < ranks tasks s.calls := by
  cases e with
  | resume task =>
    obtain ⟨w, hw, hd⟩ := he
    have htask : task ∈ tasks := hcalls task (by rw [QueueTasks.callOf, hw]; exact Option.some_ne_none _)
    refine ⟨fun t ht => ?_, ?_⟩
    · by_cases heq : t = task
      · exact heq ▸ htask
      · rw [QueueTasks.step_callOf hbound (.resume task) t heq] at ht
        exact hcalls t ht
    · simp only [QueueTasks.step, hw, Option.elim_some]
      exact QueueTasks.ranks_resume hnodup htask hw hd
  | put task item => cases he
  | get task => cases he
  | cancel task => cases he

variable {maxsize : Nat} {policy : DropPolicy}

/-- Tasks that run on are as many as the rank at the most. -/
theorem QueueTasks.length_le_ranks (hmax : 1 ≤ maxsize) (hnodup : tasks.Nodup) : ∀ (rs : List (QueueEvent α))
    {s : QueueTasks α}, s.Sound maxsize policy → (∀ t, s.callOf t ≠ none → t ∈ tasks) →
    Runs.AllSteps QueueTasks.step QueueTasks.Resumes s rs → rs.length ≤ ranks tasks s.calls
  | [], _, _, _, _            => Nat.zero_le _
  | e :: rs, s, hs, hcalls, h => by
    obtain ⟨he, hrest⟩ := (Runs.allSteps_cons s e rs).1 h
    obtain ⟨hnext, hlt⟩ := he.step hnodup hs.qsize_le_maxsize hcalls
    exact Nat.lt_of_le_of_lt (QueueTasks.length_le_ranks hmax hnodup rs (hs.step hmax e) hnext hrest) hlt

/-- **Tasks that run on until none can.** -/
theorem QueueTasks.exists_settled (hmax : 1 ≤ maxsize) (hnodup : tasks.Nodup) : ∀ (n : Nat) {s : QueueTasks α},
    s.Sound maxsize policy → (∀ t, s.callOf t ≠ none → t ∈ tasks) → ranks tasks s.calls ≤ n →
    ∃ rs, Runs.AllSteps QueueTasks.step QueueTasks.Resumes s rs ∧ (rs.foldl QueueTasks.step s).Settled := by
  intro n
  induction n with
  | zero =>
    intro s hs hcalls hn
    refine ⟨[], Runs.allSteps_nil s, fun t w hw => ?_⟩
    by_cases hd : w.done = true
    · have hlt := (QueueTasks.Resumes.step hnodup hs.qsize_le_maxsize hcalls (e := .resume t) ⟨w, hw, hd⟩).2
      omega
    · exact Bool.eq_false_iff.2 hd
  | succ n ih =>
    intro s hs hcalls hn
    by_cases hsettled : s.Settled
    · exact ⟨[], Runs.allSteps_nil s, hsettled⟩
    · obtain ⟨t, ht⟩ := Classical.not_forall.1 hsettled
      obtain ⟨w, hw⟩ := Classical.not_forall.1 ht
      obtain ⟨hw, hd⟩ := Classical.not_imp.1 hw
      have he : s.Resumes (.resume t) := ⟨w, hw, Bool.not_eq_false _ ▸ hd⟩
      obtain ⟨hnext, hlt⟩ := he.step hnodup hs.qsize_le_maxsize hcalls
      obtain ⟨rs, hrs, hend⟩ := ih (hs.step hmax (.resume t)) hnext (by omega)
      exact ⟨.resume t :: rs, (Runs.allSteps_cons s _ rs).2 ⟨he, hrs⟩, hend⟩

/-- Where no task can run on, gets wait on an empty queue and puts on a full one. -/
theorem QueueTasks.Served.settled (hs : s.Served) (hsettled : s.Settled) :
    ((∃ t, Waits s.calls QueueCall.isGet t) → s.queue.items = []) ∧
    ((∃ t, Waits s.calls QueueCall.isPut t) → s.room = 0) := by
  have hnone : ∀ {kind : QueueCall α → Bool} {ts : List Nat}, (∀ t ∈ ts, Woken s.calls kind t) → ts = [] := by
    intro kind ts hts
    refine List.eq_nil_iff_forall_not_mem.2 (fun t ht => ?_)
    obtain ⟨w, hw, -, hwoken⟩ := hts t ht
    have hd := hsettled t w hw
    rw [Suspended.done, hwoken] at hd
    cases hd
  refine ⟨fun hwaits => ?_, fun hwaits => ?_⟩
  · obtain ⟨ts, -, hts, hlen⟩ := hs.getters.signalled hwaits
    rw [hnone hts] at hlen
    exact List.eq_nil_of_length_eq_zero (Nat.le_zero.1 hlen)
  · obtain ⟨ts, -, hts, hlen⟩ := hs.putters.signalled hwaits
    rw [hnone hts] at hlen
    exact Nat.le_zero.1 hlen

/-- **The tasks settle, and never on both ends at once.**  After any run, tasks that are let run on come to rest within
two sections for each one of the run, and can always be brought to rest; at rest a `get` waits only where every item put
has gone out again and a `put` only where the queue is full. -/
theorem boundedTopicQueue_settles (hmax : 1 ≤ maxsize) (policy : DropPolicy) (es : List (QueueEvent α)) (s : QueueTasks α)
    (hs : s = QueueTasks.run maxsize policy es) :
    (∀ rs, Runs.AllSteps QueueTasks.step QueueTasks.Resumes s rs → rs.length ≤ 2 * es.length) ∧
    (∃ rs, Runs.AllSteps QueueTasks.step QueueTasks.Resumes s rs ∧ (rs.foldl QueueTasks.step s).Settled) ∧
    (s.Settled →
      ((∃ t, Waits s.calls QueueCall.isGet t) → puts s.log = departures s.log) ∧
      ((∃ t, Waits s.calls QueueCall.isPut t) → s.queue.qsize = maxsize) ∧
      ¬ ((∃ t, Waits s.calls QueueCall.isGet t) ∧ ∃ t, Waits s.calls QueueCall.isPut t)) := by
  have hsound : s.Sound maxsize policy := hs ▸ QueueTasks.Sound.run hmax es
  have hserved : s.Served := hs ▸ QueueTasks.Served.run hmax policy es
  have hcalls : ∀ t, s.callOf t ≠ none → t ∈ (es.map QueueEvent.task).dedup := by
    intro t ht
    rw [List.mem_dedup]
    subst hs
    exact (QueueTasks.run_tasks hmax es (QueueTasks.Sound.new maxsize policy) ht).resolve_left (fun h => h rfl)
  have hnodup := List.nodup_dedup (es.map QueueEvent.task)
  refine ⟨fun rs hrs => ?_, QueueTasks.exists_settled hmax hnodup _ hsound hcalls (Nat.le_refl _), fun hsettled => ?_⟩
  · have hlen : (es.map QueueEvent.task).dedup.length ≤ es.length := by
      have hsub := (List.dedup_sublist (es.map QueueEvent.task)).length_le
      rwa [List.length_map] at hsub
    have hranks := ranks_le s.calls (es.map QueueEvent.task).dedup
    have hrank := QueueTasks.length_le_ranks hmax hnodup rs hsound hcalls hrs
    omega
  · obtain ⟨hget, hput⟩ := hserved.settled hsettled
    have hmaxsize := hsound.maxsize_eq
    have hqsize := hsound.qsize_le
    have hfull : (∃ t, Waits s.calls QueueCall.isPut t) → s.queue.qsize = maxsize := by
      intro hwaits
      have hroom := hput hwaits
      unfold QueueTasks.room at hroom
      omega
    refine ⟨fun hwaits => ?_, hfull, fun hboth => ?_⟩
    · rw [hsound.replays.puts_eq, hget hwaits, List.append_nil]
    · have hlen := hfull hboth.2
      rw [BoundedTopicQueue.qsize, hget hboth.1, List.length_nil] at hlen
      omega

/-- Two gets of an empty queue for one place, and two puts: the tasks come to rest. -/
theorem boundedTopicQueue_settles_two : ∃ rs, Runs.AllSteps QueueTasks.step QueueTasks.Resumes
      (QueueTasks.run 1 .block [.get 0, .get 1, .put 2 "a", .put 3 "b"]) rs ∧
    (rs.foldl QueueTasks.step (QueueTasks.run 1 .block [.get 0, .get 1, .put 2 "a", .put 3 "b"])).Settled :=
  (boundedTopicQueue_settles (by decide : 1 ≤ 1) .block [.get 0, .get 1, .put 2 "a", .put 3 "b"] _ rfl).2.1

end Settling

end Ingest
