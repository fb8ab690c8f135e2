import RealtimeFinance.Ingest.Backoff
import RealtimeFinance.Runs
/-!
# Reconnect — `ResilientWebSocket.run`

The loop tests `stop` and dials in one breath, so no dial follows a set `stop`.  Of a session it learns only whether it
raised: a session that did sleeps the next delay of `backoff_delays` before the loop goes on, and one that did not is
taken for a stop or for an expired lifetime and goes on at once.  A pump whose iteration ends, because the server closed
the connection in good order, does not raise either, and is dialled again at once.

`Rested` says of a log that a dial now would not hammer the venue.  What a connect needs is read at the log before it
(`gentle_connect`), each step appends what its phase allows (`step_lawful_iff`), and the run law follows by
`foldl_iff_allSteps`.
-/
namespace Ingest

open Runs

/-- How the pump task finished: `pump.result()` raises, or the socket's iteration ended. -/
inductive PumpEnd
  | raised
  | iterationEnded
deriving DecidableEq

/-- How `_session` went: connecting raised, sending the subscriptions or `on_reconnect` raised, or the wait returned, with
the pump when it is done and the stopper when it is. -/
inductive Session
  | dialFailed
  | setupFailed
  | waited (pump : Option PumpEnd) (stopper : Bool)
deriving DecidableEq

/-- `_session` raises. -/
def Session.raises : Session → Bool
  | .dialFailed              => true
  | .setupFailed             => true
  | .waited (some .raised) _ => true
  | .waited _ _              => false

/-- Neither task was done at the deadline. -/
def Session.expired : Session → Bool
  | .waited none false => true
  | _                  => false

/-- The stopper is done only when `stop` is set. -/
def Session.possible (stop : Bool) : Session → Bool
  | .waited _ true => stop
  | _              => true

inductive SocketAction (K : Type)
  | connect
  | ended (session : Session)
  | sleep (delay : K)
  | stopSet

inductive LoopPhase
  | session
  | sleeping
  | returned
deriving DecidableEq

/-- `run` between two awaits: the `stop` event, the undisturbed delay of `delays`, and what was done so far. -/
structure ResilientWebSocket (K : Type) where
  phase : LoopPhase
  stop : Bool
  delay : K
  log : List (SocketAction K)

/-- What happens to a running loop: `stop` is set, a session ends (with the draw its `next(delays)` would make), or a sleep
is over. -/
inductive SocketEvent (K : Type) [Field K] [LinearOrder K]
  | setStop
  | sessionEnds (session : Session) (draw : Draw K)
  | wakes

variable {K : Type}

def NoDialAfterStop (log : List (SocketAction K)) : Prop :=
  ∀ pre post, log = pre ++ .stopSet :: post → .connect ∉ post

theorem split_concat {α : Type} {log pre post : List α} {a x : α} (h : log ++ [a] = pre ++ x :: post) :
    (post = [] ∧ x = a ∧ pre = log) ∨ ∃ rest, post = rest ++ [a] ∧ log = pre ++ x :: rest := by
  rcases List.eq_nil_or_concat post with rfl | ⟨rest, b, rfl⟩
  · obtain ⟨hlog, hx⟩ := List.append_inj' h rfl
    exact Or.inl ⟨rfl, (List.cons.inj hx).1.symm, hlog.symm⟩
  · rw [List.concat_eq_append, ← List.cons_append, ← List.append_assoc] at h
    obtain ⟨hlog, hb⟩ := List.append_inj' h rfl
    obtain rfl := (List.cons.inj hb).1
    exact Or.inr ⟨rest, List.concat_eq_append, hlog⟩

theorem noDial_connect {log : List (SocketAction K)} :
    NoDialAfterStop (log ++ [.connect]) ↔ NoDialAfterStop log ∧ .stopSet ∉ log := by
  constructor
  · intro h
    constructor
    · rintro pre post rfl hpost
      exact h pre (post ++ [.connect]) (by simp) (by simp)
    · intro hstop
      obtain ⟨pre, post, rfl⟩ := List.append_of_mem hstop
      exact h pre (post ++ [.connect]) (by simp) (by simp)
  · rintro ⟨-, hstop⟩ pre post hsplit hpost
    rcases split_concat hsplit with ⟨rfl, -, -⟩ | ⟨rest, -, rfl⟩
    · simp at hpost
    · simp at hstop

theorem noDial_concat {log : List (SocketAction K)} {a : SocketAction K} (ha : a ≠ .connect) :
    NoDialAfterStop (log ++ [a]) ↔ NoDialAfterStop log := by
  constructor
  · rintro h pre post rfl hpost
    exact h pre (post ++ [a]) (by simp) (by simp [hpost])
  · intro h pre post hsplit hpost
    rcases split_concat hsplit with ⟨rfl, -, -⟩ | ⟨rest, rfl, hlog⟩
    · simp at hpost
    · rcases List.mem_append.1 hpost with hrest | hlast
      · exact h pre rest hlog hrest
      · exact ha (List.mem_singleton.1 hlast).symm

variable [Field K] [LinearOrder K]

/-- The loop's test, and the dial it begins the next session with. -/
def ResilientWebSocket.loop (r : ResilientWebSocket K) : ResilientWebSocket K :=
  if r.stop then { r with phase := .returned } else { r with phase := .session, log := r.log ++ [.connect] }

/-- `run`, up to its first await. -/
def ResilientWebSocket.start (K : Type) [Field K] (stop : Bool) : ResilientWebSocket K :=
  (⟨.returned, stop, 1, if stop then [.stopSet] else []⟩ : ResilientWebSocket K).loop

/-- What `run` does when its session ends. -/
def ResilientWebSocket.sessionEnds (maxBackoffS : K) (r : ResilientWebSocket K) (session : Session) (draw : Draw K) :
    ResilientWebSocket K :=
  if session.raises then
    if r.stop then { r with phase := .returned, log := r.log ++ [.ended session] }
    else { r with
      phase := .sleeping
      delay := (backoffTurn maxBackoffS r.delay draw.value).2
      log := r.log ++ [.ended session, .sleep (backoffTurn maxBackoffS r.delay draw.value).1] }
  -- "clean end": new delays, and on at once
  else ({ r with delay := 1, log := r.log ++ [.ended session] } : ResilientWebSocket K).loop

def ResilientWebSocket.step (maxBackoffS : K) (r : ResilientWebSocket K) : SocketEvent K → ResilientWebSocket K
  | .setStop => { r with stop := true, log := r.log ++ [.stopSet] }
  | .sessionEnds session draw =>
    if r.phase = .session ∧ session.possible r.stop = true then r.sessionEnds maxBackoffS session draw else r
  | .wakes => if r.phase = .sleeping then r.loop else r

/-- **The venue is not hammered**: between the end of a session and the next dial lies a sleep of a second, unless the
session's lifetime expired. -/
def Gentle (log : List (SocketAction K)) : Prop :=
  ∀ pre session mid post, log = pre ++ .ended session :: (mid ++ .connect :: post) → .connect ∉ mid →
    session.expired = true ∨ ∃ delay, .sleep delay ∈ mid ∧ 1 ≤ delay

/-- A dial now would not hammer the venue. -/
def Rested (log : List (SocketAction K)) : Prop :=
  ∀ pre session mid, log = pre ++ .ended session :: mid → .connect ∉ mid →
    session.expired = true ∨ ∃ delay, .sleep delay ∈ mid ∧ 1 ≤ delay

/-- The step ends a session whose iteration ended, with `stop` not set. -/
def ResilientWebSocket.ClosedByServer (r : ResilientWebSocket K) : SocketEvent K → Prop
  | .sessionEnds session _ => r.phase = .session ∧ r.stop = false ∧ session = .waited (some .iterationEnded) false
  | _                      => False

/-! ## Logs -/

/-- **A dial is gentle exactly when the log before it is rested.** -/
theorem gentle_connect {log : List (SocketAction K)} : Gentle (log ++ [.connect]) ↔ Gentle log ∧ Rested log := by
  constructor
  · intro h
    constructor
    · rintro pre session mid post rfl hmid
      exact h pre session mid (post ++ [.connect]) (by simp) hmid
    · rintro pre session mid rfl hmid
      exact h pre session mid [] (by simp) hmid
  · rintro ⟨hgentle, hrested⟩ pre session mid post hsplit hmid
    rw [← List.cons_append, ← List.append_assoc] at hsplit
    rcases split_concat hsplit with ⟨-, -, hlog⟩ | ⟨rest, -, hlog⟩
    · exact hrested pre session mid hlog.symm hmid
    · exact hgentle pre session mid rest (by simpa using hlog) hmid

/-- Anything but a dial keeps a log gentle. -/
theorem gentle_concat {log : List (SocketAction K)} {a : SocketAction K} (ha : a ≠ .connect) :
    Gentle (log ++ [a]) ↔ Gentle log := by
  constructor
  · rintro h pre session mid post rfl hmid
    exact h pre session mid (post ++ [a]) (by simp) hmid
  · intro h pre session mid post hsplit hmid
    rw [← List.cons_append, ← List.append_assoc] at hsplit
    rcases split_concat hsplit with ⟨-, hconnect, -⟩ | ⟨rest, -, hlog⟩
    · exact absurd hconnect.symm ha
    · exact h pre session mid rest (by simpa using hlog) hmid

theorem rested_connect (log : List (SocketAction K)) : Rested (log ++ [.connect]) := by
  intro pre session mid hsplit hmid
  rcases split_concat hsplit with ⟨-, hends, -⟩ | ⟨rest, rfl, -⟩
  · cases hends
  · simp at hmid

theorem rested_sleep (log : List (SocketAction K)) {delay : K} (hdelay : 1 ≤ delay) : Rested (log ++ [.sleep delay]) := by
  intro pre session mid hsplit hmid
  rcases split_concat hsplit with ⟨-, hends, -⟩ | ⟨rest, rfl, -⟩
  · cases hends
  · exact Or.inr ⟨delay, by simp, hdelay⟩

theorem rested_stopSet {log : List (SocketAction K)} (h : Rested log) : Rested (log ++ [.stopSet]) := by
  intro pre session mid hsplit hmid
  rcases split_concat hsplit with ⟨-, hends, -⟩ | ⟨rest, rfl, hlog⟩
  · cases hends
  · rcases h pre session rest hlog (fun hrest => hmid (List.mem_append_left _ hrest)) with hexpired | ⟨delay, hsleep, hone⟩
    · exact Or.inl hexpired
    · exact Or.inr ⟨delay, List.mem_append_left _ hsleep, hone⟩

/-- **After a session has ended, only an expired lifetime leaves the log rested.** -/
theorem rested_ended {log : List (SocketAction K)} (h : Rested log) (session : Session) :
    Rested (log ++ [.ended session]) ↔ session.expired = true := by
  constructor
  · intro hrested
    rcases hrested log session [] rfl (by simp) with hexpired | ⟨delay, hsleep, -⟩
    · exact hexpired
    · simp at hsleep
  · intro hexpired pre ended mid hsplit hmid
    rcases split_concat hsplit with ⟨-, hends, -⟩ | ⟨rest, rfl, hlog⟩
    · obtain rfl := SocketAction.ended.inj hends
      exact Or.inl hexpired
    · rcases h pre ended rest hlog (fun hrest => hmid (List.mem_append_left _ hrest)) with hearlier | ⟨delay, hsleep, hone⟩
      · exact Or.inl hearlier
      · exact Or.inr ⟨delay, List.mem_append_left _ hsleep, hone⟩

/-! ## One step -/

/-- What every state of a run has: a delay of a second or more, a rested log while the loop goes on, and a `stop` that the
log knows of only when it is set. -/
structure ResilientWebSocket.Sound (r : ResilientWebSocket K) : Prop where
  delay : 1 ≤ r.delay
  rested : r.phase ≠ .returned → Rested r.log
  stop : .stopSet ∈ r.log → r.stop = true

/-- What the loop promises, of the actions so far. -/
def ResilientWebSocket.Lawful (r : ResilientWebSocket K) : Prop := Gentle r.log ∧ NoDialAfterStop r.log

theorem lawful_concat {log : List (SocketAction K)} {a : SocketAction K} (ha : a ≠ .connect) :
    (Gentle (log ++ [a]) ∧ NoDialAfterStop (log ++ [a])) ↔ (Gentle log ∧ NoDialAfterStop log) := by
  rw [gentle_concat ha, noDial_concat ha]

/-- The loop's test keeps what the sessions before it allow. -/
theorem loop_lawful_iff {r : ResilientWebSocket K} (hstop : .stopSet ∈ r.log → r.stop = true) :
    r.loop.Lawful ↔ r.Lawful ∧ (r.stop = false → Rested r.log) := by
  unfold ResilientWebSocket.loop
  by_cases hset : r.stop = true
  · simp [hset, ResilientWebSocket.Lawful]
  · have hno : .stopSet ∉ r.log := fun hmem => hset (hstop hmem)
    rw [if_neg hset]
    unfold ResilientWebSocket.Lawful
    rw [gentle_connect, noDial_connect]
    simp only [hset, hno, not_false_eq_true, and_true, forall_const]
    tauto

theorem loop_sound {r : ResilientWebSocket K} (hdelay : 1 ≤ r.delay) (hstop : .stopSet ∈ r.log → r.stop = true) :
    r.loop.Sound := by
  unfold ResilientWebSocket.loop
  by_cases hset : r.stop = true
  · rw [if_pos hset]
    exact ⟨hdelay, fun h => absurd rfl h, fun _ => hset⟩
  · rw [if_neg hset]
    refine ⟨hdelay, fun _ => rested_connect _, fun hmem => hstop ?_⟩
    simpa using hmem

theorem start_sound (stop : Bool) : (ResilientWebSocket.start K stop).Sound := by
  refine loop_sound le_rfl (fun hmem => ?_)
  cases stop with
  | true  => rfl
  | false => simp at hmem

theorem start_lawful (stop : Bool) : (ResilientWebSocket.start K stop).Lawful := by
  refine (loop_lawful_iff (fun hmem => ?_)).2 ⟨?_, ?_⟩
  · cases stop with
    | true  => rfl
    | false => simp at hmem
  · cases stop with
    | true  => exact ⟨fun pre session mid post hsplit => by cases pre <;> simp at hsplit, fun pre post hsplit => by
        cases pre <;> simp_all⟩
    | false => exact ⟨fun pre session mid post hsplit => by simp at hsplit, fun pre post hsplit => by simp at hsplit⟩
  · rintro rfl pre session mid hsplit
    simp at hsplit

variable {maxBackoffS : K}

/-- Of the sessions that do not raise, with `stop` unset, one expired or was closed by the server. -/
theorem expired_iff_of_clean {session : Session} {stop : Bool} (hraises : session.raises = false)
    (hpossible : session.possible stop = true) :
    (stop = false → session.expired = true) ↔ ¬ (stop = false ∧ session = .waited (some .iterationEnded) false) := by
  by_cases hstop : stop = true
  · simp [hstop]
  · rcases session with _ | _ | ⟨_ | _ | _, _ | _⟩ <;> simp_all [Session.raises, Session.possible, Session.expired]

/-- A session that raised adds no dial. -/
theorem sessionEnds_lawful_of_raises {r : ResilientWebSocket K} {session : Session} (hraises : session.raises = true)
    (draw : Draw K) : (r.sessionEnds maxBackoffS session draw).Lawful ↔ r.Lawful := by
  unfold ResilientWebSocket.sessionEnds
  rw [if_pos hraises]
  split
  · exact lawful_concat (by simp)
  · unfold ResilientWebSocket.Lawful
    rw [List.append_cons, lawful_concat (by simp), lawful_concat (by simp)]

/-- A session that did not raise is followed by a dial, unless `stop` is set. -/
theorem sessionEnds_lawful_of_clean {r : ResilientWebSocket K} (h : r.Sound) (hrested : Rested r.log) {session : Session}
    (hraises : session.raises = false) (draw : Draw K) : (r.sessionEnds maxBackoffS session draw).Lawful ↔
      r.Lawful ∧ (r.stop = false → session.expired = true) := by
  have hlooped := loop_lawful_iff (r := { r with delay := 1, log := r.log ++ [.ended session] })
    (fun hmem => h.stop (by simpa using hmem))
  unfold ResilientWebSocket.sessionEnds
  rw [if_neg (by simp [hraises]), hlooped, rested_ended hrested]
  exact and_congr_left' (lawful_concat (by simp))

/-- **A step keeps the law exactly when it does not end a session the server closed.** -/
theorem step_lawful_iff (maxBackoffS : K) {r : ResilientWebSocket K} (h : r.Sound) (e : SocketEvent K) :
    (r.step maxBackoffS e).Lawful ↔ r.Lawful ∧ ¬ r.ClosedByServer e := by
  cases e with
  | setStop =>
    have hkeeps : (r.step maxBackoffS .setStop).Lawful ↔ r.Lawful := lawful_concat (by simp)
    rw [hkeeps]
    exact (and_iff_left id).symm
  | wakes =>
    refine Iff.trans ?_ (and_iff_left id).symm
    unfold ResilientWebSocket.step
    by_cases hphase : r.phase = .sleeping
    · have hrested : Rested r.log := h.rested (by simp [hphase])
      simp only [hphase, if_true]
      rw [loop_lawful_iff h.stop]
      exact and_iff_left (fun _ => hrested)
    · simp only [hphase, if_false]
  | sessionEnds session draw =>
    unfold ResilientWebSocket.step ResilientWebSocket.ClosedByServer
    by_cases hends : r.phase = .session ∧ session.possible r.stop = true
    · obtain ⟨hphase, hpossible⟩ := hends
      have hrested : Rested r.log := h.rested (by simp [hphase])
      simp only [hphase, hpossible, and_self, if_true, true_and]
      cases hraises : session.raises with
      | true =>
        have hopen : ¬ session = .waited (some .iterationEnded) false := by
          rintro rfl
          cases hraises
        rw [sessionEnds_lawful_of_raises hraises]
        exact (and_iff_left (fun hclosed => hopen hclosed.2)).symm
      | false => rw [sessionEnds_lawful_of_clean h hrested hraises, expired_iff_of_clean hraises hpossible]
    · simp only [hends, if_false]
      refine (and_iff_left ?_).symm
      rintro ⟨hphase, -, rfl⟩
      exact hends ⟨hphase, rfl⟩

/-! ## Runs -/

variable [IsStrictOrderedRing K]

theorem ResilientWebSocket.Sound.step (hmax : 1 ≤ maxBackoffS) {r : ResilientWebSocket K} (h : r.Sound) (e : SocketEvent K) :
    (r.step maxBackoffS e).Sound := by
  cases e with
  | setStop => exact ⟨h.delay, fun hphase => rested_stopSet (h.rested hphase), fun _ => rfl⟩
  | wakes =>
    unfold ResilientWebSocket.step
    by_cases hphase : r.phase = .sleeping
    · simp only [hphase, if_true]
      exact loop_sound h.delay h.stop
    · simp only [hphase, if_false]
      exact h
  | sessionEnds session draw =>
    simp only [ResilientWebSocket.step, ResilientWebSocket.sessionEnds]
    split
    · split
      · split
        · exact ⟨h.delay, fun hreturned => absurd rfl hreturned, fun hmem => h.stop (by simpa using hmem)⟩
        · have hsleep := (backoffTurn_bounds hmax h.delay draw.nonneg).1
          refine ⟨backoffTurn_next draw.value hmax h.delay, fun _ => ?_, fun hmem => h.stop (by simpa using hmem)⟩
          rw [List.append_cons]
          exact rested_sleep _ hsleep
      · exact loop_sound le_rfl (fun hmem => h.stop (by simpa using hmem))
    · exact h

/-- **A run hammers no venue and dials nothing after a stop exactly when no session of it is closed by the server.** -/
theorem reconnect_lawful_iff (hmax : 1 ≤ maxBackoffS) (stop : Bool) (events : List (SocketEvent K)) :
    (Gentle (events.foldl (ResilientWebSocket.step maxBackoffS) (.start K stop)).log ∧
        NoDialAfterStop (events.foldl (ResilientWebSocket.step maxBackoffS) (.start K stop)).log) ↔
      AllSteps (ResilientWebSocket.step maxBackoffS) (fun r e => ¬ r.ClosedByServer e) (.start K stop) events := by
  have hrun := foldl_iff_allSteps (A := ResilientWebSocket.Lawful) (I := ResilientWebSocket.Sound)
    (P := fun r e => ¬ r.ClosedByServer e) (fun r e h => step_lawful_iff maxBackoffS h e)
    (fun r e h => h.step hmax e) events (start_sound stop)
  exact hrun.trans (and_iff_right (start_lawful stop))

/-- A dial that fails, a sleep, a session that `stop` ends: no venue is hammered. -/
theorem reconnect_lawful_of_failure : Gentle (([.sessionEnds .dialFailed noDraw, .wakes, .setStop,
      .sessionEnds (.waited none true) noDraw] : List (SocketEvent ℚ)).foldl (ResilientWebSocket.step 60)
        (.start ℚ false)).log ∧
    NoDialAfterStop (([.sessionEnds .dialFailed noDraw, .wakes, .setStop,
      .sessionEnds (.waited none true) noDraw] : List (SocketEvent ℚ)).foldl (ResilientWebSocket.step 60)
        (.start ℚ false)).log := by
  refine (reconnect_lawful_iff (by norm_num) false _).2 ?_
  simp [allSteps_cons, allSteps_nil, ResilientWebSocket.ClosedByServer]

/-- A server that accepts the connection and closes it at once: the second dial follows the first session's end. -/
theorem not_gentle_closed : ¬ (∀ events : List (SocketEvent ℚ),
    Gentle (events.foldl (ResilientWebSocket.step 60) (.start ℚ false)).log ∧
      NoDialAfterStop (events.foldl (ResilientWebSocket.step 60) (.start ℚ false)).log) := by
  intro h
  have hgentle := (h [.sessionEnds (.waited (some .iterationEnded) false) noDraw]).1
  rcases hgentle [.connect] (.waited (some .iterationEnded) false) [] [] rfl (by simp) with hexpired | ⟨delay, hsleep, -⟩
  · cases hexpired
  · simp at hsleep

end Ingest
