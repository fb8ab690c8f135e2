import RealtimeFinance.Ingest.SilentLoss
/-!
# Jumps — the frames that start a repair

The trades of one frame share a key and a number (`Connector.Uniform`), so the first of them tells: a repair is started
exactly when a frame is received whose number jumps past the watermark (`step_gaps`, `run_gaps`), and the trades that
wait behind a blocked one are seen already (`Settled`).
-/
namespace Ingest

open Runs

variable {Frame : Type} (connector : Connector Frame)

def Connector.Uniform : Prop :=
  ∀ now frame trades, connector.parse now frame = some trades → ∀ t ∈ trades, ∀ t' ∈ trades,
    connector.keyOf t' = connector.keyOf t ∧ t'.sequence = t.sequence

/-- The trades that an event hands to `handle_message`. -/
def IngestRunner.receives (s : IngestRunner) : Event Frame → List Trade
  | .frame now frame =>
    match s.socket with
    | .session .idle => (connector.parse now frame).getD []
    | _              => []
  | _ => []

/-- **A frame's number jumps** past the one that follows the watermark. -/
def IngestRunner.Jumps (s : IngestRunner) (e : Event Frame) : Prop :=
  ∃ t ∈ s.receives connector e, ∃ n w, t.sequence = some n ∧ s.tracker.watermarks (connector.keyOf t) = some w ∧ w + 1 < n

def IngestRunner.gaps (s : IngestRunner) : List Gap := s.repairs.map RepairTask.gap

def IngestRunner.gapOf (s : IngestRunner) (t : Trade) : Option Gap :=
  (s.tracker.observe (connector.keyOf t).1 (connector.keyOf t).2 t.sequence).2

/-- The gap that the first trade of a frame shows. -/
def IngestRunner.newGaps (s : IngestRunner) (e : Event Frame) : List Gap :=
  match s.receives connector e with
  | []     => []
  | t :: _ => (s.gapOf connector t).toList

/-! ## The tracker -/

def SequenceTracker.Seen (t : SequenceTracker) (key : SequenceKey) (sequence : Option Int) : Prop :=
  ∀ n, sequence = some n → ∃ w, t.watermarks key = some w ∧ n ≤ w

/-- **Observing what is seen changes nothing.** -/
theorem SequenceTracker.observe_of_seen {t : SequenceTracker} {key : SequenceKey} {sequence : Option Int}
    (h : t.Seen key sequence) : t.observe key.1 key.2 sequence = (t, none) := by
  unfold SequenceTracker.observe
  cases sequence with
  | none => rfl
  | some n =>
    obtain ⟨w, hw, hle⟩ := h n rfl
    have hkeep : t.set key (max n w) = t := by
      unfold SequenceTracker.set
      cases t with
      | mk watermarks =>
        congr 1
        funext k
        by_cases hk : k = key
        · rw [if_pos hk, hk, Int.max_eq_right hle]
          exact hw.symm
        · rw [if_neg hk]
    have hnext : n ≤ w + 1 := by omega
    simp only [hw, if_pos hnext]
    exact congrArg (fun t => (t, none)) hkeep

theorem SequenceTracker.observe_seen (t : SequenceTracker) (key : SequenceKey) (sequence : Option Int) :
    (t.observe key.1 key.2 sequence).1.Seen key sequence := by
  intro n hn
  subst hn
  unfold SequenceTracker.observe
  simp only
  cases t.watermarks key with
  | none => exact ⟨n, t.set_self key n, Int.le_refl n⟩
  | some last => exact ⟨max n last, t.set_self key _, Int.le_max_left n last⟩

theorem SequenceTracker.observe_gap {t : SequenceTracker} {key : SequenceKey} {sequence : Option Int} {g : Gap} :
    (t.observe key.1 key.2 sequence).2 = some g ↔
      ∃ n w, sequence = some n ∧ t.watermarks key = some w ∧ w + 1 < n ∧ g = ⟨key.1, key.2, w, n⟩ := by
  obtain ⟨venue, venueSymbol⟩ := key
  unfold SequenceTracker.observe
  cases sequence with
  | none => simp
  | some n =>
    cases hw : t.watermarks (venue, venueSymbol) with
    | none => simp
    | some w =>
      simp only [Option.some.injEq]
      by_cases hle : n ≤ w + 1
      · rw [if_pos hle]
        refine iff_of_false (fun h => by cases h) ?_
        rintro ⟨n', w', rfl, rfl, hlt, -⟩
        omega
      · rw [if_neg hle, Option.some.injEq]
        constructor
        · intro h
          exact ⟨n, w, rfl, rfl, by omega, h.symm⟩
        · rintro ⟨n', w', rfl, rfl, -, rfl⟩
          rfl

/-! ## One frame -/

/-- The trades of the frame in progress that are still to be observed. -/
def IngestRunner.left (s : IngestRunner) : List Trade :=
  match s.socket with
  | .session (.blocked _ rest) => rest
  | _                          => []

def IngestRunner.Settled (s : IngestRunner) : Prop :=
  ∀ t ∈ s.left, s.tracker.Seen (connector.keyOf t) t.sequence

theorem settled_of_left {s : IngestRunner} (h : s.left = []) : s.Settled connector := by
  intro t ht
  rw [h] at ht
  cases ht

theorem gapOf_of_seen {s : IngestRunner} {t : Trade} (h : s.tracker.Seen (connector.keyOf t) t.sequence) :
    s.gapOf connector t = none := by
  unfold IngestRunner.gapOf
  rw [SequenceTracker.observe_of_seen h]

theorem observe_gaps (s : IngestRunner) (t : Trade) :
    (s.observe connector t).gaps = s.gaps ++ (s.gapOf connector t).toList := by
  unfold IngestRunner.gaps IngestRunner.gapOf
  rw [observe_repairs, List.map_append, List.map_map]
  congr 1
  exact List.map_id _

theorem observe_tracker (s : IngestRunner) (t : Trade) : (s.observe connector t).tracker =
    (s.tracker.observe (connector.keyOf t).1 (connector.keyOf t).2 t.sequence).1 := rfl

theorem putTrade_tracker {s s' : IngestRunner} {t : Trade} (h : s.putTrade t = some s') :
    s'.tracker = s.tracker ∧ s'.gaps = s.gaps := by
  obtain ⟨hquiet, -⟩ := putTrade_quiet h
  exact ⟨hquiet.tracker, hquiet.repairs⟩

/-- **Trades that are seen leave the tracker alone and start no repair.** -/
theorem handleMessage_seen (trades : List Trade) : ∀ {s : IngestRunner},
    (∀ t ∈ trades, s.tracker.Seen (connector.keyOf t) t.sequence) →
      (s.handleMessage connector trades).tracker = s.tracker ∧ (s.handleMessage connector trades).gaps = s.gaps ∧
        (s.handleMessage connector trades).Settled connector := by
  induction trades with
  | nil => exact fun _ => ⟨rfl, rfl, settled_of_left connector rfl⟩
  | cons t rest ih =>
    intro s hseen
    have ht := hseen t List.mem_cons_self
    have htracker : (s.observe connector t).tracker = s.tracker := by
      rw [observe_tracker, SequenceTracker.observe_of_seen ht]
    have hgaps : (s.observe connector t).gaps = s.gaps := by
      rw [observe_gaps, gapOf_of_seen connector ht]
      exact List.append_nil _
    have hrest : ∀ t' ∈ rest, (s.observe connector t).tracker.Seen (connector.keyOf t') t'.sequence := by
      intro t' ht'
      rw [htracker]
      exact hseen t' (List.mem_cons_of_mem t ht')
    unfold IngestRunner.handleMessage
    cases hput : (s.observe connector t).putTrade t with
    | none => exact ⟨htracker, hgaps, hrest⟩
    | some s' =>
      obtain ⟨htracker', hgaps'⟩ := putTrade_tracker hput
      rw [← htracker'] at hrest
      obtain ⟨htail, hg, hs⟩ := ih hrest
      exact ⟨by rw [htail, htracker', htracker], by rw [hg, hgaps', hgaps], hs⟩

/-- **A frame is seen at its first trade**: it shows that trade's gap, and no other. -/
theorem handleMessage_uniform {s : IngestRunner} {t : Trade} {rest : List Trade}
    (hsame : ∀ t' ∈ rest, connector.keyOf t' = connector.keyOf t ∧ t'.sequence = t.sequence) :
    (s.handleMessage connector (t :: rest)).tracker = (s.observe connector t).tracker ∧
      (s.handleMessage connector (t :: rest)).gaps = s.gaps ++ (s.gapOf connector t).toList ∧
      (s.handleMessage connector (t :: rest)).Settled connector := by
  have hrest : ∀ t' ∈ rest, (s.observe connector t).tracker.Seen (connector.keyOf t') t'.sequence := by
    intro t' ht'
    obtain ⟨hkey, hsequence⟩ := hsame t' ht'
    rw [hkey, hsequence, observe_tracker]
    exact s.tracker.observe_seen (connector.keyOf t) t.sequence
  unfold IngestRunner.handleMessage
  cases hput : (s.observe connector t).putTrade t with
  | none => exact ⟨rfl, observe_gaps connector s t, hrest⟩
  | some s' =>
    obtain ⟨htracker, hgaps⟩ := putTrade_tracker hput
    rw [← htracker] at hrest
    obtain ⟨ht, hg, hs⟩ := handleMessage_seen connector rest hrest
    exact ⟨by rw [ht, htracker], by rw [hg, hgaps, observe_gaps], hs⟩

theorem loopTest_left (s : IngestRunner) : s.loopTest.left = [] := by
  unfold IngestRunner.loopTest IngestRunner.left
  cases s.stop <;> rfl

theorem sessionFails_left (s : IngestRunner) : s.sessionFails.left = [] := by
  unfold IngestRunner.sessionFails IngestRunner.left
  cases s.stop <;> rfl

theorem left_of_socket {s s' : IngestRunner} (h : s'.socket = s.socket) : s'.left = s.left := by
  unfold IngestRunner.left
  rw [h]

/-! ## Events and runs -/

/-- What an event can do, as the tracker sees it. -/
inductive FrameCase (s : IngestRunner) (e : Event Frame) (s' : IngestRunner) : Prop
  | other (hnone : s.receives connector e = []) (hgaps : s'.gaps = s.gaps) (hsettled : s'.Settled connector)
      (htracker : s'.tracker = s.tracker ∨
        connector.resetsSequenceOnReconnect = true ∧ e = .dialed ∧ s.socket = .dialing ∧ s'.tracker = .new)
  | frame (hsome : s.receives connector e ≠ []) (h : s' = s.handleMessage connector (s.receives connector e))

variable {connector}

theorem frameCase_frame {s : IngestRunner} (hs : s.Settled connector) (now : Int) (frame : Frame) :
    FrameCase connector s (.frame now frame) (s.step connector (.frame now frame)) := by
  by_cases hidle : s.socket = .session .idle
  · have hreceives : s.receives connector (.frame now frame) = (connector.parse now frame).getD [] := by
      simp only [IngestRunner.receives, hidle]
    simp only [IngestRunner.step, hidle]
    cases hparse : connector.parse now frame with
    | none =>
      rw [hparse] at hreceives
      exact .other hreceives rfl (settled_of_left connector (sessionFails_left s)) (Or.inl rfl)
    | some trades =>
      rw [hparse] at hreceives
      cases trades with
      | nil => exact .other hreceives rfl (settled_of_left connector rfl) (Or.inl rfl)
      | cons t rest =>
        refine .frame (by rw [hreceives]; exact List.cons_ne_nil t rest) ?_
        rw [hreceives]
        rfl
  · have hreceives : s.receives connector (.frame now frame) = [] := by
      simp only [IngestRunner.receives]
    have hstep : s.step connector (.frame now frame) = s := by
      simp only [IngestRunner.step]
    rw [hstep]
    exact .other hreceives rfl hs (Or.inl rfl)

theorem frameCase_putResumes {s : IngestRunner} (hs : s.Settled connector) :
    FrameCase connector s .putResumes (s.step connector .putResumes) := by
  simp only [IngestRunner.step]
  split
  · rename_i t rest hsocket
    cases hput : s.putTrade t with
    | none => exact .other rfl rfl hs (Or.inl rfl)
    | some s' =>
      obtain ⟨htracker, hgaps⟩ := putTrade_tracker hput
      have hseen : ∀ t' ∈ rest, s'.tracker.Seen (connector.keyOf t') t'.sequence := by
        intro t' ht'
        rw [htracker]
        apply hs t'
        unfold IngestRunner.left
        rw [hsocket]
        exact ht'
      obtain ⟨ht', hg, hs'⟩ := handleMessage_seen connector rest hseen
      exact .other rfl (hg.trans hgaps) hs' (Or.inl (ht'.trans htracker))
  · exact .other rfl rfl hs (Or.inl rfl)

theorem frameCase_dialed {s : IngestRunner} (hs : s.Settled connector) :
    FrameCase connector s .dialed (s.step connector .dialed) := by
  simp only [IngestRunner.step, IngestRunner.handleReconnect]
  split
  · rename_i hdialing
    split
    · split
      · rename_i hreset
        exact .other rfl rfl (settled_of_left connector rfl) (Or.inr ⟨hreset, rfl, hdialing, rfl⟩)
      · exact .other rfl rfl (settled_of_left connector rfl) (Or.inl rfl)
    · exact .other rfl rfl (settled_of_left connector rfl) (Or.inl rfl)
  · exact .other rfl rfl hs (Or.inl rfl)

/-- **An event hands a frame to `handle_message`, or leaves the gaps as they are.** -/
theorem step_frameCase {s : IngestRunner} (hs : s.Settled connector) (e : Event Frame) :
    FrameCase connector s e (s.step connector e) := by
  cases hsocket : e.ofSocket with
  | false =>
    obtain ⟨hquiet, hsocket'⟩ := step_quiet_of_not_socket connector s hsocket
    have hnone : s.receives connector e = [] := by cases e <;> first | rfl | cases hsocket
    refine .other hnone hquiet.repairs ?_ (Or.inl hquiet.tracker)
    intro t ht
    rw [left_of_socket hsocket'] at ht
    rw [hquiet.tracker]
    exact hs t ht
  | true =>
    cases e with
    | frame now frame => exact frameCase_frame hs now frame
    | putResumes => exact frameCase_putResumes hs
    | dialed => exact frameCase_dialed hs
    | dialFails =>
      simp only [IngestRunner.step]
      split
      · exact .other rfl rfl (settled_of_left connector (sessionFails_left s)) (Or.inl rfl)
      · exact .other rfl rfl hs (Or.inl rfl)
    | socketFails =>
      simp only [IngestRunner.step]
      split
      · exact .other rfl rfl (settled_of_left connector (sessionFails_left s)) (Or.inl rfl)
      · exact .other rfl rfl hs (Or.inl rfl)
    | socketCloses =>
      simp only [IngestRunner.step]
      split
      · exact .other rfl rfl (settled_of_left connector (loopTest_left s)) (Or.inl rfl)
      · exact .other rfl rfl hs (Or.inl rfl)
    | lifetimeExpires =>
      simp only [IngestRunner.step]
      split
      · exact .other rfl rfl (settled_of_left connector (loopTest_left s)) (Or.inl rfl)
      · exact .other rfl rfl hs (Or.inl rfl)
    | stopSeen =>
      simp only [IngestRunner.step]
      split
      · split
        · exact .other rfl rfl (settled_of_left connector (loopTest_left s)) (Or.inl rfl)
        · exact .other rfl rfl hs (Or.inl rfl)
      · exact .other rfl rfl hs (Or.inl rfl)
    | slept =>
      simp only [IngestRunner.step]
      split
      · exact .other rfl rfl (settled_of_left connector (loopTest_left s)) (Or.inl rfl)
      · exact .other rfl rfl hs (Or.inl rfl)
    | _ => cases hsocket

/-- **What is received comes of one frame**, read while the session waits for one. -/
theorem mem_receives {s : IngestRunner} {e : Event Frame} {t : Trade} (ht : t ∈ s.receives connector e) :
    ∃ now frame trades, e = .frame now frame ∧ s.socket = .session .idle ∧ connector.parse now frame = some trades ∧
      s.receives connector e = trades := by
  cases e with
  | frame now frame =>
    unfold IngestRunner.receives at ht ⊢
    simp only at ht ⊢
    split at ht
    · rename_i hidle
      cases hparse : connector.parse now frame with
      | none =>
        rw [hparse] at ht
        cases ht
      | some trades => exact ⟨now, frame, trades, rfl, hidle, hparse, by simp only [Option.getD_some]⟩
    · cases ht
  | _ => cases ht

theorem receives_uniform (hu : connector.Uniform) {s : IngestRunner} {e : Event Frame} {t t' : Trade}
    (ht : t ∈ s.receives connector e) (ht' : t' ∈ s.receives connector e) :
    connector.keyOf t' = connector.keyOf t ∧ t'.sequence = t.sequence := by
  obtain ⟨now, frame, trades, -, -, hparse, hreceives⟩ := mem_receives ht
  rw [hreceives] at ht ht'
  exact hu now frame trades hparse t ht t' ht'

/-- **A frame is handed over whole, and its first trade tells what becomes of the tracker and the gaps.** -/
theorem step_received (hu : connector.Uniform) {s : IngestRunner} (hs : s.Settled connector) {e : Event Frame} {t : Trade}
    {rest : List Trade} (hreceives : s.receives connector e = t :: rest) :
    (s.step connector e).tracker = (s.observe connector t).tracker ∧
      (s.step connector e).gaps = s.gaps ++ (s.gapOf connector t).toList ∧ (s.step connector e).Settled connector := by
  have ht : t ∈ s.receives connector e := by
    rw [hreceives]
    exact List.mem_cons_self
  cases step_frameCase hs e with
  | other hnone hgaps hsettled htracker =>
    rw [hnone] at ht
    cases ht
  | frame hsome h =>
    rw [h, hreceives]
    apply handleMessage_uniform connector
    intro t' ht'
    apply receives_uniform hu ht
    rw [hreceives]
    exact List.mem_cons_of_mem t ht'

/-- **An event starts the repair of the gap its frame shows, and nothing else does.** -/
theorem step_gaps (hu : connector.Uniform) {s : IngestRunner} (hs : s.Settled connector) (e : Event Frame) :
    (s.step connector e).gaps = s.gaps ++ s.newGaps connector e ∧ (s.step connector e).Settled connector := by
  unfold IngestRunner.newGaps
  cases hreceives : s.receives connector e with
  | nil =>
    cases step_frameCase hs e with
    | other hnone hgaps hsettled htracker => exact ⟨hgaps.trans (List.append_nil _).symm, hsettled⟩
    | frame hsome h => exact absurd hreceives hsome
  | cons t rest => exact (step_received hu hs hreceives).2

theorem newGaps_ne_nil (hu : connector.Uniform) {s : IngestRunner} {e : Event Frame} :
    s.newGaps connector e ≠ [] ↔ s.Jumps connector e := by
  unfold IngestRunner.newGaps IngestRunner.Jumps
  cases hreceives : s.receives connector e with
  | nil => simp
  | cons t rest =>
    have hgap : (s.gapOf connector t).toList ≠ [] ↔ ∃ g, s.gapOf connector t = some g := by
      cases s.gapOf connector t <;> simp
    simp only [hgap]
    constructor
    · rintro ⟨g, hg⟩
      obtain ⟨n, w, hn, hw, hlt, -⟩ := SequenceTracker.observe_gap.1 hg
      exact ⟨t, List.mem_cons_self, n, w, hn, hw, hlt⟩
    · rintro ⟨t', ht', n, w, hn, hw, hlt⟩
      rw [← hreceives] at ht'
      have ht : t ∈ s.receives connector e := by
        rw [hreceives]
        exact List.mem_cons_self
      obtain ⟨hkey, hsequence⟩ := receives_uniform hu ht ht'
      rw [hsequence] at hn
      rw [hkey] at hw
      exact ⟨_, SequenceTracker.observe_gap.2 ⟨n, w, hn, hw, hlt, rfl⟩⟩

/-- **A run has started a repair exactly when** a frame of it jumped. -/
theorem run_gaps (hu : connector.Uniform) (events : List (Event Frame)) : ∀ {s : IngestRunner}, s.Settled connector →
    ∃ new, (events.foldl (IngestRunner.step connector) s).gaps = s.gaps ++ new ∧
      (new ≠ [] ↔ SomeStep (IngestRunner.step connector) (IngestRunner.Jumps connector) s events) := by
  induction events with
  | nil => exact fun {s} _ => ⟨[], (List.append_nil _).symm, iff_of_false (fun h => h rfl) (someStep_nil s)⟩
  | cons e events ih =>
    intro s hs
    obtain ⟨hgaps, hs'⟩ := step_gaps hu hs e
    obtain ⟨new, hrun, hnew⟩ := ih hs'
    refine ⟨s.newGaps connector e ++ new, by rw [List.foldl_cons, hrun, hgaps, List.append_assoc], ?_⟩
    have happend : s.newGaps connector e ++ new ≠ [] ↔ s.newGaps connector e ≠ [] ∨ new ≠ [] := by
      cases s.newGaps connector e <;> simp
    rw [happend, newGaps_ne_nil hu, hnew, someStep_cons]

/-- The gaps that a run has started repairs for. -/
def IngestRunner.started (s : IngestRunner) (connector : Connector Frame) (events : List (Event Frame)) : List Gap :=
  (events.foldl (IngestRunner.step connector) s).gaps.drop s.gaps.length

theorem started_ne_nil (hu : connector.Uniform) {s : IngestRunner} (hs : s.Settled connector)
    (events : List (Event Frame)) : s.started connector events ≠ [] ↔
      SomeStep (IngestRunner.step connector) (IngestRunner.Jumps connector) s events := by
  obtain ⟨new, hgaps, hnew⟩ := run_gaps hu events hs
  unfold IngestRunner.started
  rw [hgaps, List.drop_left, hnew]

theorem run_settled (hu : connector.Uniform) (events : List (Event Frame)) {s : IngestRunner}
    (hs : s.Settled connector) : (events.foldl (IngestRunner.step connector) s).Settled connector :=
  run_invariant (I := IngestRunner.Settled connector) (fun _ e h => (step_gaps hu h e).2) events hs

/-- **A gap that a frame of the run shows is one the run has started a repair for.** -/
theorem newGaps_started (hu : connector.Uniform) {s : IngestRunner} (hs : s.Settled connector) {events pre post}
    {e : Event Frame} (hsplit : events = pre ++ e :: post) {g : Gap}
    (hg : g ∈ (pre.foldl (IngestRunner.step connector) s).newGaps connector e) : g ∈ s.started connector events := by
  subst hsplit
  have hs' := run_settled hu pre hs
  obtain ⟨before, hbefore, -⟩ := run_gaps hu pre hs
  obtain ⟨hstep, hs''⟩ := step_gaps hu hs' e
  obtain ⟨after, hafter, -⟩ := run_gaps hu post hs''
  unfold IngestRunner.started
  rw [List.foldl_append, List.foldl_cons, hafter, hstep, hbefore, List.append_assoc, List.append_assoc, List.drop_left]
  exact List.mem_append_right _ (List.mem_append_left _ hg)

end Ingest
