import RealtimeFinance.Ingest.Outage
/-!
# ConnectionGaps — what Coinbase's `sequence_num` tells of one connection

The number counts every frame that the server sends, and only the frames with a usable trade are compared.  So a repair is
started for the numbers that are missing among those frames (`connection_started_iff`), a heartbeat's among them, and
never for one that is missing before the first of them or after the last.
-/
namespace Ingest

open Runs

/-! ## Missing numbers -/

/-- A number between two of the list is not in it. -/
def Missing (numbers : List Int) : Prop := ∃ a ∈ numbers, ∃ b ∈ numbers, ∃ i, a < i ∧ i < b ∧ i ∉ numbers

theorem missing_singleton (n : Int) : ¬ Missing [n] := by
  rintro ⟨a, ha, b, hb, i, hai, hib, -⟩
  rw [List.mem_singleton] at ha hb
  omega

theorem missing_cons {n m : Int} {ns : List Int} (h : (n :: m :: ns).Pairwise (· < ·)) :
    Missing (n :: m :: ns) ↔ n + 1 < m ∨ Missing (m :: ns) := by
  obtain ⟨hn, hrest⟩ := List.pairwise_cons.1 h
  have hm := (List.pairwise_cons.1 hrest).1
  have hnm : n < m := hn m List.mem_cons_self
  constructor
  · rintro ⟨a, ha, b, hb, i, hai, hib, hi⟩
    by_cases hjump : n + 1 < m
    · exact Or.inl hjump
    · -- the two first are neighbours, so the number lies beyond the second
      have hna : n ≤ a := by
        rcases List.mem_cons.1 ha with rfl | ha
        · omega
        · have := hn a ha
          omega
      rw [List.mem_cons, not_or] at hi
      have him : i ≠ m := fun h => hi.2 (by rw [h]; exact List.mem_cons_self)
      have hb' : b ∈ m :: ns := by
        rcases List.mem_cons.1 hb with rfl | hb
        · omega
        · exact hb
      exact Or.inr ⟨m, List.mem_cons_self, b, hb', i, by omega, hib, hi.2⟩
  · intro hcase
    rcases hcase with hjump | ⟨a, ha, b, hb, i, hai, hib, hi⟩
    · refine ⟨n, List.mem_cons_self, m, List.mem_cons_of_mem n List.mem_cons_self, n + 1, by omega, hjump, ?_⟩
      intro hmem
      rcases List.mem_cons.1 hmem with heq | hmem
      · omega
      · rcases List.mem_cons.1 hmem with heq | hmem
        · omega
        · have := hm _ hmem
          omega
    · refine ⟨a, List.mem_cons_of_mem n ha, b, List.mem_cons_of_mem n hb, i, hai, hib, ?_⟩
      have := hn a ha
      intro hmem
      rcases List.mem_cons.1 hmem with heq | hmem
      · omega
      · exact hi hmem

/-! ## One connection -/

section

variable (rfc3339ToUs : String → Option Int) (instruments : InstrumentMap)

/-- The `sequence_num` of the frame that an event hands to `handle_message`. -/
def IngestRunner.number (s : IngestRunner) : Event CoinbaseFrame → Option Int
  | .frame _ (.message _ sequenceNum _) =>
    match s.socket with
    | .session .idle => sequenceNum
    | _              => none
  | _ => none

/-- The same, of a frame with a usable trade. -/
def IngestRunner.usableNumber (s : IngestRunner) (e : Event CoinbaseFrame) : Option Int :=
  if (s.receives (coinbase rfc3339ToUs instruments) e).isEmpty then none else s.number e

def received (s : IngestRunner) (events : List (Event CoinbaseFrame)) : List Int :=
  outputs (IngestRunner.step (coinbase rfc3339ToUs instruments)) IngestRunner.number s events

def receivedUsable (s : IngestRunner) (events : List (Event CoinbaseFrame)) : List Int :=
  outputs (IngestRunner.step (coinbase rfc3339ToUs instruments)) (IngestRunner.usableNumber rfc3339ToUs instruments) s events

/-- A connection that is just made. -/
def IngestRunner.Fresh (s : IngestRunner) : Prop := s.tracker = .new ∧ s.socket = .session .idle

/-- Every event belongs to the same connection, and each frame that is received has a number. -/
def OnConnection (s : IngestRunner) (e : Event CoinbaseFrame) : Prop :=
  (e = .dialed → s.socket ≠ .dialing) ∧
    ∀ now frame, e = .frame now frame → s.socket = .session .idle → (s.number e).isSome

variable {rfc3339ToUs instruments}

/-- Every trade of a received frame carries its number. -/
theorem receives_number {s : IngestRunner} {e : Event CoinbaseFrame} {t : Trade}
    (ht : t ∈ s.receives (coinbase rfc3339ToUs instruments) e) :
    t.sequence = s.number e ∧ ∃ now frame, e = .frame now frame ∧ s.socket = .session .idle := by
  obtain ⟨now, frame, trades, rfl, hidle, hparse, hreceives⟩ := mem_receives ht
  rw [hreceives] at ht
  obtain ⟨channel, n, rows, rfl, -, hsequence, -⟩ := coinbase_parse rfc3339ToUs instruments hparse ht
  refine ⟨?_, now, _, rfl, hidle⟩
  simp only [IngestRunner.number, hidle]
  exact hsequence

theorem receivedUsable_sublist (events : List (Event CoinbaseFrame)) : ∀ s : IngestRunner,
    (receivedUsable rfc3339ToUs instruments s events).Sublist (received rfc3339ToUs instruments s events) := by
  induction events with
  | nil => exact fun _ => List.Sublist.refl []
  | cons e events ih =>
    intro s
    apply List.Sublist.append _ (ih _)
    unfold IngestRunner.usableNumber
    split
    · exact List.nil_sublist _
    · exact List.Sublist.refl _

/-- **An event of the connection passes by unseen, or shows its number to the watermark.** -/
theorem step_connection {s : IngestRunner} (hs : s.Settled (coinbase rfc3339ToUs instruments)) {e : Event CoinbaseFrame}
    (hon : OnConnection s e) :
    (s.usableNumber rfc3339ToUs instruments e = none ∧ ¬ s.Jumps (coinbase rfc3339ToUs instruments) e ∧
      (s.step (coinbase rfc3339ToUs instruments) e).tracker = s.tracker) ∨
    ∃ n, s.usableNumber rfc3339ToUs instruments e = some n ∧
      (s.Jumps (coinbase rfc3339ToUs instruments) e ↔ ∃ w, s.tracker.watermarks ("coinbase", "*") = some w ∧ w + 1 < n) ∧
      (s.step (coinbase rfc3339ToUs instruments) e).tracker = (s.tracker.observe "coinbase" "*" (some n)).1 := by
  have hu := coinbase_uniform rfc3339ToUs instruments
  cases hreceives : s.receives (coinbase rfc3339ToUs instruments) e with
  | nil =>
    left
    refine ⟨?_, ?_, ?_⟩
    · unfold IngestRunner.usableNumber
      rw [hreceives]
      rfl
    · rintro ⟨t, ht, -⟩
      rw [hreceives] at ht
      cases ht
    · cases step_frameCase hs e with
      | other hnone hgaps hsettled htracker =>
        rcases htracker with ht | ⟨-, hdialed, hdialing, -⟩
        · exact ht
        · exact absurd hdialing (hon.1 hdialed)
      | frame hsome h => exact absurd hreceives hsome
  | cons t rest =>
    right
    have ht : t ∈ s.receives (coinbase rfc3339ToUs instruments) e := by
      rw [hreceives]
      exact List.mem_cons_self
    obtain ⟨hsequence, now, frame, he, hidle⟩ := receives_number ht
    obtain ⟨n, hn⟩ := Option.isSome_iff_exists.1 (hon.2 now frame he hidle)
    rw [hn] at hsequence
    have hkey := (coinbase_receives rfc3339ToUs instruments ht).1
    refine ⟨n, ?_, ?_, ?_⟩
    · unfold IngestRunner.usableNumber
      rw [hreceives]
      exact hn
    · constructor
      · rintro ⟨t', ht', n', w, hn', hw, hlt⟩
        obtain ⟨hkey', hsequence'⟩ := receives_uniform hu ht ht'
        rw [hsequence', hsequence, Option.some.injEq] at hn'
        rw [hkey', hkey] at hw
        exact ⟨w, hw, by omega⟩
      · rintro ⟨w, hw, hlt⟩
        rw [← hkey] at hw
        exact ⟨t, ht, n, w, hsequence, hw, hlt⟩
    · rw [(step_received hu hs hreceives).1, observe_tracker, hkey, hsequence]

theorem not_missing_toList (w : Option Int) : ¬ Missing w.toList := by
  cases w with
  | none =>
    rintro ⟨a, ha, -⟩
    cases ha
  | some w => exact missing_singleton w

/-- **A connection's jumps are the numbers missing among its usable frames**, the watermark before them. -/
theorem connection_jumps_iff (events : List (Event CoinbaseFrame)) : ∀ {s : IngestRunner},
    s.Settled (coinbase rfc3339ToUs instruments) →
    AllSteps (IngestRunner.step (coinbase rfc3339ToUs instruments)) OnConnection s events →
    ((s.tracker.watermarks ("coinbase", "*")).toList ++ receivedUsable rfc3339ToUs instruments s events).Pairwise (· < ·) →
      (SomeStep (IngestRunner.step (coinbase rfc3339ToUs instruments))
          (IngestRunner.Jumps (coinbase rfc3339ToUs instruments)) s events ↔
        Missing ((s.tracker.watermarks ("coinbase", "*")).toList ++ receivedUsable rfc3339ToUs instruments s events)) := by
  induction events with
  | nil =>
    intro s _ _ _
    refine iff_of_false (someStep_nil s) ?_
    rw [show receivedUsable rfc3339ToUs instruments s [] = [] from rfl, List.append_nil]
    exact not_missing_toList _
  | cons e events ih =>
    intro s hs hon hsorted
    obtain ⟨he, hon'⟩ := (allSteps_cons s e events).1 hon
    have hs' := (step_gaps (coinbase_uniform rfc3339ToUs instruments) hs e).2
    have hcons : receivedUsable rfc3339ToUs instruments s (e :: events) =
        (s.usableNumber rfc3339ToUs instruments e).toList ++
          receivedUsable rfc3339ToUs instruments (s.step (coinbase rfc3339ToUs instruments) e) events := rfl
    have ih := ih hs' hon'
    rw [someStep_cons]
    rcases step_connection hs he with ⟨hnone, hno, htracker⟩ | ⟨n, hn, hjumps, htracker⟩
    · rw [hnone, Option.toList_none, List.nil_append] at hcons
      rw [htracker] at ih
      rw [hcons] at hsorted ⊢
      rw [ih hsorted]
      exact ⟨fun h => h.resolve_left hno, Or.inr⟩
    · rw [hn, Option.toList_some, List.singleton_append] at hcons
      rw [hcons] at hsorted ⊢
      rw [hjumps]
      cases hw : s.tracker.watermarks ("coinbase", "*") with
      | none =>
        rw [hw, Option.toList_none, List.nil_append] at hsorted
        have hw' : (s.step (coinbase rfc3339ToUs instruments) e).tracker.watermarks ("coinbase", "*") = some n := by
          rw [htracker]
          exact s.tracker.observe_first hw
        rw [hw', Option.toList_some, List.singleton_append] at ih
        rw [ih hsorted]
        simp
      | some w =>
        rw [hw, Option.toList_some, List.singleton_append] at hsorted
        have hwn : w < n := (List.pairwise_cons.1 hsorted).1 n List.mem_cons_self
        have hw' : (s.step (coinbase rfc3339ToUs instruments) e).tracker.watermarks ("coinbase", "*") = some n := by
          rw [htracker]
          unfold SequenceTracker.observe
          simp only [hw, SequenceTracker.set_self, Option.some.injEq]
          exact Int.max_eq_left (by omega)
        rw [hw', Option.toList_some, List.singleton_append] at ih
        rw [Option.toList_some, List.singleton_append, missing_cons hsorted, ih (List.pairwise_cons.1 hsorted).2]
        simp

/-- **A fresh connection starts a repair exactly when** a number is missing among its usable frames. -/
theorem connection_started_iff {s : IngestRunner} (hs : s.Fresh) {events : List (Event CoinbaseFrame)}
    (hon : AllSteps (IngestRunner.step (coinbase rfc3339ToUs instruments)) OnConnection s events)
    (hsorted : (received rfc3339ToUs instruments s events).Pairwise (· < ·)) :
    s.started (coinbase rfc3339ToUs instruments) events ≠ [] ↔
      Missing (receivedUsable rfc3339ToUs instruments s events) := by
  obtain ⟨htracker, hidle⟩ := hs
  have hleft : s.left = [] := by
    unfold IngestRunner.left
    rw [hidle]
  have hsettled : s.Settled (coinbase rfc3339ToUs instruments) := settled_of_left _ hleft
  have hiff := connection_jumps_iff events hsettled hon
  have hnone : s.tracker.watermarks ("coinbase", "*") = none := by
    rw [htracker]
    rfl
  rw [hnone, Option.toList_none, List.nil_append] at hiff
  rw [started_ne_nil (coinbase_uniform rfc3339ToUs instruments) hsettled]
  exact hiff (hsorted.sublist (receivedUsable_sublist events s))

variable (rfc3339ToUs instruments)

/-- **Gap detection is exact on a connection exactly when**: where a number is missing among the frames received, one is
missing among the usable ones; and where none is, each frame received between two usable ones is usable. -/
theorem gapDetection_iff (s : IngestRunner) (hs : s.Fresh) (events : List (Event CoinbaseFrame))
    (hon : AllSteps (IngestRunner.step (coinbase rfc3339ToUs instruments)) OnConnection s events)
    (hsorted : (received rfc3339ToUs instruments s events).Pairwise (· < ·)) :
    (s.started (coinbase rfc3339ToUs instruments) events ≠ [] ↔ Missing (received rfc3339ToUs instruments s events)) ↔
      (Missing (received rfc3339ToUs instruments s events) →
        Missing (receivedUsable rfc3339ToUs instruments s events)) ∧
      (¬ Missing (received rfc3339ToUs instruments s events) → ∀ a ∈ receivedUsable rfc3339ToUs instruments s events,
        ∀ b ∈ receivedUsable rfc3339ToUs instruments s events, ∀ n ∈ received rfc3339ToUs instruments s events,
          a < n → n < b → n ∈ receivedUsable rfc3339ToUs instruments s events) := by
  have hsub := (@receivedUsable_sublist rfc3339ToUs instruments events s).subset
  rw [connection_started_iff hs hon hsorted]
  constructor
  · intro h
    refine ⟨h.2, fun hno a ha b hb n _ han hnb => ?_⟩
    apply Decidable.byContradiction
    intro hn
    exact hno (h.1 ⟨a, ha, b, hb, n, han, hnb, hn⟩)
  · rintro ⟨hmissing, husable⟩
    refine ⟨?_, hmissing⟩
    rintro ⟨a, ha, b, hb, i, hai, hib, hi⟩
    -- a number that no usable frame has is one that no frame has, or is a frame's without a usable trade
    by_cases hreceived : i ∈ received rfc3339ToUs instruments s events
    · apply Classical.byContradiction
      intro hno
      exact hi (husable hno a ha b hb i hreceived hai hib)
    · exact ⟨a, hsub ha, b, hsub hb, i, hai, hib, hreceived⟩

end

/-- A connection that is just made, on an unbounded queue. -/
def connected : IngestRunner := { IngestRunner.start 0 .block with socket := .session .idle, hasConnected := true }

def heartbeat (sequenceNum : Int) : CoinbaseFrame := .message (some "heartbeats") (some sequenceNum) [[]]

/-- Trade, heartbeat, trade; every frame arrives. -/
def quietMarket : List (Event CoinbaseFrame) :=
  [.frame 0 (marketTrade 1 "1"), .frame 0 (heartbeat 2), .frame 0 (marketTrade 3 "2")]

theorem quietMarket_onConnection : AllSteps (IngestRunner.step (coinbase rfc3339 coinbaseBitcoin)) OnConnection connected
    quietMarket := by
  have hframe : ∀ (s : IngestRunner) now frame, s.socket = .session .idle →
      (s.number (.frame now frame)).isSome → OnConnection s (.frame now frame) := by
    intro s now frame hs hn
    refine ⟨fun h => (by cases h), fun now' frame' he _ => ?_⟩
    cases he
    exact hn
  unfold quietMarket
  rw [allSteps_cons, allSteps_cons, allSteps_cons]
  exact ⟨hframe _ _ _ rfl rfl, hframe _ _ _ rfl rfl, hframe _ _ _ rfl rfl, allSteps_nil _⟩

theorem gapDetection_iff_quietMarket :
    (connected.started (coinbase rfc3339 coinbaseBitcoin) quietMarket ≠ [] ↔
        Missing (received rfc3339 coinbaseBitcoin connected quietMarket)) ↔
      (Missing (received rfc3339 coinbaseBitcoin connected quietMarket) →
        Missing (receivedUsable rfc3339 coinbaseBitcoin connected quietMarket)) ∧
      (¬ Missing (received rfc3339 coinbaseBitcoin connected quietMarket) →
        ∀ a ∈ receivedUsable rfc3339 coinbaseBitcoin connected quietMarket,
        ∀ b ∈ receivedUsable rfc3339 coinbaseBitcoin connected quietMarket,
        ∀ n ∈ received rfc3339 coinbaseBitcoin connected quietMarket,
          a < n → n < b → n ∈ receivedUsable rfc3339 coinbaseBitcoin connected quietMarket) :=
  gapDetection_iff rfc3339 coinbaseBitcoin connected ⟨rfl, rfl⟩ quietMarket quietMarket_onConnection
    (show ([1, 2, 3] : List Int).Pairwise (· < ·) by decide)

/-- Nothing is missing, and a repair of 1 to 3 is started for the heartbeat. -/
theorem heartbeat_starts_a_repair :
    ¬ ∀ (rfc3339ToUs : String → Option Int) (instruments : InstrumentMap) (s : IngestRunner)
      (events : List (Event CoinbaseFrame)), s.Fresh →
      AllSteps (IngestRunner.step (coinbase rfc3339ToUs instruments)) OnConnection s events →
      (received rfc3339ToUs instruments s events).Pairwise (· < ·) →
      (s.started (coinbase rfc3339ToUs instruments) events ≠ [] ↔ Missing (received rfc3339ToUs instruments s events)) := by
  intro h
  have hiff := h rfc3339 coinbaseBitcoin connected quietMarket ⟨rfl, rfl⟩ quietMarket_onConnection
    (show ([1, 2, 3] : List Int).Pairwise (· < ·) by decide)
  have hstarted : connected.started (coinbase rfc3339 coinbaseBitcoin) quietMarket = [⟨"coinbase", "*", 1, 3⟩] := rfl
  have hmissing : Missing [1, 2, 3] := by
    apply hiff.1
    rw [hstarted]
    exact List.cons_ne_nil _ _
  rw [missing_cons (by decide), missing_cons (by decide)] at hmissing
  rcases hmissing with h | h | h
  · omega
  · omega
  · exact missing_singleton 3 h

end Ingest
