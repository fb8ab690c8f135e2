import RealtimeFinance.Awsnative.KinesisOrder
/-!
# KinesisCount — the number a send returns

`_send_with_retry` returns the length of the last request, which is of the batch only where no answer before it took
some of the records and failed others.  So `_send_all`, and `poll` with it, returns no more than the stream took, and
exactly that when every answer takes all of its records or none (`returned_iff`).
-/
namespace Awsnative

open Ingest

variable (config : SinkConfig) (client : Client)

/-! ## One batch -/

/-- Until a batch of `n` records is through, every answer fails all of them or none. -/
def answeredWhole : Nat → Nat → Nat → Bool
  | 0, _, _ => true
  | attempts + 1, requests, n =>
    match client requests with
    | .raises _       => true
    | .answers failed =>
      let count := (failedFlags failed n).count true
      if count = 0 then true else decide (count = n) && answeredWhole attempts (requests + 1) n

/-- **What a batch's send returns** is at the most its records, and all of them when each answer is whole. -/
theorem sendWithRetry_returned (records : List KinesisRecord) (attempts requests : Nat) (pending : List KinesisRecord)
    {n : Nat} (h : (sendWithRetry client records attempts requests pending).result = .ok n) :
    n ≤ pending.length ∧ (n = pending.length ↔ answeredWhole client attempts requests pending.length = true) := by
  induction attempts generalizing requests pending with
  | zero => cases h
  | succ attempts ih =>
    simp only [sendWithRetry, answeredWhole] at h ⊢
    cases hc : client requests with
    | raises failed =>
      rw [hc] at h
      cases h
    | answers failed =>
      have hlen := failedFlags_length failed pending.length
      have hcount := refused_length pending _ hlen
      have hle : (failedFlags failed pending.length).count true ≤ pending.length :=
        Nat.le_trans List.count_le_length (Nat.le_of_eq hlen)
      simp only [hc] at h ⊢
      by_cases hzero : (failedFlags failed pending.length).count true = 0
      · rw [if_pos hzero] at h ⊢
        cases h
        exact ⟨Nat.le_refl _, iff_of_true rfl rfl⟩
      · rw [if_neg hzero, refused_isEmpty hlen hzero] at h
        rw [if_neg hzero, Bool.and_eq_true, decide_eq_true_eq]
        obtain ⟨hn, hiff⟩ := ih (requests + 1) _ h
        rw [hcount] at hn hiff
        refine ⟨Nat.le_trans hn hle, ?_⟩
        constructor
        · intro hall
          have hsame : (failedFlags failed pending.length).count true = pending.length := by omega
          rw [hsame] at hiff
          exact ⟨hsame, hiff.1 hall⟩
        · rintro ⟨hsame, hwhole⟩
          rw [hsame] at hiff
          exact hiff.2 hwhole

/-! ## The whole buffer -/

/-- Every batch of the buffer is answered whole. -/
def allAnsweredWhole : Nat → Nat → List KinesisRecord → Bool
  | 0, _, _ => true
  | fuel + 1, requests, buffer =>
    if buffer.isEmpty then true
    else
      let n := (takeBatch config buffer).1.length
      answeredWhole client config.maxAttempts requests n &&
        allAnsweredWhole fuel (outcomeOf client config.maxAttempts requests n).requests (takeBatch config buffer).2

/-- **What a send returns** is at the most what was buffered, and all of it when every batch is answered whole. -/
theorem sendAll_returned (fuel : Nat) (sink : KinesisSink) (requests : Nat) (hfuel : sink.buffer.length ≤ fuel) {n : Nat}
    (h : (sendAll config client fuel sink requests).2.result = .ok n) :
    n ≤ sink.buffer.length ∧
      (n = sink.buffer.length ↔ allAnsweredWhole config client fuel requests sink.buffer = true) := by
  induction fuel generalizing sink requests n with
  | zero =>
    cases h
    exact ⟨Nat.zero_le _, iff_of_true (Nat.le_zero.1 hfuel).symm rfl⟩
  | succ fuel ih =>
    by_cases hempty : sink.buffer.isEmpty = true
    · simp only [sendAll, allAnsweredWhole, if_pos hempty] at h ⊢
      cases h
      rw [List.isEmpty_iff] at hempty
      rw [hempty]
      exact ⟨Nat.le_refl _, iff_of_true rfl trivial⟩
    · have hcut := congrArg List.length (takeBatch_append config sink.buffer)
      have hlt := takeBatch_rest_lt config (List.isEmpty_eq_false_iff.1 (by simpa using hempty))
      simp only [sendAll, allAnsweredWhole, if_neg hempty] at h ⊢
      generalize takeBatch config sink.buffer = cut at hcut hlt h ⊢
      obtain ⟨batch, rest⟩ := cut
      obtain ⟨hrequests, -, -⟩ := sendWithRetry_outcome client batch config.maxAttempts requests batch
      cases hr : (sendWithRetry client batch config.maxAttempts requests batch).result with
      | error e =>
        simp only [hr] at h
        cases h
      | ok m =>
        simp only [hr] at h
        rw [hrequests] at h
        obtain ⟨hm, hbatch⟩ := sendWithRetry_returned client batch config.maxAttempts requests batch hr
        cases hmore : (sendAll config client fuel ⟨rest, bytesOf rest⟩
            (outcomeOf client config.maxAttempts requests batch.length).requests).2.result with
        | error e =>
          rw [hmore] at h
          cases h
        | ok k =>
          rw [hmore] at h
          have hn : m + k = n := Except.ok.inj h
          obtain ⟨hk, hrest⟩ := ih ⟨rest, bytesOf rest⟩ _ (by simp only at hlt ⊢; omega) hmore
          simp only [List.length_append] at hcut hk hrest
          rw [Bool.and_eq_true, ← hbatch, ← hrest]
          omega

/-- **A send that does not raise** has everything buffered taken. -/
theorem sendAll_accepted_length (sink : KinesisSink) (requests : Nat)
    (hok : (sendAll config client sink.buffer.length sink requests).2.result.isOk = true) :
    (sendAll config client sink.buffer.length sink requests).2.accepted.length = sink.buffer.length := by
  have hbuffer : sink.buffer = sink.buffer.map id := (List.map_id _).symm
  have haccepted := (sentAttempts_spec config client id sink.buffer.length sink requests sink.buffer hbuffer).2.1
  have hperm := sentAttempts_perm config client id sink.buffer.length sink requests sink.buffer hbuffer
    (Nat.le_refl _) hok
  rw [haccepted, List.map_id, hperm.length_eq]

theorem sendAll_returned_iff (sink : KinesisSink) (requests : Nat) {n : Nat}
    (h : (sendAll config client sink.buffer.length sink requests).2.result = .ok n) :
    n = (sendAll config client sink.buffer.length sink requests).2.accepted.length ↔
      allAnsweredWhole config client sink.buffer.length requests sink.buffer = true := by
  rw [sendAll_accepted_length config client sink requests (by rw [h]; rfl)]
  exact (sendAll_returned config client sink.buffer.length sink requests (Nat.le_refl _) h).2

/-- **The count returned is of the records the stream took exactly when** every answer of the call, until its batch is
through, fails all the records it was asked to take or none. -/
theorem returned_iff (sink : KinesisSink) (requests n : Nat) :
    ((sendAll config client sink.buffer.length sink requests).2.result = .ok n →
      (n = (sendAll config client sink.buffer.length sink requests).2.accepted.length ↔
        allAnsweredWhole config client sink.buffer.length requests sink.buffer = true)) ∧
    (sink.full config = true → (sink.poll config client requests).2.result = .ok n →
      (n = (sink.poll config client requests).2.accepted.length ↔
        allAnsweredWhole config client sink.buffer.length requests sink.buffer = true)) := by
  refine ⟨sendAll_returned_iff config client sink requests, fun hfull => ?_⟩
  unfold KinesisSink.poll
  rw [if_pos hfull]
  exact sendAll_returned_iff config client sink requests

/-- A new sink after the calls of `produce`. -/
def sinkOf (trades : List Trade) : KinesisSink := trades.foldl KinesisSink.produce ⟨[], 0⟩

/-- One trade, refused once and then taken: a poll returns 1, and 1 is taken. -/
theorem returned_iff_throttledOnce :
    1 = ((sinkOf [trade]).poll singleRecords throttledOnce 0).2.accepted.length :=
  ((returned_iff singleRecords throttledOnce (sinkOf [trade]) 0 1).2 (by decide) rfl).2 (by decide +kernel)

/-! ## A retry that is not counted -/

/-- Of two records the first is refused once; both are taken, and 1 is returned. -/
theorem sendAll_throttledOnce {x y : KinesisRecord} (h : x.size + y.size ≤ 4500000) (bytes : Nat) :
    (sendAll {} throttledOnce 2 ⟨[x, y], bytes⟩ 0).2.accepted = [y, x] ∧
      (sendAll {} throttledOnce 2 ⟨[x, y], bytes⟩ 0).2.result = .ok 1 := by
  have hcut : takeBatch {} [x, y] = ([x, y], []) := by simp [takeBatch, takeBatchFrom, Nat.not_lt.2 h]
  constructor
  · simp [sendAll, hcut, sendWithRetry, throttledOnce, failedFlags, List.range, List.range.loop, refused, taken]
  · simp [sendAll, hcut, sendWithRetry, throttledOnce, failedFlags, List.range, List.range.loop, refused, taken]
    rfl

theorem sinkOf_two (first second : Trade) : sinkOf [first, second] =
    ⟨[recordOf first, recordOf second], 0 + (recordOf first).size + (recordOf second).size⟩ := rfl

/-- Trades 1 and 2 in one request, whose first record is throttled: the flush's send takes both and returns 1. -/
theorem retried_trade_is_not_counted :
    ¬ ∀ (config : SinkConfig) (client : Client) (trades : List Trade) (n : Nat),
      (sendAll config client (sinkOf trades).buffer.length (sinkOf trades) 0).2.result = .ok n →
        n = (sendAll config client (sinkOf trades).buffer.length (sinkOf trades) 0).2.accepted.length := by
  intro h
  have hfirst : (recordOf trade).size ≤ 2000 := Nat.le_trans (length_le_utf8ByteSize _) (by decide +kernel)
  have hsecond : (recordOf nextTrade).size ≤ 2000 := Nat.le_trans (length_le_utf8ByteSize _) (by decide +kernel)
  have hsize : (recordOf trade).size + (recordOf nextTrade).size ≤ 4500000 := by omega
  obtain ⟨haccepted, hresult⟩ := sendAll_throttledOnce hsize (0 + (recordOf trade).size + (recordOf nextTrade).size)
  have hone := h {} throttledOnce [trade, nextTrade] 1
  rw [sinkOf_two] at hone
  simp only [List.length_cons, List.length_nil, Nat.zero_add, Nat.reduceAdd] at hone
  rw [Nat.zero_add] at haccepted hresult
  rw [haccepted] at hone
  cases hone hresult

end Awsnative
