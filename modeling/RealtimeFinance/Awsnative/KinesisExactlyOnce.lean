import RealtimeFinance.Awsnative.KinesisAttempts
/-!
# KinesisExactlyOnce — what a run of calls leaves in the stream

A run is tracked with each produced record at the place it was produced at, and with every request made.  In a run in
which no call raises, each record that is no longer buffered was taken by the stream once, and every request kept to the
limits (`kinesisExactlyOnce`).
-/
namespace Awsnative

open Ingest Runs

/-- The buffered records, each with its place among the produced ones. -/
def SinkRun.buffered (run : SinkRun) : List (KinesisRecord × Nat) :=
  run.produced.zipIdx.drop (run.produced.length - run.sink.buffer.length)

/-- A run with the batches it has sent, attempt by attempt. -/
structure TrackedRun where
  run : SinkRun
  batches : List (List (Attempt (KinesisRecord × Nat)))

def TrackedRun.start : TrackedRun := { run := SinkRun.start, batches := [] }

def TrackedRun.requests (t : TrackedRun) : List (Attempt (KinesisRecord × Nat)) := t.batches.flatten

/-- What the stream has taken, in the order it took it. -/
def TrackedRun.accepted (t : TrackedRun) : List (KinesisRecord × Nat) := takenOver t.requests

variable (config : SinkConfig) (client : Client)

/-- The batches that a call sends. -/
def SinkRun.sends (run : SinkRun) : SinkCall → List (List (Attempt (KinesisRecord × Nat)))
  | .produce _ _ => []
  | .poll        =>
    if run.sink.full config then
      sentAttempts config client Prod.fst run.sink.buffer.length run.requests run.buffered
    else []
  | .flush       => sentAttempts config client Prod.fst run.sink.buffer.length run.requests run.buffered

def TrackedRun.step (t : TrackedRun) (call : SinkCall) : TrackedRun :=
  { run := t.run.step config client call, batches := t.batches ++ t.run.sends config client call }

/-- What a call returns, or raises. -/
def SinkRun.result (run : SinkRun) : SinkCall → Except SendError Nat
  | .produce _ _ => .ok 0
  | .poll        => (run.sink.poll config client run.requests).2.result
  | .flush       => (run.sink.flush config client run.requests).2.result

/-! ## What the log says -/

/-- **The log is of the run's requests and acceptances**, and everything taken was produced before what is buffered. -/
structure TrackedRun.Traced (t : TrackedRun) : Prop where
  buffer : t.run.sink.buffer <:+ t.run.produced
  bytes : t.run.sink.bufferedBytes = bytesOf t.run.sink.buffer
  requests : t.run.requests = t.requests.length
  accepted : t.run.accepted = t.accepted.map Prod.fst
  before : ∀ x ∈ t.accepted, x ∈ t.run.produced.zipIdx.take (t.run.produced.length - t.run.sink.buffer.length)

theorem map_fst_buffered {run : SinkRun} (h : run.sink.buffer <:+ run.produced) :
    run.buffered.map Prod.fst = run.sink.buffer := by
  obtain ⟨before, hproduced⟩ := h
  unfold SinkRun.buffered
  rw [List.map_drop, List.zipIdx_map_fst, ← hproduced, List.length_append, Nat.add_sub_cancel]
  exact List.drop_left

theorem length_buffered {run : SinkRun} (h : run.sink.buffer <:+ run.produced) :
    run.buffered.length = run.sink.buffer.length := by
  rw [← map_fst_buffered h, List.length_map]

theorem sendAll_bytes (fuel : Nat) (sink : KinesisSink) (requests : Nat) (h : sink.bufferedBytes = bytesOf sink.buffer) :
    (sendAll config client fuel sink requests).1.bufferedBytes =
      bytesOf (sendAll config client fuel sink requests).1.buffer := by
  induction fuel generalizing sink requests with
  | zero => exact h
  | succ fuel ih =>
    simp only [sendAll]
    split
    · exact h
    · split
      · rfl
      · exact ih _ _ rfl

/-- A send of the whole buffer, traced. -/
theorem TrackedRun.Traced.sent {t : TrackedRun} (h : t.Traced) {s : KinesisSink × Sent}
    (hsink : s.1 = (sendAll config client t.run.sink.buffer.length t.run.sink t.run.requests).1)
    (hrequests : s.2.requests = (sendAll config client t.run.sink.buffer.length t.run.sink t.run.requests).2.requests)
    (haccepted : s.2.accepted = (sendAll config client t.run.sink.buffer.length t.run.sink t.run.requests).2.accepted) :
    TrackedRun.Traced ⟨t.run.sent s, t.batches ++
      sentAttempts config client Prod.fst t.run.sink.buffer.length t.run.requests t.run.buffered⟩ := by
  obtain ⟨hlogRequests, hlogAccepted, k, hk, hleft, hlog⟩ := sentAttempts_spec config client Prod.fst
    t.run.sink.buffer.length t.run.sink t.run.requests t.run.buffered (map_fst_buffered h.buffer).symm
  rw [length_buffered h.buffer] at hk
  have hle := h.buffer.length_le
  have hnew : s.1.buffer = t.run.produced.drop (t.run.produced.length - t.run.sink.buffer.length + k) := by
    rw [hsink, hleft, SinkRun.buffered, List.drop_drop, List.map_drop, List.zipIdx_map_fst]
  have hlength : s.1.buffer.length = t.run.sink.buffer.length - k := by
    rw [hnew, List.length_drop]
    omega
  have hplaces : t.run.produced.length - s.1.buffer.length =
      t.run.produced.length - t.run.sink.buffer.length + k := by omega
  refine ⟨?_, ?_, ?_, ?_, ?_⟩
  · show s.1.buffer <:+ t.run.produced
    rw [hnew]
    exact List.drop_suffix _ _
  · show s.1.bufferedBytes = bytesOf s.1.buffer
    rw [hsink]
    exact sendAll_bytes config client _ _ _ h.bytes
  · show s.2.requests = (t.batches ++ _).flatten.length
    rw [hrequests, hlogRequests, h.requests, List.flatten_append, List.length_append]
    rfl
  · show t.run.accepted ++ s.2.accepted = (takenOver (t.batches ++ _).flatten).map Prod.fst
    rw [haccepted, hlogAccepted, h.accepted, List.flatten_append, takenOver, takenOver, List.flatMap_append,
      List.map_append]
    rfl
  · intro x hx
    show x ∈ t.run.produced.zipIdx.take (t.run.produced.length - s.1.buffer.length)
    rw [hplaces, List.take_add, List.mem_append]
    have hx : x ∈ takenOver (t.batches ++ sentAttempts config client Prod.fst t.run.sink.buffer.length t.run.requests
      t.run.buffered).flatten := hx
    rw [List.flatten_append, takenOver, List.flatMap_append, List.mem_append] at hx
    rcases hx with hx | hx
    · exact Or.inl (h.before x hx)
    · obtain ⟨a, ha, hxa⟩ := List.mem_flatMap.1 hx
      obtain ⟨attempts, hattempts, ha⟩ := List.mem_flatten.1 ha
      obtain ⟨hsublist, htaken⟩ := hlog attempts hattempts a ha
      exact Or.inr (hsublist.subset (htaken.subset hxa))

theorem traced_start : TrackedRun.start.Traced where
  buffer := List.suffix_refl _
  bytes := rfl
  requests := rfl
  accepted := rfl
  before x hx := by cases hx

theorem produce_bytes {sink : KinesisSink} (h : sink.bufferedBytes = bytesOf sink.buffer) (trade : Trade) :
    (sink.produce trade).bufferedBytes = bytesOf (sink.produce trade).buffer := by
  simp only [KinesisSink.produce]
  rw [bytesOf_append, bytesOf_singleton, h]

/-- A record is produced behind the buffered ones. -/
theorem TrackedRun.Traced.produced {t : TrackedRun} (h : t.Traced) (trade : Trade) :
    TrackedRun.Traced ⟨{ t.run with sink := t.run.sink.produce trade, produced := t.run.produced ++ [recordOf trade] },
      t.batches⟩ := by
  have hle := h.buffer.length_le
  have hbuffer : (t.run.sink.produce trade).buffer = t.run.sink.buffer ++ [recordOf trade] := rfl
  refine ⟨?_, produce_bytes h.bytes trade, h.requests, h.accepted, ?_⟩
  · obtain ⟨before, hbefore⟩ := h.buffer
    refine ⟨before, ?_⟩
    simp only [hbuffer]
    rw [← hbefore, List.append_assoc]
  · intro x hx
    have hbefore := h.before x hx
    simp only [hbuffer]
    rw [List.zipIdx_append, List.length_append, List.length_append, List.length_singleton, Nat.add_sub_add_right,
      List.take_append_of_le_length (by rw [List.length_zipIdx]; omega)]
    exact hbefore

theorem TrackedRun.Traced.step {t : TrackedRun} (h : t.Traced) (call : SinkCall) : (t.step config client call).Traced := by
  cases call with
  | produce topic trade =>
    have hsame : t.step config client (.produce topic trade) =
        ⟨{ t.run with sink := t.run.sink.produce trade, produced := t.run.produced ++ [recordOf trade] }, t.batches⟩ :=
      congrArg (TrackedRun.mk _) (List.append_nil _)
    rw [hsame]
    exact h.produced trade
  | poll =>
    by_cases hfull : t.run.sink.full config = true
    · have hpoll : t.run.sink.poll config client t.run.requests =
          sendAll config client t.run.sink.buffer.length t.run.sink t.run.requests := if_pos hfull
      have hsent := h.sent config client (congrArg Prod.fst hpoll) (congrArg (fun s => s.2.requests) hpoll)
        (congrArg (fun s => s.2.accepted) hpoll)
      have hsends : t.run.sends config client .poll =
          sentAttempts config client Prod.fst t.run.sink.buffer.length t.run.requests t.run.buffered := if_pos hfull
      unfold TrackedRun.step
      rw [hsends]
      exact hsent
    · have hpoll : t.run.sink.poll config client t.run.requests = (t.run.sink, ⟨t.run.requests, [], .ok 0⟩) := if_neg hfull
      have hsends : t.run.sends config client .poll = [] := if_neg hfull
      have hsame : t.step config client .poll = t := by
        unfold TrackedRun.step SinkRun.step SinkRun.sent
        simp only [hpoll, hsends, List.append_nil]
      rw [hsame]
      exact h
  | flush => exact h.sent config client rfl rfl rfl

/-! ## Exactly once -/

/-- **Each produced record is buffered or was taken once**, by its place. -/
def TrackedRun.Once (t : TrackedRun) : Prop := (t.accepted ++ t.run.buffered).Perm t.run.produced.zipIdx

/-- A call that does not raise leaves nothing of what it sends: all of it is taken. -/
theorem sends_perm {t : TrackedRun} (h : t.Traced)
    (hok : (sendAll config client t.run.sink.buffer.length t.run.sink t.run.requests).2.result.isOk = true) :
    (takenOver (sentAttempts config client Prod.fst t.run.sink.buffer.length t.run.requests t.run.buffered).flatten).Perm
        t.run.buffered ∧
      (sendAll config client t.run.sink.buffer.length t.run.sink t.run.requests).1.buffer = [] :=
  ⟨sentAttempts_perm config client Prod.fst _ _ _ _ (map_fst_buffered h.buffer).symm
      (Nat.le_of_eq (length_buffered h.buffer)) hok,
    sendAll_empties config client _ _ _ (Nat.le_refl _) hok⟩

theorem TrackedRun.Once.sent {t : TrackedRun} (h : t.Once) {s : KinesisSink × Sent} (hsink : s.1.buffer = [])
    (hperm : (takenOver (sentAttempts config client Prod.fst t.run.sink.buffer.length t.run.requests
      t.run.buffered).flatten).Perm t.run.buffered) :
    TrackedRun.Once ⟨t.run.sent s, t.batches ++
      sentAttempts config client Prod.fst t.run.sink.buffer.length t.run.requests t.run.buffered⟩ := by
  have hbuffered : (t.run.sent s).buffered = [] := by
    have hnil : (t.run.sent s).sink.buffer = [] := hsink
    unfold SinkRun.buffered
    rw [hnil, List.length_nil, Nat.sub_zero]
    exact List.drop_of_length_le (Nat.le_of_eq List.length_zipIdx)
  unfold TrackedRun.Once TrackedRun.accepted TrackedRun.requests
  simp only
  rw [hbuffered, List.append_nil, List.flatten_append, takenOver, List.flatMap_append]
  exact (hperm.append_left _).trans h

theorem TrackedRun.Once.produced {t : TrackedRun} (htraced : t.Traced) (h : t.Once) (trade : Trade) :
    TrackedRun.Once ⟨{ t.run with sink := t.run.sink.produce trade, produced := t.run.produced ++ [recordOf trade] },
      t.batches⟩ := by
  have hle := htraced.buffer.length_le
  have hbuffer : (t.run.sink.produce trade).buffer = t.run.sink.buffer ++ [recordOf trade] := rfl
  unfold TrackedRun.Once SinkRun.buffered
  simp only [hbuffer]
  rw [List.zipIdx_append, List.length_append, List.length_append, List.length_singleton, Nat.add_sub_add_right,
    List.drop_append_of_le_length (by rw [List.length_zipIdx]; omega), ← List.append_assoc]
  exact h.append_right _

theorem result_flush_isOk {run : SinkRun} : (run.result config client .flush).isOk =
    (sendAll config client run.sink.buffer.length run.sink run.requests).2.result.isOk := by
  show ((sendAll config client run.sink.buffer.length run.sink run.requests).2.result.map _).isOk = _
  cases (sendAll config client run.sink.buffer.length run.sink run.requests).2.result <;> rfl

theorem TrackedRun.Once.step {t : TrackedRun} (htraced : t.Traced) (h : t.Once) {call : SinkCall}
    (hok : (t.run.result config client call).isOk = true) : (t.step config client call).Once := by
  cases call with
  | produce topic trade =>
    have hsame : t.step config client (.produce topic trade) =
        ⟨{ t.run with sink := t.run.sink.produce trade, produced := t.run.produced ++ [recordOf trade] }, t.batches⟩ :=
      congrArg (TrackedRun.mk _) (List.append_nil _)
    rw [hsame]
    exact h.produced htraced trade
  | poll =>
    by_cases hfull : t.run.sink.full config = true
    · have hpoll : t.run.sink.poll config client t.run.requests =
          sendAll config client t.run.sink.buffer.length t.run.sink t.run.requests := if_pos hfull
      have hsends : t.run.sends config client .poll =
          sentAttempts config client Prod.fst t.run.sink.buffer.length t.run.requests t.run.buffered := if_pos hfull
      unfold SinkRun.result at hok
      simp only [hpoll] at hok
      obtain ⟨hperm, hempty⟩ := sends_perm config client htraced hok
      unfold TrackedRun.step
      rw [hsends]
      exact h.sent config client (by rw [hpoll]; exact hempty) hperm
    · have hpoll : t.run.sink.poll config client t.run.requests = (t.run.sink, ⟨t.run.requests, [], .ok 0⟩) := if_neg hfull
      have hsends : t.run.sends config client .poll = [] := if_neg hfull
      have hsame : t.step config client .poll = ⟨t.run.sent (t.run.sink.poll config client t.run.requests), t.batches⟩ := by
        unfold TrackedRun.step SinkRun.step
        simp only [hsends, List.append_nil]
      rw [hsame, hpoll]
      exact h
  | flush =>
    rw [result_flush_isOk] at hok
    obtain ⟨hperm, hempty⟩ := sends_perm config client htraced hok
    exact h.sent config client hempty hperm

theorem sends_withinLimits (hbatch : 1 ≤ config.maxBatch) (run : SinkRun) (call : SinkCall) :
    ∀ attempts ∈ run.sends config client call, ∀ a ∈ attempts, WithinLimits config (a.records.map Prod.fst) := by
  cases call with
  | produce topic trade =>
    intro attempts h
    cases h
  | poll =>
    by_cases hfull : run.sink.full config = true
    · have hsends : run.sends config client .poll =
          sentAttempts config client Prod.fst run.sink.buffer.length run.requests run.buffered := if_pos hfull
      rw [hsends]
      exact sentAttempts_withinLimits hbatch client _ _ _ _
    · have hsends : run.sends config client .poll = [] := if_neg hfull
      rw [hsends]
      intro attempts h
      cases h
  | flush => exact sentAttempts_withinLimits hbatch client _ _ _ _

/-- A sink that is below both thresholds. -/
def KinesisSink.Below (sink : KinesisSink) : Prop :=
  sink.buffer.length < config.maxBatch ∧ sink.bufferedBytes < config.maxBytes

theorem below_of_not_full {sink : KinesisSink} (h : ¬ sink.full config = true) : sink.Below config := by
  simp only [KinesisSink.full, Bool.or_eq_true, decide_eq_true_eq, not_or, Nat.not_le] at h
  exact h

theorem below_of_empty (hbatch : 1 ≤ config.maxBatch) (hbytes : 1 ≤ config.maxBytes) {sink : KinesisSink}
    (hempty : sink.buffer = []) (h : sink.bufferedBytes = bytesOf sink.buffer) : sink.Below config := by
  unfold KinesisSink.Below
  rw [h, hempty]
  exact ⟨hbatch, hbytes⟩

theorem poll_below (hbatch : 1 ≤ config.maxBatch) (hbytes : 1 ≤ config.maxBytes) {t : TrackedRun} (h : t.Traced)
    (hok : (t.run.result config client .poll).isOk = true) : (t.step config client .poll).run.sink.Below config := by
  by_cases hfull : t.run.sink.full config = true
  · have hpoll : t.run.sink.poll config client t.run.requests =
        sendAll config client t.run.sink.buffer.length t.run.sink t.run.requests := if_pos hfull
    unfold SinkRun.result at hok
    simp only [hpoll] at hok
    have hsink : (t.step config client .poll).run.sink =
        (sendAll config client t.run.sink.buffer.length t.run.sink t.run.requests).1 := congrArg Prod.fst hpoll
    have hbytesAfter := (h.step config client .poll).bytes
    rw [hsink] at hbytesAfter ⊢
    exact below_of_empty config hbatch hbytes (sends_perm config client h hok).2 hbytesAfter
  · have hpoll : t.run.sink.poll config client t.run.requests = (t.run.sink, ⟨t.run.requests, [], .ok 0⟩) := if_neg hfull
    have hsink : (t.step config client .poll).run.sink = t.run.sink := congrArg Prod.fst hpoll
    rw [hsink]
    exact below_of_not_full config hfull

theorem flush_empties {t : TrackedRun} (h : t.Traced) (hok : (t.run.result config client .flush).isOk = true) :
    (t.step config client .flush).run.sink.buffer = [] := by
  rw [result_flush_isOk] at hok
  exact (sends_perm config client h hok).2

/-- What stands after a call of a run in which none raises. -/
structure TrackedRun.Sound (t : TrackedRun) : Prop where
  once : t.Once
  accepted : t.run.accepted = t.accepted.map Prod.fst
  buffer : t.run.sink.buffer = t.run.buffered.map Prod.fst
  bytes : t.run.sink.bufferedBytes = bytesOf t.run.sink.buffer
  requests : t.run.requests = t.requests.length
  withinLimits : ∀ a ∈ t.requests, WithinLimits config (a.records.map Prod.fst)

/-- **Exactly once, within the limits**: in every run of calls none of which raises, after every call each record
produced is buffered or was taken by the stream once, each request so far kept to the limits, and the byte count is the
buffer's; a poll leaves the buffer below both thresholds, and a flush leaves it empty. -/
theorem kinesisExactlyOnce (hbatch : 1 ≤ config.maxBatch) (hbytes : 1 ≤ config.maxBytes) (calls : List SinkCall)
    (hok : AllSteps (TrackedRun.step config client) (fun t call => (t.run.result config client call).isOk = true)
      TrackedRun.start calls) :
    AllReached (TrackedRun.step config client) (TrackedRun.Sound config) TrackedRun.start calls ∧
    AllSteps (TrackedRun.step config client) (fun t call =>
      (call = .poll → (t.step config client call).run.sink.Below config) ∧
      (call = .flush → (t.step config client call).run.sink.buffer = [])) TrackedRun.start calls := by
  let Kept (t : TrackedRun) : Prop := t.Traced ∧ t.Once ∧ ∀ a ∈ t.requests, WithinLimits config (a.records.map Prod.fst)
  have hstep : ∀ t call, Kept t → (t.run.result config client call).isOk = true → Kept (t.step config client call) := by
    rintro t call ⟨htraced, honce, hlimits⟩ hresult
    refine ⟨htraced.step config client call, honce.step config client htraced hresult, fun a ha => ?_⟩
    obtain ⟨attempts, hattempts, ha⟩ := List.mem_flatten.1 ha
    rcases List.mem_append.1 hattempts with hold | hnew
    · exact hlimits a (List.mem_flatten.2 ⟨attempts, hold, ha⟩)
    · exact sends_withinLimits config client hbatch t.run call attempts hnew a ha
  have hstart : Kept TrackedRun.start := ⟨traced_start, List.Perm.refl _, fun a ha => by cases ha⟩
  have hall := (AllSteps.congr (Q := fun t call => (t.run.result config client call).isOk = true ∧ Kept t) (I := Kept)
    (fun t call hkept => ⟨fun h => ⟨h, hkept⟩, fun h => h.1⟩) hstep hstart).1 hok
  refine ⟨fun pre call post hcalls => ?_, fun pre call post hcalls => ⟨?_, ?_⟩⟩
  · obtain ⟨hresult, hkept⟩ := hall pre call post hcalls
    obtain ⟨htraced, honce, hlimits⟩ := hstep _ call hkept hresult
    exact ⟨honce, htraced.accepted, (map_fst_buffered htraced.buffer).symm, htraced.bytes, htraced.requests, hlimits⟩
  · rintro rfl
    obtain ⟨hresult, hkept⟩ := hall pre _ post hcalls
    exact poll_below config client hbatch hbytes hkept.1 hresult
  · rintro rfl
    obtain ⟨hresult, hkept⟩ := hall pre _ post hcalls
    exact flush_empties config client hkept.1 hresult

/-- A stream that refuses the first record of the first request, and nothing after. -/
def throttledOnce : Client := fun requests => .answers (fun place => decide (requests = 0 ∧ place = 0))

def singleRecords : SinkConfig := { maxBatch := 1 }

def pollThenProduce : List SinkCall :=
  [.produce "md.trades.v1" trade, .poll, .produce "md.trades.v1" trade, .produce "md.trades.v1" trade]

/-- A poll sends a trade, which is refused once and sent again; a flush sends the other two. -/
theorem kinesisExactlyOnce_throttledOnce :
    ((pollThenProduce ++ [SinkCall.flush]).foldl (TrackedRun.step singleRecords throttledOnce) TrackedRun.start).Sound
      singleRecords := by
  have hok : AllSteps (TrackedRun.step singleRecords throttledOnce)
      (fun t call => (t.run.result singleRecords throttledOnce call).isOk = true) TrackedRun.start
      (pollThenProduce ++ [SinkCall.flush]) := by
    simp only [pollThenProduce, List.cons_append, List.nil_append, allSteps_cons]
    exact ⟨rfl, by decide +kernel, rfl, rfl, by decide +kernel, allSteps_nil _⟩
  rw [List.foldl_append]
  exact (kinesisExactlyOnce singleRecords throttledOnce (by decide) (by decide) _ hok).1 pollThenProduce .flush [] rfl

end Awsnative
