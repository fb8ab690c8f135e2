import RealtimeFinance.Awsnative.KinesisExactlyOnce
/-!
# KinesisOrder — the order a partition key's records are taken in

Batches leave the buffer from its front, and a request carries its records in order, so only a retry can bring a record
into the stream behind a later one of its key.  A run keeps each key's order exactly when no batch it sends has that
happen between two of its attempts (`keyOrder_iff`).
-/
namespace Awsnative

open Ingest Runs

/-- The second is not ahead of the first, in the order their key's records were produced in. -/
def KeyOrdered (x y : KinesisRecord × Nat) : Prop := x.1.partitionKey = y.1.partitionKey → x.2 < y.2

/-- **Records of one partition key are taken in the order they were produced in.** -/
def TrackedRun.InOrder (t : TrackedRun) : Prop := t.accepted.Pairwise KeyOrdered

variable (config : SinkConfig) (client : Client)

/-- In no batch that the call sends does an answer refuse a record and take a later one of its key, and a later answer
take the refused one. -/
def RetriesInOrder (t : TrackedRun) (call : SinkCall) : Prop :=
  ∀ attempts ∈ t.run.sends config client call, attempts.Pairwise (fun earlier later =>
    ∀ x ∈ earlier.taken, ∀ y ∈ later.taken, KeyOrdered x y)

theorem zipIdx_pairwise (records : List KinesisRecord) :
    records.zipIdx.Pairwise (fun x y : KinesisRecord × Nat => x.2 < y.2) := by
  rw [← List.pairwise_map, List.zipIdx_map_snd]
  exact List.pairwise_lt_range'

theorem buffered_pairwise (run : SinkRun) : run.buffered.Pairwise KeyOrdered := by
  have hplaces : run.buffered.Pairwise (fun x y : KinesisRecord × Nat => x.2 < y.2) :=
    (zipIdx_pairwise run.produced).sublist (List.drop_sublist _ _)
  exact hplaces.imp (fun {x y} hlt => (fun _ => hlt : KeyOrdered x y))

/-- What was taken was produced before what is buffered. -/
theorem TrackedRun.Traced.accepted_lt {t : TrackedRun} (h : t.Traced) {x y : KinesisRecord × Nat} (hx : x ∈ t.accepted)
    (hy : y ∈ t.run.buffered) : x.2 < y.2 := by
  have hpairwise := zipIdx_pairwise t.run.produced
  rw [← List.take_append_drop (t.run.produced.length - t.run.sink.buffer.length) t.run.produced.zipIdx,
    List.pairwise_append] at hpairwise
  exact hpairwise.2.2 x (h.before x hx) y hy

/-- **Across batches, and within a request, the order is the buffer's**; a retry is what can break it. -/
theorem takenOver_pairwise_iff {t : TrackedRun} (h : t.Traced) :
    (takenOver (sentAttempts config client Prod.fst t.run.sink.buffer.length t.run.requests
      t.run.buffered).flatten).Pairwise KeyOrdered ↔
    ∀ attempts ∈ sentAttempts config client Prod.fst t.run.sink.buffer.length t.run.requests t.run.buffered,
      attempts.Pairwise (fun earlier later => ∀ x ∈ earlier.taken, ∀ y ∈ later.taken, KeyOrdered x y) := by
  obtain ⟨-, -, k, -, -, hlog⟩ := sentAttempts_spec config client Prod.fst t.run.sink.buffer.length t.run.sink
    t.run.requests t.run.buffered (map_fst_buffered h.buffer).symm
  have hacross := sentAttempts_pairwise config client Prod.fst t.run.sink.buffer.length t.run.requests t.run.buffered
    (buffered_pairwise t.run)
  unfold takenOver
  rw [List.pairwise_flatMap, List.pairwise_flatten]
  constructor
  · exact fun hall => hall.2.1
  · intro hbatches
    refine ⟨fun a ha => ?_, hbatches, hacross.imp (fun {earlier later} hbefore a ha b hb x hx y hy => ?_)⟩
    · obtain ⟨attempts, hattempts, ha⟩ := List.mem_flatten.1 ha
      obtain ⟨hsublist, htaken⟩ := hlog attempts hattempts a ha
      exact (buffered_pairwise t.run).sublist ((htaken.trans hsublist).trans (List.take_sublist _ _))
    · exact hbefore x (List.mem_flatMap.2 ⟨a, ha, hx⟩) y (List.mem_flatMap.2 ⟨b, hb, hy⟩)

theorem sends_buffered {t : TrackedRun} (h : t.Traced) {x : KinesisRecord × Nat}
    (hx : x ∈ takenOver (sentAttempts config client Prod.fst t.run.sink.buffer.length t.run.requests
      t.run.buffered).flatten) : x ∈ t.run.buffered := by
  obtain ⟨-, -, k, -, -, hlog⟩ := sentAttempts_spec config client Prod.fst t.run.sink.buffer.length t.run.sink
    t.run.requests t.run.buffered (map_fst_buffered h.buffer).symm
  obtain ⟨a, ha, hxa⟩ := List.mem_flatMap.1 hx
  obtain ⟨attempts, hattempts, ha⟩ := List.mem_flatten.1 ha
  obtain ⟨hsublist, htaken⟩ := hlog attempts hattempts a ha
  exact List.mem_of_mem_take (hsublist.subset (htaken.subset hxa))

theorem sends_cases (run : SinkRun) (call : SinkCall) : run.sends config client call = [] ∨
    run.sends config client call =
      sentAttempts config client Prod.fst run.sink.buffer.length run.requests run.buffered := by
  cases call with
  | produce topic trade => exact Or.inl rfl
  | poll =>
    by_cases hfull : run.sink.full config = true
    · exact Or.inr (if_pos hfull)
    · exact Or.inl (if_neg hfull)
  | flush => exact Or.inr rfl

/-- **A call keeps the order exactly when** its retries do. -/
theorem inOrder_step_iff {t : TrackedRun} (htraced : t.Traced) (h : t.InOrder) (call : SinkCall) :
    (t.step config client call).InOrder ↔ RetriesInOrder config client t call := by
  have haccepted : (t.step config client call).accepted =
      t.accepted ++ takenOver (t.run.sends config client call).flatten := by
    show takenOver (t.batches ++ _).flatten = _
    rw [List.flatten_append, takenOver, List.flatMap_append]
    rfl
  unfold TrackedRun.InOrder RetriesInOrder
  rw [haccepted]
  rcases sends_cases config client t.run call with hsends | hsends
  · rw [hsends]
    simp only [List.flatten_nil, takenOver, List.flatMap_nil, List.append_nil]
    exact iff_of_true h (fun attempts hattempts => by cases hattempts)
  · rw [hsends, List.pairwise_append, takenOver_pairwise_iff config client htraced]
    constructor
    · exact fun hall => hall.2.1
    · exact fun hretries => ⟨h, hretries, fun x hx y hy _ =>
        htraced.accepted_lt hx (sends_buffered config client htraced hy)⟩

/-- **A run keeps each key's order exactly when every retry in it does.** -/
theorem keyOrder_iff (calls : List SinkCall) :
    AllReached (TrackedRun.step config client) TrackedRun.InOrder TrackedRun.start calls ↔
      AllSteps (TrackedRun.step config client) (RetriesInOrder config client) TrackedRun.start calls :=
  AllSteps.congr (I := fun t => t.Traced ∧ t.InOrder) (fun _ call h => inOrder_step_iff config client h.1 h.2 call)
    (fun _ call h hnext => ⟨h.1.step config client call, hnext⟩) ⟨traced_start, List.Pairwise.nil⟩

/-! ## A retry behind a later record -/

theorem length_le_utf8ByteSize (s : String) : s.length ≤ s.utf8ByteSize := by
  induction s using String.push_induction with
  | empty => exact Nat.le_refl _
  | push s c ih =>
    rw [String.length_push, String.utf8ByteSize_push]
    have hpos := c.utf8Size_pos
    omega

/-- The first of two records is refused once. -/
theorem takenOver_throttledOnce {x y : KinesisRecord} (h : x.size + y.size ≤ 4500000) :
    takenOver (sentAttempts {} throttledOnce Prod.fst 2 0 [(x, 0), (y, 1)]).flatten = [(y, 1), (x, 0)] := by
  have hbatch : batchLength {} Prod.fst [(x, 0), (y, 1)] = 2 := by
    simp [batchLength, takeBatch, takeBatchFrom, Nat.not_lt.2 h]
  simp [sentAttempts, hbatch, attemptsOf, throttledOnce, failedFlags, List.range, List.range.loop, refusedOf, takenOf,
    sendWithRetry, refused, takenOver]

theorem accepted_of_two (first second : Trade) :
    (([.produce "md.trades.v1" first, .produce "md.trades.v1" second].foldl (TrackedRun.step config client)
      TrackedRun.start).step config client .flush).accepted =
    takenOver (sentAttempts config client Prod.fst 2 0 [(recordOf first, 0), (recordOf second, 1)]).flatten := rfl

/-- Trades 1 and 2 of one symbol in one request, whose first record is throttled: trade 2 is taken before trade 1. -/
theorem retried_trade_is_overtaken :
    ¬ ∀ (config : SinkConfig) (client : Client) (calls : List SinkCall),
      AllReached (TrackedRun.step config client) TrackedRun.InOrder TrackedRun.start calls := by
  intro h
  have hlast := h {} throttledOnce [.produce "md.trades.v1" trade, .produce "md.trades.v1" nextTrade, .flush]
    [.produce "md.trades.v1" trade, .produce "md.trades.v1" nextTrade] .flush [] rfl
  have hfirst : (recordOf trade).size ≤ 2000 := Nat.le_trans (length_le_utf8ByteSize _) (by decide +kernel)
  have hsecond : (recordOf nextTrade).size ≤ 2000 := Nat.le_trans (length_le_utf8ByteSize _) (by decide +kernel)
  have hsize : (recordOf trade).size + (recordOf nextTrade).size ≤ 4500000 := by omega
  simp only [TrackedRun.InOrder] at hlast
  rw [accepted_of_two, takenOver_throttledOnce hsize] at hlast
  have hkey : (recordOf nextTrade).partitionKey = (recordOf trade).partitionKey := rfl
  exact absurd ((List.pairwise_cons.1 hlast).1 _ (List.mem_singleton.2 rfl) hkey) (by decide)

end Awsnative
