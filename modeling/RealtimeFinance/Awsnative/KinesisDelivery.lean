import RealtimeFinance.Awsnative.KinesisSink
import RealtimeFinance.Runs
/-!
# KinesisDelivery — the records a failed send takes with it

How many records of a batch the stream never takes depends on the client's responses and the batch's length alone
(`outcomeOf`).  They are in neither the stream nor the buffer afterwards, so the sink keeps every produced record exactly
when there are none in any batch that a call sends (`kept_iff`).
-/
namespace Awsnative

open Ingest Runs

/-! ## One batch -/

/-- What the client's responses make of a batch: the requests made, the records never taken, and whether it raised. -/
structure Outcome where
  requests : Nat
  unaccepted : Nat
  raised : Bool

def outcomeOf (client : Client) : Nat → Nat → Nat → Outcome
  | 0, requests, n => ⟨requests, n, true⟩
  | attempts + 1, requests, n =>
    match client requests with
    | .raises failed  => ⟨requests + 1, (failedFlags failed n).count true, true⟩
    | .answers failed =>
      if (failedFlags failed n).count true = 0 then ⟨requests + 1, 0, false⟩
      else outcomeOf client attempts (requests + 1) ((failedFlags failed n).count true)

theorem failedFlags_length (failed : Nat → Bool) (n : Nat) : (failedFlags failed n).length = n := by
  unfold failedFlags
  rw [List.length_map, List.length_range]

/-- A list parted by flags is the list, in some order. -/
theorem zip_flags_perm {α : Type} : ∀ (items : List α) (flags : List Bool), flags.length = items.length →
    (((items.zip flags).filter (fun p => !p.2)).map Prod.fst ++
      ((items.zip flags).filter (fun p => p.2)).map Prod.fst).Perm items
  | [], [], _ => List.Perm.refl _
  | item :: items, flag :: flags, h => by
    have ih := zip_flags_perm items flags (by simpa using h)
    cases flag with
    | false => exact ih.cons item
    | true  => exact List.perm_middle.trans (ih.cons item)

theorem taken_refused_perm (records : List KinesisRecord) (flags : List Bool) (h : flags.length = records.length) :
    (taken records flags ++ refused records flags).Perm records := zip_flags_perm records flags h

theorem refused_length : ∀ (records : List KinesisRecord) (flags : List Bool), flags.length = records.length →
    (refused records flags).length = flags.count true
  | [], [], _ => rfl
  | record :: records, flag :: flags, h => by
    have ih := refused_length records flags (by simpa using h)
    cases flag with
    | false => rw [List.count_cons_of_ne (by decide)]; exact ih
    | true  => rw [List.count_cons_self]; exact congrArg (· + 1) ih

/-- An answer that counts a failed record names one. -/
theorem refused_isEmpty {records : List KinesisRecord} {flags : List Bool} (h : flags.length = records.length)
    (hcount : flags.count true ≠ 0) : (refused records flags).isEmpty = false := by
  rw [List.isEmpty_eq_false_iff]
  intro hnil
  have hlength := refused_length records flags h
  rw [hnil] at hlength
  exact hcount hlength.symm

variable (config : SinkConfig) (client : Client)

/-- **A batch's records are taken by the stream or dropped**, as many as its outcome counts. -/
theorem sendWithRetry_outcome (records : List KinesisRecord) (attempts requests : Nat) (pending : List KinesisRecord) :
    (sendWithRetry client records attempts requests pending).requests =
      (outcomeOf client attempts requests pending.length).requests ∧
    (sendWithRetry client records attempts requests pending).result.isOk =
      !(outcomeOf client attempts requests pending.length).raised ∧
    ∃ dropped, ((sendWithRetry client records attempts requests pending).accepted ++ dropped).Perm pending ∧
      dropped.length = (outcomeOf client attempts requests pending.length).unaccepted := by
  induction attempts generalizing requests pending with
  | zero => exact ⟨rfl, rfl, pending, List.Perm.refl _, rfl⟩
  | succ attempts ih =>
    simp only [sendWithRetry, outcomeOf]
    cases hc : client requests with
    | raises failed =>
      have hlen := failedFlags_length failed pending.length
      exact ⟨rfl, rfl, refused pending (failedFlags failed pending.length), taken_refused_perm _ _ hlen,
        refused_length _ _ hlen⟩
    | answers failed =>
      have hlen := failedFlags_length failed pending.length
      have hperm := taken_refused_perm pending _ hlen
      have hcount := refused_length pending _ hlen
      simp only
      by_cases hzero : (failedFlags failed pending.length).count true = 0
      · rw [if_pos hzero, if_pos hzero]
        rw [hzero] at hcount
        rw [List.eq_nil_of_length_eq_zero hcount] at hperm
        exact ⟨rfl, rfl, [], hperm, rfl⟩
      · rw [if_neg hzero, if_neg hzero, refused_isEmpty hlen hzero, ← hcount]
        obtain ⟨hreq, hres, dropped, hdropped, hlength⟩ :=
          ih (requests + 1) (refused pending (failedFlags failed pending.length))
        refine ⟨hreq, hres, dropped, ?_, hlength⟩
        simp only [Bool.false_eq_true, if_false]
        rw [List.append_assoc]
        exact (hdropped.append_left _).trans hperm

/-! ## The whole buffer -/

/-- **Every batch is taken whole**, up to one that raises. -/
def allTaken : Nat → Nat → List KinesisRecord → Bool
  | 0, _, _ => true
  | fuel + 1, requests, buffer =>
    if buffer.isEmpty then true
    else
      let outcome := outcomeOf client config.maxAttempts requests (takeBatch config buffer).1.length
      decide (outcome.unaccepted = 0) &&
        (outcome.raised || allTaken fuel outcome.requests (takeBatch config buffer).2)

/-- **What `sendAll` sends is taken, still buffered or dropped**, and nothing is dropped exactly when every batch is
taken whole. -/
theorem sendAll_drops (fuel : Nat) (sink : KinesisSink) (requests : Nat) :
    ∃ dropped, ((sendAll config client fuel sink requests).2.accepted ++
        (sendAll config client fuel sink requests).1.buffer ++ dropped).Perm sink.buffer ∧
      (dropped = [] ↔ allTaken config client fuel requests sink.buffer = true) := by
  induction fuel generalizing sink requests with
  | zero => exact ⟨[], by simp [sendAll], by simp [allTaken]⟩
  | succ fuel ih =>
    by_cases hempty : sink.buffer.isEmpty = true
    · exact ⟨[], by simp [sendAll, hempty], by simp [allTaken, hempty]⟩
    · have hbatch := takeBatch_append config sink.buffer
      simp only [sendAll, allTaken, if_neg hempty]
      generalize takeBatch config sink.buffer = cut at hbatch ⊢
      obtain ⟨batch, rest⟩ := cut
      obtain ⟨hreq, hres, dropped, hdropped, hlength⟩ :=
        sendWithRetry_outcome client batch config.maxAttempts requests batch
      simp only at hbatch ⊢
      generalize sendWithRetry client batch config.maxAttempts requests batch = sent at hreq hres hdropped ⊢
      generalize outcomeOf client config.maxAttempts requests batch.length = outcome at hreq hres hlength ⊢
      have hnone : dropped = [] ↔ outcome.unaccepted = 0 := by
        rw [← hlength, List.length_eq_zero_iff]
      rw [← hbatch, Bool.and_eq_true, decide_eq_true_eq, ← hnone]
      cases hr : sent.result with
      | error e =>
        rw [hr] at hres
        have hraised : outcome.raised = true := by simpa [Except.isOk, Except.toBool] using hres
        refine ⟨dropped, ?_, by simp [hraised]⟩
        rw [List.append_assoc]
        exact (List.perm_append_comm.append_left _).trans
          (by rw [← List.append_assoc]; exact hdropped.append_right rest)
      | ok n =>
        rw [hr] at hres
        have hraised : outcome.raised = false := by simpa [Except.isOk, Except.toBool] using hres
        obtain ⟨dropped', hperm, hnil⟩ := ih ⟨rest, bytesOf rest⟩ sent.requests
        rw [hreq] at hperm hnil
        refine ⟨dropped ++ dropped', List.perm_iff_count.2 (fun record => ?_), ?_⟩
        · have hsent := hdropped.count_eq record
          have hmore := hperm.count_eq record
          simp only [List.count_append, hreq] at hsent hmore ⊢
          omega
        · rw [List.append_eq_nil_iff, hnil, hraised, Bool.false_or]

/-- **A send that does not raise leaves nothing buffered**: the fuel is enough. -/
theorem sendAll_empties (fuel : Nat) (sink : KinesisSink) (requests : Nat) (hfuel : sink.buffer.length ≤ fuel)
    (hok : (sendAll config client fuel sink requests).2.result.isOk = true) :
    (sendAll config client fuel sink requests).1.buffer = [] := by
  induction fuel generalizing sink requests with
  | zero => exact List.eq_nil_of_length_eq_zero (by simpa [sendAll] using hfuel)
  | succ fuel ih =>
    by_cases hempty : sink.buffer.isEmpty = true
    · simp only [sendAll, if_pos hempty]
      exact List.isEmpty_iff.1 hempty
    · have hlt := takeBatch_rest_lt config (List.isEmpty_eq_false_iff.1 (by simpa using hempty))
      simp only [sendAll, if_neg hempty] at hok ⊢
      generalize takeBatch config sink.buffer = cut at hlt hok ⊢
      obtain ⟨batch, rest⟩ := cut
      simp only at hlt hok ⊢
      generalize sendWithRetry client batch config.maxAttempts requests batch = sent at hok ⊢
      cases hr : sent.result with
      | error e =>
        simp only [hr] at hok
        cases hok
      | ok n =>
        simp only [hr] at hok ⊢
        refine ih _ _ (by simp only; omega) ?_
        cases hmore : (sendAll config client fuel ⟨rest, bytesOf rest⟩ sent.requests).2.result with
        | error e =>
          rw [hmore] at hok
          cases hok
        | ok m => rfl

/-! ## Runs -/

inductive SinkCall
  | produce (topic : String) (trade : Trade)
  | poll
  | flush

/-- A sink and its stream between calls, with every record produced. -/
structure SinkRun where
  sink : KinesisSink
  requests : Nat
  accepted : List KinesisRecord
  produced : List KinesisRecord

def SinkRun.start : SinkRun := { sink := ⟨[], 0⟩, requests := 0, accepted := [], produced := [] }

def SinkRun.sent (run : SinkRun) (s : KinesisSink × Sent) : SinkRun :=
  { run with sink := s.1, requests := s.2.requests, accepted := run.accepted ++ s.2.accepted }

def SinkRun.step (run : SinkRun) : SinkCall → SinkRun
  | .produce _ trade => { run with sink := run.sink.produce trade, produced := run.produced ++ [recordOf trade] }
  | .poll            => run.sent (run.sink.poll config client run.requests)
  | .flush           => run.sent (run.sink.flush config client run.requests)

/-- **Each produced record is in the stream or in the buffer.** -/
def SinkRun.Kept (run : SinkRun) : Prop := (run.accepted ++ run.sink.buffer).Perm run.produced

/-- The call sends nothing, or the stream takes each batch it sends whole. -/
def Delivers (run : SinkRun) : SinkCall → Prop
  | .produce _ _ => True
  | .poll        => run.sink.full config = true →
    allTaken config client run.sink.buffer.length run.requests run.sink.buffer = true
  | .flush       => allTaken config client run.sink.buffer.length run.requests run.sink.buffer = true

theorem sent_kept_iff {run : SinkRun} (h : run.Kept) {s : KinesisSink × Sent} {dropped : List KinesisRecord}
    (hperm : (s.2.accepted ++ s.1.buffer ++ dropped).Perm run.sink.buffer) : (run.sent s).Kept ↔ dropped = [] := by
  unfold SinkRun.Kept at *
  unfold SinkRun.sent
  simp only
  constructor
  · intro hkept
    have hproduced := h.length_eq
    have hsent := hperm.length_eq
    have hleft := hkept.length_eq
    simp only [List.length_append] at hproduced hsent hleft
    exact List.eq_nil_of_length_eq_zero (by omega)
  · rintro rfl
    rw [List.append_nil] at hperm
    rw [List.append_assoc]
    exact (hperm.append_left run.accepted).trans h

theorem kept_step_iff {run : SinkRun} (h : run.Kept) (call : SinkCall) :
    (run.step config client call).Kept ↔ Delivers config client run call := by
  obtain ⟨dropped, hperm, hnil⟩ := sendAll_drops config client run.sink.buffer.length run.sink run.requests
  cases call with
  | produce topic trade =>
    refine iff_of_true ?_ trivial
    unfold SinkRun.Kept SinkRun.step KinesisSink.produce
    simp only
    rw [← List.append_assoc]
    exact h.append_right _
  | poll =>
    unfold SinkRun.step KinesisSink.poll Delivers
    by_cases hfull : run.sink.full config = true
    · simp only [hfull, if_true, forall_const]
      rw [sent_kept_iff h hperm, hnil]
    · simp only [if_neg hfull]
      have hidle : (([] : List KinesisRecord) ++ run.sink.buffer ++ []).Perm run.sink.buffer := by simp
      exact iff_of_true ((sent_kept_iff h hidle).2 rfl) (fun hf => absurd hf hfull)
  | flush =>
    unfold Delivers
    simp only
    rw [← hnil]
    exact sent_kept_iff h hperm

/-- **A run of calls keeps every record exactly when** the stream takes each batch they send whole. -/
theorem kept_iff (calls : List SinkCall) :
    AllReached (SinkRun.step config client) SinkRun.Kept SinkRun.start calls ↔
      AllSteps (SinkRun.step config client) (Delivers config client) SinkRun.start calls :=
  AllSteps.congr (I := SinkRun.Kept) (fun _ call h => kept_step_iff config client h call) (fun _ _ _ h => h)
    (List.Perm.refl _)

def trade : Trade :=
  { venue := "binance", venueSymbol := "BTCUSDT", instrumentId := "BTC-USD", tradeId := "1"
    eventTsUs := 1728000600000000, ingestTsUs := 1728000600100000, price := "60000.5", size := "0.25", side := .buy
    sequence := some 1, isBackfill := false, source := .stream }

def nextTrade : Trade := { trade with tradeId := "2" }

/-- Eight throttled attempts, and the flush leaves with the trade. -/
theorem throttled_flush_loses_a_trade :
    ¬ ∀ (config : SinkConfig) (client : Client) (calls : List SinkCall),
      AllReached (SinkRun.step config client) SinkRun.Kept SinkRun.start calls := by
  intro h
  have hlast := h {} (fun _ => .answers (fun _ => true)) [.produce "md.trades.v1" trade, .flush]
    [.produce "md.trades.v1" trade] .flush [] rfl
  have hlength := hlast.length_eq
  exact absurd hlength (by decide)

end Awsnative
