import RealtimeFinance.Awsnative.KinesisDelivery
/-!
# KinesisAttempts — every `put_records` request of a run

A send is a list of batches, a batch a list of attempts: what each request carries, and what the stream takes of it.  The
log is of the sink's own requests (`attemptsOf_spec`, `sentAttempts_spec`), over items of any kind that stand for records,
so that a record can carry the place it was produced at.
-/
namespace Awsnative

open Ingest Runs

/-- One `put_records` request: the records it carries, and those the stream takes. -/
structure Attempt (α : Type) where
  records : List α
  taken : List α

def takenOver {α : Type} (attempts : List (Attempt α)) : List α := attempts.flatMap Attempt.taken

section Batch

variable {α : Type}

def refusedOf (items : List α) (flags : List Bool) : List α :=
  ((items.zip flags).filter (fun p => p.2)).map Prod.fst

def takenOf (items : List α) (flags : List Bool) : List α :=
  ((items.zip flags).filter (fun p => !p.2)).map Prod.fst

/-- The requests of `_send_with_retry`. -/
def attemptsOf (client : Client) : Nat → Nat → List α → List (Attempt α)
  | 0, _, _ => []
  | attempts + 1, requests, pending =>
    match client requests with
    | .raises failed  => [⟨pending, takenOf pending (failedFlags failed pending.length)⟩]
    | .answers failed =>
      let results := failedFlags failed pending.length
      if results.count true = 0 then [⟨pending, takenOf pending results⟩]
      else
        let pending' := refusedOf pending results
        if pending'.isEmpty then [⟨pending, takenOf pending results⟩]
        else ⟨pending, takenOf pending results⟩ :: attemptsOf client attempts (requests + 1) pending'

theorem map_fst_zip_sublist : ∀ (items : List α) (flags : List Bool), ((items.zip flags).map Prod.fst).Sublist items
  | [], _ => List.Sublist.refl _
  | _ :: _, [] => List.nil_sublist _
  | item :: items, _ :: flags => (map_fst_zip_sublist items flags).cons_cons item

theorem refusedOf_sublist (items : List α) (flags : List Bool) : (refusedOf items flags).Sublist items :=
  (List.filter_sublist.map Prod.fst).trans (map_fst_zip_sublist items flags)

theorem takenOf_sublist (items : List α) (flags : List Bool) : (takenOf items flags).Sublist items :=
  (List.filter_sublist.map Prod.fst).trans (map_fst_zip_sublist items flags)

theorem takenOf_map (record : α → KinesisRecord) : ∀ (items : List α) (flags : List Bool),
    taken (items.map record) flags = (takenOf items flags).map record
  | [], _ => rfl
  | _ :: _, [] => rfl
  | item :: items, flag :: flags => by
    have ih := takenOf_map record items flags
    cases flag with
    | false => exact congrArg (record item :: ·) ih
    | true  => exact ih

theorem refusedOf_map (record : α → KinesisRecord) : ∀ (items : List α) (flags : List Bool),
    refused (items.map record) flags = (refusedOf items flags).map record
  | [], _ => rfl
  | _ :: _, [] => rfl
  | item :: items, flag :: flags => by
    have ih := refusedOf_map record items flags
    cases flag with
    | false => exact ih
    | true  => exact congrArg (record item :: ·) ih

theorem takenOf_refusedOf_perm (items : List α) (flags : List Bool) (h : flags.length = items.length) :
    (takenOf items flags ++ refusedOf items flags).Perm items := zip_flags_perm items flags h

/-- Nothing refused is everything taken. -/
theorem refusedOf_eq_nil : ∀ (items : List α) (flags : List Bool), flags.length = items.length →
    flags.count true = 0 → refusedOf items flags = []
  | [], [], _, _ => rfl
  | item :: items, flag :: flags, hlen, hcount => by
    cases flag with
    | false =>
      rw [List.count_cons_of_ne (by decide)] at hcount
      exact refusedOf_eq_nil items flags (by simpa using hlen) hcount
    | true =>
      rw [List.count_cons_self] at hcount
      cases hcount

variable (client : Client)

/-- **The log is of the sink's requests**: as many, and what they leave in the stream. -/
theorem attemptsOf_spec (record : α → KinesisRecord) (records : List KinesisRecord) (attempts requests : Nat)
    (pending : List α) :
    (sendWithRetry client records attempts requests (pending.map record)).requests =
      requests + (attemptsOf client attempts requests pending).length ∧
    (sendWithRetry client records attempts requests (pending.map record)).accepted =
      (takenOver (attemptsOf client attempts requests pending)).map record := by
  induction attempts generalizing requests pending with
  | zero => exact ⟨rfl, rfl⟩
  | succ attempts ih =>
    simp only [sendWithRetry, attemptsOf, List.length_map]
    cases hc : client requests with
    | raises failed => simp [takenOver, takenOf_map]
    | answers failed =>
      simp only
      split
      · simp [takenOver, takenOf_map]
      · rw [refusedOf_map, List.isEmpty_map]
        split
        · simp [takenOver, takenOf_map]
        · obtain ⟨hrequests, haccepted⟩ :=
            ih (requests + 1) (refusedOf pending (failedFlags failed pending.length))
          refine ⟨?_, ?_⟩
          · rw [hrequests, List.length_cons]
            omega
          · simp only [haccepted, takenOf_map, takenOver, List.flatMap_cons, List.map_append]

/-- **A request carries some of its batch**, in the batch's order, and at least one record. -/
theorem attemptsOf_records (attempts requests : Nat) {pending : List α} (hne : pending ≠ []) {a : Attempt α}
    (ha : a ∈ attemptsOf client attempts requests pending) :
    a.records ≠ [] ∧ a.records.Sublist pending ∧ a.taken.Sublist a.records := by
  induction attempts generalizing requests pending with
  | zero => cases ha
  | succ attempts ih =>
    have hfirst : ∀ flags : List Bool, a = ⟨pending, takenOf pending flags⟩ →
        a.records ≠ [] ∧ a.records.Sublist pending ∧ a.taken.Sublist a.records := by
      rintro flags rfl
      exact ⟨hne, List.Sublist.refl _, takenOf_sublist _ _⟩
    simp only [attemptsOf] at ha
    cases hc : client requests with
    | raises failed =>
      rw [hc] at ha
      exact hfirst _ (List.mem_singleton.1 ha)
    | answers failed =>
      simp only [hc] at ha
      split at ha
      · exact hfirst _ (List.mem_singleton.1 ha)
      · split at ha
        · exact hfirst _ (List.mem_singleton.1 ha)
        · rename_i hsome
          rcases List.mem_cons.1 ha with ha | ha
          · exact hfirst _ ha
          · obtain ⟨hnonempty, hsublist, htaken⟩ := ih (requests + 1) (fun hnil => hsome (by rw [hnil]; rfl)) ha
            exact ⟨hnonempty, hsublist.trans (refusedOf_sublist _ _), htaken⟩

/-- **A batch that does not raise is taken whole**, each record once. -/
theorem attemptsOf_perm (record : α → KinesisRecord) (records : List KinesisRecord) (attempts requests : Nat)
    (pending : List α)
    (hok : (sendWithRetry client records attempts requests (pending.map record)).result.isOk = true) :
    (takenOver (attemptsOf client attempts requests pending)).Perm pending := by
  induction attempts generalizing requests pending with
  | zero => cases hok
  | succ attempts ih =>
    simp only [sendWithRetry, attemptsOf, List.length_map] at hok ⊢
    cases hc : client requests with
    | raises failed =>
      rw [hc] at hok
      cases hok
    | answers failed =>
      have hperm := takenOf_refusedOf_perm pending _ (failedFlags_length failed pending.length)
      simp only [hc] at hok ⊢
      split
      · rename_i hzero
        rw [refusedOf_eq_nil pending _ (failedFlags_length failed pending.length) hzero, List.append_nil] at hperm
        simpa [takenOver] using hperm
      · rename_i hsome
        rw [if_neg hsome, refusedOf_map, List.isEmpty_map] at hok
        split
        · rename_i hempty
          rw [List.isEmpty_iff.1 hempty, List.append_nil] at hperm
          simpa [takenOver] using hperm
        · rename_i hnonempty
          rw [if_neg hnonempty] at hok
          have hrest := ih (requests + 1) (refusedOf pending (failedFlags failed pending.length)) hok
          exact (hrest.append_left _).trans hperm

end Batch

/-! ## The whole buffer -/

section Send

variable {α : Type} (config : SinkConfig) (client : Client) (record : α → KinesisRecord)

/-- How many records `_take_batch` takes. -/
def batchLength (buffer : List α) : Nat := (takeBatch config (buffer.map record)).1.length

/-- The batches of `_send_all`, one for each unit of fuel. -/
def sentAttempts : Nat → Nat → List α → List (List (Attempt α))
  | 0, _, _ => []
  | fuel + 1, requests, buffer =>
    if buffer.isEmpty then []
    else
      let batch := buffer.take (batchLength config record buffer)
      let attempts := attemptsOf client config.maxAttempts requests batch
      match (sendWithRetry client (batch.map record) config.maxAttempts requests (batch.map record)).result with
      | .error _ => [attempts]
      | .ok _    =>
        attempts :: sentAttempts fuel (requests + attempts.length) (buffer.drop (batchLength config record buffer))

theorem takeBatch_map (buffer : List α) : takeBatch config (buffer.map record) =
    ((buffer.take (batchLength config record buffer)).map record,
      (buffer.drop (batchLength config record buffer)).map record) := by
  have happend := takeBatch_append config (buffer.map record)
  have hlength := congrArg List.length happend
  rw [List.length_append] at hlength
  refine Prod.ext ?_ ?_
  · have htake := congrArg (List.take (batchLength config record buffer)) happend
    rw [batchLength, List.take_left, ← List.map_take] at htake
    exact htake
  · have hdrop := congrArg (List.drop (batchLength config record buffer)) happend
    rw [batchLength, List.drop_left, ← List.map_drop] at hdrop
    exact hdrop

theorem batchLength_pos {buffer : List α} (h : buffer ≠ []) : 0 < batchLength config record buffer := by
  have hne := takeBatchFrom_ne_nil config [] 0 (buffer.map record) (Or.inr (fun hnil => h (List.map_eq_nil_iff.1 hnil)))
  exact List.length_pos_iff.2 hne

theorem batchLength_le (buffer : List α) : batchLength config record buffer ≤ buffer.length := by
  have hlength := congrArg List.length (takeBatch_append config (buffer.map record))
  rw [List.length_append, List.length_map] at hlength
  unfold batchLength
  omega

theorem isOk_map {ε β γ : Type} (result : Except ε β) (f : β → γ) : (result.map f).isOk = result.isOk := by
  cases result <;> rfl

theorem take_batchLength_ne_nil {buffer : List α} (h : buffer ≠ []) :
    buffer.take (batchLength config record buffer) ≠ [] := by
  have hpos := batchLength_pos config record h
  intro hnil
  rcases List.take_eq_nil_iff.1 hnil with hzero | hempty
  · omega
  · exact h hempty

/-- What the first batch of a buffer gets. -/
def firstSent (requests : Nat) (buffer : List α) : Sent :=
  let batch := (buffer.take (batchLength config record buffer)).map record
  sendWithRetry client batch config.maxAttempts requests batch

def firstAttempts (requests : Nat) (buffer : List α) : List (Attempt α) :=
  attemptsOf client config.maxAttempts requests (buffer.take (batchLength config record buffer))

/-- The sink once its first batch is out. -/
def sinkAfter (buffer : List α) : KinesisSink :=
  let rest := (buffer.drop (batchLength config record buffer)).map record
  { buffer := rest, bufferedBytes := bytesOf rest }

/-- The log of a batch is of its requests. -/
theorem firstSent_spec (requests : Nat) (buffer : List α) :
    (firstSent config client record requests buffer).requests =
      requests + (firstAttempts config client record requests buffer).length ∧
    (firstSent config client record requests buffer).accepted =
      (takenOver (firstAttempts config client record requests buffer)).map record :=
  attemptsOf_spec client record _ config.maxAttempts requests _

section FirstBatch

variable (fuel requests : Nat) {sink : KinesisSink} {buffer : List α}

theorem sendAll_of_nil (hbuffer : sink.buffer = buffer.map record) (hnil : buffer = []) :
    sendAll config client (fuel + 1) sink requests = (sink, ⟨requests, [], .ok 0⟩) ∧
      sentAttempts config client record (fuel + 1) requests buffer = [] := by
  rw [hnil] at hbuffer ⊢
  refine ⟨?_, rfl⟩
  rw [sendAll, hbuffer]
  rfl

theorem buffer_isEmpty (hbuffer : sink.buffer = buffer.map record) (hne : buffer ≠ []) :
    sink.buffer.isEmpty = false := by
  rw [hbuffer, List.isEmpty_map]
  exact List.isEmpty_eq_false_iff.2 hne

/-- A batch that raises is the last of its send. -/
theorem sendAll_of_error {e : SendError} (hbuffer : sink.buffer = buffer.map record) (hne : buffer ≠ [])
    (h : (firstSent config client record requests buffer).result = .error e) :
    sendAll config client (fuel + 1) sink requests =
      (sinkAfter config record buffer, firstSent config client record requests buffer) ∧
    sentAttempts config client record (fuel + 1) requests buffer =
      [firstAttempts config client record requests buffer] := by
  have hcut := takeBatch_map config record buffer
  rw [← hbuffer] at hcut
  have hsink := buffer_isEmpty record hbuffer hne
  unfold firstSent at h
  refine ⟨?_, ?_⟩
  · simp only [sendAll, hsink, hcut, h]
    rfl
  · simp only [sentAttempts, List.isEmpty_eq_false_iff.2 hne, h]
    rfl

/-- One that does not is followed by what is left. -/
theorem sendAll_of_ok {n : Nat} {more : KinesisSink × Sent} (hbuffer : sink.buffer = buffer.map record)
    (hne : buffer ≠ []) (h : (firstSent config client record requests buffer).result = .ok n)
    (hmore : sendAll config client fuel (sinkAfter config record buffer)
      (requests + (firstAttempts config client record requests buffer).length) = more) :
    sendAll config client (fuel + 1) sink requests =
      (more.1, { more.2 with
        accepted := (firstSent config client record requests buffer).accepted ++ more.2.accepted
        result := more.2.result.map (fun m => n + m) }) ∧
    sentAttempts config client record (fuel + 1) requests buffer =
      firstAttempts config client record requests buffer ::
        sentAttempts config client record fuel
          (requests + (firstAttempts config client record requests buffer).length)
          (buffer.drop (batchLength config record buffer)) := by
  have hcut := takeBatch_map config record buffer
  rw [← hbuffer] at hcut
  have hsink := buffer_isEmpty record hbuffer hne
  have hrequests := (firstSent_spec config client record requests buffer).1
  unfold firstSent at h hrequests
  refine ⟨?_, ?_⟩
  · simp only [sendAll, hsink, hcut, h, hrequests]
    unfold sinkAfter at hmore
    simp only [hmore]
    rfl
  · simp only [sentAttempts, List.isEmpty_eq_false_iff.2 hne, h]
    rfl

end FirstBatch

/-- **The log of a send**: its requests, what they leave in the stream, and what is left of the buffer, from a place on
that everything sent is before. -/
theorem sentAttempts_spec (fuel : Nat) (sink : KinesisSink) (requests : Nat) (buffer : List α)
    (hbuffer : sink.buffer = buffer.map record) :
    (sendAll config client fuel sink requests).2.requests =
      requests + (sentAttempts config client record fuel requests buffer).flatten.length ∧
    (sendAll config client fuel sink requests).2.accepted =
      (takenOver (sentAttempts config client record fuel requests buffer).flatten).map record ∧
    ∃ k, k ≤ buffer.length ∧ (sendAll config client fuel sink requests).1.buffer = (buffer.drop k).map record ∧
      ∀ attempts ∈ sentAttempts config client record fuel requests buffer, ∀ a ∈ attempts,
        a.records.Sublist (buffer.take k) ∧ a.taken.Sublist a.records := by
  induction fuel generalizing sink requests buffer with
  | zero =>
    refine ⟨rfl, rfl, 0, Nat.zero_le _, hbuffer, ?_⟩
    intro attempts h
    cases h
  | succ fuel ih =>
    by_cases hne : buffer = []
    · obtain ⟨hsend, hsent⟩ := sendAll_of_nil config client record fuel requests hbuffer hne
      rw [hsend, hsent]
      refine ⟨rfl, rfl, 0, Nat.zero_le _, hbuffer, ?_⟩
      intro attempts h
      cases h
    · obtain ⟨hrequests, haccepted⟩ := firstSent_spec config client record requests buffer
      have hle := batchLength_le config record buffer
      have hrecords : ∀ a ∈ firstAttempts config client record requests buffer,
          a.records.Sublist (buffer.take (batchLength config record buffer)) ∧ a.taken.Sublist a.records :=
        fun a ha => (attemptsOf_records client config.maxAttempts requests
          (take_batchLength_ne_nil config record hne) ha).2
      cases hr : (firstSent config client record requests buffer).result with
      | error e =>
        obtain ⟨hsend, hsent⟩ := sendAll_of_error config client record fuel requests hbuffer hne hr
        rw [hsend, hsent, List.flatten_singleton]
        refine ⟨hrequests, haccepted, batchLength config record buffer, hle, rfl, ?_⟩
        intro attempts hattempts a ha
        rw [List.mem_singleton.1 hattempts] at ha
        exact hrecords a ha
      | ok n =>
        obtain ⟨hsend, hsent⟩ := sendAll_of_ok config client record fuel requests hbuffer hne hr rfl
        obtain ⟨hmoreRequests, hmoreAccepted, k, hk, hleft, hmore⟩ := ih (sinkAfter config record buffer)
          (requests + (firstAttempts config client record requests buffer).length)
          (buffer.drop (batchLength config record buffer)) rfl
        rw [hsend, hsent, List.flatten_cons, List.length_append]
        rw [List.length_drop] at hk
        refine ⟨?_, ?_, batchLength config record buffer + k, by omega, ?_, ?_⟩
        · rw [hmoreRequests, Nat.add_assoc]
        · rw [haccepted, hmoreAccepted, ← List.map_append, takenOver, takenOver, takenOver, List.flatMap_append]
        · rw [hleft, List.drop_drop]
        · intro attempts hattempts a ha
          rcases List.mem_cons.1 hattempts with rfl | hattempts
          · obtain ⟨hsublist, htaken⟩ := hrecords a ha
            exact ⟨hsublist.trans (List.take_sublist_take_left (Nat.le_add_right _ k)), htaken⟩
          · obtain ⟨hsublist, htaken⟩ := hmore attempts hattempts a ha
            refine ⟨hsublist.trans ?_, htaken⟩
            rw [List.take_add]
            exact List.sublist_append_right _ _

/-- **A send that does not raise has everything taken**, each record once. -/
theorem sentAttempts_perm (fuel : Nat) (sink : KinesisSink) (requests : Nat) (buffer : List α)
    (hbuffer : sink.buffer = buffer.map record) (hfuel : buffer.length ≤ fuel)
    (hok : (sendAll config client fuel sink requests).2.result.isOk = true) :
    (takenOver (sentAttempts config client record fuel requests buffer).flatten).Perm buffer := by
  induction fuel generalizing sink requests buffer with
  | zero =>
    rw [List.eq_nil_of_length_eq_zero (Nat.le_zero.1 hfuel)]
    exact List.Perm.refl _
  | succ fuel ih =>
    by_cases hne : buffer = []
    · rw [hne]
      exact List.Perm.refl _
    · cases hr : (firstSent config client record requests buffer).result with
      | error e =>
        obtain ⟨hsend, -⟩ := sendAll_of_error config client record fuel requests hbuffer hne hr
        rw [hsend, hr] at hok
        cases hok
      | ok n =>
        obtain ⟨hsend, hsent⟩ := sendAll_of_ok config client record fuel requests hbuffer hne hr rfl
        rw [hsend, isOk_map] at hok
        have hlength : (buffer.drop (batchLength config record buffer)).length ≤ fuel := by
          have hpos := batchLength_pos config record hne
          rw [List.length_drop]
          omega
        have hrest := ih (sinkAfter config record buffer)
          (requests + (firstAttempts config client record requests buffer).length)
          (buffer.drop (batchLength config record buffer)) rfl hlength hok
        have htaken := attemptsOf_perm client record _ config.maxAttempts requests
          (buffer.take (batchLength config record buffer)) (by
            unfold firstSent at hr
            rw [hr]
            rfl)
        have happend := htaken.append hrest
        rw [List.take_append_drop] at happend
        rw [hsent, List.flatten_cons, takenOver, List.flatMap_append]
        exact happend

/-- **What is sent earlier stands earlier in the buffer**, of two records of different batches. -/
theorem sentAttempts_pairwise {R : α → α → Prop} (fuel requests : Nat) (buffer : List α) (h : buffer.Pairwise R) :
    (sentAttempts config client record fuel requests buffer).Pairwise
      (fun earlier later => ∀ x ∈ takenOver earlier, ∀ y ∈ takenOver later, R x y) := by
  induction fuel generalizing requests buffer with
  | zero => exact List.Pairwise.nil
  | succ fuel ih =>
    by_cases hnil : buffer.isEmpty = true
    · simp only [sentAttempts, if_pos hnil]
      exact List.Pairwise.nil
    · have hne : buffer ≠ [] := fun h => hnil (List.isEmpty_iff.2 h)
      simp only [sentAttempts, if_neg hnil]
      generalize hn : batchLength config record buffer = n
      have hbatchne : buffer.take n ≠ [] := hn ▸ take_batchLength_ne_nil config record hne
      rw [← List.take_append_drop n buffer, List.pairwise_append] at h
      split
      · exact List.pairwise_singleton _ _
      · refine List.pairwise_cons.2 ⟨fun later hlater x hx y hy => ?_, ih _ _ h.2.1⟩
        obtain ⟨a, ha, hxa⟩ := List.mem_flatMap.1 hx
        obtain ⟨b, hb, hyb⟩ := List.mem_flatMap.1 hy
        obtain ⟨-, hsublist, htaken⟩ := attemptsOf_records client config.maxAttempts requests hbatchne ha
        obtain ⟨-, -, k, -, -, hlog⟩ := sentAttempts_spec config client record fuel ⟨(buffer.drop n).map record, 0⟩
          (requests + (attemptsOf client config.maxAttempts requests (buffer.take n)).length) (buffer.drop n) rfl
        obtain ⟨hlaterSublist, hlaterTaken⟩ := hlog later hlater b hb
        exact h.2.2 x (hsublist.subset (htaken.subset hxa)) y
          (List.mem_of_mem_take (hlaterSublist.subset (hlaterTaken.subset hyb)))

end Send

/-! ## The limits of a request -/

/-- At least one record, at most `max_batch`, and at most `max_bytes` unless it is a single record. -/
structure WithinLimits (config : SinkConfig) (records : List KinesisRecord) : Prop where
  nonempty : records ≠ []
  records_le : records.length ≤ config.maxBatch
  bytes_le : bytesOf records ≤ config.maxBytes ∨ records.length = 1

section Limits

variable {config : SinkConfig}

theorem bytesOf_append (xs ys : List KinesisRecord) : bytesOf (xs ++ ys) = bytesOf xs + bytesOf ys := by
  induction xs with
  | nil => exact (Nat.zero_add _).symm
  | cons x xs ih =>
    show x.size + bytesOf (xs ++ ys) = x.size + bytesOf xs + bytesOf ys
    omega

theorem bytesOf_singleton (record : KinesisRecord) : bytesOf [record] = record.size := Nat.add_zero _

theorem bytesOf_sublist {xs ys : List KinesisRecord} (h : xs.Sublist ys) : bytesOf xs ≤ bytesOf ys := by
  induction h with
  | slnil => exact Nat.le_refl _
  | @cons xs ys y _ ih => exact Nat.le_trans ih (Nat.le_add_left _ _)
  | @cons_cons xs ys x _ ih => exact Nat.add_le_add_left ih _

/-- A part of a request that is within the limits is. -/
theorem WithinLimits.sublist {xs ys : List KinesisRecord} (h : WithinLimits config ys) (hsub : xs.Sublist ys)
    (hne : xs ≠ []) : WithinLimits config xs where
  nonempty := hne
  records_le := Nat.le_trans hsub.length_le h.records_le
  bytes_le := by
    rcases h.bytes_le with hbytes | hsingle
    · exact Or.inl (Nat.le_trans (bytesOf_sublist hsub) hbytes)
    · have hle := hsub.length_le
      have hpos := List.length_pos_iff.2 hne
      exact Or.inr (by omega)

theorem takeBatchFrom_withinLimits (hbatch : 1 ≤ config.maxBatch) (buffer batch : List KinesisRecord)
    (h : batch = [] ∧ buffer ≠ [] ∨ WithinLimits config batch) :
    WithinLimits config (takeBatchFrom config batch (bytesOf batch) buffer).1 := by
  induction buffer generalizing batch with
  | nil =>
    rcases h with ⟨-, h⟩ | h
    · exact absurd rfl h
    · exact h
  | cons record rest ih =>
    have hbytes : bytesOf (batch ++ [record]) = bytesOf batch + record.size := bytesOf_append batch [record]
    simp only [takeBatchFrom]
    split
    · rename_i hfull
      rcases h with ⟨rfl, -⟩ | h
      · cases hfull
      · exact h
    · rename_i hroom
      rw [← hbytes]
      refine ih (batch ++ [record]) (Or.inr ?_)
      rcases h with ⟨rfl, -⟩ | h
      · exact ⟨by simp, hbatch, Or.inr rfl⟩
      · have hne : batch.isEmpty = false := by
          rw [List.isEmpty_eq_false_iff]
          exact h.nonempty
        simp only [hne, Bool.not_false, Bool.true_and, Bool.or_eq_true, decide_eq_true_eq, not_or, Nat.not_le,
          Nat.not_lt] at hroom
        refine ⟨by simp, ?_, Or.inl (hbytes ▸ hroom.2)⟩
        rw [List.length_append, List.length_singleton]
        omega

/-- **A batch is within the limits.** -/
theorem takeBatch_withinLimits (hbatch : 1 ≤ config.maxBatch) {buffer : List KinesisRecord} (h : buffer ≠ []) :
    WithinLimits config (takeBatch config buffer).1 :=
  takeBatchFrom_withinLimits hbatch buffer [] (Or.inl ⟨rfl, h⟩)

/-- **Every request is within the limits**, first attempts and retries. -/
theorem sentAttempts_withinLimits {α : Type} (hbatch : 1 ≤ config.maxBatch) (client : Client)
    (record : α → KinesisRecord) (fuel requests : Nat) (buffer : List α) :
    ∀ attempts ∈ sentAttempts config client record fuel requests buffer, ∀ a ∈ attempts,
      WithinLimits config (a.records.map record) := by
  induction fuel generalizing requests buffer with
  | zero =>
    intro attempts h
    cases h
  | succ fuel ih =>
    intro attempts hattempts a ha
    simp only [sentAttempts] at hattempts
    split at hattempts
    · cases hattempts
    · rename_i hnil
      have hne : buffer ≠ [] := fun h => hnil (List.isEmpty_iff.2 h)
      have hlimits := takeBatch_withinLimits hbatch (fun hmap => hne (List.map_eq_nil_iff.1 hmap) : buffer.map record ≠ [])
      rw [takeBatch_map] at hlimits
      have hfirst : attempts = attemptsOf client config.maxAttempts requests
          (buffer.take (batchLength config record buffer)) → WithinLimits config (a.records.map record) := by
        rintro rfl
        obtain ⟨hnonempty, hsublist, -⟩ := attemptsOf_records client config.maxAttempts requests
          (take_batchLength_ne_nil config record hne) ha
        exact hlimits.sublist (hsublist.map record) (fun hmap => hnonempty (List.map_eq_nil_iff.1 hmap))
      split at hattempts
      · exact hfirst (List.mem_singleton.1 hattempts)
      · rcases List.mem_cons.1 hattempts with h | h
        · exact hfirst h
        · exact ih _ _ attempts h a ha

end Limits

end Awsnative
