import RealtimeFinance.Backfill.LoadAtomic
/-!
# LoadRaises — the archives that fail an invocation

What `zipfile` raises on a bad archive is `BadZipFile`, which `_DATA_ERRORS` names, or one of four errors that it does not
name.  Of all that an invocation does with the bytes it fetched nothing else is left uncaught, so it raises exactly on
an archive that was verified and then raises one of the four (`load_returns_iff`).
-/
namespace Backfill

open Ingest Sql

/-- What `ZipFile` and `ZipFile.read` raise on a bad archive. -/
inductive ZipError
  | badZipFile
  | zlibError
  | notImplemented
  | runtime
  | eof
  deriving DecidableEq

/-- How `load` takes it: of these `_DATA_ERRORS` has `zipfile.BadZipFile` only. -/
def ZipError.raised : ZipError → Raised
  | .badZipFile     => .data .badZipFile
  | .zlibError      => .other
  | .notImplemented => .other
  | .runtime        => .other
  | .eof            => .other

/-- `hashlib`, and a `zipfile` that raises these errors and no other. -/
structure ZipLibrary where
  digestOf : ByteArray → String
  zipFile : ByteArray → Except ZipError (List (String × Except ZipError ByteArray))

def ZipLibrary.stdlib (library : ZipLibrary) : Stdlib where
  digestOf := library.digestOf
  zipFile blob := ((library.zipFile blob).mapError ZipError.raised).map
    (fun members => members.map (fun m => (m.1, m.2.mapError ZipError.raised)))

variable (library : ZipLibrary)

/-- The checksum names the file of the key, with the digest of these bytes. -/
def Verified (archiveKey : String) (bytes blob : ByteArray) : Prop :=
  ∃ text digest, decode bytes = .ok text ∧ verify library.digestOf blob text (filenameOf archiveKey) = .ok digest

/-- The archive, or the one member it holds, raises an error that `_DATA_ERRORS` does not name. -/
def Uncaught (blob : ByteArray) : Prop :=
  ∃ e, e ≠ ZipError.badZipFile ∧ (library.zipFile blob = .error e ∨ ∃ name, library.zipFile blob = .ok [(name, .error e)])

theorem bind_error_iff {ε α β : Type} {x : Except ε α} {f : α → Except ε β} {e : ε} :
    x >>= f = .error e ↔ x = .error e ∨ ∃ a, x = .ok a ∧ f a = .error e := by
  cases x with
  | error e' =>
    constructor
    · intro h
      cases h
      exact Or.inl rfl
    · rintro (h | ⟨a, h, -⟩)
      · cases h
        rfl
      · cases h
  | ok a =>
    constructor
    · exact fun h => Or.inr ⟨a, rfl, h⟩
    · rintro (h | ⟨a', h, hf⟩)
      · cases h
      · cases h
        exact hf

theorem mapError_data_ne_other {ε α : Type} (f : ε → DataError) (x : Except ε α) :
    x.mapError (fun e => Raised.data (f e)) ≠ .error .other := by
  cases x with
  | error e => exact fun h => by cases h
  | ok a => exact fun h => by cases h

theorem decode_ne_other (bytes : ByteArray) : decode bytes ≠ .error .other := by
  unfold decode
  split
  · exact fun h => by cases h
  · exact fun h => by cases h

theorem raised_eq_other_iff {e : ZipError} : e.raised = .other ↔ e ≠ .badZipFile := by
  cases e <;> decide

theorem stdlib_error {blob : ByteArray} {e : ZipError} (h : library.zipFile blob = .error e) :
    library.stdlib.zipFile blob = .error e.raised := by
  unfold ZipLibrary.stdlib
  simp only [h]
  rfl

theorem stdlib_ok {blob : ByteArray} {members : List (String × Except ZipError ByteArray)}
    (h : library.zipFile blob = .ok members) : library.stdlib.zipFile blob =
      .ok (members.map (fun m => (m.1, m.2.mapError ZipError.raised))) := by
  unfold ZipLibrary.stdlib
  simp only [h]
  rfl

/-- **What the unzip leaves uncaught.** -/
theorem soleMemberLines_other_iff (blob : ByteArray) :
    soleMemberLines library.stdlib blob = .error .other ↔ Uncaught library blob := by
  unfold soleMemberLines Uncaught
  cases hzip : library.zipFile blob with
  | error e =>
    rw [stdlib_error library hzip]
    constructor
    · intro h
      have hraised : e.raised = .other := Except.error.inj h
      exact ⟨e, raised_eq_other_iff.1 hraised, Or.inl rfl⟩
    · rintro ⟨e', hne, h | ⟨name, h⟩⟩
      · cases h
        exact congrArg Except.error (raised_eq_other_iff.2 hne)
      · cases h
  | ok members =>
    rw [stdlib_ok library hzip]
    match members with
    | [] => exact iff_of_false (fun h => by cases h) (by rintro ⟨e, -, h | ⟨name, h⟩⟩ <;> cases h)
    | [(name, .error e)] =>
      constructor
      · intro h
        have hraised : e.raised = .other := Except.error.inj h
        exact ⟨e, raised_eq_other_iff.1 hraised, Or.inr ⟨name, rfl⟩⟩
      · rintro ⟨e', hne, h | ⟨name', h⟩⟩
        · cases h
        · cases h
          exact congrArg Except.error (raised_eq_other_iff.2 hne)
    | [(name, .ok content)] =>
      refine iff_of_false (fun h => ?_) (by rintro ⟨e, -, h | ⟨name, h⟩⟩ <;> cases h)
      have hdecode : (decode content >>= fun text =>
          pure ((Python.splitlines text.toList).map String.ofList)) = (.error .other : Except Raised (List String)) := h
      rcases bind_error_iff.1 hdecode with h | ⟨text, -, h⟩
      · exact decode_ne_other content h
      · cases h
    | m :: m' :: ms => exact iff_of_false (fun h => by cases h) (by rintro ⟨e, -, h | ⟨name, h⟩⟩ <;> cases h)

/-- An invocation returns an outcome unless what it raises is not caught. -/
theorem Loader.load_returns (loader : Loader) (item : WorkItem) (puts : List Put) :
    (∃ outcome, ((loader.load item).runFrom puts).1 = .ok outcome) ↔ loader.accept item ≠ .error .other := by
  rw [load_run]
  cases loader.accept item with
  | ok p => exact iff_of_true ⟨_, rfl⟩ (fun h => by cases h)
  | error e =>
    cases e with
    | archiveNotFound url => exact iff_of_true ⟨_, rfl⟩ (fun h => by cases h)
    | data error => exact iff_of_true ⟨_, rfl⟩ (fun h => by cases h)
    | other => exact iff_of_false (fun ⟨_, h⟩ => by cases h) (fun h => h rfl)

section Fetched

variable (gzip : Gzip) (fetch : String → Except Raised ByteArray) (item : WorkItem) {bytes blob : ByteArray}
  (hbytes : fetch (checksumUrlOf item.archiveKey) = .ok bytes) (hblob : fetch (urlOf item.archiveKey) = .ok blob)

include hbytes hblob

/-- **What an invocation leaves uncaught**, of the bytes it fetched. -/
theorem accept_other_iff : Loader.accept ⟨library.stdlib, gzip, fetch⟩ item = .error .other ↔
    Verified library item.archiveKey bytes blob ∧ Uncaught library blob := by
  unfold Loader.accept
  simp only [hbytes, hblob]
  constructor
  · intro h
    rcases bind_error_iff.1 h with h | ⟨text, htext, h⟩
    · exact absurd h (decode_ne_other bytes)
    rcases bind_error_iff.1 h with h | ⟨data, hdata, h⟩
    · cases h
    cases hdata
    rcases bind_error_iff.1 h with h | ⟨digest, hdigest, h⟩
    · exact absurd h (mapError_data_ne_other _ _)
    refine ⟨⟨text, digest, htext, Loader.mapError_ok hdigest⟩, ?_⟩
    rcases bind_error_iff.1 h with h | ⟨lines, -, h⟩
    · exact (soleMemberLines_other_iff library blob).1 h
    rcases bind_error_iff.1 h with h | ⟨staged, -, h⟩
    · exact absurd h (mapError_data_ne_other _ _)
    · cases h
  · rintro ⟨⟨text, digest, htext, hdigest⟩, huncaught⟩
    refine bind_error_iff.2 (Or.inr ⟨text, htext, ?_⟩)
    refine bind_error_iff.2 (Or.inr ⟨blob, rfl, ?_⟩)
    refine bind_error_iff.2 (Or.inr ⟨digest, ?_, ?_⟩)
    · exact congrArg (fun x => x.mapError (fun e => Raised.data (.checksum e))) hdigest
    · exact bind_error_iff.2 (Or.inl ((soleMemberLines_other_iff library blob).2 huncaught))

/-- **An invocation returns an outcome exactly when** the archive was not verified, or raises nothing but `BadZipFile`. -/
theorem load_returns_iff (puts : List Put) :
    (∃ outcome, ((Loader.load ⟨library.stdlib, gzip, fetch⟩ item).runFrom puts).1 = .ok outcome) ↔
      ¬ (Verified library item.archiveKey bytes blob ∧ Uncaught library blob) := by
  rw [Loader.load_returns]
  exact not_congr (accept_other_iff library gzip fetch item hbytes hblob)

end Fetched

/-! ## An encrypted member -/

/-- A zip of one empty member that is encrypted. -/
def encryptedZip : ByteArray := ⟨#[80, 75, 3, 4, 20, 0, 1, 0, 0, 0, 0, 0, 68, 89, 0, 0, 0, 0, 0, 0, 0, 0, 0, 0, 0, 0, 5, 0,
  0, 0, 97, 46, 99, 115, 118, 80, 75, 1, 2, 20, 3, 20, 0, 1, 0, 0, 0, 0, 0, 68, 89, 0, 0, 0, 0, 0, 0, 0, 0, 0, 0, 0, 0, 5, 0,
  0, 0, 0, 0, 0, 0, 0, 0, 0, 0, 128, 1, 0, 0, 0, 0, 97, 46, 99, 115, 118, 80, 75, 5, 6, 0, 0, 0, 0, 1, 0, 1, 0, 51, 0, 0, 0,
  35, 0, 0, 0, 0, 0]⟩

def encryptedDigest : String := "dd2af2c5d6b771b0c4cd07c5ad542bab1c02068580a3c30e5629f5ce35daabd6"

/-- Its one member is listed, and asks for a password when it is read. -/
def encryptedLibrary : ZipLibrary where
  digestOf _ := encryptedDigest
  zipFile _ := .ok [("a.csv", .error .runtime)]

def encryptedChecksum : ByteArray := (encryptedDigest ++ "  BTCUSDT-aggTrades-2024-10-04.zip\n").toUTF8

/-- The archive serves that zip and its checksum. -/
def encryptedFetch (url : String) : Except Raised ByteArray :=
  if url = urlOf octoberKey then .ok encryptedZip
  else if url = checksumUrlOf octoberKey then .ok encryptedChecksum
  else .error (.archiveNotFound url)

def octoberItem : WorkItem :=
  { tier := .hot, venue := "binance", instrumentId := "BTC-USD", venueSymbol := "BTCUSDT", granularity := .daily
    period := "2024-10-04", dt := 20000, archiveKey := octoberKey
    stagingKey := "archive_staging_trades/BTC-USD-2024-10-04.csv.gz" }

theorem load_returns_iff_encrypted :
    (∃ outcome, ((Loader.load ⟨encryptedLibrary.stdlib, memberGzip, encryptedFetch⟩ octoberItem).runFrom []).1 = .ok outcome) ↔
      ¬ (Verified encryptedLibrary octoberKey encryptedChecksum encryptedZip ∧ Uncaught encryptedLibrary encryptedZip) :=
  load_returns_iff encryptedLibrary memberGzip encryptedFetch octoberItem (by decide +kernel) (by decide +kernel) []

theorem encrypted_zip_raises : encryptedFetch (checksumUrlOf octoberKey) = .ok encryptedChecksum ∧
    encryptedFetch (urlOf octoberKey) = .ok encryptedZip ∧
    ((Loader.load ⟨encryptedLibrary.stdlib, memberGzip, encryptedFetch⟩ octoberItem).runFrom []).1 = .error .other := by
  decide +kernel

end Backfill
