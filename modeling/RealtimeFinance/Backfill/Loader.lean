import RealtimeFinance.Backfill.Manifest
import RealtimeFinance.Backfill.Staging
/-!
# Loader — `awsnative.backfill.loader`

One archive file is fetched, verified, parsed and staged, or nothing of it is.  A bad file becomes an outcome; anything
else an invocation raises is its failure (`none`).  The archive's objects never change; a request for one may still find
it unpublished, or fail.
-/
namespace Backfill

/-- What an invocation can raise, as `load` tells it apart. -/
inductive Raised
  | archiveNotFound (url : String)
  | data (error : DataError)
  | other
  deriving DecidableEq

/-- What the loader uses of `hashlib` and `zipfile`: a digest, and a zip's members as they are read. -/
structure Stdlib where
  digestOf : ByteArray → String
  zipFile : ByteArray → Except Raised (List (String × Except Raised ByteArray))

inductive Answer
  | served
  | notFound
  | unreachable

abbrev Archive := String → Option ByteArray

/-- `_http_fetch`. -/
def fetch (archive : Archive) (answer : String → Answer) (url : String) : Except Raised ByteArray :=
  match answer url, archive url with
  | .served, some bytes => .ok bytes
  | .unreachable, _     => .error .other
  | _, _                => .error (.archiveNotFound url)

/-- `bytes.decode()`. -/
def decode (bytes : ByteArray) : Except Raised String :=
  match String.fromUTF8? bytes with
  | some text => .ok text
  | none      => .error (.data .unicodeDecode)

variable (lib : Stdlib) (archive : Archive)

def soleMemberLines (blob : ByteArray) : Except Raised (List String) := do
  match ← lib.zipFile blob with
  | [(_, bytes)] => return (Python.splitlines (← decode (← bytes)).toList).map String.ofList
  | members      => .error (.data (.members (members.map Prod.fst)))

/-- `_stage`: the lines of the staging object, and how many rows they are. -/
def stage (tier : Tier) (instrumentId venueSymbol : String) (lines : List String) :
    Except ParseError (List String × Nat) :=
  match tier with
  | .deep => (parseKlines lines).map (fun bars => (klinesCsv instrumentId bars, bars.length))
  | .hot  => (parseAggTrades lines).map (fun trades => (tradesCsv instrumentId venueSymbol trades, trades.length))

/-- The first half of `_load`: the digest of the file, and its lines. -/
def readFile (answer : String → Answer) (archiveKey : String) : Except Raised (String × List String) := do
  let checksumText ← decode (← fetch archive answer (checksumUrlOf archiveKey))
  let blob ← fetch archive answer (urlOf archiveKey)
  let digest ← (verify lib.digestOf blob checksumText (filenameOf archiveKey)).mapError (fun e => .data (.checksum e))
  return (digest, ← soleMemberLines lib blob)

/-- `_load`: the body that is put, and the outcome. -/
def loadItem (answer : String → Answer) (item : WorkItem) : Except Raised (List String × Outcome) := do
  let (digest, lines) ← readFile lib archive answer item.archiveKey
  let (body, rowCount) ← (stage item.tier item.instrumentId item.venueSymbol lines).mapError (fun e => .data (.parse e))
  return (body, .ofDone item.archiveKey digest rowCount)

/-- The objects of the lake's bucket. -/
abbrev Objects := List (String × List String)

def Objects.put (objects : Objects) (key : String) (body : List String) : Objects :=
  (key, body) :: objects.filter (fun o => decide (o.1 ≠ key))

/-- The key is under `prefix/`. -/
def under (directory key : String) : Bool := (directory ++ "/").toList.isPrefixOf key.toList

def Objects.clearStaging (objects : Objects) : Objects :=
  objects.filter (fun o => !under (stagingPrefixes .deep) o.1 && !under (stagingPrefixes .hot) o.1)

/-- The lines an external table of the tier reads. -/
def Objects.staged (objects : Objects) (tier : Tier) : List String :=
  (objects.filter (fun o => under (stagingPrefixes tier) o.1)).flatMap Prod.snd

/-- `load`: the bucket after it, and the outcome; none where it raises. -/
def load (answer : String → Answer) (item : WorkItem) (objects : Objects) : Option (Objects × Outcome) :=
  match loadItem lib archive answer item with
  | .ok (body, outcome)            => some (objects.put item.stagingKey body, outcome)
  | .error (.archiveNotFound url)  =>
    some (objects, .ofSkippedNoData item.archiveKey (.archiveNotFound url))
  | .error (.data error)           => some (objects, .ofFailed item.archiveKey (.data error))
  | .error .other                  => none

theorem load_ok {answer : String → Answer} {item : WorkItem} {digest : String} {lines body : List String} {rowCount : Nat}
    (hread : readFile lib archive answer item.archiveKey = .ok (digest, lines))
    (hstage : stage item.tier item.instrumentId item.venueSymbol lines = .ok (body, rowCount)) (objects : Objects) :
    load lib archive answer item objects =
      some (objects.put item.stagingKey body, .ofDone item.archiveKey digest rowCount) := by
  have hitem : loadItem lib archive answer item = .ok (body, .ofDone item.archiveKey digest rowCount) := by
    unfold loadItem
    rw [hread]
    show (Except.mapError _ (stage item.tier item.instrumentId item.venueSymbol lines) >>= _) = _
    rw [hstage]
    rfl
  unfold load
  rw [hitem]

end Backfill
