import RealtimeFinance.Python.Text
/-!
# Checksum — `awsnative.backfill.checksum`

An archive file is taken only when its bytes have the digest that its `.CHECKSUM` names it with.
-/
namespace Backfill

inductive ChecksumError
  | empty
  | expectedFields (text : String)
  | digestLength (chars : Nat)
  | notHexadecimal (digest : String)
  | otherFile (named expected : String)
  | digestMismatch (filename expected actual : String) (bytes : Nat)
  deriving DecidableEq

structure Checksum where
  sha256 : String
  filename : String

def sha256HexLength : Nat := 64

/-- One line of `sha256sum`. -/
def parseChecksum (text : String) : Except ChecksumError Checksum :=
  let stripped := Python.strip text.toList
  match Python.split stripped with
  | [digest, filename] =>
    if digest.length ≠ sha256HexLength then .error (.digestLength digest.length)
    else if Python.isHexadecimal digest then
      .ok { sha256 := String.ofList (digest.map Char.toLower), filename := String.ofList filename }
    else .error (.notHexadecimal (String.ofList digest))
  | _ => .error (if stripped.isEmpty then .empty else .expectedFields (String.ofList stripped))

/-- `verify`, `digestOf` the SHA-256 in hexadecimal. -/
def verify (digestOf : ByteArray → String) (data : ByteArray) (checksumText expectedFilename : String) :
    Except ChecksumError String := do
  let expected ← parseChecksum checksumText
  if expected.filename ≠ expectedFilename then .error (.otherFile expected.filename expectedFilename)
  else if digestOf data ≠ expected.sha256 then
    .error (.digestMismatch expectedFilename expected.sha256 (digestOf data) data.size)
  else return digestOf data

end Backfill
