import Provenance.Json.Writer

/-!
Contract: the record of where a directory lives in version control.

Owns:
- `Record` and its reduced form `located`;
- `gaps`, the optional fields that are empty;
- `toValue`, `jsonLine` and `summary`, the three ways it is shown.

Does **not** own: how a record is found out.
-/

set_option autoImplicit false

namespace Provenance

open Data (Value)
open Failure (GapField)

/-- Where a directory lives in version control. -/
structure Record where
  baseDir : String := ""
  /-- The directory's path below the root, `.` for the root itself. -/
  relDir : String := ""
  remoteUrl : String := ""
  gitUrl : String := ""
  hash : String := ""
  shortHash : String := ""
  branch : List String := []
  tags : List String := []
  /-- The time of the commit, in seconds. -/
  timestamp : String := ""
  deriving DecidableEq, Repr

namespace Record

/-- The record with only the fields that identify the location. -/
def located (record : Record) : Record :=
  {
    baseDir := record.baseDir
    relDir := record.relDir
    gitUrl := record.gitUrl
    hash := record.hash
    branch := record.branch
  }

def lacks (record : Record) : GapField → Bool
  | .remoteUrl => record.remoteUrl.isEmpty
  | .hash => record.hash.isEmpty
  | .shortHash => record.shortHash.isEmpty
  | .branch => record.branch.isEmpty

def gaps (record : Record) : List GapField :=
  [.remoteUrl, .hash, .shortHash, .branch].filter record.lacks

/-- The names of the optional fields that are empty. -/
def missingFields (record : Record) : List String :=
  record.gaps.map GapField.name

/-- The fields by name, in order. -/
def fields (record : Record) : List (String × Value) :=
  [
    ("base_dir", .text record.baseDir),
    ("rel_dir", .text record.relDir),
    ("remote_url", .text record.remoteUrl),
    ("git_url", .text record.gitUrl),
    ("hash", .text record.hash),
    ("short_hash", .text record.shortHash),
    ("branch", .texts record.branch),
    ("tags", .texts record.tags),
    ("timestamp", .text record.timestamp)
  ]

def toValue (record : Record) : Value :=
  .record record.fields

def jsonLine [Text.DigitLimit] (record : Record) : String :=
  String.ofList (Json.draft .line record.toValue).text

def firstGiven (preferred other : String) : String :=
  if preferred.isEmpty then other else preferred

/-- The record in a few words: location, directory and revision. -/
def summary (record : Record) : String :=
  firstGiven record.gitUrl record.baseDir ++ " (" ++ record.relDir ++ "@" ++
    firstGiven record.shortHash (firstGiven record.hash "unknown") ++ ")"

end Record
end Provenance
