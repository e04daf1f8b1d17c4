/-!
Contract: the problems that the program itself reports.

Owns:
- `GitProblem`, the closed family of problems with version control, its
  refinement order, headlines and exit codes;
- `Problem`, one occurrence with its message.

Does **not** own: faults of the file system or of a value's kind, which
`Provenance.Failure.Fault` lists.
-/

set_option autoImplicit false

namespace Provenance.Failure

namespace ExitCode

def success : Nat := 0

def generalError : Nat := 1

def usageError : Nat := 2

def notARepository : Nat := 64

def gitNotFound : Nat := 65

def permissionDenied : Nat := 67

def timedOut : Nat := 68

def badPath : Nat := 69

def badData : Nat := 70

def partialSuccess : Nat := 71

def interrupted : Nat := 130

end ExitCode

/-- The fields of a record whose absence is tolerated and reported. -/
inductive GapField where
  | remoteUrl
  | hash
  | shortHash
  | branch
  deriving DecidableEq, Repr

def GapField.name : GapField → String
  | .remoteUrl => "remote_url"
  | .hash => "hash"
  | .shortHash => "short_hash"
  | .branch => "branch"

/-- What can go wrong with version control. -/
inductive GitProblem where
  | general
  | noBinary
  | notARepository
  | noBaseDirectory
  | timeout
  | relativePath
  | outsideRepository
  | detection
  | gap (field : GapField)
  | remoteUrl
  deriving DecidableEq, Repr

namespace GitProblem

def name : GitProblem → String
  | .general => "GitMetaError"
  | .noBinary => "NoGitBinaryError"
  | .notARepository => "NotAGitDirError"
  | .noBaseDirectory => "GitBaseDirError"
  | .timeout => "GitTimeoutError"
  | .relativePath => "RelativePathError"
  | .outsideRepository => "NonRelativePathError"
  | .detection => "DetectionError"
  | .gap .remoteUrl => "CouldNotDetectRemoteError"
  | .gap .hash => "CouldNotDetectHashError"
  | .gap .shortHash => "CouldNotDetectShortHashError"
  | .gap .branch => "CouldNotDetectBranchError"
  | .remoteUrl => "RemoteURLParseError"

def all : List GitProblem :=
  [
    .general, .noBinary, .notARepository, .noBaseDirectory, .timeout, .relativePath,
    .outsideRepository, .detection, .gap .remoteUrl, .gap .hash, .gap .shortHash, .gap .branch,
    .remoteUrl
  ]

/-- What a problem says when nothing else is said. -/
def headline : GitProblem → String
  | .general => "git metadata error"
  | .noBinary => "No git binary found"
  | .notARepository => "Not a git directory"
  | .noBaseDirectory => "Could not detect git base dir"
  | .timeout => "Git command timed out"
  | .relativePath => "Could not compute path relative to git base dir"
  | .outsideRepository => "unexpected non-relative path within git dir"
  | .detection => "git metadata error"
  | .gap .remoteUrl => "Could not auto-detect or parse Git remote URL"
  | .gap .hash => "Could not auto-detect or parse Git hash"
  | .gap .shortHash => "Could not auto-detect or parse Git short hash"
  | .gap .branch => "Could not auto-detect or parse Git branch"
  | .remoteUrl => "Could not parse Git remote URL"

def exitCode : GitProblem → Nat
  | .general => ExitCode.generalError
  | .noBinary => ExitCode.gitNotFound
  | .notARepository => ExitCode.notARepository
  | .noBaseDirectory => ExitCode.notARepository
  | .timeout => ExitCode.timedOut
  | .relativePath => ExitCode.badPath
  | .outsideRepository => ExitCode.badPath
  | .detection => ExitCode.partialSuccess
  | .gap _ => ExitCode.partialSuccess
  | .remoteUrl => ExitCode.badData

/-- The problems that a problem is a case of, itself first. -/
def ancestry : GitProblem → List GitProblem
  | .general => [.general]
  | .outsideRepository => [.outsideRepository, .relativePath, .general]
  | .gap field => [.gap field, .detection, .general]
  | other => [other, .general]

/-- The field a detection problem is about; the general one names none. -/
def fieldName? : GitProblem → Option String
  | .detection => some ""
  | .gap field => some field.name
  | _ => none

end GitProblem

/-- A problem as it occurred. -/
inductive Problem where
  /-- A message with an exit code of its own. -/
  | plain (message : String) (exitCode : Int)
  /-- A record was made in which some fields are missing. -/
  | partialSuccess (message : String) (missing : List String)
  /-- A problem with version control; an empty headline or detail counts as none. -/
  | git (kind : GitProblem) (headline : Option String) (detail : Option String)
  deriving DecidableEq, Repr

namespace Problem

/-- A problem with version control in its standard words. -/
def ofDetail (kind : GitProblem) (detail : String) : Problem :=
  .git kind none (some detail)

/-- A given text that counts: absent and empty texts do not. -/
def given? : Option String → Option String
  | some "" => none
  | other => other

def message : Problem → String
  | .plain message _ => message
  | .partialSuccess message _ => message
  | .git kind headline detail =>
    let head := (given? headline).getD kind.headline
    match given? detail with
    | some text => head ++ ": " ++ text
    | none => head

def name : Problem → String
  | .plain .. => "CommandError"
  | .partialSuccess .. => "PartialSuccessError"
  | .git kind _ _ => kind.name

def exitCode : Problem → Int
  | .plain _ code => code
  | .partialSuccess .. => ExitCode.partialSuccess
  | .git kind _ _ => kind.exitCode

/-- The names of the kinds that a problem belongs to, the narrowest first. -/
def ancestry : Problem → List String
  | .plain .. => ["CommandError"]
  | .partialSuccess .. => ["PartialSuccessError", "CommandError"]
  | .git kind _ _ => kind.ancestry.map GitProblem.name ++ ["CommandError"]

def detail? : Problem → Option String
  | .git _ _ detail => detail
  | _ => none

/-- The missing fields, where a problem lists them. -/
def missing? : Problem → Option (List String)
  | .partialSuccess _ missing => some missing
  | _ => none

def fieldName? : Problem → Option String
  | .git kind _ _ => kind.fieldName?
  | _ => none

/-- Whether a problem only leaves a gap in a record. -/
def isGap : Problem → Bool
  | .git .detection _ _ => true
  | .git (.gap _) _ _ => true
  | _ => false

end Problem
end Provenance.Failure
