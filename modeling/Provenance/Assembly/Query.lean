import Provenance.Git.Client
import Provenance.Record

/-!
Contract: the optional facts of a record.

Owns:
- `Query`, the six facts, in their order;
- `Finding` and `Outcome`, what asking for one can come to;
- `Facts.ofOutcomes`, the facts and gaps of all outcomes.

Does **not** own: whether the queries run one by one or side by side.

## Why outcomes are values

A gap in a record is reported after all queries, in their order, whatever order
they ran in.  So each query's outcome is kept as a value, and one function turns
the six outcomes into facts and gaps.
-/

set_option autoImplicit false

namespace Provenance.Assembly

open Failure (Problem)
open World (Timekeeping)

/-- The optional facts of a record, in the order in which they are asked. -/
inductive Query where
  | remoteUrl
  | hash
  | shortHash
  | branch
  | tags
  | timestamp
  deriving DecidableEq, Repr

namespace Query

/-- Every query, in order. -/
def all : List Query :=
  [.remoteUrl, .hash, .shortHash, .branch, .tags, .timestamp]

/-- Whether a gap in the answer is reported: a commit without tags is common. -/
def reportsGap : Query → Bool
  | .tags => false
  | _ => true

end Query

/-- What a query finds: one text or several. -/
inductive Finding where
  | line (text : String)
  | list (texts : List String)
  deriving DecidableEq, Repr

namespace Finding

def text : Finding → String
  | .line text => text
  | .list _ => ""

def texts : Finding → List String
  | .line _ => []
  | .list texts => texts

/-- What stands in for a finding where there is a gap. -/
def fallback : Query → Finding
  | .branch => .list []
  | .tags => .list []
  | .timestamp => .line "0"
  | _ => .line ""

end Finding

/-- What asking can come to. -/
inductive Outcome where
  | found (finding : Finding)
  /-- The fact could not be found out, which leaves a gap. -/
  | gap (problem : Problem)
  | fatal (failure : Failure)
  | unfinished
  deriving DecidableEq, Repr

namespace Outcome

def ofResult : Except Failure Finding → Outcome
  | .ok finding => .found finding
  | .error (.fault .unfinished) => .unfinished
  | .error (.problem problem) =>
    if problem.isGap then .gap problem else .fatal (.problem problem)
  | .error failure => .fatal failure

end Outcome

/-- The message of a run that has no time left. -/
def deadlineDetail : String := "overall deadline exceeded"

/-- The failure of a run that has no time left. -/
def deadlineExceeded : Failure :=
  Failure.git .timeout deadlineDetail

section Asking

variable {Time : Type} [Timekeeping Time]

/-- What is left until a deadline; without one there is no limit. -/
def remaining (deadline : Option Time) : Program Time (Option Time) :=
  match deadline with
  | none => pure none
  | some deadline => do
    let world ← Program.world
    let left ← Program.ofFault (Timekeeping.sub deadline world.clock)
    if ← Program.ofFault (Timekeeping.isSpent left) then
      Program.fail deadlineExceeded
    else
      pure (some left)

/-- Asks for a fact within what is left until a deadline. -/
def ask (client : Git.Client Time) (remote : Data.Value) (directory : String)
    (deadline : Option Time) (query : Query) : Program Time Finding := do
  let left ← remaining deadline
  match query with
  | .remoteUrl => .line <$> client.remoteUrl remote directory left
  | .hash => .line <$> client.commitHash directory left
  | .shortHash => .line <$> client.shortCommitHash directory left
  | .branch => .list <$> client.currentBranches directory left
  | .tags => .list <$> client.tagsAtHead directory left
  | .timestamp => .line <$> client.commitTimestamp directory left

def outcomeOf (ask : Query → Program Time Finding) (query : Query) : Program Time Outcome := do
  let result ← Program.attempt (ask query)
  pure (.ofResult result)

end Asking

/-- The optional facts of a record, and the gaps among them in order. -/
structure Facts where
  remoteUrl : String := ""
  hash : String := ""
  shortHash : String := ""
  branch : List String := []
  tags : List String := []
  timestamp : String := "0"
  gaps : List Problem := []
  deriving DecidableEq, Repr

namespace Facts

def set (facts : Facts) (query : Query) (finding : Finding) : Facts :=
  match query with
  | .remoteUrl => { facts with remoteUrl := finding.text }
  | .hash => { facts with hash := finding.text }
  | .shortHash => { facts with shortHash := finding.text }
  | .branch => { facts with branch := finding.texts }
  | .tags => { facts with tags := finding.texts }
  | .timestamp => { facts with timestamp := finding.text }

/-- The facts after one more outcome: a gap leaves the fallback and is reported if it must be. -/
def add (facts : Facts) (query : Query) (outcome : Outcome) : Facts :=
  match outcome with
  | .found finding => facts.set query finding
  | .gap problem =>
    let facts := facts.set query (.fallback query)
    if query.reportsGap then { facts with gaps := facts.gaps ++ [problem] } else facts
  | _ => facts

def ofOutcomes (outcomes : List (Query × Outcome)) : Facts :=
  outcomes.foldl (fun facts (query, outcome) => facts.add query outcome) {}

/-- The record that facts amount to at a location. -/
def toRecord (facts : Facts) (baseDir relDir gitUrl : String) : Record :=
  {
    baseDir := baseDir
    relDir := relDir
    remoteUrl := facts.remoteUrl
    gitUrl := gitUrl
    hash := facts.hash
    shortHash := facts.shortHash
    branch := facts.branch
    tags := facts.tags
    timestamp := facts.timestamp
  }

end Facts
end Provenance.Assembly
