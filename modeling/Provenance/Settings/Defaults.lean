import Provenance.Data.Value

/-!
Contract: the settings that hold when nothing else is said.

Owns: `defaults`.

Does **not** own: files and variables that replace them.
-/

set_option autoImplicit false

namespace Provenance.Settings

open Data (Value Entries Scalar)

/-- Where version control is found and how long it may take. -/
def gitSection : List (String × Value) :=
  [
    ("binary", .text "git"),
    ("remote", .text "origin"),
    ("timeout_seconds", .int 30),
    ("short_hash_length", .int 8),
    ("parallel_queries", .int 1),
    ("deadline_seconds", .int 0)
  ]

/-- Which log records are shown, and how. -/
def loggingSection : List (String × Value) :=
  [("level", .text "WARNING"), ("format", .text "%(levelname)s: %(message)s")]

def outputSection : List (String × Value) :=
  [("format", .text "jsonl")]

def defaults : Value :=
  .record [
    ("git", .record gitSection),
    ("logging", .record loggingSection),
    ("output", .record outputSection)
  ]

end Provenance.Settings
