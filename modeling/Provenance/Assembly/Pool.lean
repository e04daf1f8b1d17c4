import Provenance.Assembly.Query

/-!
Contract: the optional facts, asked side by side.

Owns:
- `Step` and `Pool`, a pool of workers as a machine that a schedule drives;
- `collect`, the facts of a pool that has come to rest.

Does **not** own: what a query does.

## The rules of the pool

A worker that is free starts any query that waits; a running one ends at any
later step.  Whoever waits for the pool takes note of the ends one by one, in any
order.  The first fatal end that is noted, or the deadline while some end has not
been noted, closes the pool: nothing starts afterwards, and the reason is the
verdict.  A schedule names the steps, so every interleaving is a value that laws
can quantify over.  Steps that are impossible change nothing.
-/

set_option autoImplicit false

namespace Provenance.Assembly.Pool

open World (Timekeeping)

/-- What can happen next. -/
inductive Step where
  | start (query : Query)
  | finish (query : Query)
  | note (query : Query)
  | expire
  deriving DecidableEq, Repr

/-- The order in which things happen. -/
abbrev Schedule := List Step

/-- The schedule of one query after another, with the deadline at the end. -/
def Schedule.inOrder : Schedule :=
  Query.all.flatMap (fun query => [.start query, .finish query, .note query]) ++ [.expire]

/-- The schedule in which every query starts before one ends. -/
def Schedule.startFirst : Schedule :=
  Query.all.map .start ++ Query.all.map .finish ++ Query.all.map .note ++ [.expire]

/-- A pool of workers. -/
structure State where
  waiting : List Query := Query.all
  /-- The queries that run, each with the outcome it will have. -/
  running : List (Query × Outcome) := []
  /-- The queries that have ended, with their outcomes. -/
  ended : List (Query × Outcome) := []
  /-- The queries whose ends have been noted, in order. -/
  noted : List Query := []
  /-- Every query that has been started, in order. -/
  started : List Query := []
  /-- Why the pool is closed. -/
  verdict : Option Failure := none
  deriving Repr

namespace State

/-- Whether the end of every query has been noted. -/
def isComplete (state : State) : Bool :=
  Query.all.all state.noted.contains

/-- Whether nothing further is taken from the pool. -/
def isClosed (state : State) : Bool :=
  state.verdict.isSome

/-- Whether the pool is no longer waited for. -/
def isSettled (state : State) : Bool :=
  state.isClosed || state.isComplete

def outcome? (state : State) (query : Query) : Option Outcome :=
  state.ended.lookup query

def mayStart (state : State) (workers : Nat) (query : Query) : Bool :=
  state.waiting.contains query && !state.isClosed && decide (state.running.length < workers)

def start (state : State) (query : Query) (outcome : Outcome) : State :=
  { state with
    waiting := state.waiting.erase query
    running := state.running ++ [(query, outcome)]
    started := state.started ++ [query] }

def finish (state : State) (query : Query) : State :=
  match state.running.lookup query with
  | none => state
  | some .unfinished => state
  | some outcome =>
    { state with
      running := state.running.filter fun (other, _) => other ≠ query
      ended := state.ended ++ [(query, outcome)] }

/-- The end of a query is noted.  A fatal end closes the pool. -/
def note (state : State) (query : Query) : State :=
  if state.isSettled || state.noted.contains query then state
  else
    match state.outcome? query with
    | none => state
    | some (.fatal failure) =>
      { state with noted := state.noted ++ [query], verdict := some failure }
    | some _ => { state with noted := state.noted ++ [query] }

/-- The deadline has expired.  A pool that is still waited for is closed. -/
def expire (state : State) : State :=
  if state.isSettled then state else { state with verdict := some deadlineExceeded }

end State

section Running

variable {Time : Type}

/-- One step of a pool.  A query has its effects when it starts. -/
def advance (workers : Nat) (hasDeadline : Bool) (ask : Query → Program Time Finding)
    (state : State) : Step → Program Time State
  | .start query =>
    if state.mayStart workers query then do
      let outcome ← outcomeOf ask query
      pure (state.start query outcome)
    else
      pure state
  | .finish query => pure (state.finish query)
  | .note query => pure (state.note query)
  | .expire => pure (if hasDeadline then state.expire else state)

def run (workers : Nat) (hasDeadline : Bool) (ask : Query → Program Time Finding) :
    State → Schedule → Program Time State
  | state, [] => pure state
  | state, step :: rest => do
    let state ← advance workers hasDeadline ask state step
    run workers hasDeadline ask state rest

/-- The outcomes of a complete pool in the order of the queries. -/
def State.outcomes (state : State) : List (Query × Outcome) :=
  Query.all.filterMap fun query => (state.outcome? query).map fun outcome => (query, outcome)

/-- What a pool has come to: a closed one to its verdict, a complete one to its facts.  One that is
still waited for has come to nothing yet. -/
def State.result (state : State) : Except Failure (Option Facts) :=
  match state.verdict with
  | some failure => .error failure
  | none => .ok (if state.isComplete then some (Facts.ofOutcomes state.outcomes) else none)

def collect (workers : Nat) (hasDeadline : Bool) (ask : Query → Program Time Finding)
    (schedule : Schedule) : Program Time (Option Facts) := do
  let state ← run workers hasDeadline ask {} schedule
  match state.result with
  | .error failure => Program.fail failure
  | .ok facts => pure facts

end Running
end Provenance.Assembly.Pool
