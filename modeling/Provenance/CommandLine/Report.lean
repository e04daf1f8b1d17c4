import Provenance.CommandLine.UsageError
import Provenance.Output.Format
import Provenance.Progress

/-!
Contract: how a command that produces records ends.

Owns:
- `Production`, the records that a command makes one after another, and how they end;
- `Production.stream` and `Production.gather`, the two ways in which a format takes them;
- `Production.publish`, which prints them, and `conclude`, the exit code of a run and what is said of
  its failure.

Does **not** own: which records a command produces.

## Records before a problem

A production may break off at any place.  Lines are printed while it goes on, and what breaks it off
then ends the printing with it.  A format of the whole list has to gather the records first: there a
problem is put off until they have been printed, while any other failure is passed on at once.

## Two streams

Records and the one object that describes a failure go to standard output, and
words for a reader go to standard error.  A quiet run leaves standard output
alone and is otherwise the same.
-/

set_option autoImplicit false

namespace Provenance.CommandLine

open Data (Value)
open Failure (Fault Problem)

/-- What a command makes, one record after another. -/
inductive Production where
  | ends
  /-- Something goes wrong where the next record should be made. -/
  | breaksOff (failure : Failure)
  | yields (record : Value) (rest : Production)

/-- Some records, and perhaps a problem after them. -/
def Production.of (records : List Value) (problem : Option Problem) : Production :=
  records.foldr .yields (problem.elim .ends fun problem => .breaksOff (.problem problem))

/-- What a command leaves to be done. -/
inductive Result where
  /-- Nothing: the command has printed what there was. -/
  | done
  | report (produced : Production)
  | misuse (error : UsageError)

def problemObject (problem : Problem) : Value :=
  .record <|
    [
      ("error", .text problem.message),
      ("type", .text problem.name),
      ("exit_code", .int problem.exitCode)
    ] ++ (problem.missing?.map fun missing => ("missing", .texts missing)).toList

def faultObject [Text.DigitLimit] (fault : Fault) : Value :=
  .record [("error", .text fault.message), ("type", .text fault.className)]

/-- Whether a fault ends a command in good order. -/
def isReported (fault : Fault) : Bool :=
  fault.isRefusal || fault.isBadData || fault.isWrongKind

section Programs

variable {Time : Type} [Text.DigitLimit]

def printObject (object : Value) : Program Time Unit := do
  let line ← Program.ofFault (Json.write .line object)
  Program.printLine line

namespace Production

/-- Makes the records for what goes wrong with them. -/
def consume : Production → Program Time Unit
  | .ends => pure ()
  | .breaksOff failure => Program.fail failure
  | .yields _ rest => rest.consume

/-- Prints each record as soon as it is made.  What breaks the production off ends the printing. -/
def stream : Production → Program Time Unit
  | .ends => pure ()
  | .breaksOff failure => Program.fail failure
  | .yields record rest => do
    printObject record
    rest.stream

/-- The records that are made, with the problem that is put off; no other failure is. -/
def gather : Production → Except Failure (List Value × Option Problem)
  | .ends => .ok ([], none)
  | .breaksOff (.problem problem) => .ok ([], some problem)
  | .breaksOff failure => .error failure
  | .yields record rest => rest.gather.map fun (records, deferred) => (record :: records, deferred)

end Production

/-- Whether a format prints each record as soon as it is made. -/
def isStreamed (format : Value) : Bool :=
  match Output.Format.ofValue format with
  | .ok .jsonl => true
  | _ => false

/-- Prints records that have all been made. -/
def printRecords (format : Value) (records : List Value) : Program Time Unit := do
  let format ← Program.ofFault (Output.Format.ofValue format)
  let chunks ← Program.ofFault (format.chunks records none)
  chunks.forM Program.printLine

/-- Prints the records as the format takes them, unless the run is quiet.  A problem that was put off
then ends the printing after all. -/
def Production.publish (produced : Production) (quiet : Bool) (format : Value) :
    Program Time Unit :=
  if quiet then
    produced.consume
  else if isStreamed format then
    produced.stream
  else do
    let (records, deferred) ← Program.ofResult produced.gather
    printRecords format records
    match deferred with
    | some problem => Program.fail (.problem problem)
    | none => pure ()

/-- Reports that the words of a command line are wrong. -/
def reportMisuse (error : UsageError) : Program Time Int := do
  Program.record (.reported error.text)
  pure Failure.ExitCode.usageError

namespace Result

/-- Does what a command has left to be done, and gives the exit code. -/
def finish (result : Result) (quiet : Bool) (format : Value) : Program Time Int :=
  match result with
  | .done => pure Failure.ExitCode.success
  | .misuse error => reportMisuse error
  | .report produced => do
    produced.publish quiet format
    pure Failure.ExitCode.success

end Result

/-- Says of a failure what is to be said, and gives the exit code.

An interrupted run produces no object.  A fault that does not end a command in
good order is left as it is. -/
def explain (progress : Progress) (quiet : Bool) (failure : Failure) : Program Time Int :=
  match failure with
  | .problem problem => do
    progress.complain problem.message
    if !quiet then
      printObject (problemObject problem)
    pure problem.exitCode
  | .fault .interrupted => do
    progress.complain "Interrupted by user"
    pure Failure.ExitCode.interrupted
  | .fault fault =>
    if isReported fault then do
      progress.complain ("Command failed: " ++ fault.message)
      if !quiet then
        printObject (faultObject fault)
      pure failure.exitCode
    else
      Program.fail failure

def conclude (progress : Progress) (quiet : Bool) (format : Value)
    (command : Program Time Result) : Program Time Int := do
  let outcome ← Program.attempt do
    let result ← command
    result.finish quiet format
  match outcome with
  | .ok code => pure code
  | .error failure => explain progress quiet failure

end Programs
end Provenance.CommandLine
