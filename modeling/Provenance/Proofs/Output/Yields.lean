import Provenance.Output.Format

/-!
Contract: what a format has made of its records when it stops.

Owns:
- `Yielded`, the texts that have been made and what has stopped the making;
- `Format.yields`: the line format makes one text a record, and any other format makes all or none;
- `Format.result_yields`: where nothing stops it, a format has made all of its texts.

Does **not** own: what a text is read as, and where it is printed.
-/

set_option autoImplicit false

namespace Provenance.Output

open Data (Scalar Value)
open Failure (Fault)

/-- The texts that have been made of some records, and what has stopped the making. -/
structure Yielded where
  texts : List String
  stopped : Option Fault

namespace Yielded

/-- All of the texts, or what has stopped the making of them. -/
def result (yielded : Yielded) : Except Fault (List String) :=
  match yielded.stopped with
  | none => .ok yielded.texts
  | some fault => .error fault

/-- All of the texts at once, or none of them. -/
def ofResult : Except Fault (List String) → Yielded
  | .ok texts => ⟨texts, none⟩
  | .error fault => ⟨[], some fault⟩

theorem result_ofResult (made : Except Fault (List String)) : (ofResult made).result = made := by
  cases made <;> rfl

variable [Text.DigitLimit]

/-- A line for each value, up to the first that cannot be written. -/
def lines : List Value → Yielded
  | [] => ⟨[], none⟩
  | value :: rest =>
    match Json.write .line value with
    | .error fault => ⟨[], some fault⟩
    | .ok line => ⟨line :: (lines rest).texts, (lines rest).stopped⟩

theorem result_lines (values : List Value) :
    (lines values).result = values.mapM (Json.write .line) := by
  induction values with
  | nil => rfl
  | cons value rest inductionHypothesis =>
      rw [lines, List.mapM_cons, ← inductionHypothesis]
      cases Json.write .line value with
      | error fault => rfl
      | ok line =>
          unfold result
          cases (lines rest).stopped <;> rfl

end Yielded

variable [Text.DigitLimit]

/-- What a format has made of records when it is through with them or stops. -/
def Format.yields (format : Format) (records : List Value) (fields : Option (List Scalar)) :
    Yielded :=
  match format with
  | .jsonl => .lines records
  | other => .ofResult (other.chunks records fields)

/-- Where nothing stops it, a format has made all of its texts. -/
theorem Format.result_yields (format : Format) (records : List Value)
    (fields : Option (List Scalar)) :
    (format.yields records fields).result = format.chunks records fields := by
  cases format with
  | jsonl => exact Yielded.result_lines records
  | _ => exact Yielded.result_ofResult _

theorem Format.yields_of_chunks {format : Format} {records : List Value}
    {fields : Option (List Scalar)} {chunks : List String}
    (written : format.chunks records fields = .ok chunks) :
    format.yields records fields = ⟨chunks, none⟩ := by
  rw [← result_yields] at written
  generalize format.yields records fields = yielded at written ⊢
  obtain ⟨texts, _ | fault⟩ := yielded
  · obtain rfl := Except.ok.inj written
    rfl
  · cases written

end Provenance.Output
