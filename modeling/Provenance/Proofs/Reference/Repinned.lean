import Provenance.Proofs.Path.Normal
import Provenance.Proofs.Reference.Pinned

/-!
Contract: where a pinned reference stands, and what pinning it again changes.

Owns:
- `Reference.standsIn_of_pin`, the law that the location of a repository stays in front of the
  directory in it;
- `Reference.pinInTurn`, pinning to one record after the other;
- `Reference.pinInTurn_inOrder`, the law that the last place and the first selector stay.

Does **not** own: how a text of a pinned reference is read back.

## Why places and selectors go by opposite rules

A record says where a directory is, and the newest one knows best.  A selector of the reference
itself is the choice of its user, and once a record has given one it cannot be told from such a
choice.
-/

set_option autoImplicit false

namespace Provenance

open Failure (Fault)

namespace Record

theorem location_of_isRelative {record : Record} (located : record.gitUrl ≠ "")
    (isRelative : Location.IsRelative record.relDir) :
    record.location = Path.extended (Path.normalize record.gitUrl) record.relDir := by
  have given : record.relDir.isEmpty = false := by simpa using isRelative.given
  rw [location, given, if_neg Bool.false_ne_true,
    Path.normalize_join_of_isRelative located isRelative]

end Record

namespace Reference

/-! ## Where a pinned reference stands -/

/-- Only a record that says where moves a reference, and it moves it to its own location. -/
theorem gitUrl_of_moved {reference pinned : Reference} {record : Record}
    (moves : reference.pin (some record) = .ok (.moved pinned)) :
    record.gitUrl ≠ "" ∧ pinned.gitUrl = record.location := by
  unfold pin at moves
  simp only at moves
  split at moves
  · next effective =>
      refine ⟨Record.isEffective_iff.mp effective, ?_⟩
      split at moves
      · cases moves
      · obtain rfl := Pinned.moved.inj (Except.ok.inj moves)
        rfl
  · cases moves

/-- A reference is pinned to a directory of a repository. -/
structure StandsIn (pinned : Reference) (record : Record) : Prop where
  gitUrl : pinned.gitUrl = Path.extended (Path.normalize record.gitUrl) record.relDir
  /-- The repository stays in front. -/
  inFront : Path.normalize record.gitUrl ≠ "." →
    (Path.normalize record.gitUrl).toList <+: pinned.gitUrl.toList
  /-- The names on the way to the directory follow, in order. -/
  follows : Path.segments pinned.gitUrl =
    Path.segments (Path.normalize record.gitUrl) ++ Path.segments record.relDir

theorem standsIn_of_moved {reference pinned : Reference} {record : Record}
    (isRelative : Location.IsRelative record.relDir)
    (moves : reference.pin (some record) = .ok (.moved pinned)) : pinned.StandsIn record := by
  obtain ⟨located, gitUrl⟩ := gitUrl_of_moved moves
  rw [Record.location_of_isRelative located isRelative] at gitUrl
  refine ⟨gitUrl, fun notHere => ?_, ?_⟩
  · rw [gitUrl]
    exact Path.isPrefix_extended notHere _
  · rw [gitUrl, Path.segments_extended located isRelative]

/-- **A pinned reference stands in the directory of its record.**  The normalized location of the
repository is kept in front, whatever it is, and the path to the directory follows as it is; so no
two directories of a repository are pinned to one location. -/
theorem standsIn_of_pin (reference : Reference) (record : Record)
    (supported : reference.variant = .target ∨ reference.variant = .command)
    (located : record.gitUrl ≠ "") (isRelative : Location.IsRelative record.relDir) :
    ∃ pinned, reference.pin (some record) = .ok (.moved pinned) ∧ pinned.StandsIn record ∧
      ∀ (other otherPinned : Reference) (otherRecord : Record),
        otherRecord.gitUrl = record.gitUrl → Location.IsRelative otherRecord.relDir →
        other.pin (some otherRecord) = .ok (.moved otherPinned) →
        otherPinned.gitUrl = pinned.gitUrl → otherRecord.relDir = record.relDir := by
  have moves := pin_of_isEffective supported (Record.isEffective_iff.mpr located)
  have stands := standsIn_of_moved isRelative moves
  refine ⟨_, moves, stands, ?_⟩
  intro other otherPinned otherRecord repository isOther movesOther same
  have standsOther := standsIn_of_moved isOther movesOther
  have follows : Path.segments (Path.normalize record.gitUrl) ++ Path.segments otherRecord.relDir =
      Path.segments (Path.normalize record.gitUrl) ++ Path.segments record.relDir := by
    rw [← stands.follows, ← same, standsOther.follows, repository]
  exact Path.eq_of_segments isOther isRelative (List.append_cancel_left follows)

/-- The law at work: the location is normalized, the path to the directory is not touched. -/
theorem standsIn_of_pin_nested :
    let reference : Reference := { variant := .command, name := "build", tag := "v1" }
    let record : Record := { relDir := "lib/core", gitUrl := "//host/team/../project/" }
    let pinned : Reference :=
      { variant := .command, name := "build", gitUrl := "//host/project/lib/core", tag := "v1" }
    (reference.variant = .target ∨ reference.variant = .command) ∧ record.gitUrl ≠ "" ∧
      Location.IsRelative record.relDir ∧ reference.pin (some record) = .ok (.moved pinned) ∧
        pinned.StandsIn record := by
  intro reference record pinned
  have supported : reference.variant = .target ∨ reference.variant = .command := .inr rfl
  have located : record.gitUrl ≠ "" := by decide
  have proper : World.IsProper ["lib", "core"] := by
    intro name member
    rcases List.mem_pair.mp member with rfl | rfl
    · exact ⟨by decide, by decide, by decide, by decide⟩
    · exact ⟨by decide, by decide, by decide, by decide⟩
  have isRelative : Location.IsRelative record.relDir := ⟨["lib", "core"], proper, by decide⟩
  have pins : reference.pin (some record) = .ok (.moved pinned) := by decide
  obtain ⟨other, pinsToo, stands, -⟩ :=
    standsIn_of_pin reference record supported located isRelative
  obtain rfl : pinned = other := Pinned.moved.inj (Except.ok.inj (pins.symm.trans pinsToo))
  exact ⟨supported, located, isRelative, pins, stands⟩

/-! ## Pinning in turn -/

/-- The records that say where. -/
def effective (records : List (Option Record)) : List Record :=
  records.filterMap (Option.filter Record.isEffective)

/-- The reference pinned to one record after the other. -/
def pinInTurn (reference : Reference) : List (Option Record) → Except Fault Reference
  | [] => .ok reference
  | record :: rest => do
    let pinned ← reference.pin record
    pinned.reference.pinInTurn rest

/-- What pinning in turn comes to: the place of the last record, and the first selector given. -/
structure IsPinnedAlong (reference : Reference) (records : List Record) (final : Reference) :
    Prop where
  variant : final.variant = reference.variant
  name : final.name = reference.name
  localPath : final.localPath = reference.localPath
  importRef : final.importRef = reference.importRef
  gitUrl : final.gitUrl = (records.getLast?.map Record.location).getD reference.gitUrl
  tag : final.tag =
    ((reference.tag :: records.map Record.revision).find? (!String.isEmpty ·)).getD ""

section InTurn

variable {reference final : Reference} {record : Record} {records : List Record}

theorem IsPinnedAlong.unique {other : Reference} (isFinal : reference.IsPinnedAlong records final)
    (isOther : reference.IsPinnedAlong records other) : final = other := by
  cases final
  cases other
  simp only [mk.injEq]
  exact ⟨isFinal.variant.trans isOther.variant.symm, isFinal.name.trans isOther.name.symm,
    isFinal.gitUrl.trans isOther.gitUrl.symm, isFinal.tag.trans isOther.tag.symm,
    isFinal.localPath.trans isOther.localPath.symm,
    isFinal.importRef.trans isOther.importRef.symm⟩

theorem isPinnedAlong_nil : reference.IsPinnedAlong [] reference := by
  refine ⟨rfl, rfl, rfl, rfl, rfl, ?_⟩
  by_cases tagless : reference.tag = ""
  · rw [tagless]
    rfl
  · simp [tagless]

/-- A reference that has been moved goes by its record where nothing later says more. -/
theorem isPinnedAlong_cons (follows : (reference.moveTo record).IsPinnedAlong records final) :
    reference.IsPinnedAlong (record :: records) final := by
  refine ⟨follows.variant, follows.name, follows.localPath, follows.importRef, ?_, ?_⟩
  · rw [follows.gitUrl, List.getLast?_cons]
    cases records.getLast? <;> rfl
  · rw [follows.tag]
    change ((Record.firstGiven reference.tag record.revision :: _).find? _).getD "" = _
    by_cases tagless : reference.tag = ""
    · simp [Record.firstGiven, tagless]
    · simp [Record.firstGiven, tagless]

/-- A record that is given twice says no more than once. -/
theorem isPinnedAlong_twice : reference.IsPinnedAlong [record, record] final ↔
    reference.IsPinnedAlong [record] final := by
  have selector : ([reference.tag, record.revision, record.revision].find? (!String.isEmpty ·)) =
      [reference.tag, record.revision].find? (!String.isEmpty ·) := by
    simp only [List.find?_cons]
    cases record.revision.isEmpty <;> rfl
  constructor
  · rintro ⟨variant, name, localPath, importRef, gitUrl, tag⟩
    exact ⟨variant, name, localPath, importRef, gitUrl, tag.trans (congrArg (·.getD "") selector)⟩
  · rintro ⟨variant, name, localPath, importRef, gitUrl, tag⟩
    exact ⟨variant, name, localPath, importRef, gitUrl,
      tag.trans (congrArg (·.getD "") selector.symm)⟩

end InTurn

/-- A record that says nowhere keeps the very reference. -/
theorem pin_of_not_effective (reference : Reference) {record : Option Record}
    (nowhere : record.filter Record.isEffective = none) :
    reference.pin record = .ok (.kept reference) := by
  cases record with
  | none => rfl
  | some record =>
      have silent : ¬ record.isEffective = true := by simpa [Option.filter] using nowhere
      rw [pin, if_neg silent]

theorem exists_pinInTurn {reference : Reference} (records : List (Option Record))
    (supported : reference.variant = .target ∨ reference.variant = .command) :
    ∃ final, reference.pinInTurn records = .ok final ∧
      reference.IsPinnedAlong (effective records) final := by
  induction records generalizing reference with
  | nil => exact ⟨reference, rfl, isPinnedAlong_nil⟩
  | cons record rest inductionHypothesis =>
      cases found : record.filter Record.isEffective with
      | none =>
          obtain ⟨final, returns, isFinal⟩ := inductionHypothesis supported
          refine ⟨final, ?_, ?_⟩
          · rw [pinInTurn, pin_of_not_effective reference found]
            exact returns
          · rwa [effective, List.filterMap_cons_none found]
      | some given =>
          obtain ⟨rfl, isEffective⟩ := Option.filter_eq_some_iff.mp found
          obtain ⟨final, returns, isFinal⟩ :=
            @inductionHypothesis (reference.moveTo given) supported
          refine ⟨final, ?_, ?_⟩
          · rw [pinInTurn, pin_of_isEffective supported isEffective]
            exact returns
          · rw [effective, List.filterMap_cons_some found]
            exact isPinnedAlong_cons isFinal

/-- Records that say nowhere leave the reference as it is, whatever its variant. -/
theorem pinInTurn_of_nowhere (reference : Reference) {records : List (Option Record)}
    (nowhere : effective records = []) : reference.pinInTurn records = .ok reference := by
  induction records with
  | nil => rfl
  | cons record rest inductionHypothesis =>
      have none_found := List.filterMap_eq_nil_iff.mp nowhere
      rw [pinInTurn, pin_of_not_effective reference (none_found record List.mem_cons_self)]
      refine inductionHypothesis (List.filterMap_eq_nil_iff.mpr fun other member => ?_)
      exact none_found other (List.mem_cons_of_mem record member)

theorem pinInTurn_append (reference : Reference) (before rest : List (Option Record)) :
    reference.pinInTurn (before ++ rest) =
      reference.pinInTurn before >>= fun middle => middle.pinInTurn rest := by
  induction before generalizing reference with
  | nil => rfl
  | cons record before inductionHypothesis =>
      rw [List.cons_append, pinInTurn, pinInTurn]
      cases reference.pin record with
      | error fault => rfl
      | ok pinned => exact inductionHypothesis pinned.reference

theorem pin_of_unsupported {reference : Reference} {kind typeName : String} {record : Record}
    (unsupported : reference.variant = .other kind typeName)
    (effective : record.isEffective = true) :
    reference.pin (some record) = .error (.unsupportedVariant typeName) := by
  rw [pin]
  simp only [effective, if_true, unsupported]

/-- The first record that says where ends the turn of a reference that cannot be pinned. -/
theorem pinInTurn_of_unsupported {reference : Reference} {kind typeName : String}
    {before rest : List (Option Record)} {record : Record}
    (unsupported : reference.variant = .other kind typeName) (nowhere : effective before = [])
    (effective : record.isEffective = true) :
    reference.pinInTurn (before ++ some record :: rest) =
      .error (.unsupportedVariant typeName) := by
  rw [pinInTurn_append, pinInTurn_of_nowhere reference nowhere]
  change reference.pinInTurn (some record :: rest) = _
  rw [pinInTurn, pin_of_unsupported unsupported effective]
  rfl

theorem pinInTurn_twice (reference : Reference) (record : Option Record) :
    reference.pinInTurn [record, record] = reference.pinInTurn [record] := by
  cases found : record.filter Record.isEffective with
  | none =>
      have nowhere : effective [record] = [] := by simp [effective, found]
      have nowhereTwice : effective [record, record] = [] := by simp [effective, found]
      rw [pinInTurn_of_nowhere reference nowhere, pinInTurn_of_nowhere reference nowhereTwice]
  | some given =>
      obtain ⟨rfl, isEffective⟩ := Option.filter_eq_some_iff.mp found
      cases variant : reference.variant with
      | other kind typeName =>
          rw [pinInTurn, pinInTurn, pin_of_unsupported variant isEffective]
          rfl
      | target | command =>
          have supported : reference.variant = .target ∨ reference.variant = .command := by
            simp [variant]
          obtain ⟨twice, returnsTwice, isTwice⟩ :=
            exists_pinInTurn [some given, some given] supported
          obtain ⟨once, returnsOnce, isOnce⟩ := exists_pinInTurn [some given] supported
          rw [effective, List.filterMap_cons_some found, List.filterMap_cons_some found] at isTwice
          rw [effective, List.filterMap_cons_some found] at isOnce
          rw [returnsTwice, returnsOnce, (isPinnedAlong_twice.mp isTwice).unique isOnce]

/-- How a reference is pinned to some records in turn. -/
structure PinsInOrder (reference : Reference) (records : List (Option Record)) : Prop where
  /-- A target or a command ends up where the last record that says where puts it, with the first
  selector that is given. -/
  supported : reference.variant = .target ∨ reference.variant = .command →
    ∃ final, reference.pinInTurn records = .ok final ∧
      reference.IsPinnedAlong (effective records) final
  /-- The other records keep the very reference that they meet. -/
  skipped : ∀ record ∈ records, record.filter Record.isEffective = none →
    ∀ current : Reference, current.pin record = .ok (.kept current)
  twice : ∀ record : Option Record,
    reference.pinInTurn [record, record] = reference.pinInTurn [record]
  /-- No other variant can be pinned, and this is noticed at the first record that says where. -/
  unsupported : ∀ kind typeName, reference.variant = .other kind typeName →
    (effective records = [] → reference.pinInTurn records = .ok reference) ∧
      ∀ before record rest, records = before ++ some record :: rest → effective before = [] →
        record.isEffective = true →
          reference.pinInTurn before = .ok reference ∧
            ∃ fault : Fault, fault.className = "TypeError" ∧
              reference.pin (some record) = .error fault ∧
              reference.pinInTurn records = .error fault

/-- **The last place and the first selector stay.**  Of all the records that a target or a command
is pinned to in turn, the last one that says where decides its location alone, and its selector is
the first one given, its own included. -/
theorem pinInTurn_inOrder (reference : Reference) (records : List (Option Record)) :
    reference.PinsInOrder records where
  supported := exists_pinInTurn records
  skipped _ _ nowhere current := pin_of_not_effective current nowhere
  twice := pinInTurn_twice reference
  unsupported kind typeName unsupported := by
    refine ⟨pinInTurn_of_nowhere reference, ?_⟩
    rintro before record rest rfl nowhere isEffective
    exact ⟨pinInTurn_of_nowhere reference nowhere, .unsupportedVariant typeName, rfl,
      pin_of_unsupported unsupported isEffective,
      pinInTurn_of_unsupported unsupported nowhere isEffective⟩

/-- Neither the place of the first record nor the selector of the last one stays. -/
example :
    pinInTurn { name := "build" } [
        some { relDir := ".", gitUrl := "host/fork" },
        none,
        some { relDir := "lib", gitUrl := "host/project", branch := ["main"] },
        some { relDir := "lib", hash := "1f2e" },
        some { relDir := "lib/core", gitUrl := "host/project", tags := ["v1"] }
      ] = .ok { name := "build", gitUrl := "host/project/lib/core", tag := "main" } := by
  decide

end Reference
end Provenance
