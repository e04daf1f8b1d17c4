import Provenance.Pin
import Provenance.Proofs.Reference.Reprint

/-!
Contract: whether the text of a pinned reference denotes the place it is pinned to.

Owns:
- what is read off the text of a remote with a selector, in whatever way its
  location starts;
- `Reference.parseAs_text_of_pin`, the law that the text denotes the place if and only
  if no import hides it and the location starts as a remote does.

Does **not** own: which place a record says, and which references are read back as
a whole.

## Why a pinned reference is not canonical

Pinning keeps the local path and the import of a reference beside its new remote,
so the text gives at most one of three locations.  The local path is lost without
harm.  An import is written in place of the remote, and then the text is that of
the reference before it was pinned.
-/

set_option autoImplicit false

namespace Provenance

namespace Record

theorem location_ne_empty {record : Record} (located : record.gitUrl ≠ "") :
    record.location ≠ "" := by
  unfold location
  split
  · exact located
  · unfold Path.normalize
    simp only
    split
    · decide
    · next nonempty => simpa using nonempty

theorem isEffective_iff {record : Record} : record.isEffective = true ↔ record.gitUrl ≠ "" := by
  simp [isEffective]

end Record

namespace Reference

open Text (trimLeft trimRight)

/-! ## What is read at a location -/

section Reading

variable {variant : Variant} {name : List Char} {location : Location}

theorem variant_at : (at_ variant name location).variant = variant := by
  cases location <;> rfl

theorem name_at : (at_ variant name location).name = String.ofList name := by
  cases location <;> rfl

/-- A reference that is read as a remote is read as nothing else. -/
theorem importRef_at (remote : (at_ variant name location).gitUrl ≠ "") :
    (at_ variant name location).importRef = "" := by
  cases location with
  | importRef imported => exact absurd rfl remote
  | _ => rfl

end Reading

/-! ## Remotes with a selector -/

section Selected

variable {reference : Reference}

/-- What is read off the text of a reference with a plain name. -/
theorem parse_text_of_named (named : reference.name ≠ "") (plain : '+' ∉ reference.name.toList)
    (trimmed : trimRight reference.name.toList = reference.name.toList) :
    parse reference.variant reference.text =
      .ok (at_ reference.variant reference.name.toList
        (.ofText (trimLeft reference.location))) := by
  rw [parse_text reference.variant plain, trimmed, if_neg (by simpa using named)]

/-- **A remote with a selector is read off its text just if it starts as a remote does**, whatever
local path stands beside it. -/
theorem at_selected_iff {again : Reference} (given : reference.gitUrl ≠ "")
    (tagged : reference.tag ≠ "") (unslashed : '/' ∉ reference.tag.toList)
    (last : ':' ∉ reference.tag.toList) (noImport : reference.importRef = "")
    (reads : at_ reference.variant reference.name.toList (.ofText (trimLeft reference.location)) =
      again) :
    (again.gitUrl = reference.gitUrl ∧ again.tag = reference.tag) ↔
      StartsRemote reference.gitUrl := by
  constructor
  · rintro ⟨gitUrl_eq, tag_eq⟩
    have givenAgain : again.gitUrl ≠ "" := by rwa [gitUrl_eq]
    have taggedAgain : again.tag ≠ "" := by rwa [tag_eq]
    have noImportAgain : again.importRef = "" := by
      rw [← reads] at givenAgain ⊢
      exact importRef_at givenAgain
    have location_eq : again.location = reference.location := by
      rw [location_of_tag givenAgain taggedAgain noImportAgain,
        location_of_tag given tagged noImport, gitUrl_eq, tag_eq]
    have variant_eq : again.variant = reference.variant := by
      rw [← reads]
      exact variant_at
    rw [← variant_eq, ← location_eq] at reads
    -- What has been read is a remote with a selector, and of the five forms only one is such.
    obtain ⟨shape, fits⟩ := exists_fits_of_isAt (at_eq_iff.mp reads).2
    cases shape with
    | here => exact absurd fits.2.1 givenAgain
    | path => exact absurd fits.2.2.1 givenAgain
    | imported => exact absurd fits.2.2.2.2.1 givenAgain
    | selected =>
        rw [← gitUrl_eq]
        exact fits.2.2.2.1
    | remote => exact absurd fits.2.1 taggedAgain
  · intro starts
    have fits : Shape.selected.Fits { reference with localPath := "" } :=
      ⟨given, tagged, ⟨unslashed, last⟩, starts, rfl, noImport⟩
    have location_eq : ({ reference with localPath := "" } : Reference).location =
        reference.location := by
      rw [location_of_tag given tagged noImport]
      exact location_of_tag given tagged noImport
    have back := isAt_of_fits fits
    rw [location_eq] at back
    obtain rfl := (at_eq_iff.mpr ⟨rfl, back⟩).symm.trans reads
    exact ⟨rfl, rfl⟩

end Selected

/-! ## Pinned references -/

theorem pin_of_isEffective {reference : Reference} {record : Record}
    (supported : reference.variant = .target ∨ reference.variant = .command)
    (effective : record.isEffective = true) :
    reference.pin (some record) = .ok (.moved (reference.moveTo record)) := by
  rw [pin]
  rcases supported with target | command
  · simp only [effective, if_true, target]
  · simp only [effective, if_true, command]

theorem pin_of_ofKind {kind : String} {reference : Reference} {record : Record}
    (isKind : Variant.ofKind? kind = some reference.variant) (located : record.gitUrl ≠ "") :
    reference.pin (some record) = .ok (.moved (reference.moveTo record)) := by
  refine pin_of_isEffective ?_ (Record.isEffective_iff.mpr located)
  unfold Variant.ofKind? at isKind
  split at isKind
  · exact .inl (Option.some.inj isKind).symm
  · exact .inr (Option.some.inj isKind).symm
  · cases isKind

/-- The text of an import says nothing of the remote beside it. -/
theorem text_moveTo_of_imported {reference : Reference} (imported : reference.importRef ≠ "")
    (record : Record) : (reference.moveTo record).text = reference.text := by
  have moved : (reference.moveTo record).importRef ≠ "" := imported
  unfold text
  rw [location_of_importRef moved, location_of_importRef imported]
  rfl

/-- An import that is read is read off its own text. -/
theorem parse_text_of_imported {variant : Variant} {text : String} {reference : Reference}
    (reads : parse variant text = .ok reference) (imported : reference.importRef ≠ "") :
    parse variant reference.text = .ok reference ∧ reference.gitUrl = "" := by
  obtain ⟨location, -, named, unblank, ends, reference_eq⟩ := exists_location_of_parse reads
  have same_variant : reference.variant = variant := by
    rw [← reference_eq]
    exact variant_at
  have noUrl : reference.gitUrl = "" := by
    by_contra remote
    rw [← reference_eq] at remote imported
    exact imported (importRef_at remote)
  rw [← same_variant] at reads reference_eq ⊢
  have isAt := (at_eq_iff.mp reference_eq).2
  refine ⟨(parse_text_eq_ok_iff reference).mpr ⟨⟨named, plain_of_parse reads, ends⟩, ?_⟩, noUrl⟩
  exact isAt_location unblank isAt fun misread => misread.1 noUrl

/-- **The text of a pinned reference denotes the place it is pinned to**, with the selector that it
is pinned at, if and only if the reference has no import and the place starts as a remote does:
neither like a local path nor with white space.  Its name is never lost, and an import is read as
what it was before. -/
theorem parseAs_text_of_pin (kind text : String) (reference : Reference) (record : Record)
    (reads : parseAs (some kind) text = .ok reference)
    (located : record.gitUrl ≠ "") :
    ∃ pinned, reference.pin (some record) = .ok (.moved pinned) ∧
      (pinned.tag ≠ "" → '/' ∉ pinned.tag.toList → ':' ∉ pinned.tag.toList →
        ∃ again, parseAs (some kind) pinned.text = .ok again ∧ again.name = pinned.name ∧
          ((again.gitUrl = pinned.gitUrl ∧ again.tag = pinned.tag) ↔
            pinned.importRef = "" ∧ StartsRemote pinned.gitUrl) ∧
          (pinned.importRef ≠ "" → again = reference)) := by
  unfold parseAs at reads ⊢
  cases ofKind : (some kind).bind Variant.ofKind? with
  | none =>
      rw [ofKind] at reads
      cases reads
  | some variant =>
      rw [ofKind] at reads
      simp only at reads ⊢
      obtain ⟨location, -, named, -, ends, reference_eq⟩ := exists_location_of_parse reads
      have same_variant : reference.variant = variant := by
        rw [← reference_eq]
        exact variant_at
      rw [← same_variant] at ofKind
      have given : (reference.moveTo record).gitUrl ≠ "" := Record.location_ne_empty located
      refine ⟨_, pin_of_ofKind ofKind located, fun tagged unslashed last => ?_⟩
      by_cases imported : reference.importRef = ""
      · have noImport : (reference.moveTo record).importRef = "" := imported
        rw [← same_variant]
        have plain : '+' ∉ reference.name.toList := plain_of_parse reads
        -- Its type is given, for otherwise the text is sought as that of the unpinned reference.
        have back : parse reference.variant (reference.moveTo record).text = .ok _ :=
          @parse_text_of_named (reference.moveTo record) named plain ends
        refine ⟨_, back, ?_, ?_, ?_⟩
        · rw [name_at, String.ofList_toList]
        · rw [at_selected_iff given tagged unslashed last noImport rfl]
          exact (and_iff_right noImport).symm
        · exact fun isImported => absurd noImport isImported
      · obtain ⟨back, noUrl⟩ := parse_text_of_imported reads imported
        have hidden : (reference.moveTo record).importRef ≠ "" := imported
        refine ⟨reference, ?_, rfl, ?_, fun _ => rfl⟩
        · rw [text_moveTo_of_imported imported, back]
        · rw [noUrl]
          exact iff_of_false (fun same => given same.1.symm) fun same => hidden same.1

/-- The law at work: a target in the current directory, pinned to a directory of a repository. -/
theorem parseAs_text_of_pin_here :
    let reference : Reference := { name := "build", localPath := "." }
    let record : Record := { relDir := "lib", gitUrl := "host/project", tags := ["v1"] }
    let pinned : Reference :=
      { name := "build", gitUrl := "host/project/lib", tag := "v1", localPath := "." }
    parseAs (some "target") "+build" = .ok reference ∧ record.gitUrl ≠ "" ∧
      reference.pin (some record) = .ok (.moved pinned) ∧
        ∃ again, parseAs (some "target") pinned.text = .ok again ∧
          again.gitUrl = pinned.gitUrl ∧ again.tag = pinned.tag := by
  intro reference record pinned
  have reads : parseAs (some "target") "+build" = .ok reference := by decide
  have located : record.gitUrl ≠ "" := by decide
  have pins : reference.pin (some record) = .ok (.moved pinned) := by decide
  obtain ⟨other, pinsToo, comesBack⟩ :=
    parseAs_text_of_pin "target" "+build" reference record reads located
  obtain rfl : pinned = other := Pinned.moved.inj (Except.ok.inj (pins.symm.trans pinsToo))
  obtain ⟨again, readsAgain, -, same, -⟩ :=
    comesBack (by decide) (by decide) (by decide)
  have starts : StartsRemote pinned.gitUrl := by
    intro head member
    have first : pinned.gitUrl.toList.head? = some 'h' := by decide
    obtain rfl := Option.mem_unique member first
    decide
  exact ⟨reads, located, pins, again, readsAgain, same.mpr ⟨rfl, starts⟩⟩

/-- The text of an import that has been pinned is still that of the import, and the remote is
lost. -/
theorem parseAs_text_of_pin_imported :
    let record : Record := { relDir := ".", gitUrl := "host/project", tags := ["v1"] }
    let pinned : Reference :=
      { name := "build", gitUrl := "host/project", tag := "v1", importRef := "lib" }
    ∃ reference again : Reference,
      parseAs (some "target") "lib+build" = .ok reference ∧ record.gitUrl ≠ "" ∧
        reference.pin (some record) = .ok (.moved pinned) ∧
        (pinned.tag ≠ "" ∧ '/' ∉ pinned.tag.toList ∧ ':' ∉ pinned.tag.toList) ∧
        parseAs (some "target") pinned.text = .ok again ∧
        again.gitUrl ≠ pinned.gitUrl ∧ again.tag ≠ pinned.tag := by
  intro record pinned
  refine ⟨{ name := "build", importRef := "lib" }, { name := "build", importRef := "lib" }, ?_⟩
  decide

end Reference
end Provenance
