import Provenance.Proofs.Reference.Canonical

/-!
Contract: a reference that is read, written and read again.

Owns:
- `Reference.IsMisread`, the remotes whose texts denote something else;
- the law that nothing else is changed by being read again.

Does **not** own: which references are read back at all, which
`Provenance.Proofs.Reference.Canonical` says.

## Where the texts part

What is read is written as it was read, but for two locations.  A lone `.` is not
written, and the current directory is read from nothing just as well.  An empty
selector is not written either, and then the text before it stands alone: it may
be the name of an import, or end in a selector of its own.
-/

set_option autoImplicit false

namespace Provenance.Reference

open Failure (Fault)
open Text (trimLeft trimRight)

/-- A text that is taken for a remote and its selector. -/
def EndsInSelector (gitUrl : List Char) : Prop :=
  ∃ before after, gitUrl = before ++ ':' :: after ∧ ':' ∉ after ∧ before ≠ [] ∧ '/' ∉ after

/-- A remote without a selector whose text denotes an import, or a remote with a selector. -/
def IsMisread (reference : Reference) : Prop :=
  reference.gitUrl ≠ "" ∧ reference.tag = "" ∧
    (isPlainName reference.gitUrl.toList = true ∨ EndsInSelector reference.gitUrl.toList)

namespace Location

variable {text : List Char}

theorem ofRemote_of_not_endsInSelector (whole : ¬ EndsInSelector text) :
    ofRemote text = .remote text [] := by
  refine ofRemote_of_whole fun before after text_eq last => ?_
  by_contra split
  obtain ⟨nonempty, slashed⟩ := not_or.mp split
  exact whole ⟨before, after, text_eq, last, nonempty, slashed⟩

end Location

/-! ## What a text gives -/

section Reading

variable {variant : Variant} {text : String} {reference : Reference}

/-- A text that is read is, once trimmed, a location and a name, and neither can be trimmed
further. -/
theorem exists_location_of_parse (reads : parse variant text = .ok reference) :
    ∃ location,
      Text.trim text.toList = location ++ '+' :: reference.name.toList ∧
        reference.name ≠ "" ∧ trimLeft location = location ∧
        trimRight reference.name.toList = reference.name.toList ∧
        at_ variant reference.name.toList (.ofText location) = reference := by
  have plain := plain_of_parse reads
  unfold parse at reads
  split at reads
  · next location name cut =>
      split at reads
      · cases reads
      · next nonempty =>
          have reference_eq := Except.ok.inj reads
          have name_eq : reference.name.toList = name := by
            rw [← reference_eq]
            cases Location.ofText location <;> exact String.toList_ofList
          obtain ⟨trimmed, last⟩ := Text.eq_append_of_cutLast? cut
          -- Trimmed once more, the text is cut in the same place, so both pieces stay.
          have again : Text.cutLast? '+' (Text.trim (Text.trim text.toList)) =
              some (trimLeft location, trimRight name) := by
            rw [trimmed, Text.trim_append_cons (by decide)]
            exact Text.cutLast?_append fun member => last (Text.mem_of_mem_trimRight member)
          rw [Text.trim_trim, cut] at again
          obtain ⟨location_eq, trimmed_name⟩ := Prod.mk.inj (Option.some.inj again)
          refine ⟨location, ?_, ?_, location_eq.symm, ?_, ?_⟩
          · rw [trimmed, name_eq]
          · intro nameless
            rw [nameless] at name_eq
            exact nonempty (by rw [← name_eq]; rfl)
          · rw [name_eq, ← trimmed_name]
          · rw [name_eq, reference_eq]
  · cases reads

/-- Whatever is read is a text again once it is written: its name is not lost. -/
theorem exists_parse_text (reads : parse variant text = .ok reference) :
    ∃ other, parse variant reference.text = .ok other := by
  obtain ⟨location, -, named, -, trimmed, -⟩ := exists_location_of_parse reads
  rw [parse_text variant (plain_of_parse reads), trimmed, if_neg (by simpa using named)]
  exact ⟨_, rfl⟩

end Reading

/-! ## What is written of it -/

section Writing

variable {reference : Reference} {location : List Char}

/-- A location that was read is written as it was read, unless it is a lone `.` or the selector of a
remote is empty. -/
theorem location_cases (isAt : reference.IsAt (.ofText location)) :
    reference.location = location ∨
      (location = ['.'] ∧ reference.location = []) ∨
        (location = reference.location ++ [':'] ∧ reference.location ≠ [] ∧
          startsLocal location = false ∧ reference.IsAt (.remote reference.location [])) := by
  by_cases nonempty : location = []
  · subst nonempty
    obtain ⟨here, noUrl, -, noImport⟩ := isAt
    exact .inl (location_of_here (.inl here) noUrl noImport)
  cases foreign : startsLocal location with
  | true =>
      rw [Location.ofText_of_startsLocal foreign] at isAt
      obtain ⟨path_eq, noUrl, -, noImport⟩ := isAt
      by_cases here : reference.localPath = "."
      · refine .inr (.inl ⟨?_, location_of_here (.inl here) noUrl noImport⟩)
        rw [← path_eq, here]
        rfl
      · have given : reference.localPath ≠ "" := by
          intro absent
          rw [absent] at path_eq
          exact nonempty path_eq.symm
        exact .inl ((location_of_localPath given here noUrl noImport).trans path_eq)
  | false =>
      cases marked : isPlainName location with
      | true =>
          rw [Location.ofText_of_isPlainName nonempty foreign marked] at isAt
          obtain ⟨import_eq, -⟩ := isAt
          have given : reference.importRef ≠ "" := by
            intro absent
            rw [absent] at import_eq
            exact nonempty import_eq.symm
          exact .inl ((location_of_importRef given).trans import_eq)
      | false =>
          rw [Location.ofText_of_marked nonempty foreign marked] at isAt
          rcases Location.ofRemote_cases location with
            ⟨gitUrl, tag, cut, given, -, -, remote_eq⟩ | ⟨-, remote_eq⟩
          · rw [remote_eq] at isAt
            obtain ⟨rfl, rfl, noPath, noImport⟩ := isAt
            have named : reference.gitUrl ≠ "" := by simpa using given
            by_cases tagged : reference.tag = ""
            · have written := location_of_gitUrl named tagged noImport
              rw [written]
              refine .inr (.inr ⟨?_, given, rfl, rfl, ?_, noPath, noImport⟩)
              · rw [cut, tagged]
                rfl
              · rw [tagged]
                rfl
            · exact .inl ((location_of_tag named tagged noImport).trans cut.symm)
          · rw [remote_eq] at isAt
            obtain ⟨url_eq, noTag, -, noImport⟩ := isAt
            have given : reference.gitUrl ≠ "" := by
              intro absent
              rw [absent] at url_eq
              exact nonempty url_eq.symm
            exact .inl ((location_of_gitUrl given (by simpa using noTag) noImport).trans url_eq)

/-- The text of a remote without a selector is read as the remote, unless it denotes something
else. -/
theorem ofText_eq_remote (nonempty : location ≠ []) (foreign : startsLocal location = false)
    (marked : isPlainName location = false) (whole : ¬ EndsInSelector location) :
    Location.ofText location = .remote location [] := by
  rw [Location.ofText_of_marked nonempty foreign marked,
    Location.ofRemote_of_not_endsInSelector whole]

/-- What is left of a location without its last `:` starts as before. -/
private theorem startsAlike (nonempty : location ≠ [])
    (trimmed : trimLeft (location ++ [':']) = location ++ [':'])
    (foreign : startsLocal (location ++ [':']) = false) :
    trimLeft location = location ∧ startsLocal location = false := by
  obtain ⟨head, tail, rfl⟩ := List.exists_cons_of_ne_nil nonempty
  refine ⟨?_, foreign⟩
  rw [Text.trimLeft_eq_self_iff] at trimmed ⊢
  exact trimmed

/-- A misread remote is not read back. -/
theorem not_isAt_of_isMisread (misread : reference.IsMisread) :
    ¬ reference.IsAt (.ofText (trimLeft reference.location)) := by
  intro isAt
  obtain ⟨given, noTag, misread⟩ := misread
  obtain ⟨shape, fits⟩ := exists_fits_of_isAt isAt
  cases shape with
  | here => exact given fits.2.1
  | path => exact given fits.2.2.1
  | imported => exact given fits.2.2.2.2.1
  | selected => exact fits.2.1 noTag
  | remote =>
      obtain ⟨-, -, -, ⟨mark, isMark, inside⟩, whole, -⟩ := fits
      rcases misread with plain | ⟨before, after, gitUrl_eq, last, nonempty, unslashed⟩
      · exact isPlainName_iff.mp plain mark isMark inside
      · exact (whole before after gitUrl_eq last).elim nonempty unslashed

/-- A location that was read is read back, unless the remote is misread. -/
theorem isAt_location (trimmed : trimLeft location = location)
    (isAt : reference.IsAt (.ofText location)) (sound : ¬ reference.IsMisread) :
    reference.IsAt (.ofText (trimLeft reference.location)) := by
  rcases location_cases isAt with
    written | ⟨rfl, written⟩ | ⟨location_eq, nonempty, foreign, isRemote⟩
  · rw [written, trimmed]
    exact isAt
  · rw [written]
    obtain ⟨path_eq, noUrl, noTag, noImport⟩ := isAt
    exact ⟨String.toList_inj.mp path_eq, noUrl, noTag, noImport⟩
  · rw [location_eq] at trimmed foreign
    obtain ⟨trimmed, foreign⟩ := startsAlike nonempty trimmed foreign
    have given : reference.gitUrl ≠ "" := by
      intro absent
      rw [← isRemote.1, absent] at nonempty
      exact nonempty rfl
    have noTag : reference.tag = "" := by simpa using isRemote.2.1
    obtain ⟨marked, whole⟩ := not_or.mp fun misread => sound ⟨given, noTag, misread⟩
    rw [isRemote.1] at marked whole
    rw [trimmed, ofText_eq_remote nonempty foreign (by simpa using marked) whole]
    exact isRemote

end Writing

/-! ## Read, written and read again -/

/-- **A reference that is read, written and read again stays what it is**, but for a remote whose
empty selector is not written and whose text then denotes an import or has a selector of its own.
It is read again in any case. -/
theorem parseAs_text_of_parseAs (kind text : String) (reference : Reference)
    (reads : parseAs (some kind) text = .ok reference) :
    (∃ other, parseAs (some kind) reference.text = .ok other) ∧
      (parseAs (some kind) reference.text = .ok reference ↔ ¬ reference.IsMisread) ∧
        (reference.IsMisread →
          Text.trim text.toList =
            reference.gitUrl.toList ++ ':' :: '+' :: reference.name.toList) := by
  unfold parseAs at reads ⊢
  cases ofKind : (some kind).bind Variant.ofKind? with
  | none =>
      rw [ofKind] at reads
      cases reads
  | some variant =>
      rw [ofKind] at reads
      simp only at reads ⊢
      obtain ⟨location, trimmed, named, unblank, ends, reference_eq⟩ :=
        exists_location_of_parse reads
      have same_variant : reference.variant = variant := by
        rw [← reference_eq]
        cases Location.ofText location <;> rfl
      rw [← same_variant] at reads reference_eq ⊢
      have isAt := (at_eq_iff.mp reference_eq).2
      refine ⟨exists_parse_text reads, ?_, ?_⟩
      · rw [parse_text_eq_ok_iff]
        constructor
        · rintro ⟨-, back⟩ misread
          exact not_isAt_of_isMisread misread back
        · exact fun sound =>
            ⟨⟨named, plain_of_parse reads, ends⟩, isAt_location unblank isAt sound⟩
      · intro misread
        rcases location_cases isAt with written | ⟨rfl, -⟩ | ⟨location_eq, -, -, isRemote⟩
        · refine absurd ?_ (not_isAt_of_isMisread misread)
          rw [written, unblank]
          exact isAt
        · exact absurd isAt.2.1 misread.1
        · rw [trimmed, location_eq, isRemote.1]
          simp

/-- The law at work: a remote with an empty selector that is none the less read back. -/
theorem parseAs_text_of_parseAs_unselected :
    ∃ reference : Reference,
      parseAs (some "target") "host/project:+build" = .ok reference ∧
        parseAs (some "target") reference.text = .ok reference := by
  have reads : parseAs (some "target") "host/project:+build" =
      .ok { name := "build", gitUrl := "host/project" } := by decide
  obtain ⟨-, back, -⟩ := parseAs_text_of_parseAs "target" "host/project:+build" _ reads
  refine ⟨_, reads, back.mpr ?_⟩
  rintro ⟨-, -, plain | ⟨before, after, gitUrl_eq, -⟩⟩
  · exact absurd plain (by decide)
  · have marked : ':' ∈ ("host/project" : String).toList := by
      rw [gitUrl_eq]
      simp
    exact absurd marked (by decide)

/-- A remote whose empty selector is not written, and which is then read as an import. -/
theorem parseAs_text_unselected_isImport :
    parseAs (some "target") "lib:+build" = .ok { name := "build", gitUrl := "lib" } ∧
      parseAs (some "target") ({ name := "build", gitUrl := "lib" } : Reference).text =
        .ok { name := "build", importRef := "lib" } := by
  decide

end Provenance.Reference
