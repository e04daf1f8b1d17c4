import Provenance.Proofs.Reference.Reprint

/-!
Contract: which texts are references, and what a reference keeps of its text.

Owns:
- `IsReferenceText`, texts with a name behind their last `+`;
- `IsPlaced`, references with one location;
- `Written`, a location beside what is written of it once it has been read;
- `parseAs_keepsText`: just the reference texts are read, each as a reference with one location
  that is written as the text.

Does **not** own: whether what is written is read as the same reference, which
`Provenance.Proofs.Reference.Reprint` says.

## What is not written

All characters of a location stand in one field or another, so what is read can be written.  Only two
locations have a shorter form: a lone `.` is the current directory, which nothing stands for just as
well, and the `:` before an empty selector separates nothing.
-/

set_option autoImplicit false

namespace Provenance.Reference

open Failure (Fault)

variable {variant : Variant} {text : String} {reference : Reference} {location : List Char}

/-! ## Reference texts -/

/-- A text with a `+` that is not its last character, white space at its ends aside. -/
def IsReferenceText (text : String) : Prop :=
  '+' ∈ Text.trim text.toList ∧ (Text.trim text.toList).getLast? ≠ some '+'

/-- A text behind whose last `+` a name stands is a reference text, and no other one is. -/
theorem isReferenceText_iff :
    IsReferenceText text ↔ ∃ location name, name ≠ [] ∧
      Text.cutLast? '+' (Text.trim text.toList) = some (location, name) := by
  constructor
  · rintro ⟨marked, ends⟩
    cases cut : Text.cutLast? '+' (Text.trim text.toList) with
    | none => exact absurd marked (Text.cutLast?_eq_none_iff.mp cut)
    | some pieces =>
        obtain ⟨location, name⟩ := pieces
        obtain ⟨trimmed, -⟩ := Text.eq_append_of_cutLast? cut
        refine ⟨location, name, ?_, rfl⟩
        rintro rfl
        apply ends
        rw [trimmed, List.getLast?_append]
        rfl
  · rintro ⟨location, name, named, cut⟩
    obtain ⟨trimmed, plain⟩ := Text.eq_append_of_cutLast? cut
    rw [IsReferenceText, trimmed]
    refine ⟨by simp, fun ends => plain ?_⟩
    rw [List.getLast?_append_of_ne_nil location (List.cons_ne_nil '+' name),
      List.getLast?_cons, List.getLast?_eq_some_getLast named] at ends
    rw [← Option.some.inj ends]
    exact List.getLast_mem named

theorem parse_of_isReferenceText (isText : IsReferenceText text) :
    ∃ reference, parse variant text = .ok reference := by
  obtain ⟨location, name, named, cut⟩ := isReferenceText_iff.mp isText
  rw [parse, cut]
  exact ⟨_, if_neg (by simpa using named)⟩

theorem parse_of_not_isReferenceText (other : ¬ IsReferenceText text) :
    parse variant text = .error (.notAReference text) := by
  rw [parse]
  cases cut : Text.cutLast? '+' (Text.trim text.toList) with
  | none => rfl
  | some pieces =>
      apply if_pos
      by_contra named
      apply other
      exact isReferenceText_iff.mpr ⟨pieces.1, pieces.2, by simpa using named, cut⟩

/-! ## Fields of a location -/

/-- Just one of the fields that give a location is given. -/
def IsPlaced (reference : Reference) : Prop :=
  (reference.localPath ≠ "" ∧ reference.importRef = "" ∧ reference.gitUrl = "") ∨
    (reference.importRef ≠ "" ∧ reference.localPath = "" ∧ reference.gitUrl = "") ∨
      (reference.gitUrl ≠ "" ∧ reference.localPath = "" ∧ reference.importRef = "")

/-- A selector stands behind a remote, and holds nothing that could end it. -/
structure HasSelector (reference : Reference) : Prop where
  behindRemote : reference.tag ≠ "" → reference.gitUrl ≠ ""
  unslashed : '/' ∉ reference.tag.toList
  last : ':' ∉ reference.tag.toList

theorem hasSelector_of_tagless (tagless : reference.tag = "") : reference.HasSelector := by
  refine ⟨fun tagged => absurd tagless tagged, ?_, ?_⟩ <;>
    · rw [tagless]
      exact List.not_mem_nil

/-- Some characters in a field make it a given one. -/
private theorem given_of_toList {field : String} {characters : List Char}
    (toList_eq : field.toList = characters) (given : characters ≠ []) : field ≠ "" := by
  rintro rfl
  exact given toList_eq.symm

/-- However a location reads, one field of it is given, and a selector at most behind a remote. -/
theorem isPlaced_of_isAt (isAt : reference.IsAt (.ofText location)) :
    reference.IsPlaced ∧ reference.HasSelector := by
  by_cases nonempty : location = []
  · subst nonempty
    obtain ⟨here, noUrl, noTag, noImport⟩ := isAt
    have given : reference.localPath ≠ "" := by
      rw [here]
      decide
    exact ⟨.inl ⟨given, noImport, noUrl⟩, hasSelector_of_tagless noTag⟩
  cases foreign : startsLocal location with
  | true =>
      rw [Location.ofText_of_startsLocal foreign] at isAt
      obtain ⟨path_eq, noUrl, noTag, noImport⟩ := isAt
      exact ⟨.inl ⟨given_of_toList path_eq nonempty, noImport, noUrl⟩,
        hasSelector_of_tagless noTag⟩
  | false =>
      cases marked : isPlainName location with
      | true =>
          rw [Location.ofText_of_isPlainName nonempty foreign marked] at isAt
          obtain ⟨import_eq, noPath, noUrl, noTag⟩ := isAt
          exact ⟨.inr (.inl ⟨given_of_toList import_eq nonempty, noPath, noUrl⟩),
            hasSelector_of_tagless noTag⟩
      | false =>
          rw [Location.ofText_of_marked nonempty foreign marked] at isAt
          rcases Location.ofRemote_cases location with
            ⟨gitUrl, tag, -, nonempty, last, unslashed, remote_eq⟩ | ⟨-, remote_eq⟩
          · rw [remote_eq] at isAt
            obtain ⟨url_eq, rfl, noPath, noImport⟩ := isAt
            have given := given_of_toList url_eq nonempty
            exact ⟨.inr (.inr ⟨given, noPath, noImport⟩), fun _ => given, unslashed, last⟩
          · rw [remote_eq] at isAt
            obtain ⟨url_eq, noTag, noPath, noImport⟩ := isAt
            exact ⟨.inr (.inr ⟨given_of_toList url_eq nonempty, noPath, noImport⟩),
              hasSelector_of_tagless (String.toList_eq_nil_iff.mp noTag)⟩

/-! ## What is written of a location -/

/-- A location that may be a remote: something is there, and it does not start as a local path. -/
def IsRemoteForm (location : List Char) : Prop :=
  location ≠ [] ∧ ∀ head ∈ location.head?, head ∉ localStarts

/-- A location and what is written of it: the current directory is not written, nor is a last `:`
with no selector behind it, and anything else is written as it is. -/
inductive Written : List Char → List Char → Prop
  | here : Written ['.'] []
  | unselected {remote : List Char} : IsRemoteForm remote → Written (remote ++ [':']) remote
  | whole {location : List Char} : location ≠ ['.'] →
    (∀ remote, IsRemoteForm remote → location ≠ remote ++ [':']) → Written location location

theorem startsLocal_of_isRemoteForm (isRemote : IsRemoteForm location) (rest : List Char) :
    startsLocal (location ++ rest) = false := by
  obtain ⟨nonempty, starts⟩ := isRemote
  obtain ⟨head, tail, rfl⟩ := List.exists_cons_of_ne_nil nonempty
  rw [Bool.eq_false_iff, ne_eq, startsLocal_iff]
  rintro ⟨first, isFirst, isLocal⟩
  exact starts first isFirst isLocal

/-- The lone `.` is the current directory. -/
theorem location_of_isAt_here (isAt : reference.IsAt (.ofText ['.'])) : reference.location = [] := by
  obtain ⟨path_eq, noUrl, -, noImport⟩ := isAt
  have here : reference.localPath = "." := String.toList_inj.mp path_eq
  exact location_of_here (.inl here) noUrl noImport

/-- A remote with an empty selector is the remote alone. -/
theorem location_of_isAt_unselected (isRemote : IsRemoteForm location)
    (isAt : reference.IsAt (.ofText (location ++ [':']))) : reference.location = location := by
  have marked : isPlainName (location ++ [':']) = false := by
    rw [Bool.eq_false_iff, ne_eq, isPlainName_iff]
    intro plain
    exact plain ':' (by decide) (by simp)
  rw [Location.ofText_of_marked (by simp) (startsLocal_of_isRemoteForm isRemote [':']) marked,
    Location.ofRemote_append isRemote.1 List.not_mem_nil List.not_mem_nil] at isAt
  obtain ⟨url_eq, noTag, -, noImport⟩ := isAt
  rw [location_of_gitUrl (given_of_toList url_eq isRemote.1) (String.toList_eq_nil_iff.mp noTag)
    noImport, url_eq]

theorem written_of_isAt (isAt : reference.IsAt (.ofText location)) :
    Written location reference.location := by
  by_cases here : location = ['.']
  · subst here
    rw [location_of_isAt_here isAt]
    exact .here
  by_cases unselected : ∃ remote, IsRemoteForm remote ∧ location = remote ++ [':']
  · obtain ⟨remote, isRemote, rfl⟩ := unselected
    rw [location_of_isAt_unselected isRemote isAt]
    exact .unselected isRemote
  have whole : ∀ remote, IsRemoteForm remote → location ≠ remote ++ [':'] := by
    intro remote isRemote location_eq
    exact unselected ⟨remote, isRemote, location_eq⟩
  -- The other two cases of a written location are the two that have been left out.
  rcases location_cases isAt with same | ⟨isHere, -⟩ | ⟨location_eq, nonempty, foreign, -⟩
  · rw [same]
    exact .whole here whole
  · exact absurd isHere here
  · refine absurd location_eq (whole _ ⟨nonempty, fun head isHead isLocal => ?_⟩)
    rw [Bool.eq_false_iff, ne_eq, startsLocal_iff, location_eq] at foreign
    exact foreign ⟨head, List.mem_head?_append_of_mem_head? isHead, isLocal⟩

/-! ## Just the reference texts are read -/

/-- What a reference has of the text that it was read from. -/
structure IsReadFrom (kind text : String) (reference : Reference) : Prop where
  kind_eq : reference.variant.kind = kind
  named : reference.name ≠ ""
  name_plain : '+' ∉ reference.name.toList
  isPlaced : reference.IsPlaced
  hasSelector : reference.HasSelector
  /-- But for its location, the text is written again without the white space at its ends. -/
  isWritten : ∃ location, Text.trim text.toList = location ++ '+' :: reference.name.toList ∧
    ∃ written, Written location written ∧
      reference.text.toList = written ++ '+' :: reference.name.toList

theorem isReadFrom_of_parse (reads : parse variant text = .ok reference) :
    IsReadFrom variant.kind text reference := by
  obtain ⟨location, trimmed, named, -, -, reference_eq⟩ := exists_location_of_parse reads
  have variant_eq : reference.variant = variant := by
    rw [← reference_eq]
    cases Location.ofText location <;> rfl
  rw [← variant_eq] at reference_eq
  have isAt := (at_eq_iff.mp reference_eq).2
  obtain ⟨isPlaced, hasSelector⟩ := isPlaced_of_isAt isAt
  exact {
    kind_eq := by rw [variant_eq]
    named := named
    name_plain := plain_of_parse reads
    isPlaced := isPlaced
    hasSelector := hasSelector
    isWritten := ⟨location, trimmed, reference.location, written_of_isAt isAt, String.toList_ofList⟩ }

/-- **Just the texts with a name behind a `+` are read, and nothing of them is lost.**  A text is read
as a reference with one location and a plain name, and written again but for a lone `.` and an empty
selector; what is no reference text is refused. -/
theorem parseAs_keepsText {kind : String} (isKind : kind ∈ ["target", "command"]) (text : String) :
    (IsReferenceText text →
      ∃ reference, parseAs (some kind) text = .ok reference ∧ IsReadFrom kind text reference) ∧
    (¬ IsReferenceText text → parseAs (some kind) text = .error (.notAReference text)) := by
  obtain ⟨variant, ofKind, rfl⟩ : ∃ variant : Variant,
      (some kind).bind Variant.ofKind? = some variant ∧ variant.kind = kind := by
    simp only [List.mem_cons, List.not_mem_nil, or_false] at isKind
    rcases isKind with rfl | rfl
    · exact ⟨.target, rfl, rfl⟩
    · exact ⟨.command, rfl, rfl⟩
  have parseAs_eq : parseAs (some variant.kind) text = parse variant text := by
    rw [parseAs, ofKind]
  rw [parseAs_eq]
  constructor
  · intro isText
    obtain ⟨reference, reads⟩ := parse_of_isReferenceText isText
    exact ⟨reference, reads, isReadFrom_of_parse reads⟩
  · exact parse_of_not_isReferenceText

/-- A command in a remote with a `:` and a `+` of its own, between white space, and a text that lacks
the name. -/
theorem parseAs_keepsText_spaced :
    "command" ∈ ["target", "command"] ∧
      (IsReferenceText " host:a+b/p:v 1+run\n" ∧
        parseAs (some "command") " host:a+b/p:v 1+run\n" =
          .ok { variant := .command, name := "run", gitUrl := "host:a+b/p", tag := "v 1" } ∧
        IsReadFrom "command" " host:a+b/p:v 1+run\n"
          { variant := .command, name := "run", gitUrl := "host:a+b/p", tag := "v 1" }) ∧
      ¬ IsReferenceText "host/p+ " ∧
        parseAs (some "command") "host/p+ " = .error (.notAReference "host/p+ ") := by
  have isKind : "command" ∈ ["target", "command"] := by decide
  have isText : IsReferenceText " host:a+b/p:v 1+run\n" := by
    unfold IsReferenceText
    decide
  have other : ¬ IsReferenceText "host/p+ " := by
    unfold IsReferenceText
    decide
  have reads : parseAs (some "command") " host:a+b/p:v 1+run\n" =
      .ok { variant := .command, name := "run", gitUrl := "host:a+b/p", tag := "v 1" } := by decide
  obtain ⟨reference, found, isRead⟩ := (parseAs_keepsText isKind _).1 isText
  obtain rfl := Except.ok.inj (found.symm.trans reads)
  exact ⟨isKind, ⟨isText, reads, isRead⟩, other, (parseAs_keepsText isKind _).2 other⟩

end Provenance.Reference
