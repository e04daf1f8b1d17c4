import Provenance.Proofs.Text.Cut
import Provenance.Reference

/-!
Contract: which references are read back from their texts.

Owns:
- `Reference.Shape`, the five forms of a canonical location, and
  `Reference.IsCanonical`;
- `Reference.parse_text_iff`, the law that just the canonical references are read
  back.

Does **not** own: pinning, and what a reference refers to.

## Why the shapes exclude each other

A text keeps only one way of giving the location, so a reference that gives two of
them loses one.  What is read back from a text gives exactly one, in the form that
its first character, its separators and its last `:` decide.
-/

set_option autoImplicit false

namespace Provenance.Reference

open Text (isBlank cutLast? trimLeft trimRight)

/-- The forms of a location. -/
inductive Shape where
  /-- The current directory. -/
  | here
  /-- Another local path. -/
  | path
  | imported
  /-- A remote with a selector. -/
  | selected
  /-- A remote without one. -/
  | remote
  deriving DecidableEq, Repr

/-- The characters that a local path starts with. -/
def localStarts : List Char := ['.', '/', '~']

/-- The characters that tell a remote from the name of an import. -/
def remoteMarks : List Char := ['/', '.', ':']

/-- A remote as it is written: it starts neither like a local path nor with white space. -/
def StartsRemote (gitUrl : String) : Prop :=
  ∀ head ∈ gitUrl.toList.head?, head ∉ localStarts ∧ isBlank head = false

/-- Whether a location has some form, with no other field given. -/
def Shape.Fits (reference : Reference) : Shape → Prop
  | .here =>
    reference.localPath = "." ∧ reference.gitUrl = "" ∧ reference.tag = "" ∧
      reference.importRef = ""
  | .path =>
    (∃ head ∈ reference.localPath.toList.head?, head ∈ localStarts) ∧
      reference.localPath ≠ "." ∧ reference.gitUrl = "" ∧ reference.tag = "" ∧
      reference.importRef = ""
  | .imported =>
    reference.importRef ≠ "" ∧ (∀ mark ∈ remoteMarks, mark ∉ reference.importRef.toList) ∧
      (∀ head ∈ reference.importRef.toList.head?, head ≠ '~' ∧ isBlank head = false) ∧
      reference.localPath = "" ∧ reference.gitUrl = "" ∧ reference.tag = ""
  | .selected =>
    reference.gitUrl ≠ "" ∧ reference.tag ≠ "" ∧
      ('/' ∉ reference.tag.toList ∧ ':' ∉ reference.tag.toList) ∧
      StartsRemote reference.gitUrl ∧ reference.localPath = "" ∧ reference.importRef = ""
  | .remote =>
    reference.gitUrl ≠ "" ∧ reference.tag = "" ∧ StartsRemote reference.gitUrl ∧
      (∃ mark ∈ remoteMarks, mark ∈ reference.gitUrl.toList) ∧
      (∀ before after, reference.gitUrl.toList = before ++ ':' :: after → ':' ∉ after →
        before = [] ∨ '/' ∈ after) ∧
      reference.localPath = "" ∧ reference.importRef = ""

/-- A reference that its text gives back. -/
structure IsCanonical (reference : Reference) : Prop where
  named : reference.name ≠ ""
  name_plain : '+' ∉ reference.name.toList
  name_ends : ∀ last ∈ reference.name.toList.getLast?, isBlank last = false
  shaped : ∃! shape : Shape, shape.Fits reference

/-! ## Locations by their texts -/

theorem startsLocal_iff {text : List Char} :
    startsLocal text = true ↔ ∃ head ∈ text.head?, head ∈ localStarts := by
  cases text with
  | nil => simp [startsLocal]
  | cons head tail => simp [startsLocal, localStarts, or_assoc]

theorem isPlainName_iff {text : List Char} :
    isPlainName text = true ↔ ∀ mark ∈ remoteMarks, mark ∉ text := by
  simp [isPlainName, remoteMarks, and_assoc]

namespace Location

variable {text : List Char}

theorem ofText_of_startsLocal (starts : startsLocal text = true) :
    ofText text = .localPath text := by
  have nonempty : text.isEmpty = false := by
    cases text with
    | nil => cases starts
    | cons head tail => rfl
  simp [ofText, nonempty, starts]

theorem ofText_of_isPlainName (nonempty : text ≠ []) (foreign : startsLocal text = false)
    (plain : isPlainName text = true) : ofText text = .importRef text := by
  simp [ofText, nonempty, foreign, plain]

theorem ofText_of_marked (nonempty : text ≠ []) (foreign : startsLocal text = false)
    (marked : isPlainName text = false) : ofText text = .ofRemote text := by
  simp [ofText, nonempty, foreign, marked]

/-- A remote is cut at its last `:`, or it is taken as a whole. -/
theorem ofRemote_cases (text : List Char) :
    (∃ gitUrl tag, text = gitUrl ++ ':' :: tag ∧ gitUrl ≠ [] ∧ ':' ∉ tag ∧ '/' ∉ tag ∧
        ofRemote text = .remote gitUrl tag) ∨
      ((∀ before after, text = before ++ ':' :: after → ':' ∉ after →
          before = [] ∨ '/' ∈ after) ∧
        ofRemote text = .remote text []) := by
  unfold ofRemote
  cases cut : cutLast? ':' text with
  | none =>
      refine .inr ⟨fun before after text_eq _ => ?_, rfl⟩
      have unmarked := Text.cutLast?_eq_none_iff.mp cut
      rw [text_eq] at unmarked
      exact absurd (by simp) unmarked
  | some pieces =>
      obtain ⟨front, back⟩ := pieces
      obtain ⟨text_eq, last⟩ := Text.eq_append_of_cutLast? cut
      by_cases whole : (front.isEmpty || back.contains '/') = true
      · refine .inr ⟨fun before after same later => ?_, by simp only [if_pos whole]⟩
        rw [same, Text.cutLast?_append later] at cut
        obtain ⟨rfl, rfl⟩ := Prod.mk.inj (Option.some.inj cut)
        simpa using whole
      · obtain ⟨nonempty, unslashed⟩ : front ≠ [] ∧ '/' ∉ back := by simpa using whole
        exact .inl ⟨front, back, text_eq, nonempty, last, unslashed, by simp only [if_neg whole]⟩

theorem ofRemote_append {gitUrl tag : List Char} (nonempty : gitUrl ≠ []) (last : ':' ∉ tag)
    (unslashed : '/' ∉ tag) : ofRemote (gitUrl ++ ':' :: tag) = .remote gitUrl tag := by
  unfold ofRemote
  rw [Text.cutLast?_append last]
  simp [nonempty, unslashed]

theorem ofRemote_of_whole
    (whole : ∀ before after, text = before ++ ':' :: after → ':' ∉ after →
      before = [] ∨ '/' ∈ after) : ofRemote text = .remote text [] := by
  rcases ofRemote_cases text with ⟨gitUrl, tag, text_eq, nonempty, last, unslashed, -⟩ | ⟨-, whole_eq⟩
  · exact ((whole gitUrl tag text_eq last).elim nonempty unslashed).elim
  · exact whole_eq

end Location

/-! ## What is read off the text of a reference -/

section Reading

variable {reference : Reference}

/-- The text of a reference is read as its name behind its location, both trimmed. -/
theorem parse_text (variant : Variant) (plain : '+' ∉ reference.name.toList) :
    parse variant reference.text =
      if (trimRight reference.name.toList).isEmpty then
        .error (.notAReference reference.text)
      else
        .ok (at_ variant (trimRight reference.name.toList)
          (.ofText (trimLeft reference.location))) := by
  have visible : isBlank '+' = false := by decide
  have trimmed_plain : '+' ∉ trimRight reference.name.toList := fun member =>
    plain (Text.mem_of_mem_trimRight member)
  unfold parse
  rw [show reference.text.toList = reference.location ++ '+' :: reference.name.toList from
    String.toList_ofList, Text.trim_append_cons visible, Text.cutLast?_append trimmed_plain]

theorem plain_of_parse {variant : Variant} {text : String}
    (reads : parse variant text = .ok reference) : '+' ∉ reference.name.toList := by
  have at_name (name : List Char) (location : Location) :
      (at_ variant name location).name = String.ofList name := by
    cases location <;> rfl
  unfold parse at reads
  split at reads
  · next location name cut =>
      split at reads
      · cases reads
      · rw [← Except.ok.inj reads, at_name, String.toList_ofList]
        exact (Text.eq_append_of_cutLast? cut).2
  · cases reads

/-- Whether the location of a reference is just the one that was read. -/
def IsAt (reference : Reference) : Location → Prop
  | .here =>
    reference.localPath = "." ∧ reference.gitUrl = "" ∧ reference.tag = "" ∧
      reference.importRef = ""
  | .localPath path =>
    reference.localPath.toList = path ∧ reference.gitUrl = "" ∧ reference.tag = "" ∧
      reference.importRef = ""
  | .importRef imported =>
    reference.importRef.toList = imported ∧ reference.localPath = "" ∧ reference.gitUrl = "" ∧
      reference.tag = ""
  | .remote gitUrl tag =>
    reference.gitUrl.toList = gitUrl ∧ reference.tag.toList = tag ∧ reference.localPath = "" ∧
      reference.importRef = ""

/-- The reference of a name at a location is the one with this name that is there. -/
theorem at_eq_iff {name : List Char} {location : Location} :
    at_ reference.variant name location = reference ↔
      name = reference.name.toList ∧ reference.IsAt location := by
  obtain ⟨variant, givenName, gitUrl, tag, localPath, importRef⟩ := reference
  constructor
  · intro same
    cases location <;>
      simp only [at_, mk.injEq] at same <;>
      obtain ⟨-, rfl, rfl, rfl, rfl, rfl⟩ := same <;>
      simp [IsAt]
  · rintro ⟨rfl, located⟩
    cases location <;>
      obtain ⟨rfl, rfl, rfl, rfl⟩ := located <;>
      simp [at_]

end Reading

/-! ## Which locations are read back -/

section Locations

variable {reference : Reference}

theorem location_of_here (here : reference.localPath = "." ∨ reference.localPath = "")
    (noUrl : reference.gitUrl = "") (noImport : reference.importRef = "") :
    reference.location = [] := by
  rcases here with here | here <;>
    simp [location, isLocalInternal, here, noUrl, noImport]

theorem location_of_localPath (given : reference.localPath ≠ "")
    (elsewhere : reference.localPath ≠ ".") (noUrl : reference.gitUrl = "")
    (noImport : reference.importRef = "") :
    reference.location = reference.localPath.toList := by
  simp [location, isLocalInternal, given, elsewhere, noUrl, noImport]

theorem location_of_importRef (given : reference.importRef ≠ "") :
    reference.location = reference.importRef.toList := by
  simp [location, given]

theorem location_of_gitUrl (given : reference.gitUrl ≠ "") (noTag : reference.tag = "")
    (noImport : reference.importRef = "") :
    reference.location = reference.gitUrl.toList := by
  simp [location, given, noTag, noImport]

theorem location_of_tag (given : reference.gitUrl ≠ "") (tagged : reference.tag ≠ "")
    (noImport : reference.importRef = "") :
    reference.location = reference.gitUrl.toList ++ ':' :: reference.tag.toList := by
  simp [location, given, tagged, noImport]

private theorem visible_of_mem_localStarts {head : Char} (member : head ∈ localStarts) :
    isBlank head = false := by
  simp only [localStarts, List.mem_cons, List.not_mem_nil, or_false] at member
  rcases member with rfl | rfl | rfl <;> decide

/-- A remote starts as it is written just if, whatever follows it, it neither reads as a local path
nor is trimmed. -/
private theorem startsRemote_iff {gitUrl : String} (given : gitUrl ≠ "") (rest : List Char) :
    StartsRemote gitUrl ↔
      startsLocal (gitUrl.toList ++ rest) = false ∧
        trimLeft (gitUrl.toList ++ rest) = gitUrl.toList ++ rest := by
  have head_eq : (gitUrl.toList ++ rest).head? = gitUrl.toList.head? := by
    cases characters : gitUrl.toList with
    | nil => exact absurd (String.toList_eq_nil_iff.mp characters) given
    | cons head tail => rfl
  rw [Bool.eq_false_iff, ne_eq, startsLocal_iff, Text.trimLeft_eq_self_iff, head_eq]
  constructor
  · intro starts
    exact ⟨fun ⟨head, member, isLocal⟩ => (starts head member).1 isLocal,
      fun head member => (starts head member).2⟩
  · rintro ⟨foreign, visible⟩ head member
    exact ⟨fun isLocal => foreign ⟨head, member, isLocal⟩, visible head member⟩

/-- A location of some form is read back. -/
theorem isAt_of_fits {shape : Shape} (fits : shape.Fits reference) :
    reference.IsAt (.ofText (trimLeft reference.location)) := by
  cases shape with
  | here =>
      obtain ⟨here, noUrl, noTag, noImport⟩ := fits
      rw [location_of_here (.inl here) noUrl noImport]
      exact ⟨here, noUrl, noTag, noImport⟩
  | path =>
      obtain ⟨⟨head, member, isLocal⟩, elsewhere, noUrl, noTag, noImport⟩ := fits
      have given : reference.localPath ≠ "" := by
        intro absent
        rw [absent] at member
        cases member
      have starts : startsLocal reference.localPath.toList = true :=
        startsLocal_iff.mpr ⟨head, member, isLocal⟩
      have trimmed : trimLeft reference.localPath.toList = reference.localPath.toList := by
        rw [Text.trimLeft_eq_self_iff]
        intro other same
        obtain rfl := Option.mem_unique member same
        exact visible_of_mem_localStarts isLocal
      rw [location_of_localPath given elsewhere noUrl noImport, trimmed,
        Location.ofText_of_startsLocal starts]
      exact ⟨rfl, noUrl, noTag, noImport⟩
  | imported =>
      obtain ⟨given, plain, starts, noPath, noUrl, noTag⟩ := fits
      have foreign : startsLocal reference.importRef.toList = false := by
        rw [Bool.eq_false_iff, ne_eq, startsLocal_iff]
        rintro ⟨head, member, isLocal⟩
        have inside := List.mem_of_mem_head? member
        simp only [localStarts, List.mem_cons, List.not_mem_nil, or_false] at isLocal
        rcases isLocal with rfl | rfl | rfl
        · exact plain '.' (by decide) inside
        · exact plain '/' (by decide) inside
        · exact (starts '~' member).1 rfl
      have trimmed : trimLeft reference.importRef.toList = reference.importRef.toList :=
        Text.trimLeft_eq_self_iff.mpr fun head member => (starts head member).2
      rw [location_of_importRef given, trimmed,
        Location.ofText_of_isPlainName (by simpa using given) foreign (isPlainName_iff.mpr plain)]
      exact ⟨rfl, noPath, noUrl, noTag⟩
  | selected =>
      obtain ⟨given, tagged, ⟨unslashed, last⟩, starts, noPath, noImport⟩ := fits
      obtain ⟨foreign, trimmed⟩ :=
        (startsRemote_iff given (':' :: reference.tag.toList)).mp starts
      have marked : isPlainName (reference.gitUrl.toList ++ ':' :: reference.tag.toList) = false := by
        rw [Bool.eq_false_iff, ne_eq, isPlainName_iff]
        exact fun plain => plain ':' (by decide) (by simp)
      rw [location_of_tag given tagged noImport, trimmed,
        Location.ofText_of_marked (by simp) foreign marked,
        Location.ofRemote_append (by simpa using given) last unslashed]
      exact ⟨rfl, rfl, noPath, noImport⟩
  | remote =>
      obtain ⟨given, noTag, starts, ⟨mark, isMark, inside⟩, whole, noPath, noImport⟩ := fits
      obtain ⟨foreign, trimmed⟩ := (startsRemote_iff given []).mp starts
      rw [List.append_nil] at foreign trimmed
      have marked : isPlainName reference.gitUrl.toList = false := by
        rw [Bool.eq_false_iff, ne_eq, isPlainName_iff]
        exact fun plain => plain mark isMark inside
      rw [location_of_gitUrl given noTag noImport, trimmed,
        Location.ofText_of_marked (by simpa using given) foreign marked,
        Location.ofRemote_of_whole whole]
      exact ⟨rfl, by simp [noTag], noPath, noImport⟩

private theorem fits_path (starts : startsLocal (trimLeft reference.location) = true)
    (isAt : reference.IsAt (.localPath (trimLeft reference.location))) :
    Shape.path.Fits reference := by
  obtain ⟨path_eq, noUrl, noTag, noImport⟩ := isAt
  obtain ⟨head, member, isLocal⟩ := startsLocal_iff.mp starts
  refine ⟨⟨head, by rw [path_eq]; exact member, isLocal⟩, ?_, noUrl, noTag, noImport⟩
  intro here
  rw [location_of_here (.inl here) noUrl noImport] at member
  cases member

private theorem fits_imported (nonempty : trimLeft reference.location ≠ [])
    (foreign : startsLocal (trimLeft reference.location) = false)
    (plain : isPlainName (trimLeft reference.location) = true)
    (isAt : reference.IsAt (.importRef (trimLeft reference.location))) :
    Shape.imported.Fits reference := by
  obtain ⟨import_eq, noPath, noUrl, noTag⟩ := isAt
  have given : reference.importRef ≠ "" := by
    intro absent
    rw [absent] at import_eq
    exact nonempty import_eq.symm
  rw [location_of_importRef given] at import_eq foreign plain
  rw [← import_eq] at foreign plain
  refine ⟨given, isPlainName_iff.mp plain, ?_, noPath, noUrl, noTag⟩
  intro head member
  refine ⟨?_, Text.trimLeft_eq_self_iff.mp import_eq.symm head member⟩
  rintro rfl
  rw [startsLocal_iff.mpr ⟨'~', member, by decide⟩] at foreign
  cases foreign

private theorem fits_selected {gitUrl tag : List Char}
    (cut : trimLeft reference.location = gitUrl ++ ':' :: tag) (nonempty : gitUrl ≠ [])
    (last : ':' ∉ tag) (unslashed : '/' ∉ tag)
    (foreign : startsLocal (trimLeft reference.location) = false)
    (isAt : reference.IsAt (.remote gitUrl tag)) : Shape.selected.Fits reference := by
  obtain ⟨rfl, rfl, noPath, noImport⟩ := isAt
  have given : reference.gitUrl ≠ "" := by simpa using nonempty
  have tagged : reference.tag ≠ "" := by
    intro noTag
    -- Without a selector the text would be longer than the location it is trimmed from.
    have shorter : (trimLeft reference.location).length ≤ reference.location.length :=
      List.length_dropWhile_le _ _
    rw [cut, location_of_gitUrl given noTag noImport, List.length_append,
      List.length_cons] at shorter
    omega
  rw [location_of_tag given tagged noImport] at cut foreign
  rw [cut] at foreign
  exact ⟨given, tagged, ⟨unslashed, last⟩, (startsRemote_iff given _).mpr ⟨foreign, cut⟩, noPath,
    noImport⟩

private theorem fits_remote (nonempty : trimLeft reference.location ≠ [])
    (foreign : startsLocal (trimLeft reference.location) = false)
    (marked : isPlainName (trimLeft reference.location) = false)
    (whole : ∀ before after, trimLeft reference.location = before ++ ':' :: after → ':' ∉ after →
      before = [] ∨ '/' ∈ after)
    (isAt : reference.IsAt (.remote (trimLeft reference.location) [])) :
    Shape.remote.Fits reference := by
  obtain ⟨url_eq, noTag, noPath, noImport⟩ := isAt
  replace noTag : reference.tag = "" := by simpa using noTag
  have given : reference.gitUrl ≠ "" := by
    intro absent
    rw [absent] at url_eq
    exact nonempty url_eq.symm
  rw [location_of_gitUrl given noTag noImport] at url_eq foreign marked whole
  rw [← url_eq] at foreign marked whole
  have starts : StartsRemote reference.gitUrl := by
    rw [startsRemote_iff given [], List.append_nil]
    exact ⟨foreign, url_eq.symm⟩
  have isMarked : ∃ mark ∈ remoteMarks, mark ∈ reference.gitUrl.toList := by
    rw [Bool.eq_false_iff, ne_eq, isPlainName_iff] at marked
    simpa using marked
  exact ⟨given, noTag, starts, isMarked, whole, noPath, noImport⟩

/-- A location that is read back is of some form. -/
theorem exists_fits_of_isAt
    (isAt : reference.IsAt (.ofText (trimLeft reference.location))) :
    ∃ shape : Shape, shape.Fits reference := by
  by_cases nonempty : trimLeft reference.location = []
  · rw [nonempty] at isAt
    exact ⟨.here, isAt⟩
  cases foreign : startsLocal (trimLeft reference.location) with
  | true =>
      rw [Location.ofText_of_startsLocal foreign] at isAt
      exact ⟨.path, fits_path foreign isAt⟩
  | false =>
      cases marked : isPlainName (trimLeft reference.location) with
      | true =>
          rw [Location.ofText_of_isPlainName nonempty foreign marked] at isAt
          exact ⟨.imported, fits_imported nonempty foreign marked isAt⟩
      | false =>
          rw [Location.ofText_of_marked nonempty foreign marked] at isAt
          rcases Location.ofRemote_cases (trimLeft reference.location) with
            ⟨gitUrl, tag, cut, given, last, unslashed, remote_eq⟩ | ⟨whole, remote_eq⟩
          · rw [remote_eq] at isAt
            exact ⟨.selected, fits_selected cut given last unslashed foreign isAt⟩
          · rw [remote_eq] at isAt
            exact ⟨.remote, fits_remote nonempty foreign marked whole isAt⟩

/-- A location is of one form at most. -/
theorem fits_unique {shape other : Shape} (fits : shape.Fits reference)
    (fitsOther : other.Fits reference) : shape = other := by
  cases shape <;> cases other <;> simp_all [Shape.Fits]

end Locations

/-! ## Which references are read back -/

theorem parse_text_eq_ok_iff (reference : Reference) :
    parse reference.variant reference.text = .ok reference ↔
      (reference.name ≠ "" ∧ '+' ∉ reference.name.toList ∧
        trimRight reference.name.toList = reference.name.toList) ∧
        reference.IsAt (.ofText (trimLeft reference.location)) := by
  constructor
  · intro reads
    have plain := plain_of_parse reads
    rw [parse_text reference.variant plain] at reads
    split at reads
    · cases reads
    · next nonempty =>
        obtain ⟨trimmed, isAt⟩ := at_eq_iff.mp (Except.ok.inj reads)
        rw [trimmed] at nonempty
        exact ⟨⟨by simpa using nonempty, plain, trimmed⟩, isAt⟩
  · rintro ⟨⟨named, plain, trimmed⟩, isAt⟩
    rw [parse_text reference.variant plain, trimmed, if_neg (by simpa using named)]
    exact congrArg Except.ok (at_eq_iff.mpr ⟨rfl, isAt⟩)

/-- **Just the canonical references are read back from their texts.**  A target or command is what
its text denotes if and only if its name is plain and its location has exactly one of the five
forms. -/
theorem parseAs_text_iff (reference : Reference)
    (isParsable : reference.variant = .target ∨ reference.variant = .command) :
    parseAs (some reference.variant.kind) reference.text = .ok reference ↔
      reference.IsCanonical := by
  have parseAs_eq : parseAs (some reference.variant.kind) reference.text =
      parse reference.variant reference.text := by
    rcases isParsable with isTarget | isCommand
    · rw [isTarget]
      rfl
    · rw [isCommand]
      rfl
  rw [parseAs_eq, parse_text_eq_ok_iff]
  constructor
  · rintro ⟨⟨named, plain, trimmed⟩, isAt⟩
    obtain ⟨shape, fits⟩ := exists_fits_of_isAt isAt
    exact {
      named := named
      name_plain := plain
      name_ends := Text.trimRight_eq_self_iff.mp trimmed
      shaped := ⟨shape, fits, fun other fitsOther => fits_unique fitsOther fits⟩ }
  · rintro ⟨named, plain, ends, shape, fits, -⟩
    exact ⟨⟨named, plain, Text.trimRight_eq_self_iff.mpr ends⟩, isAt_of_fits fits⟩

/-- The law at work: a remote with a selector is read back, so its reference is canonical. -/
theorem parseAs_text_iff_selected :
    let reference : Reference :=
      { name := "build", gitUrl := "host/project", tag := "v1.0" }
    (reference.variant = .target ∨ reference.variant = .command) ∧
      parseAs (some reference.variant.kind) reference.text = .ok reference ∧
        reference.IsCanonical := by
  intro reference
  have isParsable : reference.variant = .target ∨ reference.variant = .command := .inl rfl
  have reads : parseAs (some reference.variant.kind) reference.text = .ok reference := by decide
  exact ⟨isParsable, reads, (parseAs_text_iff reference isParsable).mp reads⟩

end Provenance.Reference
