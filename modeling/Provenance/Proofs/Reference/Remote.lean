import Provenance.Git.Client
import Provenance.Proofs.Text.Cut
import Provenance.Remote

/-!
Contract: credentials before the place that a remote URL names.

Owns:
- how `afterFirst`, `replaceFirst` and `dropEnding` pass what they look for;
- `Remote.signed`, a URL with credentials, and `Remote.located`, the location of a place;
- `Remote.canonical_signed`: credentials are no part of the location;
- `Git.firstLine_of_signed`, such a URL on the first line of an output.

Does **not** own: the order in which a location's pieces are told apart elsewhere.

## Why the order of the cuts counts

A user may hold colons and slashes, even those that end a transport.  The transport is cut off
first, at the first place where it can end, and the user after it, so whatever stands in the user
is gone before the first colon of the place is looked for.
-/

set_option autoImplicit false

namespace Provenance

/-! ## Cutting at the first mark -/

namespace Text

/-- A pattern is found where its first character stands for the first time. -/
theorem afterFirst_append {mark : Char} {rest before after : List Char} (absent : mark ∉ before) :
    afterFirst (mark :: rest) (before ++ (mark :: rest ++ after)) = after := by
  have cuts : cutFirst? (mark :: rest) (before ++ (mark :: rest ++ after)) =
      some (before, after) := by
    induction before with
    | nil =>
        have starts : (mark :: rest).isPrefixOf (mark :: (rest ++ after)) = true :=
          List.isPrefixOf_iff_prefix.mpr (List.prefix_append (mark :: rest) after)
        rw [List.nil_append, List.cons_append, cutFirst?, if_pos starts, ← List.cons_append,
          List.drop_left]
    | cons head tail inductionHypothesis =>
        rw [List.mem_cons, not_or] at absent
        have other : ¬ (mark :: rest).isPrefixOf (head :: (tail ++ (mark :: rest ++ after))) = true := by
          simp [List.isPrefixOf, absent.1]
        rw [List.cons_append, cutFirst?, if_neg other, inductionHypothesis absent.2]
        rfl
  rw [afterFirst, cuts]

theorem replaceFirst_ne_nil {old new : Char} {text : List Char} (given : text ≠ []) :
    replaceFirst old new text ≠ [] := by
  cases text with
  | nil => exact absurd rfl given
  | cons head tail =>
      rw [replaceFirst]
      split <;> exact List.cons_ne_nil _ _

/-- Where the new character does not turn up, nothing was replaced. -/
theorem eq_of_replaceFirst {old new : Char} {text replaced : List Char}
    (replaces : replaceFirst old new text = replaced) (absent : new ∉ replaced) : text = replaced := by
  induction text generalizing replaced with
  | nil => exact replaces
  | cons head tail inductionHypothesis =>
      rw [replaceFirst] at replaces
      split at replaces
      · exact absurd (replaces ▸ List.mem_cons_self) absent
      · subst replaces
        rw [← inductionHypothesis rfl fun member => absent (List.mem_cons_of_mem _ member)]

theorem dropEnding_ne_nil {ending text : List Char} (given : text ≠ []) (other : text ≠ ending) :
    dropEnding ending text ≠ [] := by
  unfold dropEnding
  split
  · next isSuffix =>
      obtain ⟨front, rfl⟩ := List.isSuffixOf_iff_suffix.mp isSuffix
      rw [List.length_append, Nat.add_sub_cancel, List.take_left]
      rintro rfl
      exact other (List.nil_append _)
  · exact given

end Text

/-! ## Credentials -/

namespace Remote

open Text (isBlank dropEnding replaceFirst)

/-- A URL with a transport and a user before the place that it names. -/
def signed (transport user place : String) : String :=
  transport ++ "://" ++ user ++ "@" ++ place

/-- A transport and a user that can be told apart from what follows them.  The user may hold colons
and slashes. -/
structure AreCredentials (transport user : String) : Prop where
  transport_plain : ':' ∉ transport.toList
  user_plain : '@' ∉ user.toList
  visible : ∀ character ∈ transport.toList ++ user.toList, isBlank character = false

/-- A place with something to it, without white space at its end. -/
structure IsPlace (place : String) : Prop where
  given : place ≠ ""
  named : place ≠ ".git"
  ends : ∀ last ∈ place.toList.getLast?, isBlank last = false

/-- The location of a place: its first colon is turned into a slash, and one `.git` at its end is
dropped. -/
def located (place : String) : String :=
  String.ofList (dropEnding ".git".toList (replaceFirst ':' '/' place.toList))

variable {transport user place : String}

theorem toList_signed :
    (signed transport user place).toList =
      transport.toList ++ ("://".toList ++ (user.toList ++ ("@".toList ++ place.toList))) := by
  simp only [signed, String.toList_append, List.append_assoc]

/-- A transport and a user are dropped if each can be told apart from what follows it. -/
theorem canonical_signed_of_plain (transport_plain : ':' ∉ transport.toList)
    (user_plain : '@' ∉ user.toList) :
    canonical (signed transport user place) = located place := by
  have afterTransport : withoutTransport (signed transport user place).toList =
      user.toList ++ ("@".toList ++ place.toList) := by
    rw [toList_signed]
    exact Text.afterFirst_append transport_plain
  have afterUser : withoutUser (user.toList ++ ("@".toList ++ place.toList)) = place.toList :=
    Text.afterFirst_append user_plain
  rw [canonical, canonicalCharacters, afterTransport, afterUser]
  rfl

/-- **Credentials are no part of a location.** -/
theorem canonical_signed (credentials : AreCredentials transport user) :
    canonical (signed transport user place) = located place :=
  canonical_signed_of_plain credentials.transport_plain credentials.user_plain

theorem located_ne_empty (isPlace : IsPlace place) : located place ≠ "" := by
  have given : place.toList ≠ [] := fun empty => isPlace.given (String.toList_eq_nil_iff.mp empty)
  have named : replaceFirst ':' '/' place.toList ≠ ".git".toList := fun replaces =>
    isPlace.named (String.toList_inj.mp (Text.eq_of_replaceFirst replaces (by decide)))
  intro empty
  refine Text.dropEnding_ne_nil (Text.replaceFirst_ne_nil given) named ?_
  exact String.ofList_eq_empty_iff.mp empty

/-- There is no white space at the ends of such a URL. -/
theorem trim_signed (credentials : AreCredentials transport user) (isPlace : IsPlace place) :
    Text.trim (signed transport user place).toList = (signed transport user place).toList := by
  have starts : ∀ head ∈ (signed transport user place).toList.head?, isBlank head = false := by
    rw [toList_signed]
    intro head isHead
    cases given : transport.toList with
    | nil =>
        rw [given] at isHead
        obtain rfl := Option.some.inj isHead
        decide
    | cons first rest =>
        rw [given] at isHead
        obtain rfl := Option.some.inj isHead
        exact credentials.visible first (by rw [given]; exact List.mem_append_left _ List.mem_cons_self)
  have ends : ∀ last ∈ (signed transport user place).toList.getLast?, isBlank last = false := by
    have given : place.toList ≠ [] := fun empty => isPlace.given (String.toList_eq_nil_iff.mp empty)
    rw [toList_signed, ← List.append_assoc, ← List.append_assoc, ← List.append_assoc,
      List.getLast?_append_of_ne_nil _ given]
    exact isPlace.ends
  rw [Text.trim, Text.trimLeft_eq_self_iff.mpr starts, Text.trimRight_eq_self_iff.mpr ends]

end Remote

/-! ## On the first line -/

namespace Git

open Remote (AreCredentials IsPlace signed)

variable {transport user place output : String}

theorem firstLine_of_signed (credentials : AreCredentials transport user) (isPlace : IsPlace place)
    (prints : output.toList.takeWhile (· ≠ '\n') = (signed transport user place).toList) :
    firstLine output = signed transport user place := by
  rw [firstLine, prints, Remote.trim_signed credentials isPlace, String.ofList_toList]

theorem isBlankText_of_signed
    (prints : output.toList.takeWhile (· ≠ '\n') = (signed transport user place).toList) :
    Text.isBlankText output = false := by
  have marked : '@' ∈ output.toList.takeWhile (· ≠ '\n') := by
    rw [prints, Remote.toList_signed]
    simp
  refine Bool.eq_false_iff.mpr fun blank => ?_
  have isBlank := List.all_eq_true.mp blank '@' ((List.takeWhile_subset _) marked)
  exact absurd isBlank (by decide)

end Git
end Provenance
