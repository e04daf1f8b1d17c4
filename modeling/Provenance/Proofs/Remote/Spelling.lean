import Provenance.Proofs.Reference.Remote
import Provenance.Proofs.Text.First

/-!
Contract: the ways to write one remote.

Owns:
- `Opened` and `Stripped`: what becomes of a place's first colon, and of the ending of its name;
- `spellings`, a place with and without a transport and a user;
- `canonical_eq_located`: what all spellings of a place have as their location;
- `canonical_spellings`: so they have one, and so do the two ways to write a host and a path.

Does **not** own: texts that are no spelling of a place.

## Which places can be spelled

A place with an `@` would lose what stands before it, and one with a `://` what stands before that.
A path that begins with two slashes makes a transport of the colon before it.
-/

set_option autoImplicit false

namespace Provenance.Remote

open Text (afterFirst replaceFirst dropEnding)

variable {scheme user place opened location host path text short spelling : String}

/-! ## The location of a place -/

/-- A text and the same text with its first colon, if it has one, turned into a slash. -/
inductive Opened : String → String → Prop
  | colon {host : String} (path : String) :
    ':' ∉ host.toList → Opened (host ++ ":" ++ path) (host ++ "/" ++ path)
  | plain {place : String} : ':' ∉ place.toList → Opened place place

/-- A text and the same text without one `.git` at its end, if it ends so. -/
inductive Stripped : String → String → Prop
  | ending (front : String) : Stripped (front ++ ".git") front
  | plain {text : String} : (∀ front, text ≠ front ++ ".git") → Stripped text text

theorem exists_opened (place : String) : ∃ opened, Opened place opened := by
  by_cases isThere : ':' ∈ place.toList
  · obtain ⟨host, path, place_eq, first⟩ := List.eq_append_cons_of_mem isThere
    have pieces : place = String.ofList host ++ ":" ++ String.ofList path := by
      rw [← String.toList_inj, place_eq]
      simp
    rw [pieces]
    exact ⟨_, .colon _ (by rwa [String.toList_ofList])⟩
  · exact ⟨place, .plain isThere⟩

theorem exists_stripped (text : String) : ∃ short, Stripped text short := by
  by_cases ends : ∃ front, text = front ++ ".git"
  · obtain ⟨front, rfl⟩ := ends
    exact ⟨front, .ending front⟩
  · exact ⟨text, .plain (not_exists.mp ends)⟩

theorem replaceFirst_of_opened (isOpened : Opened place opened) :
    replaceFirst ':' '/' place.toList = opened.toList := by
  cases isOpened with
  | @colon host path first =>
      have replaces : replaceFirst ':' '/' (host.toList ++ ':' :: path.toList) =
          host.toList ++ '/' :: path.toList := Text.replaceFirst_append first
      simpa using replaces
  | plain absent => exact Text.replaceFirst_of_not_mem absent

theorem dropEnding_of_stripped (isStripped : Stripped text short) :
    dropEnding ".git".toList text.toList = short.toList := by
  cases isStripped with
  | ending => rw [String.toList_append, Text.dropEnding_append]
  | plain other =>
      refine Text.dropEnding_of_not_suffix ?_
      rintro ⟨front, ends⟩
      refine other (String.ofList front) ?_
      rw [← String.toList_inj, String.toList_append, String.toList_ofList, ends]

/-- The location of a place is the place with its colon opened and its ending stripped. -/
theorem located_eq (isOpened : Opened place opened) (isStripped : Stripped opened location) :
    located place = location := by
  rw [located, replaceFirst_of_opened isOpened, dropEnding_of_stripped isStripped,
    String.ofList_toList]

/-- An ending of a path is stripped together with what stands before the path. -/
theorem Stripped.behind (host : String) (isStripped : Stripped path short) :
    Stripped (host ++ "/" ++ path) (host ++ "/" ++ short) := by
  cases isStripped with
  | ending =>
      rw [← String.append_assoc]
      exact .ending (host ++ "/" ++ short)
  | plain other =>
      refine .plain fun front ends => ?_
      have suffix : ".git".toList <:+ host.toList ++ '/' :: path.toList := by
        refine ⟨front.toList, ?_⟩
        have characters := congrArg String.toList ends
        simpa using characters.symm
      obtain ⟨rest, path_eq⟩ := Text.suffix_of_suffix_append_cons (by decide) suffix
      refine other (String.ofList rest) ?_
      rw [← String.toList_inj, String.toList_append, String.toList_ofList, path_eq]

/-! ## Spellings of a place -/

/-- A place alone, with a transport, with a user, and with both. -/
def spellings (scheme user place : String) : List String :=
  [place, scheme ++ "://" ++ place, user ++ "@" ++ place, signed scheme user place]

/-- A place in which nothing can be taken for a user or a transport before it. -/
structure IsBare (place : String) : Prop where
  userless : '@' ∉ place.toList
  transportless : ¬ "://".toList <:+: place.toList

theorem IsBare.withoutUser (isBare : IsBare place) : withoutUser place.toList = place.toList := by
  refine Text.afterFirst_eq_self fun inside => isBare.userless ?_
  exact inside.subset List.mem_cons_self

theorem IsBare.withoutTransport (isBare : IsBare place) :
    withoutTransport place.toList = place.toList :=
  Text.afterFirst_eq_self isBare.transportless

theorem canonical_of_bare (isBare : IsBare place) : canonical place = located place := by
  rw [canonical, canonicalCharacters, isBare.withoutTransport, isBare.withoutUser]
  rfl

/-- Without colons there is no transport. -/
theorem isBare_of_not_mem (colonless : ':' ∉ place.toList) (userless : '@' ∉ place.toList) :
    IsBare place :=
  ⟨userless, fun inside => colonless (inside.subset List.mem_cons_self)⟩

theorem ending_mem_spellings (isSpelling : spelling ∈ spellings scheme user place) :
    spelling ++ ".git" ∈ spellings scheme user (place ++ ".git") := by
  simp only [spellings, signed, List.mem_cons, List.not_mem_nil, or_false] at isSpelling ⊢
  rcases isSpelling with rfl | rfl | rfl | rfl <;> simp [String.append_assoc]

section Labels

variable (scheme_plain : ':' ∉ scheme.toList) (user_plain : '@' ∉ user.toList)
  (user_transportless : ¬ "://".toList <:+: user.toList)

include scheme_plain user_plain user_transportless

/-- Every spelling of a place has the location of the place. -/
theorem canonical_eq_located (isBare : IsBare place)
    (isSpelling : spelling ∈ spellings scheme user place) :
    canonical spelling = located place := by
  simp only [spellings, List.mem_cons, List.not_mem_nil, or_false] at isSpelling
  rcases isSpelling with rfl | rfl | rfl | rfl
  · exact canonical_of_bare isBare
  · have afterTransport :
        withoutTransport (scheme ++ "://" ++ place).toList = place.toList := by
      rw [String.toList_append, String.toList_append, List.append_assoc]
      exact Text.afterFirst_append scheme_plain
    rw [canonical, canonicalCharacters, afterTransport, isBare.withoutUser]
    rfl
  · have characters : (user ++ "@" ++ place).toList = user.toList ++ ("@".toList ++ place.toList) := by
      rw [String.toList_append, String.toList_append, List.append_assoc]
    have noTransport : withoutTransport (user ++ "@" ++ place).toList =
        user.toList ++ ("@".toList ++ place.toList) := by
      rw [withoutTransport, Text.afterFirst_eq_self, characters]
      intro inside
      rw [characters] at inside
      rcases Text.infix_of_infix_append_cons (by decide) inside with inUser | inPlace
      · exact user_transportless inUser
      · exact isBare.transportless inPlace
    have afterUser : Remote.withoutUser (user.toList ++ ("@".toList ++ place.toList)) = place.toList :=
      Text.afterFirst_append user_plain
    rw [canonical, canonicalCharacters, noTransport, afterUser]
    rfl
  · exact canonical_signed_of_plain scheme_plain user_plain

end Labels

/-! ## Spellings of a host and a path -/

/-- A host and a path that can be told apart from each other and from what stands before them. -/
structure IsAddress (host path : String) : Prop where
  host_colonless : ':' ∉ host.toList
  host_userless : '@' ∉ host.toList
  path_colonless : ':' ∉ path.toList
  path_userless : '@' ∉ path.toList
  path_single : ¬ "//".toList <+: path.toList

namespace IsAddress

theorem ending (isAddress : IsAddress host path) : IsAddress host (path ++ ".git") where
  host_colonless := isAddress.host_colonless
  host_userless := isAddress.host_userless
  path_colonless := by
    rw [String.toList_append, List.mem_append, not_or]
    exact ⟨isAddress.path_colonless, by decide⟩
  path_userless := by
    rw [String.toList_append, List.mem_append, not_or]
    exact ⟨isAddress.path_userless, by decide⟩
  path_single := by
    have single := isAddress.path_single
    rw [String.toList_append]
    generalize path.toList = characters at single ⊢
    -- The ending begins with no slash, so both slashes would stand in the path.
    rcases characters with - | ⟨first, - | ⟨second, rest⟩⟩
    · decide
    · simp
    · simpa using single

/-- With a slash between them, a host and a path are their own location. -/
theorem slash (isAddress : IsAddress host path) :
    IsBare (host ++ "/" ++ path) ∧ Opened (host ++ "/" ++ path) (host ++ "/" ++ path) := by
  have colonless : ':' ∉ (host ++ "/" ++ path).toList := by
    simpa [isAddress.host_colonless] using isAddress.path_colonless
  have userless : '@' ∉ (host ++ "/" ++ path).toList := by
    simpa [isAddress.host_userless] using isAddress.path_userless
  exact ⟨isBare_of_not_mem colonless userless, .plain colonless⟩

/-- A colon between them is opened to a slash. -/
theorem colon (isAddress : IsAddress host path) :
    IsBare (host ++ ":" ++ path) ∧ Opened (host ++ ":" ++ path) (host ++ "/" ++ path) := by
  refine ⟨⟨?_, fun inside => ?_⟩, .colon path isAddress.host_colonless⟩
  · simpa [isAddress.host_userless] using isAddress.path_userless
  · rw [String.toList_append, String.toList_append, List.append_assoc] at inside
    exact isAddress.path_single (Text.prefix_of_infix_append_cons isAddress.host_colonless
      isAddress.path_colonless inside)

end IsAddress

/-! ## One location -/

section Labels

variable (scheme_plain : ':' ∉ scheme.toList) (user_plain : '@' ∉ user.toList)
  (user_transportless : ¬ "://".toList <:+: user.toList)

include scheme_plain user_plain user_transportless

/-- Whatever stands between a host and a path, if it makes a place of them that is opened to a slash,
then all spellings of the place have the location of host and path. -/
theorem canonical_of_address {mark : String}
    (reads : ∀ {path}, IsAddress host path →
      IsBare (host ++ mark ++ path) ∧ Opened (host ++ mark ++ path) (host ++ "/" ++ path))
    (isAddress : IsAddress host path) (isStripped : Stripped path short)
    (isSpelling : spelling ∈ spellings scheme user (host ++ mark ++ path)) :
    canonical (spelling ++ ".git") = host ++ "/" ++ path ∧
      canonical spelling = host ++ "/" ++ short := by
  constructor
  · obtain ⟨isBare, isOpened⟩ := reads isAddress.ending
    rw [← String.append_assoc, ← String.append_assoc] at isOpened
    rw [← String.append_assoc] at isBare
    rw [canonical_eq_located scheme_plain user_plain user_transportless isBare
      (ending_mem_spellings isSpelling)]
    exact located_eq isOpened (.ending (host ++ "/" ++ path))
  · obtain ⟨isBare, isOpened⟩ := reads isAddress
    rw [canonical_eq_located scheme_plain user_plain user_transportless isBare isSpelling]
    exact located_eq isOpened (isStripped.behind host)

end Labels

/-- Whichever way a remote is spelled, it has one location. -/
structure SpellingsAgree (scheme user : String) : Prop where
  /-- With or without a transport and a user, a place has the location of the place alone. -/
  places : ∀ place, IsBare place → ∃ opened location, Opened place opened ∧
    Stripped opened location ∧ ∀ spelling ∈ spellings scheme user place,
      canonical spelling = location
  /-- A slash and a colon between a host and a path make no difference, and one `.git` behind them is
  dropped. -/
  addresses : ∀ host path, IsAddress host path → ∃ short, Stripped path short ∧
    ∀ spelling ∈ spellings scheme user (host ++ "/" ++ path) ++
        spellings scheme user (host ++ ":" ++ path),
      canonical (spelling ++ ".git") = host ++ "/" ++ path ∧
        canonical spelling = host ++ "/" ++ short

/-- **All spellings of a remote have one location.** -/
theorem canonical_spellings (scheme user : String) (scheme_plain : ':' ∉ scheme.toList)
    (user_plain : '@' ∉ user.toList) (user_transportless : ¬ "://".toList <:+: user.toList) :
    SpellingsAgree scheme user where
  places := by
    intro place isBare
    obtain ⟨opened, isOpened⟩ := exists_opened place
    obtain ⟨location, isStripped⟩ := exists_stripped opened
    refine ⟨opened, location, isOpened, isStripped, fun spelling isSpelling => ?_⟩
    rw [canonical_eq_located scheme_plain user_plain user_transportless isBare isSpelling]
    exact located_eq isOpened isStripped
  addresses := by
    intro host path isAddress
    obtain ⟨short, isStripped⟩ := exists_stripped path
    refine ⟨short, isStripped, fun spelling isSpelling => ?_⟩
    rcases List.mem_append.mp isSpelling with withSlash | withColon
    · exact canonical_of_address scheme_plain user_plain user_transportless
        (fun isAddress => isAddress.slash) isAddress isStripped withSlash
    · exact canonical_of_address scheme_plain user_plain user_transportless
        (fun isAddress => isAddress.colon) isAddress isStripped withColon

/-- A user with a password, before a host with a path that ends in `.git` already. -/
theorem canonical_spellings_password :
    ':' ∉ "https".toList ∧ '@' ∉ "git:pass".toList ∧ ¬ "://".toList <:+: "git:pass".toList ∧
      IsAddress "github.com" "org/repo.git" ∧
        canonical (signed "https" "git:pass" ("github.com" ++ ":" ++ "org/repo.git") ++ ".git") =
            "github.com" ++ "/" ++ "org/repo.git" ∧
          canonical (signed "https" "git:pass" ("github.com" ++ ":" ++ "org/repo.git")) =
            "github.com" ++ "/" ++ "org/repo" := by
  have isAddress : IsAddress "github.com" "org/repo.git" :=
    ⟨by decide, by decide, by decide, by decide, by decide⟩
  have agrees := canonical_spellings "https" "git:pass" (by decide) (by decide) (by decide)
  obtain ⟨short, isStripped, located⟩ := agrees.addresses "github.com" "org/repo.git" isAddress
  obtain rfl : short = "org/repo" :=
    String.toList_inj.mp ((dropEnding_of_stripped isStripped).symm.trans (by decide))
  refine ⟨by decide, by decide, by decide, isAddress, located _ ?_⟩
  simp only [spellings, List.mem_append, List.mem_cons, true_or, or_true]

end Provenance.Remote
