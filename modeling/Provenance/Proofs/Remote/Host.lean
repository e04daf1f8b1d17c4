import Provenance.Proofs.Remote.Spelling

/-!
Contract: the host of a remote URL.

Owns:
- `located_behind`: of a host and a path, only the path is changed;
- `canonical_of_transport`: what a URL without its transport comes to;
- `canonical_at_host`: behind a user the host stays, and without one it is lost to an `@` in the path.

Does **not** own: URLs without a transport.

## Why an `@` in the path counts

The user ends at the first `@` of all that follows the transport.  Behind a user that is the user's
own.  Without one it can be the path's, and what is then taken for the user is the host with the
beginning of the path.
-/

set_option autoImplicit false

namespace Provenance.Remote

variable {scheme place opened host path before : String}

/-! ## A host before a path -/

/-- A colon of a path is opened where the path is, if the host before it has none. -/
theorem Opened.behind (host_colonless : ':' ∉ host.toList) (isOpened : Opened path opened) :
    Opened (host ++ "/" ++ path) (host ++ "/" ++ opened) := by
  cases isOpened with
  | @colon front rest first =>
      have before_colonless : ':' ∉ (host ++ "/" ++ front).toList := by
        simpa [host_colonless] using first
      have opens := Opened.colon rest before_colonless
      simpa only [String.append_assoc] using opens
  | plain colonless =>
      apply Opened.plain
      simpa [host_colonless] using colonless

theorem located_behind (host_colonless : ':' ∉ host.toList) (path : String) :
    located (host ++ "/" ++ path) = host ++ "/" ++ located path := by
  obtain ⟨opened, isOpened⟩ := exists_opened path
  obtain ⟨short, isStripped⟩ := exists_stripped opened
  calc
    located (host ++ "/" ++ path) = host ++ "/" ++ short :=
      located_eq (isOpened.behind host_colonless) (isStripped.behind host)
    _ = host ++ "/" ++ located path := by rw [located_eq isOpened isStripped]

/-! ## Marks of a user -/

/-- How many marks there are that a user can end at. -/
def userMarks (text : String) : Nat :=
  text.toList.count '@'

theorem userMarks_append (first second : String) :
    userMarks (first ++ second) = userMarks first + userMarks second := by
  rw [userMarks, String.toList_append, List.count_append, userMarks, userMarks]

/-- Neither the opened colon nor the stripped ending is such a mark. -/
theorem userMarks_located (place : String) : userMarks (located place) = userMarks place := by
  obtain ⟨opened, isOpened⟩ := exists_opened place
  obtain ⟨short, isStripped⟩ := exists_stripped opened
  have opens : userMarks opened = userMarks place := by
    cases isOpened with
    | colon rest =>
        simp only [userMarks_append]
        rfl
    | plain => rfl
  have strips : userMarks short = userMarks opened := by
    cases isStripped with
    | ending =>
        rw [userMarks_append]
        rfl
    | plain => rfl
  rw [located_eq isOpened isStripped, strips, opens]

/-! ## Behind a transport -/

/-- Behind the transport, a URL is what follows its first `@`. -/
theorem canonical_of_transport (scheme_plain : ':' ∉ scheme.toList) (place : String) :
    canonical (scheme ++ "://" ++ place) =
      located (String.ofList (withoutUser place.toList)) := by
  have afterTransport : withoutTransport (scheme ++ "://" ++ place).toList = place.toList := by
    rw [String.toList_append, String.toList_append, List.append_assoc]
    exact Text.afterFirst_append scheme_plain
  rw [canonical, canonicalCharacters, afterTransport, located]
  simp only [String.toList_ofList]
  rfl

theorem canonical_of_userless (scheme_plain : ':' ∉ scheme.toList)
    (userless : '@' ∉ place.toList) : canonical (scheme ++ "://" ++ place) = located place := by
  have whole : withoutUser place.toList = place.toList := by
    apply Text.afterFirst_eq_self
    intro inside
    exact userless (inside.subset List.mem_cons_self)
  rw [canonical_of_transport scheme_plain, whole, String.ofList_toList]

/-- What stands before the first `@` is gone, whatever it is. -/
theorem canonical_of_user (scheme_plain : ':' ∉ scheme.toList)
    (before_userless : '@' ∉ before.toList) (after : String) :
    canonical (scheme ++ "://" ++ (before ++ "@" ++ after)) = located after := by
  have cut : withoutUser (before ++ "@" ++ after).toList = after.toList := by
    rw [String.toList_append, String.toList_append, List.append_assoc]
    exact Text.afterFirst_append before_userless
  rw [canonical_of_transport scheme_plain, cut, String.ofList_toList]

/-! ## The host -/

/-- **Behind a user the host is kept whatever the path is, and without a user it is kept just if
there is no `@` in the path.**  Otherwise only what follows the first `@` of the path is left. -/
theorem canonical_at_host (scheme_plain : ':' ∉ scheme.toList)
    (host_colonless : ':' ∉ host.toList) (host_userless : '@' ∉ host.toList) (path : String) :
    (∀ user : String, '@' ∉ user.toList →
      canonical (signed scheme user (host ++ "/" ++ path)) = host ++ "/" ++ located path) ∧
    (canonical (scheme ++ "://" ++ (host ++ "/" ++ path)) = host ++ "/" ++ located path ↔
      '@' ∉ path.toList) ∧
    ∀ before after : String, path = before ++ "@" ++ after → '@' ∉ before.toList →
      canonical (scheme ++ "://" ++ (host ++ "/" ++ path)) = located after := by
  have lost : ∀ before after : String, path = before ++ "@" ++ after → '@' ∉ before.toList →
      canonical (scheme ++ "://" ++ (host ++ "/" ++ path)) = located after := by
    rintro before after rfl before_userless
    have front_userless : '@' ∉ (host ++ "/" ++ before).toList := by
      simpa [host_userless] using before_userless
    have cut := canonical_of_user scheme_plain front_userless after
    simpa only [String.append_assoc] using cut
  refine ⟨fun user user_plain => ?_, ⟨fun kept inPath => ?_, fun userless => ?_⟩, lost⟩
  · rw [canonical_signed_of_plain scheme_plain user_plain, located_behind host_colonless]
  · -- With the host, all marks of the path would be left, and one of them has been cut away.
    obtain ⟨before, after, path_eq, first⟩ := List.eq_append_cons_of_mem inPath
    have pieces : path = String.ofList before ++ "@" ++ String.ofList after := by
      rw [← String.toList_inj, path_eq]
      simp
    have cut := lost _ _ pieces (by rwa [String.toList_ofList])
    have marks := congrArg userMarks (kept.symm.trans cut)
    have one : userMarks "@" = 1 := rfl
    rw [userMarks_append, userMarks_append, userMarks_located, userMarks_located, pieces,
      userMarks_append, userMarks_append, one] at marks
    omega
  · have place_userless : '@' ∉ (host ++ "/" ++ path).toList := by
      simpa [host_userless] using userless
    rw [canonical_of_userless scheme_plain place_userless, located_behind host_colonless]

/-- A scoped package behind a user: its host is kept, and without the user it is not. -/
theorem canonical_at_host_scoped :
    ':' ∉ "https".toList ∧ ':' ∉ "github.com".toList ∧ '@' ∉ "github.com".toList ∧
      '@' ∉ "git:pass".toList ∧
      canonical (signed "https" "git:pass" ("github.com" ++ "/" ++ "org/@scope/repo.git")) =
        "github.com/org/@scope/repo" ∧
      canonical ("https" ++ "://" ++ ("github.com" ++ "/" ++ "org/@scope/repo.git")) =
        "scope/repo" := by
  have scheme_plain : ':' ∉ "https".toList := by decide
  have host_colonless : ':' ∉ "github.com".toList := by decide
  have host_userless : '@' ∉ "github.com".toList := by decide
  obtain ⟨kept, -, lost⟩ :=
    canonical_at_host scheme_plain host_colonless host_userless "org/@scope/repo.git"
  refine ⟨scheme_plain, host_colonless, host_userless, by decide, ?_, ?_⟩
  · rw [kept "git:pass" (by decide)]
    decide
  · rw [lost "org/" "scope/repo.git" rfl (by decide)]
    decide

/-- A URL that is not brought to a text with its host in front, and that a user before the host
brings to another one. -/
theorem canonical_loses_host :
    ¬ "github.com/".toList <+: (canonical "https://github.com/org/@scope/repo.git").toList ∧
      canonical "https://bob@github.com/org/@scope/repo.git" ≠
        canonical "https://github.com/org/@scope/repo.git" := by
  decide

end Provenance.Remote
