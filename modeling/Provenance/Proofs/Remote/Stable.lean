import Mathlib.Logic.Function.Iterate
import Provenance.Proofs.Remote.Spelling

/-!
Contract: the texts that are their own location.

Owns:
- `IsStable`, texts without a colon, a user and a `.git` at their end;
- `canonical_shrinks`: any other text gets shorter, or has a colon less;
- `canonical_settles`: so the stable texts are those that stay what they are, and every text becomes
  one of them.

Does **not** own: what a location stands for.

## Why a text has to be taken more than once

One pass opens one colon, drops one user and one ending.  What is left may hold another of each.
-/

set_option autoImplicit false

namespace Provenance.Remote

open Text (afterFirst replaceFirst dropEnding)

variable {url : String}

/-- A text in which there is nothing to drop and nothing to open. -/
structure IsStable (url : String) : Prop where
  colonless : ':' ∉ url.toList
  userless : '@' ∉ url.toList
  unended : ∀ front, url ≠ front ++ ".git"

def colons (text : String) : Nat :=
  text.toList.count ':'

/-! ## What one pass leaves -/

theorem length_canonicalCharacters_le (url : List Char) :
    (canonicalCharacters url).length ≤ (withoutUser (withoutTransport url)).length := by
  have shorter := (Text.dropEnding_isPrefix ".git".toList
    (replaceFirst ':' '/' (withoutUser (withoutTransport url)))).length_le
  rwa [Text.length_replaceFirst] at shorter

/-- A text that does not get shorter has no user and no ending, and at most a colon is opened. -/
theorem canonicalCharacters_cases (url : List Char) :
    (canonicalCharacters url).length < url.length ∨
      '@' ∉ url ∧ ¬ ".git".toList <:+ replaceFirst ':' '/' url ∧
        canonicalCharacters url = replaceFirst ':' '/' url := by
  have bounded := length_canonicalCharacters_le url
  have userBounded := (Text.afterFirst_suffix ['@'] (withoutTransport url)).length_le
  by_cases transport : "://".toList <:+: url
  · have shorter : (withoutTransport url).length < url.length :=
      Text.length_afterFirst_lt (by decide) transport
    exact .inl (Nat.lt_of_le_of_lt (bounded.trans userBounded) shorter)
  have transportless : withoutTransport url = url := Text.afterFirst_eq_self transport
  by_cases user : '@' ∈ url
  · have inside : ['@'] <:+: url := by
      obtain ⟨before, after, rfl⟩ := List.append_of_mem user
      exact ⟨before, after, by simp⟩
    have shorter : (withoutUser url).length < url.length :=
      Text.length_afterFirst_lt (by decide) inside
    rw [transportless] at bounded
    exact .inl (Nat.lt_of_le_of_lt bounded shorter)
  have userless : withoutUser url = url :=
    Text.afterFirst_eq_self fun inside => user (inside.subset List.mem_cons_self)
  have passes : canonicalCharacters url = dropEnding ".git".toList (replaceFirst ':' '/' url) := by
    rw [canonicalCharacters, transportless, userless]
    rfl
  by_cases ends : ".git".toList <:+ replaceFirst ':' '/' url
  · obtain ⟨front, text_eq⟩ := ends
    have lengths := congrArg List.length text_eq
    rw [Text.length_replaceFirst, List.length_append] at lengths
    rw [passes, ← text_eq, Text.dropEnding_append]
    have four : ".git".toList.length = 4 := rfl
    exact .inl (by omega)
  · exact .inr ⟨user, ends, passes.trans (Text.dropEnding_of_not_suffix ends)⟩

/-- No pass makes a colon. -/
theorem colons_canonical_le (url : String) : colons (canonical url) ≤ colons url := by
  have dropped := ((Text.dropEnding_isPrefix ".git".toList
    (replaceFirst ':' '/' (withoutUser (withoutTransport url.toList)))).sublist.count_le ':')
  rw [Text.count_replaceFirst (by decide)] at dropped
  have user := (Text.afterFirst_suffix ['@'] (withoutTransport url.toList)).sublist.count_le ':'
  have transport := (Text.afterFirst_suffix "://".toList url.toList).sublist.count_le ':'
  have passed : colons (canonical url) = (canonicalCharacters url.toList).count ':' := by
    rw [colons, canonical, String.toList_ofList]
  rw [passed]
  exact (dropped.trans (Nat.sub_le _ 1)).trans (user.trans transport)

/-- **A text that is not stable gets shorter, or keeps its length and loses a colon.** -/
theorem canonical_shrinks (url : String) :
    IsStable url ∨ (canonical url).length < url.length ∨
      (canonical url).length = url.length ∧ colons (canonical url) < colons url := by
  have length_eq : (canonical url).length = (canonicalCharacters url.toList).length :=
    String.length_ofList
  have own_length : url.length = url.toList.length := String.length_toList.symm
  rcases canonicalCharacters_cases url.toList with shorter | ⟨userless, unended, passes⟩
  · exact .inr (.inl (by omega))
  by_cases colon : ':' ∈ url.toList
  · have several := List.count_pos_iff.mpr colon
    refine .inr (.inr ⟨?_, ?_⟩)
    · rw [length_eq, passes, Text.length_replaceFirst, own_length]
    · rw [colons, colons, canonical, String.toList_ofList, passes,
        Text.count_replaceFirst (by decide)]
      omega
  · refine .inl ⟨colon, userless, ?_⟩
    rintro front rfl
    rw [Text.replaceFirst_of_not_mem colon, String.toList_append] at unended
    exact unended (List.suffix_append front.toList ".git".toList)

/-! ## Pass after pass -/

theorem canonical_of_stable (isStable : IsStable url) : canonical url = url := by
  rw [canonical_of_bare (isBare_of_not_mem isStable.colonless isStable.userless)]
  exact located_eq (.plain isStable.colonless) (.plain isStable.unended)

theorem canonical_eq_self_iff : canonical url = url ↔ IsStable url := by
  refine ⟨fun same => ?_, canonical_of_stable⟩
  rcases canonical_shrinks url with isStable | shorter | ⟨-, fewer⟩
  · exact isStable
  · rw [same] at shorter
    exact absurd shorter (Nat.lt_irrefl _)
  · rw [same] at fewer
    exact absurd fewer (Nat.lt_irrefl _)

/-- A text has settled after no more passes than it has characters and colons. -/
theorem exists_isStable (url : String) :
    ∃ passes ≤ url.length + colons url, IsStable (canonical^[passes] url) := by
  induction weight_eq : url.length + colons url using Nat.strong_induction_on generalizing url with
  | _ weight inductionHypothesis =>
      by_cases isStable : IsStable url
      · exact ⟨0, Nat.zero_le _, isStable⟩
      have lighter : (canonical url).length + colons (canonical url) < weight := by
        have fewer := colons_canonical_le url
        rcases canonical_shrinks url with stable | shorter | ⟨same, fewer⟩
        · exact absurd stable isStable
        · omega
        · omega
      obtain ⟨passes, bounded, settled⟩ := inductionHypothesis _ lighter (canonical url) rfl
      exact ⟨passes + 1, by omega, settled⟩

/-- **Just the texts without a colon, a user and a `.git` at their end stay what they are**, any other
one gets shorter or loses a colon, and so every text becomes one of them. -/
theorem canonical_settles (url : String) :
    (canonical url = url ↔ IsStable url) ∧
      (IsStable url ∨ (canonical url).length < url.length ∨
        (canonical url).length = url.length ∧ colons (canonical url) < colons url) ∧
      ∃ passes ≤ url.length + colons url, IsStable (canonical^[passes] url) :=
  ⟨canonical_eq_self_iff, canonical_shrinks url, exists_isStable url⟩

-- A text with two users, two colons and two endings takes two passes.
example : canonical "a@b@c:d:e.git.git" = "b@c/d:e.git" ∧ canonical "b@c/d:e.git" = "c/d/e" := by
  decide

end Provenance.Remote
