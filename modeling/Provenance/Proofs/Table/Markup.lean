import Mathlib.Data.List.TakeWhile
import Provenance.Proofs.Text.First
import Provenance.Table.Markup

/-!
Contract: which texts are seen as they are written.

Owns:
- `HoldsTag`, texts with a tag in them, and `tag?_eq_some_iff`;
- `IsStripped`, what is left of a text without its tags, and `visible_cases`: a text is seen so, or it
  has a closing tag that closes nothing;
- `visible_escape`: what has been escaped is seen as it was before.

Does **not** own: texts with backslashes, and the lines of a table.

## Why nothing new is a tag

Escaping puts a backslash before each tag.  It could make a tag of an opening bracket in front of
one, if that bracket had been none because of the other one.  But the other bracket stays where it
is, behind the backslash, and so no closing bracket is reached before it.
-/

set_option autoImplicit false

namespace Provenance.Table.Markup

open Failure (Fault)

variable {text rest others name shown : List Char} {character : Char} {count place : Nat}
  {opened : List String}

/-! ## Tags -/

/-- A text with brackets in it between which there is no other one, and whose content starts in some
way. -/
def HoldsTag (starts : Char → Bool) (text : List Char) : Prop :=
  ∃ before head name after, text = before ++ '[' :: head :: name ++ ']' :: after ∧
    starts head = true ∧ '[' ∉ name ∧ ']' ∉ name

/-- A tag starts a text if and only if it is written there. -/
theorem tag?_eq_some_iff : tag? text = some (name, others) ↔
    ∃ head more, name = head :: more ∧ text = '[' :: head :: more ++ ']' :: others ∧
      beginsTag head = true ∧ '[' ∉ more ∧ ']' ∉ more := by
  constructor
  · intro isTag
    unfold tag? at isTag
    split at isTag
    · next head tail =>
        split at isTag
        · next begins =>
            dsimp only at isTag
            split at isTag
            · next behind ends =>
                obtain ⟨rfl, rfl⟩ := Prod.mk.inj (Option.some.inj isTag)
                refine ⟨head, _, rfl, ?_, begins, fun member => ?_, fun member => ?_⟩
                · conv_lhs => rw [← List.takeWhile_append_dropWhile
                    (p := fun character => character ≠ '[' && character ≠ ']') (l := tail), ends]
                  rfl
                · exact absurd (List.mem_takeWhile_imp member) (by decide)
                · exact absurd (List.mem_takeWhile_imp member) (by decide)
            · cases isTag
        · cases isTag
    · cases isTag
  · rintro ⟨head, more, rfl, rfl, begins, noOpening, noClosing⟩
    have inside : ∀ character ∈ more, (character ≠ '[' && character ≠ ']') = true := by
      intro character member
      simp only [Bool.and_eq_true, decide_eq_true_eq]
      exact ⟨fun same => noOpening (same ▸ member), fun same => noClosing (same ▸ member)⟩
    unfold tag?
    simp only [List.cons_append, begins, if_true, List.takeWhile_append_of_pos inside,
      List.dropWhile_append_of_pos inside]
    simp

theorem holdsTag_of_tag? (isTag : tag? text = some (name, others)) : HoldsTag beginsTag text := by
  obtain ⟨head, more, -, rfl, begins, noOpening, noClosing⟩ := tag?_eq_some_iff.mp isTag
  exact ⟨[], head, more, others, rfl, begins, noOpening, noClosing⟩

/-- A tag that does not start a text is in what follows. -/
theorem holdsTag_of_cons (noTag : tag? (character :: rest) = none)
    (holds : HoldsTag beginsTag (character :: rest)) : HoldsTag beginsTag rest := by
  obtain ⟨before, head, more, after, same, begins, noOpening, noClosing⟩ := holds
  cases before with
  | nil =>
      have isTag : tag? (character :: rest) = some (head :: more, after) :=
        tag?_eq_some_iff.mpr ⟨head, more, rfl, same, begins, noOpening, noClosing⟩
      rw [noTag] at isTag
      cases isTag
  | cons first before =>
      exact ⟨before, head, more, after, (List.cons.inj same).2, begins, noOpening, noClosing⟩

theorem HoldsTag.cons {starts : Char → Bool} (holds : HoldsTag starts rest) (character : Char) :
    HoldsTag starts (character :: rest) := by
  obtain ⟨before, head, more, after, rfl, begins, noOpening, noClosing⟩ := holds
  exact ⟨character :: before, head, more, after, rfl, begins, noOpening, noClosing⟩

/-- A text has a tag if it starts with one or there is one behind its start. -/
theorem holdsTag_cons_iff : HoldsTag beginsTag (character :: rest) ↔
    (tag? (character :: rest)).isSome = true ∨ HoldsTag beginsTag rest := by
  constructor
  · intro holds
    cases isTag : tag? (character :: rest) with
    | none => exact .inr (holdsTag_of_cons isTag holds)
    | some found => exact .inl rfl
  · rintro (starts | behind)
    · obtain ⟨found, isTag⟩ := Option.isSome_iff_exists.mp starts
      exact holdsTag_of_tag? isTag
    · exact behind.cons character

theorem HoldsTag.behind {starts : Char → Bool} (holds : HoldsTag starts others)
    (front : List Char) : HoldsTag starts (front ++ others) := by
  induction front with
  | nil => exact holds
  | cons character front inductionHypothesis => exact inductionHypothesis.cons character

/-- A closing tag is a tag. -/
theorem HoldsTag.of_closing (closes : HoldsTag (· = '/') text) : HoldsTag beginsTag text := by
  obtain ⟨before, head, more, after, same, isClosing, noBrackets⟩ := closes
  obtain rfl : head = '/' := by simpa using isClosing
  exact ⟨before, '/', more, after, same, by decide, noBrackets⟩

theorem not_holdsTag {starts : Char → Bool} (unbracketed : '[' ∉ text) : ¬HoldsTag starts text := by
  rintro ⟨before, head, more, after, rfl, -⟩
  exact unbracketed (by simp)

instance decidableHoldsTag : (text : List Char) → Decidable (HoldsTag beginsTag text)
  | [] => isFalse (not_holdsTag List.not_mem_nil)
  | character :: rest =>
      have := decidableHoldsTag rest
      decidable_of_iff
        ((tag? (character :: rest)).isSome = true ∨ HoldsTag beginsTag rest) holdsTag_cons_iff.symm

/-! ## Texts without their tags -/

/-- What is left of a text when its tags are taken out, from its start on. -/
inductive IsStripped : List Char → List Char → Prop where
  | nil : IsStripped [] []
  | plain {character : Char} {rest shown : List Char} (noTag : tag? (character :: rest) = none)
      (more : IsStripped rest shown) : IsStripped (character :: rest) (character :: shown)
  | tag {text name others shown : List Char} (isTag : tag? text = some (name, others))
      (more : IsStripped others shown) : IsStripped text shown

namespace IsStripped

theorem sublist (stripped : IsStripped text shown) : shown.Sublist text := by
  induction stripped with
  | nil => exact .slnil
  | plain _ _ inductionHypothesis => exact inductionHypothesis.cons_cons _
  | tag isTag _ inductionHypothesis =>
      obtain ⟨head, more, -, rfl, -⟩ := tag?_eq_some_iff.mp isTag
      exact inductionHypothesis.trans
        ((List.sublist_cons_self _ _).trans (List.sublist_append_right _ _))

/-- A text without tags is left as it is. -/
theorem eq_of_not_holdsTag (stripped : IsStripped text shown)
    (noTag : ¬HoldsTag beginsTag text) : shown = text := by
  induction stripped with
  | nil => rfl
  | plain _ _ inductionHypothesis =>
      rw [inductionHypothesis fun holds => noTag (holds.cons _)]
  | tag isTag => exact absurd (holdsTag_of_tag? isTag) noTag

/-- **A tag takes its opening bracket with it.** -/
theorem count_lt (stripped : IsStripped text shown) (holds : HoldsTag beginsTag text) :
    shown.count '[' < text.count '[' := by
  induction stripped with
  | nil => exact absurd holds (not_holdsTag List.not_mem_nil)
  | @plain character _ _ noTag _ inductionHypothesis =>
      have fewer := inductionHypothesis (holdsTag_of_cons noTag holds)
      rw [List.count_cons, List.count_cons]
      exact Nat.add_lt_add_right fewer _
  | tag isTag more =>
      obtain ⟨head, content, -, rfl, -⟩ := tag?_eq_some_iff.mp isTag
      have atMost := more.sublist.count_le '['
      simp only [List.cons_append, List.count_append, List.count_cons]
      simp
      omega

end IsStripped

/-! ## What is seen of a text -/

theorem unescape_cons (unmarked : character ≠ '\\') :
    unescape (character :: rest) = character :: unescape rest := by
  rw [unescape]
  exact fun _ isMark => absurd isMark unmarked

theorem unescape_eq_self (unmarked : '\\' ∉ text) : unescape text = text := by
  induction text with
  | nil => rfl
  | cons character rest inductionHypothesis =>
      obtain ⟨first, more⟩ := not_or.mp (mt List.mem_cons.mpr unmarked)
      rw [unescape_cons (Ne.symm first), inductionHypothesis more]

theorem visiblePieces_grow (unmarked : character ≠ '\\') (pieces : List Piece × Bool) :
    visiblePieces opened (grow character pieces).1 =
      (visiblePieces opened pieces.1).map (character :: ·) := by
  have alone : ∀ others, visiblePieces opened (.plain [character] :: others) =
      (visiblePieces opened others).map (character :: ·) := by
    intro others
    rw [visiblePieces, unescape_cons unmarked]
    cases visiblePieces opened others <;> rfl
  unfold grow
  split
  · rw [visiblePieces, visiblePieces, unescape_cons unmarked]
    cases visiblePieces opened _ <;> rfl
  · exact alone _

/-- Where a text does not start with a backslash, its pieces start with its tag, or with its first
character. -/
theorem piecesWithin_cons (unmarked : character ≠ '\\') :
    (piecesWithin (count + 1) place (character :: rest)).1 =
      match tag? (character :: rest) with
      | some (name, others) => [.plain [], .ofTag place name] ++
        (piecesWithin count (place + name.length + 2) others).1
      | none => (grow character (piecesWithin count (place + 1) rest)).1 := by
  have noMarks : (character :: rest).takeWhile (· = '\\') = [] := by simp [unmarked]
  have all : (character :: rest).dropWhile (· = '\\') = character :: rest := by simp [unmarked]
  rw [piecesWithin]
  simp only [noMarks, all, List.length_nil, Nat.add_zero]
  cases tag? (character :: rest) with
  | none => rfl
  | some found => rfl

/-- Only a closing tag can fail. -/
theorem closes_of_step {parameters : Option (List Char)} {fault : Fault}
    (fails : step opened place name parameters = .error fault) :
    (∃ message, fault = .notMarkup message) ∧ ∃ rest, name = '/' :: rest := by
  unfold step at fails
  split at fails
  · next rest =>
      refine ⟨?_, rest, rfl⟩
      dsimp only at fails
      split at fails
      · split at fails
        · cases fails
        · exact ⟨_, (Except.error.inj fails).symm⟩
      · split at fails
        · cases fails
        · exact ⟨_, (Except.error.inj fails).symm⟩
  · cases fails

/-- After a tag the same is seen as without it, under other open tags, unless it closes nothing. -/
theorem visiblePieces_ofTag (opened : List String) (place : Nat) (name : List Char)
    (pieces : List Piece) :
    (∃ after, visiblePieces opened ([.plain [], .ofTag place name] ++ pieces) =
        visiblePieces after pieces) ∨
      (∃ message, visiblePieces opened ([.plain [], .ofTag place name] ++ pieces) =
        .error (.notMarkup message)) ∧ name.head? = some '/' := by
  have steps : ∀ start parameters, (start.head? = some '/' → name.head? = some '/') →
      (∃ after, visiblePieces opened ([.plain [], .tag place start parameters] ++ pieces) =
          visiblePieces after pieces) ∨
        (∃ message, visiblePieces opened ([.plain [], .tag place start parameters] ++ pieces) =
          .error (.notMarkup message)) ∧ name.head? = some '/' := by
    intro start parameters begins
    have front : visiblePieces opened ([.plain [], .tag place start parameters] ++ pieces) =
        (step opened place start parameters).bind fun after => visiblePieces after pieces := by
      simp only [List.cons_append, List.nil_append, visiblePieces, unescape]
      cases step opened place start parameters with
      | error fault => rfl
      | ok after =>
          change _ = visiblePieces after pieces
          dsimp only
          cases visiblePieces after pieces <;> rfl
    rw [front]
    cases steps : step opened place start parameters with
    | ok after => exact .inl ⟨after, rfl⟩
    | error fault =>
        obtain ⟨⟨message, rfl⟩, rest, rfl⟩ := closes_of_step steps
        exact .inr ⟨⟨message, rfl⟩, begins rfl⟩
  -- What stands before the parameters begins as the whole tag does.
  unfold Piece.ofTag
  split
  · next start parameters cut =>
      refine steps start (some parameters) fun begins => ?_
      rw [Text.eq_append_of_cutFirst? cut, List.head?_append, begins]
      rfl
  · exact steps name none id

/-- **What is seen of a text without backslashes is what is left of it without its tags**, or else it
has a closing tag that closes nothing. -/
theorem visiblePieces_cases (unmarked : '\\' ∉ text) (opened : List String) (place : Nat)
    (enough : text.length < count) :
    (∃ shown, visiblePieces opened (piecesWithin count place text).1 = .ok shown ∧
        IsStripped text shown) ∨
      (∃ message, visiblePieces opened (piecesWithin count place text).1 =
        .error (.notMarkup message)) ∧ HoldsTag (· = '/') text := by
  induction count generalizing text opened place with
  | zero => exact absurd enough (Nat.not_lt_zero _)
  | succ count inductionHypothesis =>
      cases text with
      | nil => exact .inl ⟨[], rfl, .nil⟩
      | cons character rest =>
          obtain ⟨first, more⟩ := not_or.mp (mt List.mem_cons.mpr unmarked)
          rw [piecesWithin_cons (Ne.symm first)]
          cases isTag : tag? (character :: rest) with
          | none =>
              simp only [visiblePieces_grow (Ne.symm first)]
              rcases inductionHypothesis more opened (place + 1) (Nat.lt_of_succ_lt_succ enough) with
                ⟨shown, sees, stripped⟩ | ⟨⟨message, fails⟩, closes⟩
              · exact .inl ⟨character :: shown, by rw [sees]; rfl, .plain isTag stripped⟩
              · exact .inr ⟨⟨message, by rw [fails]; rfl⟩, closes.cons character⟩
          | some found =>
              obtain ⟨name, others⟩ := found
              obtain ⟨head, content, rfl, same, begins, noOpening, noClosing⟩ :=
                tag?_eq_some_iff.mp isTag
              have behind : character :: rest = ('[' :: head :: content ++ [']']) ++ others := by
                rw [same]
                simp
              have unmarkedOthers : '\\' ∉ others := by
                rw [behind] at unmarked
                exact fun member => unmarked (List.mem_append_right _ member)
              have shorter : others.length < count := by
                rw [behind, List.length_append] at enough
                simp only [List.length_append, List.length_cons] at enough
                omega
              dsimp only
              -- A tag changes the open ones, so the induction is over all of them.
              rcases visiblePieces_ofTag opened place (head :: content) _ with
                ⟨after, sees⟩ | ⟨fails, isClosing⟩
              · rw [sees]
                rcases inductionHypothesis unmarkedOthers after
                    (place + (head :: content).length + 2) shorter with
                  ⟨shown, sees, stripped⟩ | ⟨fails, closes⟩
                · exact .inl ⟨shown, sees, .tag isTag stripped⟩
                · rw [behind]
                  exact .inr ⟨fails, closes.behind _⟩
              · obtain rfl := Option.some.inj isClosing
                exact .inr ⟨fails, [], '/', content, others, same, rfl, noOpening, noClosing⟩

/-- A text of which nothing moves the cursor. -/
def IsStill (text : List Char) : Prop :=
  ∀ character ∈ text, isControl character = false

theorem filter_isControl (still : IsStill text) :
    (text.filter fun character => !isControl character) = text :=
  List.filter_eq_self.mpr fun character member => by rw [still character member]; rfl

theorem visible_cases {text : String} (unmarked : '\\' ∉ text.toList) (still : IsStill text.toList) :
    (∃ shown, visible text = .ok shown ∧ IsStripped text.toList shown) ∨
      (∃ message, visible text = .error (.notMarkup message)) ∧ HoldsTag (· = '/') text.toList := by
  unfold visible pieces
  rcases visiblePieces_cases unmarked [] 0 (Nat.lt_succ_self text.toList.length) with
    ⟨shown, sees, stripped⟩ | ⟨⟨message, fails⟩, closes⟩
  · refine .inl ⟨shown, ?_, stripped⟩
    have stillShown : IsStill shown :=
      fun character member => still character (stripped.sublist.mem member)
    rw [sees, Except.map, filter_isControl stillShown]
  · exact .inr ⟨⟨message, by rw [fails]; rfl⟩, closes⟩

/-- A text without tags is seen as it is. -/
theorem visible_of_not_holdsTag {text : String} (unmarked : '\\' ∉ text.toList)
    (still : IsStill text.toList) (noTag : ¬HoldsTag beginsTag text.toList) :
    visible text = .ok text.toList := by
  rcases visible_cases unmarked still with ⟨shown, sees, stripped⟩ | ⟨-, closes⟩
  · rw [sees, stripped.eq_of_not_holdsTag noTag]
  · exact absurd closes.of_closing noTag

/-! ## Escaped texts -/

/-- The markup of a text: a backslash stands before each of its tags, from its start on. -/
inductive IsEscaped : List Char → List Char → Prop where
  | nil : IsEscaped [] []
  | plain {character : Char} {rest markup : List Char} (noTag : tag? (character :: rest) = none)
      (more : IsEscaped rest markup) : IsEscaped (character :: rest) (character :: markup)
  | tag {text name others markup : List Char} (isTag : tag? text = some (name, others))
      (more : IsEscaped others markup) :
      IsEscaped text ('\\' :: '[' :: name ++ ']' :: markup)

variable {markup : List Char}

theorem isEscaped_escapeWithin (unmarked : '\\' ∉ text) (enough : text.length < count) :
    IsEscaped text (escapeWithin count text) := by
  induction count generalizing text with
  | zero => exact absurd enough (Nat.not_lt_zero _)
  | succ count inductionHypothesis =>
      cases text with
      | nil => exact .nil
      | cons character rest =>
          obtain ⟨first, more⟩ := not_or.mp (mt List.mem_cons.mpr unmarked)
          have noMarks : (character :: rest).takeWhile (· = '\\') = [] := by simp [Ne.symm first]
          have all : (character :: rest).dropWhile (· = '\\') = character :: rest := by
            simp [Ne.symm first]
          rw [escapeWithin]
          simp only [noMarks, all, List.nil_append]
          cases isTag : tag? (character :: rest) with
          | none => exact .plain isTag (inductionHypothesis more (Nat.lt_of_succ_lt_succ enough))
          | some found =>
              obtain ⟨name, others⟩ := found
              obtain ⟨head, content, rfl, same, -⟩ := tag?_eq_some_iff.mp isTag
              rw [same] at unmarked enough
              refine .tag isTag (inductionHypothesis (fun member => unmarked ?_) ?_)
              · exact List.mem_append_right _ (List.mem_cons_of_mem _ member)
              · simp only [List.length_append, List.length_cons] at enough
                omega

/-- After a backslash a tag is a plain piece. -/
theorem piecesWithin_marked (isTag : tag? ('[' :: rest) = some (name, others)) :
    (piecesWithin (count + 1) place ('\\' :: '[' :: rest)).1 =
      [.plain [], .plain ('[' :: name ++ [']'])] ++
        (piecesWithin count (place + 1 + name.length + 2) others).1 := by
  have oneMark : ('\\' :: '[' :: rest).takeWhile (· = '\\') = ['\\'] := by simp
  have behind : ('\\' :: '[' :: rest).dropWhile (· = '\\') = '[' :: rest := by simp
  rw [piecesWithin]
  simp only [oneMark, behind, isTag]
  rfl

namespace IsEscaped

/-- No opening bracket of a markup is behind a closing one but where the text has both. -/
theorem closes (escaped : IsEscaped text markup) {front after : List Char}
    (same : markup = front ++ ']' :: after) (noOpening : '[' ∉ front) :
    ∃ others, text = front ++ ']' :: others := by
  induction escaped generalizing front with
  | nil => cases front <;> cases same
  | @plain character rest markup _ _ inductionHypothesis =>
      cases front with
      | nil =>
          obtain ⟨rfl, -⟩ := List.cons.inj same
          exact ⟨rest, rfl⟩
      | cons first front =>
          obtain ⟨rfl, behind⟩ := List.cons.inj same
          obtain ⟨others, rfl⟩ :=
            inductionHypothesis behind fun member => noOpening (List.mem_cons_of_mem _ member)
          exact ⟨others, rfl⟩
  | tag =>
      cases front with
      | nil => exact absurd (List.cons.inj same).1 (by decide)
      | cons first front =>
          have behind := (List.cons.inj same).2
          cases front with
          | nil => exact absurd (List.cons.inj behind).1 (by decide)
          | cons second front =>
              obtain ⟨rfl, -⟩ := List.cons.inj behind
              exact absurd (List.mem_cons_of_mem _ List.mem_cons_self) noOpening

/-- **Escaping makes no tags.** -/
theorem tag?_eq_none (escaped : IsEscaped rest markup) (noTag : tag? (character :: rest) = none) :
    tag? (character :: markup) = none := by
  cases isTag : tag? (character :: markup) with
  | none => rfl
  | some found =>
      obtain ⟨name, after⟩ := found
      obtain ⟨head, content, -, same, begins, noOpening, noClosing⟩ := tag?_eq_some_iff.mp isTag
      obtain ⟨rfl, behind⟩ := List.cons.inj same
      have notBracket : '[' ≠ head := by
        rintro rfl
        exact absurd begins (by decide)
      obtain ⟨others, rest_eq⟩ := escaped.closes behind
        fun member => (List.mem_cons.mp member).elim notBracket noOpening
      have isThere : tag? ('[' :: rest) = some (head :: content, others) :=
        tag?_eq_some_iff.mpr ⟨head, content, rfl, by rw [rest_eq]; rfl, begins, noOpening, noClosing⟩
      rw [noTag] at isThere
      cases isThere

/-- **What has been escaped is seen as it was before.** -/
theorem visiblePieces_eq (escaped : IsEscaped text markup) (unmarked : '\\' ∉ text)
    (opened : List String) (place : Nat) (enough : markup.length < count) :
    visiblePieces opened (piecesWithin count place markup).1 = .ok text := by
  induction escaped generalizing count place with
  | nil =>
      cases count with
      | zero => exact absurd enough (Nat.not_lt_zero _)
      | succ count => rfl
  | @plain character rest markup noTag escaped inductionHypothesis =>
      obtain ⟨first, more⟩ := not_or.mp (mt List.mem_cons.mpr unmarked)
      cases count with
      | zero => exact absurd enough (Nat.not_lt_zero _)
      | succ count =>
          rw [piecesWithin_cons (Ne.symm first), escaped.tag?_eq_none noTag]
          simp only [visiblePieces_grow (Ne.symm first),
            inductionHypothesis more (place + 1) (Nat.lt_of_succ_lt_succ enough)]
          rfl
  | @tag text name others markup isTag _ inductionHypothesis =>
      obtain ⟨head, content, rfl, rfl, begins, noOpening, noClosing⟩ := tag?_eq_some_iff.mp isTag
      cases count with
      | zero => exact absurd enough (Nat.not_lt_zero _)
      | succ count =>
          have markedTag : tag? ('[' :: ((head :: content) ++ ']' :: markup)) =
              some (head :: content, markup) :=
            tag?_eq_some_iff.mpr ⟨head, content, rfl, rfl, begins, noOpening, noClosing⟩
          have unmarkedOthers : '\\' ∉ others := fun member =>
            unmarked (List.mem_append_right _ (List.mem_cons_of_mem _ member))
          have unmarkedTag : '\\' ∉ '[' :: (head :: content) ++ [']'] := by
            intro member
            refine unmarked ?_
            rcases List.mem_append.mp member with inside | isClosing
            · exact List.mem_append_left _ inside
            · exact absurd (List.mem_singleton.mp isClosing) (by decide)
          have shorter : markup.length < count := by
            simp only [List.length_append, List.length_cons] at enough
            omega
          have pieces_eq := @piecesWithin_marked _ _ _ count place markedTag
          have more := inductionHypothesis unmarkedOthers
            (place + 1 + (head :: content).length + 2) shorter
          refine (congrArg (visiblePieces opened) pieces_eq).trans ?_
          simp only [List.cons_append, List.nil_append, visiblePieces] at more ⊢
          rw [more]
          simp only [unescape_eq_self List.not_mem_nil]
          rw [← List.cons_append, ← List.cons_append, unescape_eq_self unmarkedTag]
          simp

end IsEscaped

/-- The markup of a text without backslashes does not end with one. -/
theorem IsEscaped.getLast?_ne (escaped : IsEscaped text markup) (unmarked : '\\' ∉ text) :
    markup.getLast? ≠ some '\\' := by
  induction escaped with
  | nil => exact nofun
  | @plain character rest markup _ _ inductionHypothesis =>
      obtain ⟨first, more⟩ := not_or.mp (mt List.mem_cons.mpr unmarked)
      cases markup with
      | nil => exact fun isLast => first (Option.some.inj isLast).symm
      | cons head tail =>
          rw [List.getLast?_cons_cons]
          exact inductionHypothesis more
  | @tag text name others markup isTag _ inductionHypothesis =>
      obtain ⟨head, content, -, rfl, -⟩ := tag?_eq_some_iff.mp isTag
      rw [List.getLast?_append_of_ne_nil _ (List.cons_ne_nil _ _)]
      cases markup with
      | nil => exact fun isLast => absurd (Option.some.inj isLast) (by decide)
      | cons first tail =>
          rw [List.getLast?_cons_cons]
          exact inductionHypothesis fun member =>
            unmarked (List.mem_append_right _ (List.mem_cons_of_mem _ member))

theorem escape_toList {text : String} (unmarked : '\\' ∉ text.toList) :
    (escape text).toList = escapeWithin (text.length + 1) text.toList := by
  have escaped : IsEscaped text.toList (escapeWithin (text.length + 1) text.toList) :=
    isEscaped_escapeWithin unmarked (by rw [String.length_toList]; exact Nat.lt_succ_self _)
  have notSingle : ['\\'].isSuffixOf (escapeWithin (text.length + 1) text.toList) = false := by
    rw [Bool.eq_false_iff, Ne, List.isSuffixOf_iff_suffix]
    rintro ⟨front, same⟩
    refine escaped.getLast?_ne unmarked ?_
    rw [← same, List.getLast?_append]
    rfl
  simp only [escape, notSingle, Bool.false_and, Bool.false_eq_true, if_false, String.toList_ofList]

/-- **What has been escaped is seen as it was before**, if it has no backslashes. -/
theorem visible_escape {text : String} (unmarked : '\\' ∉ text.toList) (still : IsStill text.toList) :
    visible (escape text) = .ok text.toList := by
  have escaped : IsEscaped text.toList (escape text).toList := by
    rw [escape_toList unmarked]
    exact isEscaped_escapeWithin unmarked (by rw [String.length_toList]; exact Nat.lt_succ_self _)
  rw [visible, pieces, escaped.visiblePieces_eq unmarked [] 0 (Nat.lt_succ_self _), Except.map,
    filter_isControl still]

end Provenance.Table.Markup
