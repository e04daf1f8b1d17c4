import Mathlib.Data.List.Forall2
import Provenance.Proofs.Assembly.Answers
import Provenance.Proofs.Assembly.Told

/-!
Contract: assemblies in two worlds whose remotes lead to the same place.

Owns:
- `Query.EndsAlike`, `Facts.Alike` and `Record.Alike`: outcomes, facts and records that differ in
  the remote URL at most;
- the laws of both ways of collecting facts: one after another, and side by side;
- `InStep.assembleAlong_alike`: two assemblies along one schedule end alike, and
  `InStep.assembleAlong_same`, in the same way if their scripts are the same.

Does **not** own: which worlds are related, and what is made of a record.

## Why the schedule does not matter

A pool holds outcomes, and no step of it looks into one further than whether it has ended
and whether it is fatal.  Outcomes that are alike are the same in both respects, so the
two pools stay in step whatever the schedule says.
-/

set_option autoImplicit false

namespace Provenance

/-- Records that are the same but for the remote URLs, which lead to the same place. -/
structure Record.Alike (left right : Record) : Prop where
  same : right = { left with remoteUrl := right.remoteUrl }
  place : Remote.SamePlace left.remoteUrl right.remoteUrl

namespace Assembly

open Program (Agree Alike)
open World (Timekeeping)

/-! ## Outcomes and facts -/

/-- What two queries may come to: alike findings, or the same in any other respect. -/
inductive Query.EndsAlike (query : Query) : Outcome → Outcome → Prop where
  | found {left right : Finding} (alike : query.FindsAlike left right) :
      EndsAlike query (.found left) (.found right)
  | gap (problem : Failure.Problem) : EndsAlike query (.gap problem) (.gap problem)
  | fatal {failure : Failure} (listed : failure.IsListed) :
      EndsAlike query (.fatal failure) (.fatal failure)
  | unfinished : EndsAlike query .unfinished .unfinished

theorem Query.endsAlike_ofResult {query : Query} {left right : Except Failure Finding}
    (agree : Agree query.FindsAlike left right) :
    query.EndsAlike (.ofResult left) (.ofResult right) := by
  cases agree with
  | ok alike => exact .found alike
  | @error failure listed =>
      cases failure with
      | problem problem =>
          unfold Outcome.ofResult
          dsimp only
          split
          · exact .gap problem
          · exact .fatal listed
      | fault fault =>
          cases fault with
          | unfinished => exact .unfinished
          | _ => exact .fatal listed

/-- Facts that are the same but for the remote URLs, which lead to the same place. -/
structure Facts.Alike (left right : Facts) : Prop where
  same : right = { left with remoteUrl := right.remoteUrl }
  place : Remote.SamePlace left.remoteUrl right.remoteUrl

namespace Facts.Alike

variable {left right : Facts}

theorem refl (facts : Facts) : Facts.Alike facts facts where
  same := rfl
  place := .refl _

/-- A finding is set in both; where it is a remote URL, it is another one of the same place. -/
theorem set (alike : Facts.Alike left right) {query : Query} {first second : Finding}
    (finds : query.FindsAlike first second) :
    Facts.Alike (left.set query first) (right.set query second) := by
  obtain ⟨same, place⟩ := alike
  rcases finds with rfl | ⟨rfl, samePlace⟩
  · rw [same]
    cases query with
    | remoteUrl => exact .refl _
    | _ => exact ⟨rfl, place⟩
  · rw [same]
    exact ⟨rfl, samePlace⟩

theorem withGap (alike : Facts.Alike left right) (gap : Failure.Problem) :
    Facts.Alike { left with gaps := left.gaps ++ [gap] }
      { right with gaps := right.gaps ++ [gap] } where
  same := by rw [alike.same]
  place := alike.place

theorem gaps_eq (alike : Facts.Alike left right) : left.gaps = right.gaps := by rw [alike.same]

theorem toRecord (alike : Facts.Alike left right) (baseDir relDir gitUrl : String) :
    Record.Alike (left.toRecord baseDir relDir gitUrl) (right.toRecord baseDir relDir gitUrl) where
  same := by
    rw [alike.same]
    rfl
  place := alike.place

theorem add (alike : Facts.Alike left right) {query : Query} {first second : Outcome}
    (ends : query.EndsAlike first second) :
    Facts.Alike (left.add query first) (right.add query second) := by
  cases ends with
  | found finds => exact alike.set finds
  | gap problem =>
      have filled := alike.set (.refl query (.fallback query))
      unfold Facts.add
      dsimp only
      split
      · exact filled.withGap problem
      · exact filled
  | fatal => exact alike
  | unfinished => exact alike

end Facts.Alike

/-- One query with what it has come to in either of two assemblies. -/
def EntryAlike (left right : Query × Outcome) : Prop :=
  left.1 = right.1 ∧ left.1.EndsAlike left.2 right.2

theorem Facts.alike_ofOutcomes {left right : List (Query × Outcome)}
    (alike : List.Forall₂ EntryAlike left right) :
    Facts.Alike (.ofOutcomes left) (.ofOutcomes right) := by
  refine List.rel_foldl (P := Facts.Alike) (R := EntryAlike) ?_ (.refl {}) alike
  rintro first second facts ⟨query, _⟩ ⟨_, _⟩ ⟨rfl, ends⟩
  exact facts.add ends

/-! ## Collecting facts -/

section Collecting

variable {Time : Type} {related : World Time → World Time → Prop}
  {ask : Query → Program Time Finding}
  (asks : ∀ query, Alike related query.FindsAlike (ask query) (ask query))

include asks

theorem outcomeOf_alike (query : Query) :
    Alike related query.EndsAlike (outcomeOf ask query) (outcomeOf ask query) :=
  (asks query).attempt.bind fun _ _ agree => .pure (Query.endsAlike_ofResult agree)

theorem outcomes_alike (queries : List Query) :
    Alike related (List.Forall₂ EntryAlike) (Sequential.outcomes ask queries)
      (Sequential.outcomes ask queries) := by
  induction queries with
  | nil => exact .pure .nil
  | cons query rest inductionHypothesis =>
      refine (outcomeOf_alike asks query).bind fun left right ends => ?_
      cases ends with
      | found finds =>
          exact inductionHypothesis.bind fun _ _ others =>
            .pure (.cons ⟨rfl, .found finds⟩ others)
      | gap problem =>
          exact inductionHypothesis.bind fun _ _ others =>
            .pure (.cons ⟨rfl, .gap problem⟩ others)
      | fatal listed => exact .fail listed
      | unfinished => exact .fail (Failure.isListed_fault _)

theorem sequential_alike :
    Alike related Facts.Alike (Sequential.collect ask) (Sequential.collect ask) := by
  unfold Sequential.collect
  rw [map_eq_pure_bind]
  exact (outcomes_alike asks Query.all).bind fun _ _ alike => .pure (Facts.alike_ofOutcomes alike)

end Collecting

/-! ## Pools in step -/

namespace Pool

/-- Two pools that are the same but for outcomes that are alike. -/
structure State.Alike (left right : State) : Prop where
  waiting : left.waiting = right.waiting
  running : List.Forall₂ EntryAlike left.running right.running
  ended : List.Forall₂ EntryAlike left.ended right.ended
  noted : left.noted = right.noted
  verdict : left.verdict = right.verdict
  listed : ∀ failure, left.verdict = some failure → failure.IsListed

/-- What a query has come to is found in both lists or in neither. -/
theorem lookup_alike {left right : List (Query × Outcome)}
    (alike : List.Forall₂ EntryAlike left right) (query : Query) :
    Option.Rel query.EndsAlike (left.lookup query) (right.lookup query) := by
  induction alike with
  | nil => exact .none
  | @cons first second _ _ entry _ inductionHypothesis =>
      obtain ⟨other, _⟩ := first
      obtain ⟨_, _⟩ := second
      obtain ⟨rfl, ends⟩ := entry
      by_cases same : query = other
      · subst same
        simpa using Option.Rel.some ends
      · have different : (query == other) = false := by simpa using same
        simpa only [List.lookup_cons, different] using inductionHypothesis

namespace State.Alike

variable {left right : State} (alike : State.Alike left right)

include alike

theorem isSettled_eq : left.isSettled = right.isSettled := by
  simp only [State.isSettled, State.isClosed, State.isComplete, alike.noted, alike.verdict]

theorem mayStart_eq (workers : Nat) (query : Query) :
    left.mayStart workers query = right.mayStart workers query := by
  simp only [State.mayStart, State.isClosed, alike.waiting, alike.verdict,
    alike.running.length_eq]

theorem start {query : Query} {first second : Outcome} (ends : query.EndsAlike first second) :
    State.Alike (left.start query first) (right.start query second) where
  waiting := by simp only [State.start, alike.waiting]
  running := List.rel_append alike.running (.cons ⟨rfl, ends⟩ .nil)
  ended := alike.ended
  noted := alike.noted
  verdict := alike.verdict
  listed := alike.listed

theorem ended_of_finish {query : Query} {first second : Outcome}
    (ends : query.EndsAlike first second) :
    State.Alike
      { left with
        running := left.running.filter fun (other, _) => other ≠ query
        ended := left.ended ++ [(query, first)] }
      { right with
        running := right.running.filter fun (other, _) => other ≠ query
        ended := right.ended ++ [(query, second)] } where
  waiting := alike.waiting
  running := by
    refine List.rel_filter ?_ alike.running
    rintro ⟨other, _⟩ ⟨_, _⟩ ⟨rfl, _⟩
    exact Iff.rfl
  ended := List.rel_append alike.ended (.cons ⟨rfl, ends⟩ .nil)
  noted := alike.noted
  verdict := alike.verdict
  listed := alike.listed

theorem finish (query : Query) : State.Alike (left.finish query) (right.finish query) := by
  unfold State.finish
  generalize first_eq : left.running.lookup query = first
  generalize second_eq : right.running.lookup query = second
  have found := lookup_alike alike.running query
  rw [first_eq, second_eq] at found
  cases found with
  | none => exact alike
  | some ends =>
      cases ends with
      | found finds => exact alike.ended_of_finish (.found finds)
      | gap problem => exact alike.ended_of_finish (.gap problem)
      | fatal listed => exact alike.ended_of_finish (.fatal listed)
      | unfinished => exact alike

theorem note (query : Query) : State.Alike (left.note query) (right.note query) := by
  have noted : State.Alike { left with noted := left.noted ++ [query] }
      { right with noted := right.noted ++ [query] } :=
    { alike with noted := by rw [alike.noted] }
  unfold State.note
  rw [alike.isSettled_eq, alike.noted]
  split
  · exact alike
  · generalize first_eq : left.outcome? query = first
    generalize second_eq : right.outcome? query = second
    have found := lookup_alike alike.ended query
    rw [show left.ended.lookup query = first from first_eq,
      show right.ended.lookup query = second from second_eq] at found
    rw [alike.noted] at noted
    cases found with
    | none => exact alike
    | some ends =>
        cases ends with
        | fatal listed =>
            refine { noted with verdict := rfl, listed := ?_ }
            rintro failure same
            obtain rfl := Option.some.inj same
            exact listed
        | _ => exact noted

theorem expire : State.Alike left.expire right.expire := by
  unfold State.expire
  rw [alike.isSettled_eq]
  split
  · exact alike
  · refine { alike with verdict := rfl, listed := ?_ }
    rintro failure same
    obtain rfl := Option.some.inj same
    exact Failure.isListed_git _ _

theorem outcomes : List.Forall₂ EntryAlike left.outcomes right.outcomes := by
  refine List.rel_filterMap (R := Eq) ?_ (List.forall₂_same.mpr fun _ _ => rfl)
  rintro query _ rfl
  have found : Option.Rel query.EndsAlike (left.outcome? query) (right.outcome? query) :=
    lookup_alike alike.ended query
  dsimp only
  generalize left.outcome? query = first at found ⊢
  generalize right.outcome? query = second at found ⊢
  cases found with
  | none => exact .none
  | some ends => exact .some ⟨rfl, ends⟩

end State.Alike

section Running

variable {Time : Type} {related : World Time → World Time → Prop}
  {ask : Query → Program Time Finding}
  (asks : ∀ query, Alike related query.FindsAlike (ask query) (ask query))
  (workers : Nat) (hasDeadline : Bool)

include asks

/-- One step keeps two pools in step. -/
theorem advance_alike {left right : State} (alike : State.Alike left right) (step : Step) :
    Alike related State.Alike (advance workers hasDeadline ask left step)
      (advance workers hasDeadline ask right step) := by
  cases step with
  | start query =>
      unfold advance
      dsimp only
      rw [alike.mayStart_eq]
      split
      · exact (outcomeOf_alike asks query).bind fun _ _ ends => .pure (alike.start ends)
      · exact .pure alike
  | finish query => exact .pure (alike.finish query)
  | note query => exact .pure (alike.note query)
  | expire =>
      cases hasDeadline with
      | true => exact .pure alike.expire
      | false => exact .pure alike

/-- **Two pools stay in step along every schedule.** -/
theorem run_alike (schedule : Schedule) {left right : State} (alike : State.Alike left right) :
    Alike related State.Alike (run workers hasDeadline ask left schedule)
      (run workers hasDeadline ask right schedule) := by
  induction schedule generalizing left right with
  | nil => exact .pure alike
  | cons step rest inductionHypothesis =>
      exact (advance_alike asks workers hasDeadline alike step).bind fun _ _ alike =>
        inductionHypothesis alike

theorem collect_alike (schedule : Schedule) :
    Alike related (Option.Rel Facts.Alike) (collect workers hasDeadline ask schedule)
      (collect workers hasDeadline ask schedule) := by
  have fresh : State.Alike {} {} := ⟨rfl, .nil, .nil, rfl, rfl, fun _ same => by cases same⟩
  refine (run_alike asks workers hasDeadline schedule fresh).bind fun left right alike => ?_
  have isComplete_eq : left.isComplete = right.isComplete := by
    simp only [State.isComplete, alike.noted]
  unfold State.result
  rw [← alike.verdict, ← isComplete_eq]
  cases closed : left.verdict with
  | some failure => exact .fail (alike.listed failure closed)
  | none =>
      cases left.isComplete with
      | true => exact .pure (.some (Facts.alike_ofOutcomes alike.outcomes))
      | false => exact .pure .none

end Running
end Pool

/-! ## The assembly -/

section Assembling

variable {Time : Type} [Timekeeping Time] {related : World Time → World Time → Prop}
  (inStep : InStep related)

include inStep

theorem deadlineAfter_alike (limit : Option Time) :
    Alike related Eq (deadlineAfter limit) (deadlineAfter limit) := by
  cases limit with
  | none => exact .pure rfl
  | some limit =>
      unfold deadlineAfter
      dsimp only
      split
      · refine .look fun left right kept => ?_
        rw [inStep.clock kept]
        exact (Alike.ofFault _).bindSame fun deadline => .pure rfl
      · exact .pure rfl

omit [Timekeeping Time] in
theorem hasBinary_alike (client : Git.Client Time) :
    Alike related Eq client.hasBinary client.hasBinary := by
  refine .look fun left right kept => ?_
  have canFind_eq (name : String) : Git.Client.canFind left name = Git.Client.canFind right name := by
    unfold Git.Client.canFind
    simp only [inStep.files kept, inStep.cwd kept, inStep.searchPath kept]
  simp only [canFind_eq]
  split
  · exact .pure rfl
  · split
    · exact .pure rfl
    · exact .pure rfl
  · exact .fail (Failure.isListed_fault _)

omit [Timekeeping Time] in
theorem relativeDirectory_alike (base directory : String) :
    Alike related Eq (Location.relativeDirectory base directory)
      (Location.relativeDirectory base directory) := by
  refine .look fun left right kept => ?_
  rw [inStep.files kept, inStep.cwd kept]
  split
  · exact .pure rfl
  · next failure fails =>
      refine .fail ?_
      unfold Location.relativeTo at fails
      split at fails
      · obtain rfl := Except.error.inj fails
        unfold Location.unresolved
        split
        · exact Failure.isListed_git _ _
        · exact Failure.isListed_fault _
      · split at fails
        · split at fails
          · cases fails
          · obtain rfl := Except.error.inj fails
            exact Failure.isListed_git _ _
        · obtain rfl := Except.error.inj fails
          exact Failure.isListed_git _ _

omit [Timekeeping Time] inStep in
theorem locationOf_eq {url : String} (located : Remote.canonical url ≠ "") :
    (locationOf url : Program Time String) = pure (Remote.canonical url) := by
  have given : url.isEmpty = false := by
    simpa using Remote.SamePlace.ne_empty_of_canonical located
  have reached : (Remote.canonical url).isEmpty = false := by simpa using located
  simp only [locationOf, given, reached, Bool.false_eq_true, if_false]

omit [Timekeeping Time] inStep in
theorem locationOf_alike {left right : String} (place : Remote.SamePlace left right) :
    Alike related Eq (locationOf left) (locationOf right) := by
  rcases place with rfl | ⟨one, located⟩
  · unfold locationOf
    dsimp only
    split
    · exact .pure rfl
    · split
      · exact .fail (Failure.isListed_git _ _)
      · exact .pure rfl
  · rw [locationOf_eq located, locationOf_eq (one ▸ located), one]
    exact .pure rfl

omit [Timekeeping Time] in
theorem conclude_alike (directory baseDir : String) {left right : Facts}
    (facts : Facts.Alike left right) :
    Alike related (fun first second => first.1.Alike second.1 ∧ first.2 = second.2)
      (Service.conclude directory baseDir left) (Service.conclude directory baseDir right) := by
  refine (locationOf_alike facts.place).bindSame fun gitUrl =>
    (relativeDirectory_alike inStep baseDir directory).bindSame fun relDir =>
      .pure ⟨facts.toRecord baseDir relDir gitUrl, facts.gaps_eq⟩

namespace Service

variable (service : Service Time) (schedule : Pool.Schedule) (directory : String)

theorem collect_alike (deadline : Option Time) :
    Alike related Facts.Alike (service.collect schedule directory deadline)
      (service.collect schedule directory deadline) := by
  have asks := ask_alike inStep service directory deadline
  unfold Service.collect
  dsimp only
  split
  · exact sequential_alike asks
  · refine (Pool.collect_alike asks _ _ schedule).bind fun _ _ found => ?_
    cases found with
    | some facts => exact .pure facts
    | none => exact .fail (Failure.isListed_fault _)

theorem gather_alike (limit : Option Time) :
    Alike related (fun first second => first.1.Alike second.1 ∧ first.2 = second.2)
      (service.gather schedule directory limit) (service.gather schedule directory limit) := by
  refine (deadlineAfter_alike inStep _).bindSame fun deadline =>
    (hasBinary_alike inStep service.client).bindSame fun isThere => ?_
  cases isThere with
  | true =>
      exact (requireRepository_alike inStep service directory deadline).bindSame fun _ =>
        (rootOf_alike inStep service directory deadline).bindSame fun baseDir =>
          (service.collect_alike inStep schedule directory deadline).bind fun _ _ facts =>
            conclude_alike inStep directory baseDir facts
  | false => exact .fail trivial

end Service

/-- **Assemblies end alike where the remotes lead to the same place.**  Along one schedule they fail
with the same failure, or both return: with the same gaps, and with records that differ in the
remote URL at most. -/
theorem InStep.assembleAlong_alike (service : Service Time) (schedule : Pool.Schedule)
    (directory : String) (limit : Option Time) :
    Alike related (fun first second => first.1 = second.1 ∧ first.2.Alike second.2)
      (service.assembleAlong schedule directory limit)
      (service.assembleAlong schedule directory limit) := by
  refine (service.gather_alike inStep schedule directory limit).bind fun first second same => ?_
  obtain ⟨record, gaps⟩ := first
  obtain ⟨other, _⟩ := second
  obtain ⟨alike, rfl⟩ := same
  exact (Alike.forM (fun gap => .log inStep.toEven _ _ _) gaps).bindSame fun _ =>
    .pure ⟨rfl, alike⟩

/-- Where the scripts are the same, so are the remote URLs. -/
theorem InStep.assembleAlong_same {script : Git.Script Time}
    (scripted : ∀ {left right}, related left right → left.script = script ∧ right.script = script)
    (service : Service Time) (schedule : Pool.Schedule) (directory : String)
    (limit : Option Time) :
    Alike related Eq (service.assembleAlong schedule directory limit)
      (service.assembleAlong schedule directory limit) := by
  have ends := inStep.assembleAlong_alike service schedule directory limit
  have keeps := service.assembleAlong_keeps (World.lasting_hasScript script) directory schedule limit
  refine (Alike.keeping ends keeps keeps scripted).weaken fun left right same => ?_
  obtain ⟨kept, record⟩ := left
  obtain ⟨_, other⟩ := right
  obtain ⟨⟨rfl, alike⟩, ⟨_, _, _, told⟩, ⟨_, _, _, otherTold⟩⟩ := same
  have url : record.remoteUrl = (service.factsBy script).remoteUrl :=
    congrArg (fun found => found.1.remoteUrl) told
  have otherUrl : other.remoteUrl = (service.factsBy script).remoteUrl :=
    congrArg (fun found => found.1.remoteUrl) otherTold
  have same : other = { record with remoteUrl := other.remoteUrl } := alike.same
  rw [otherUrl, ← url] at same
  exact Prod.ext rfl same.symm

omit inStep in
/-- Worlds with the same variables are in step. -/
theorem Service.assembleAlong_alike (service : Service Time) (attuned : Attuned related)
    (schedule : Pool.Schedule) (directory : String) (limit : Option Time) :
    Alike related (fun first second => first.1 = second.1 ∧ first.2.Alike second.2)
      (service.assembleAlong schedule directory limit)
      (service.assembleAlong schedule directory limit) :=
  attuned.toInStep.assembleAlong_alike service schedule directory limit

end Assembling
end Assembly
end Provenance
