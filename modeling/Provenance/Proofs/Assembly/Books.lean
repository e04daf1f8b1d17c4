import Provenance.Proofs.Assembly.Calls

/-!
Contract: the books of a pool, for any mix of outcomes.

Owns:
- `Pool.Preserves`, what every step keeps of a pool and of the world, with its step and run lemmas;
- `Pool.run_of_isClosed`, that a closed pool stays as it is;
- `Pool.Accounts`, the books of a pool: why it is closed, and which calls its queries have made.

Does **not** own: what an assembly makes of its pool.

## Why the outcomes are arbitrary

A pool can break for any mix of outcomes, and with a deadline these depend on the
order of the steps.  So nothing is assumed of them: the outcome that a query has
when it starts is entered into the books, and the pool is sound for these.
-/

set_option autoImplicit false

namespace Provenance.Assembly

open World (Call HasCalled)
open scoped List

/-! ## Every run of a pool -/

namespace Pool

section Running

variable {Time : Type} {ask : Query → Program Time Finding} {workers : Nat} {hasDeadline : Bool}

/-- What holds of a pool and of the world, and still holds whatever happens next. -/
structure Preserves (ask : Query → Program Time Finding) (workers : Nat) (hasDeadline : Bool)
    (holds : State → World Time → Prop) : Prop where
  starts : ∀ state current query outcome last, holds state current →
    state.mayStart workers query = true →
      (outcomeOf ask query).runIn current = (.ok outcome, last) →
        holds (state.start query outcome) last
  finishes : ∀ state current query, holds state current → holds (state.finish query) current
  notes : ∀ state current query, holds state current → holds (state.note query) current
  expires : ∀ state current, hasDeadline = true → holds state current →
    holds state.expire current

variable {holds : State → World Time → Prop}

/-- One step. -/
theorem Preserves.advance (preserves : Preserves ask workers hasDeadline holds) {state : State}
    {current : World Time} (initially : holds state current) (step : Step) :
    ∃ next last, (Pool.advance workers hasDeadline ask state step).runIn current =
        (.ok next, last) ∧ holds next last := by
  cases step with
  | start query =>
      by_cases may : state.mayStart workers query = true
      · have asks := outcomeOf_runIn ask query current
        refine ⟨_, _, ?_, preserves.starts state current query _ _ initially may asks⟩
        rw [Pool.advance, if_pos may, Program.runIn_bind_of_ok asks, Program.runIn_pure]
      · refine ⟨state, current, ?_, initially⟩
        rw [Pool.advance, if_neg may, Program.runIn_pure]
  | finish query => exact ⟨_, _, rfl, preserves.finishes state current query initially⟩
  | note query => exact ⟨_, _, rfl, preserves.notes state current query initially⟩
  | expire =>
      cases hasDeadline with
      | true => exact ⟨_, _, rfl, preserves.expires state current rfl initially⟩
      | false => exact ⟨_, _, rfl, initially⟩

/-- **A pool never fails, and what each step keeps, every schedule keeps.** -/
theorem Preserves.run (preserves : Preserves ask workers hasDeadline holds) (schedule : Schedule)
    {state : State} {current : World Time} (initially : holds state current) :
    ∃ last after, (Pool.run workers hasDeadline ask state schedule).runIn current =
        (.ok last, after) ∧ holds last after := by
  induction schedule generalizing state current with
  | nil => exact ⟨state, current, rfl, initially⟩
  | cons step rest inductionHypothesis =>
      obtain ⟨next, middle, advances, holdsNext⟩ := preserves.advance initially step
      rw [Pool.run, Program.runIn_bind_of_ok advances]
      exact inductionHypothesis holdsNext

theorem run_append (state : State) (before rest : Schedule) :
    run workers hasDeadline ask state (before ++ rest) =
      run workers hasDeadline ask state before >>= fun middle =>
        run workers hasDeadline ask middle rest := by
  induction before generalizing state with
  | nil => rw [List.nil_append, run, pure_bind]
  | cons step before inductionHypothesis =>
      rw [List.cons_append, run, run, bind_assoc]
      exact congrArg _ (funext inductionHypothesis)

theorem isSettled_of_isClosed {state : State} (closed : state.isClosed = true) :
    state.isSettled = true := by
  rw [State.isSettled, closed, Bool.true_or]

/-- Nothing starts in a closed pool, its verdict stands, and nothing happens in the world. -/
theorem preserves_closed (state : State) (closed : state.isClosed = true) (world : World Time) :
    Preserves ask workers hasDeadline fun other current =>
      current = world ∧ other.started = state.started ∧ other.verdict = state.verdict where
  starts := by
    rintro other current query outcome last ⟨-, -, verdict⟩ may -
    obtain ⟨-, isOpen, -⟩ := mayStart_iff.mp may
    rw [State.isClosed, ← verdict, isOpen] at closed
    cases closed
  finishes := by
    rintro other current query ⟨same, started, verdict⟩
    rcases finish_cases other query with idle | ⟨found, -, -, moved⟩
    · rw [idle]
      exact ⟨same, started, verdict⟩
    · rw [moved]
      exact ⟨same, started, verdict⟩
  notes := by
    rintro other current query ⟨same, started, verdict⟩
    have settled : other.isSettled = true :=
      isSettled_of_isClosed (by rw [State.isClosed, verdict]; exact closed)
    rcases note_cases other query with idle | ⟨found, waited, -⟩
    · rw [idle]
      exact ⟨same, started, verdict⟩
    · rw [settled] at waited
      cases waited
  expires := by
    rintro other current - ⟨same, started, verdict⟩
    have settled : other.isSettled = true :=
      isSettled_of_isClosed (by rw [State.isClosed, verdict]; exact closed)
    rw [State.expire, if_pos settled]
    exact ⟨same, started, verdict⟩

theorem run_of_isClosed {state : State} (closed : state.isClosed = true) (schedule : Schedule)
    (current : World Time) :
    ∃ last, (run workers hasDeadline ask state schedule).runIn current = (.ok last, current) ∧
      last.started = state.started ∧ last.verdict = state.verdict := by
  obtain ⟨last, _, runs, rfl, started, verdict⟩ :=
    (preserves_closed state closed current).run schedule ⟨rfl, rfl, rfl⟩
  exact ⟨last, runs, started, verdict⟩

end Running

/-! ## The books of a pool -/

/-- A pool is closed because of a fatal end of one of its queries, or because of the deadline. -/
def State.IsExplained (hasDeadline : Bool) (state : State) : Prop :=
  ∀ failure, state.verdict = some failure →
    (∃ query, (query, .fatal failure) ∈ state.ended) ∨
      (hasDeadline = true ∧ failure = deadlineExceeded)

section Verdicts

variable {hasDeadline : Bool} {state : State}

theorem isExplained_finish (explained : state.IsExplained hasDeadline) (query : Query) :
    (state.finish query).IsExplained hasDeadline := by
  rcases finish_cases state query with idle | ⟨found, -, -, moved⟩
  · rw [idle]
    exact explained
  · rw [moved]
    intro failure closes
    exact (explained failure closes).imp_left fun ⟨other, ended⟩ =>
      ⟨other, List.mem_append_left _ ended⟩

theorem isExplained_note (explained : state.IsExplained hasDeadline) (query : Query) :
    (state.note query).IsExplained hasDeadline := by
  rcases note_cases state query with idle | ⟨found, -, -, ended, comes⟩
  · rw [idle]
    exact explained
  rcases comes with ⟨failure, rfl, moved⟩ | ⟨-, moved⟩
  · rw [moved]
    intro other closes
    obtain rfl := Option.some.inj closes
    exact .inl ⟨query, mem_ended ended⟩
  · rw [moved]
    exact explained

theorem isExplained_expire (explained : state.IsExplained true) :
    state.expire.IsExplained true := by
  unfold State.expire
  split
  · exact explained
  · exact fun failure closes => .inr ⟨rfl, (Option.some.inj closes).symm⟩

end Verdicts

/-- The books of a pool that knows the outcomes of its queries and has made some calls for those that
it has asked. -/
structure Accounts {Time : Type} (command : Query → List String) (workers : Nat)
    (hasDeadline : Bool) (before : List (Call Time)) (outcome : Query → Outcome)
    (asked : List Query) (made : List (Call Time)) (state : State) (current : World Time) :
    Prop where
  sound : Sound outcome workers hasDeadline state
  explained : state.IsExplained hasDeadline
  called : HasCalled (before ++ made) current
  commands : made.map (·.command) = asked.map command
  /-- Only what has been started is asked, and only once. -/
  inOrder : asked <+ state.started
  /-- A query that has been started without being asked ends the assembly. -/
  unasked : ∀ query ∈ state.started, query ∉ asked → (outcome query).stop?.isSome

/-- There are books of a pool. -/
def HasAccounts {Time : Type} (command : Query → List String) (workers : Nat)
    (hasDeadline : Bool) (before : List (Call Time)) (state : State) (current : World Time) :
    Prop :=
  ∃ outcome asked made, Accounts command workers hasDeadline before outcome asked made state current

section Books

variable {Time : Type} {ask : Query → Program Time Finding} {command : Query → List String}
  {workers : Nat} {hasDeadline : Bool} {before : List (Call Time)}

theorem hasAccounts_initial {current : World Time} (called : HasCalled before current) :
    HasAccounts command workers hasDeadline before {} current :=
  ⟨fun _ => .unfinished, [], [], {
    sound := sound_initial
    explained := fun _ closes => nomatch closes
    called := by rwa [List.append_nil]
    commands := rfl
    inOrder := .slnil
    unasked := fun _ started => nomatch started }⟩

/-- A query is asked when it starts, or else it ends the assembly. -/
theorem Accounts.start {outcome : Query → Outcome} {asked : List Query} {made : List (Call Time)}
    {state : State} {current last : World Time} {query : Query} {found : Outcome}
    (accounts : Accounts command workers hasDeadline before outcome asked made state current)
    (may : state.mayStart workers query = true)
    (calls : (found.stop?.isSome ∧ HasCalled (before ++ made) last) ∨
      ∃ call : Call Time, call.command = command query ∧
        HasCalled (before ++ made ++ [call]) last) :
    HasAccounts command workers hasDeadline before (state.start query found) last := by
  have sound := accounts.sound.start may found
  have unasked : ∀ other ∈ state.started, other ∉ asked →
      (Function.update outcome query found other).stop?.isSome := by
    intro other started notAsked
    have waits := (mayStart_iff.mp may).1
    rw [Function.update_of_ne (accounts.sound.ne_of_started waits started)]
    exact accounts.unasked other started notAsked
  rcases calls with ⟨stops, same⟩ | ⟨call, names, called⟩
  · refine ⟨_, asked, made, sound, accounts.explained, same, accounts.commands,
      accounts.inOrder.trans (List.sublist_append_left _ _), ?_⟩
    intro other started notAsked
    rcases List.mem_append.mp started with earlier | last
    · exact unasked other earlier notAsked
    · rw [List.mem_singleton.mp last, Function.update_self]
      exact stops
  · refine ⟨_, asked ++ [query], made ++ [call], sound, accounts.explained, ?_, ?_,
      accounts.inOrder.append (.refl _), ?_⟩
    · rwa [← List.append_assoc]
    · rw [List.map_append, List.map_append, accounts.commands, List.map_singleton,
        List.map_singleton, names]
    · intro other started notAsked
      rw [List.mem_append, not_or] at notAsked
      exact unasked other ((List.mem_append.mp started).resolve_right notAsked.2) notAsked.1

/-- The books stay the same as long as nothing is started. -/
theorem Accounts.move {outcome : Query → Outcome} {asked : List Query} {made : List (Call Time)}
    {state next : State} {current : World Time}
    (accounts : Accounts command workers hasDeadline before outcome asked made state current)
    (sound : Sound outcome workers hasDeadline next) (explained : next.IsExplained hasDeadline)
    (started : next.started = state.started) :
    HasAccounts command workers hasDeadline before next current :=
  ⟨outcome, asked, made, {
    sound := sound
    explained := explained
    called := accounts.called
    commands := accounts.commands
    inOrder := started ▸ accounts.inOrder
    unasked := started ▸ accounts.unasked }⟩

/-- **Whatever happens next, the books of a pool are kept.** -/
theorem preserves_hasAccounts
    (asks : ∀ (query : Query) (made : List (Call Time)) (current last : World Time)
        (outcome : Outcome), HasCalled made current →
      (outcomeOf ask query).runIn current = (.ok outcome, last) →
        (outcome.stop?.isSome ∧ HasCalled made last) ∨
          ∃ call : Call Time, call.command = command query ∧ HasCalled (made ++ [call]) last) :
    Preserves ask workers hasDeadline (HasAccounts command workers hasDeadline before) where
  starts := by
    rintro state current query found last ⟨outcome, asked, made, accounts⟩ may runs
    exact accounts.start may (asks query _ current last found accounts.called runs)
  finishes := by
    rintro state current query ⟨outcome, asked, made, accounts⟩
    refine accounts.move (sound_next accounts.sound (.finish query))
      (isExplained_finish accounts.explained query) ?_
    rcases finish_cases state query with idle | ⟨found, -, -, moved⟩
    · rw [idle]
    · rw [moved]
  notes := by
    rintro state current query ⟨outcome, asked, made, accounts⟩
    refine accounts.move (sound_next accounts.sound (.note query))
      (isExplained_note accounts.explained query) ?_
    rcases note_cases state query with idle | ⟨found, -, -, -, ⟨failure, -, moved⟩ | ⟨-, moved⟩⟩
    · rw [idle]
    · rw [moved]
    · rw [moved]
  expires := by
    rintro state current timed ⟨outcome, asked, made, accounts⟩
    subst timed
    refine accounts.move (sound_next accounts.sound .expire)
      (isExplained_expire accounts.explained) ?_
    unfold State.expire
    split <;> rfl

end Books

/-! ## What the books say -/

section Books

variable {Time : Type} {command : Query → List String} {workers : Nat} {hasDeadline : Bool}
  {before : List (Call Time)} {outcome : Query → Outcome} {state : State}

theorem Sound.started_nodup (sound : Sound outcome workers hasDeadline state) :
    state.started.Nodup :=
  sound.started.nodup_iff.mpr sound.launched_nodup

/-- Every query of a complete pool has ended. -/
theorem Sound.ended_of_isComplete (sound : Sound outcome workers hasDeadline state)
    (complete : state.isComplete = true) (query : Query) :
    query ∈ state.ended.map Prod.fst :=
  sound.noted_ended query (mem_noted_of_isComplete complete query)

theorem Sound.started_of_isComplete (sound : Sound outcome workers hasDeadline state)
    (complete : state.isComplete = true) (query : Query) : query ∈ state.started := by
  rw [sound.started.mem_iff, State.launched, List.map_append]
  exact List.mem_append_right _ (sound.ended_of_isComplete complete query)

/-- A list in which every query stands once is an arrangement of all queries. -/
theorem perm_all {queries : List Query} (distinct : queries.Nodup) (full : ∀ query, query ∈ queries) :
    queries ~ Query.all :=
  (List.perm_ext_iff_of_nodup distinct (by decide)).mpr fun query =>
    ⟨fun _ => query.mem_all, fun _ => full query⟩

theorem Sound.isFatal_of_ended (sound : Sound outcome workers hasDeadline state) {query : Query}
    {failure : Failure} (ended : (query, .fatal failure) ∈ state.ended) :
    outcome query = .fatal failure :=
  (sound.known _ (List.mem_append_right _ ended)).symm

/-- A pool with a fatal end is not complete unless it has been closed. -/
theorem Sound.isClosed_of_fatal (sound : Sound outcome workers hasDeadline state) {query : Query}
    {failure : Failure} (ended : (query, .fatal failure) ∈ state.ended)
    (settled : state.isSettled = true) : state.isClosed = true := by
  by_contra isOpen
  rw [State.isSettled, Bool.eq_false_iff.mpr isOpen, Bool.false_or] at settled
  have harmless := sound.harmless_of_isComplete settled (by simpa [State.isClosed] using isOpen)
  exact (harmless query).2 failure (sound.isFatal_of_ended ended)

/-- Where the deadline expires before some query has ended, the pool is closed. -/
theorem Sound.isClosed_expire (sound : Sound outcome workers hasDeadline state)
    (unfinished : ∃ query, query ∉ state.ended.map Prod.fst) : state.expire.isClosed = true := by
  obtain ⟨query, notEnded⟩ := unfinished
  have incomplete : state.isComplete = false :=
    Bool.eq_false_iff.mpr fun complete => notEnded (sound.ended_of_isComplete complete query)
  unfold State.expire
  split
  · next settled => rwa [State.isSettled, incomplete, Bool.or_false] at settled
  · rfl

/-- **A fatal end comes to light.**  Once it is noted, the pool is no longer waited for. -/
theorem Sound.isSettled_note (sound : Sound outcome workers hasDeadline state) {query : Query}
    {failure : Failure} (ended : (query, .fatal failure) ∈ state.ended) :
    (state.note query).isSettled = true := by
  have isFatal := sound.isFatal_of_ended ended
  rcases note_cases state query with idle | ⟨found, -, -, lookup_eq, ⟨_, -, moved⟩ | ⟨notFatal, -⟩⟩
  · rw [idle]
    by_contra waited
    have waited : state.isSettled = false := Bool.eq_false_iff.mpr waited
    obtain ⟨isOpen, -⟩ : state.verdict = none ∧ state.isComplete = false := by
      simpa [State.isSettled, State.isClosed] using waited
    -- An end that has not been noted yet would have been noted by this step.
    have noted : query ∈ state.noted := by
      by_contra fresh
      have isThere : (state.outcome? query).isSome = true :=
        List.lookup_isSome_iff.mpr ⟨(query, Outcome.fatal failure), ended, by simp⟩
      obtain ⟨found, lookup_eq⟩ := Option.isSome_iff_exists.mp isThere
      exact note_ne waited fresh lookup_eq idle
    exact sound.harmless isOpen query noted failure isFatal
  · rw [moved]
    rfl
  · rw [sound.eq_outcome lookup_eq] at notFatal
    exact absurd isFatal (notFatal failure)

/-- **A pool that comes to its facts has asked every query just once.** -/
theorem Accounts.asked_all {asked : List Query} {made : List (Call Time)} {current : World Time}
    (accounts : Accounts command workers hasDeadline before outcome asked made state current)
    (isOpen : state.verdict = none) (complete : state.isComplete = true) :
    state.started ~ Query.all ∧ made.map (·.command) ~ Query.all.map command := by
  have sound := accounts.sound
  have asksAll : ∀ query, query ∈ asked := by
    intro query
    by_contra notAsked
    have stops := accounts.unasked query (sound.started_of_isComplete complete query) notAsked
    obtain ⟨ends, harmless⟩ := sound.harmless_of_isComplete complete isOpen query
    cases comes : outcome query with
    | unfinished => exact ends comes
    | fatal failure => exact harmless failure comes
    | found finding => rw [comes] at stops; cases stops
    | gap problem => rw [comes] at stops; cases stops
  refine ⟨perm_all sound.started_nodup (sound.started_of_isComplete complete), ?_⟩
  rw [accounts.commands]
  exact (perm_all (accounts.inOrder.nodup sound.started_nodup) asksAll).map command

end Books
end Pool
end Provenance.Assembly
