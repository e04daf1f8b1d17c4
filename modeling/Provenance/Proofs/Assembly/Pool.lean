import Mathlib.Data.List.Perm.Subperm
import Provenance.Assembly.Pool

/-!
Contract: a pool of workers whose queries come to known outcomes.

Owns:
- `Pool.next` and `Pool.after`, the pool as a machine without a world;
- `Pool.Sound`, the invariant of every interleaving, and its step and run lemmas;
- `Pool.result_of_settled`, what a pool has come to that is no longer waited for;
- `Pool.next_eq_or_remaining_lt` and `Pool.exists_settling`, the progress of a pool.

Does **not** own: why the outcomes are known, and what the pool's result is used
for.

## Why the machine has no world

With known outcomes a pool no longer depends on anything that happens outside.
What holds of every interleaving is an induction on the schedule, and the effects
of the queries come in only when the pool is run as a program.
-/

set_option autoImplicit false

namespace Provenance.Assembly

open scoped List

theorem Query.mem_all (query : Query) : query ∈ Query.all := by
  cases query <;> decide

namespace Pool

section Machine

variable (outcome : Query → Outcome) (workers : Nat) (hasDeadline : Bool)

/-- One step of a pool whose queries come to known outcomes. -/
def next (state : State) : Step → State
  | .start query =>
    if state.mayStart workers query then state.start query (outcome query) else state
  | .finish query => state.finish query
  | .note query => state.note query
  | .expire => if hasDeadline then state.expire else state

def after (state : State) (schedule : Schedule) : State :=
  schedule.foldl (next outcome workers hasDeadline) state

/-- The queries that run or have ended, with their outcomes. -/
def State.launched (state : State) : List (Query × Outcome) :=
  state.running ++ state.ended

/-- The invariant of a pool. -/
structure Sound (state : State) : Prop where
  /-- Every query either waits, or runs, or has ended, and each only once. -/
  parted : state.waiting ++ state.launched.map Prod.fst ~ Query.all
  /-- What runs or has ended has been started, and each only once. -/
  started : state.started ~ state.launched.map Prod.fst
  /-- No more queries run than there are workers. -/
  busy : state.running.length ≤ workers
  known : ∀ entry ∈ state.launched, entry.2 = outcome entry.1
  /-- A query that never comes to an end has not ended. -/
  finite : ∀ entry ∈ state.ended, entry.2 ≠ .unfinished
  noted_nodup : state.noted.Nodup
  noted_ended : ∀ query ∈ state.noted, query ∈ state.ended.map Prod.fst
  /-- As long as the pool is open, no fatal end has been noted. -/
  harmless : state.verdict = none →
    ∀ query ∈ state.noted, ∀ failure, outcome query ≠ .fatal failure
  /-- The pool has been closed by a fatal end or by the deadline. -/
  closed : ∀ failure, state.verdict = some failure →
    (∃ query, outcome query = .fatal failure) ∨
      (hasDeadline = true ∧ failure = deadlineExceeded)

end Machine

/-! ## What each step does -/

/-- Of entries with distinct queries, one is apart from the rest. -/
private theorem perm_cons_filter {query : Query} {found : Outcome}
    {entries : List (Query × Outcome)} (distinct : (entries.map Prod.fst).Nodup)
    (lookup_eq : entries.lookup query = some found) :
    entries ~ (query, found) :: entries.filter fun (other, _) => other ≠ query := by
  induction entries with
  | nil => cases lookup_eq
  | cons entry rest inductionHypothesis =>
      obtain ⟨other, kept⟩ := entry
      obtain ⟨fresh, distinct⟩ := List.nodup_cons.mp distinct
      by_cases same : other = query
      · subst same
        obtain rfl : kept = found := by simpa using lookup_eq
        have rest_eq : rest.filter (fun (entry, _) => entry ≠ other) = rest := by
          refine List.filter_eq_self.mpr fun entry member => ?_
          have different : entry.1 ≠ other := fun same =>
            fresh (List.mem_map.mpr ⟨entry, member, same⟩)
          simpa using different
        rw [List.filter_cons_of_neg (by simp), rest_eq]
      · have different : (query == other) = false := by simpa using Ne.symm same
        rw [List.lookup_cons, different] at lookup_eq
        rw [List.filter_cons_of_pos (by simpa using same)]
        exact ((inductionHypothesis distinct lookup_eq).cons _).trans (.swap _ _ _)

/-- A query ends that runs and comes to an end; no other step of this kind changes anything. -/
theorem finish_cases (state : State) (query : Query) :
    state.finish query = state ∨
      ∃ found, state.running.lookup query = some found ∧ found ≠ .unfinished ∧
        state.finish query =
          { state with
            running := state.running.filter fun (other, _) => other ≠ query
            ended := state.ended ++ [(query, found)] } := by
  unfold State.finish
  cases running : state.running.lookup query with
  | none => exact .inl rfl
  | some found =>
      cases found with
      | unfinished => exact .inl rfl
      | found finding => exact .inr ⟨_, rfl, by simp, rfl⟩
      | gap problem => exact .inr ⟨_, rfl, by simp, rfl⟩
      | fatal failure => exact .inr ⟨_, rfl, by simp, rfl⟩

/-- The end of a query is noted once, while the pool is waited for; a fatal end closes the pool. -/
theorem note_cases (state : State) (query : Query) :
    state.note query = state ∨
      ∃ found, state.isSettled = false ∧ query ∉ state.noted ∧
        state.outcome? query = some found ∧
        ((∃ failure, found = .fatal failure ∧
            state.note query =
              { state with noted := state.noted ++ [query], verdict := some failure }) ∨
          ((∀ failure, found ≠ .fatal failure) ∧
            state.note query = { state with noted := state.noted ++ [query] })) := by
  unfold State.note
  by_cases idle : (state.isSettled || state.noted.contains query) = true
  · exact .inl (if_pos idle)
  rw [if_neg idle]
  obtain ⟨waited, fresh⟩ : state.isSettled = false ∧ query ∉ state.noted := by
    simpa using idle
  cases ended : state.outcome? query with
  | none => exact .inl rfl
  | some found =>
      refine .inr ⟨found, waited, fresh, rfl, ?_⟩
      cases found with
      | fatal failure => exact .inl ⟨failure, rfl, rfl⟩
      | found finding => exact .inr ⟨by simp, rfl⟩
      | gap problem => exact .inr ⟨by simp, rfl⟩
      | unfinished => exact .inr ⟨by simp, rfl⟩

theorem mem_ended {state : State} {query : Query} {found : Outcome}
    (ended : state.outcome? query = some found) : (query, found) ∈ state.ended := by
  obtain ⟨before, rest, ended_eq, -⟩ := List.lookup_eq_some_iff.mp ended
  rw [ended_eq]
  simp

private theorem launched_start (state : State) (query : Query) (found : Outcome) :
    (state.start query found).launched ~ (query, found) :: state.launched := by
  unfold State.launched State.start
  rw [List.append_assoc]
  exact List.perm_middle

/-! ## Every step keeps the invariant -/

section Invariant

variable {outcome : Query → Outcome} {workers : Nat} {hasDeadline : Bool} {state : State}
  {query : Query}

theorem sound_initial : Sound outcome workers hasDeadline {} where
  parted := by simp [State.launched]
  started := by simp [State.launched]
  busy := Nat.zero_le _
  known := by simp [State.launched]
  finite := by simp
  noted_nodup := List.nodup_nil
  noted_ended := by simp
  harmless := by simp
  closed := by simp

theorem Sound.launched_nodup (sound : Sound outcome workers hasDeadline state) :
    (state.launched.map Prod.fst).Nodup :=
  (List.nodup_append.mp (sound.parted.nodup_iff.mpr (by decide))).2.1

theorem Sound.eq_outcome (sound : Sound outcome workers hasDeadline state) {found : Outcome}
    (ended : state.outcome? query = some found) : found = outcome query :=
  sound.known (query, found) (List.mem_append_right _ (mem_ended ended))

private theorem sound_start (sound : Sound outcome workers hasDeadline state)
    (waits : query ∈ state.waiting) (free : state.running.length < workers) :
    Sound outcome workers hasDeadline (state.start query (outcome query)) where
  parted :=
    calc state.waiting.erase query ++
          (state.start query (outcome query)).launched.map Prod.fst
      _ ~ state.waiting.erase query ++ query :: state.launched.map Prod.fst :=
          ((launched_start state query (outcome query)).map _).append_left _
      _ ~ query :: state.waiting.erase query ++ state.launched.map Prod.fst :=
          List.perm_middle
      _ ~ state.waiting ++ state.launched.map Prod.fst :=
          (List.perm_cons_erase waits).symm.append_right _
      _ ~ Query.all := sound.parted
  started :=
    calc state.started ++ [query]
      _ ~ query :: state.started := List.perm_append_singleton _ _
      _ ~ query :: state.launched.map Prod.fst := sound.started.cons _
      _ ~ (state.start query (outcome query)).launched.map Prod.fst :=
          ((launched_start state query (outcome query)).map Prod.fst).symm
  busy := by simpa [State.start] using Nat.succ_le_of_lt free
  known := by
    intro entry member
    rcases List.mem_cons.mp ((launched_start _ _ _).mem_iff.mp member) with rfl | earlier
    · rfl
    · exact sound.known entry earlier
  finite := sound.finite
  noted_nodup := sound.noted_nodup
  noted_ended := sound.noted_ended
  harmless := sound.harmless
  closed := sound.closed

private theorem launched_finish (sound : Sound outcome workers hasDeadline state)
    {found : Outcome} (runs : state.running.lookup query = some found) :
    (state.running.filter fun (other, _) => other ≠ query) ++ (state.ended ++ [(query, found)]) ~
      state.launched := by
  have distinct : (state.running.map Prod.fst).Nodup := by
    have launched := sound.launched_nodup
    rw [State.launched, List.map_append] at launched
    exact (List.nodup_append.mp launched).1
  rw [← List.append_assoc]
  calc (state.running.filter fun (other, _) => other ≠ query) ++ state.ended ++ [(query, found)]
    _ ~ ((query, found) :: state.running.filter fun (other, _) => other ≠ query) ++
          state.ended := List.perm_append_singleton _ _
    _ ~ state.launched := (perm_cons_filter distinct runs).symm.append_right _

private theorem sound_finish (sound : Sound outcome workers hasDeadline state)
    (query : Query) : Sound outcome workers hasDeadline (state.finish query) := by
  rcases finish_cases state query with same | ⟨found, runs, ends, finish_eq⟩
  · rw [same]
    exact sound
  have launched := launched_finish sound runs
  rw [finish_eq]
  constructor
  case parted => exact ((launched.map _).append_left _).trans sound.parted
  case started => exact sound.started.trans (launched.map _).symm
  case busy => exact Nat.le_trans (List.length_filter_le _ _) sound.busy
  case known => exact fun entry member => sound.known entry (launched.mem_iff.mp member)
  case finite =>
    intro entry member
    rcases List.mem_append.mp member with earlier | last
    · exact sound.finite entry earlier
    · rw [List.mem_singleton.mp last]
      exact ends
  case noted_nodup => exact sound.noted_nodup
  case noted_ended =>
    intro noted member
    rw [List.map_append]
    exact List.mem_append_left _ (sound.noted_ended noted member)
  case harmless => exact sound.harmless
  case closed => exact sound.closed

private theorem sound_note (sound : Sound outcome workers hasDeadline state)
    (query : Query) : Sound outcome workers hasDeadline (state.note query) := by
  rcases note_cases state query with same | ⟨found, -, fresh, ended, comes⟩
  · rw [same]
    exact sound
  have found_eq := sound.eq_outcome ended
  have noted_nodup : (state.noted ++ [query]).Nodup :=
    (List.perm_append_singleton _ _).nodup_iff.mpr (List.nodup_cons.mpr ⟨fresh, sound.noted_nodup⟩)
  have noted_ended : ∀ noted ∈ state.noted ++ [query], noted ∈ state.ended.map Prod.fst := by
    intro noted member
    rcases List.mem_append.mp member with earlier | last
    · exact sound.noted_ended noted earlier
    · rw [List.mem_singleton.mp last]
      exact List.mem_map_of_mem (mem_ended ended)
  rcases comes with ⟨failure, isFatal, note_eq⟩ | ⟨notFatal, note_eq⟩
  · rw [note_eq]
    exact {
      parted := sound.parted
      started := sound.started
      busy := sound.busy
      known := sound.known
      finite := sound.finite
      noted_nodup := noted_nodup
      noted_ended := noted_ended
      harmless := fun isOpen => nomatch isOpen
      closed := fun other closes => by
        obtain rfl := Option.some.inj closes
        exact .inl ⟨query, found_eq.symm.trans isFatal⟩ }
  · rw [note_eq]
    exact {
      parted := sound.parted
      started := sound.started
      busy := sound.busy
      known := sound.known
      finite := sound.finite
      noted_nodup := noted_nodup
      noted_ended := noted_ended
      harmless := fun isOpen noted member failure => by
        rcases List.mem_append.mp member with earlier | last
        · exact sound.harmless isOpen noted earlier failure
        · rw [List.mem_singleton.mp last, ← found_eq]
          exact notFatal failure
      closed := sound.closed }

private theorem sound_expire (sound : Sound outcome workers true state) :
    Sound outcome workers true state.expire := by
  unfold State.expire
  split
  · exact sound
  · exact {
      parted := sound.parted
      started := sound.started
      busy := sound.busy
      known := sound.known
      finite := sound.finite
      noted_nodup := sound.noted_nodup
      noted_ended := sound.noted_ended
      harmless := fun isOpen => nomatch isOpen
      closed := fun failure closes => .inr ⟨rfl, (Option.some.inj closes).symm⟩ }

theorem mayStart_iff :
    state.mayStart workers query = true ↔
      query ∈ state.waiting ∧ state.verdict = none ∧ state.running.length < workers := by
  simp [State.mayStart, State.isClosed, and_assoc]

/-- **One step keeps a pool sound.** -/
theorem sound_next (sound : Sound outcome workers hasDeadline state) (step : Step) :
    Sound outcome workers hasDeadline (next outcome workers hasDeadline state step) := by
  cases step with
  | start query =>
      simp only [next]
      split
      · next may =>
          obtain ⟨waits, -, free⟩ := mayStart_iff.mp may
          exact sound_start sound waits free
      · exact sound
  | finish query => exact sound_finish sound query
  | note query => exact sound_note sound query
  | expire =>
      cases hasDeadline with
      | true => exact sound_expire sound
      | false => exact sound

/-- **Every interleaving keeps a pool sound.** -/
theorem sound_after (sound : Sound outcome workers hasDeadline state) (schedule : Schedule) :
    Sound outcome workers hasDeadline (after outcome workers hasDeadline state schedule) := by
  induction schedule generalizing state with
  | nil => exact sound
  | cons step rest inductionHypothesis => exact inductionHypothesis (sound_next sound step)

/-- What has been started does not wait any more. -/
theorem Sound.ne_of_started (sound : Sound outcome workers hasDeadline state)
    (waits : query ∈ state.waiting) {other : Query} (started : other ∈ state.started) :
    other ≠ query := by
  intro same
  subst same
  have distinct := sound.parted.nodup_iff.mpr (by decide)
  exact (List.nodup_append.mp distinct).2.2 other waits other
    (sound.started.mem_iff.mp started) rfl

/-- To a query that still waits any outcome may be given: nothing has depended on it yet. -/
theorem Sound.update (sound : Sound outcome workers hasDeadline state)
    (waits : query ∈ state.waiting) (isOpen : state.verdict = none) (found : Outcome) :
    Sound (Function.update outcome query found) workers hasDeadline state := by
  have other_of_launched : ∀ other ∈ state.launched.map Prod.fst, other ≠ query :=
    fun other launched => sound.ne_of_started waits (sound.started.mem_iff.mpr launched)
  have other_of_noted : ∀ other ∈ state.noted, other ≠ query := by
    intro other noted
    refine other_of_launched other ?_
    rw [State.launched, List.map_append]
    exact List.mem_append_right _ (sound.noted_ended other noted)
  exact {
    parted := sound.parted
    started := sound.started
    busy := sound.busy
    known := fun entry member => by
      rw [Function.update_of_ne (other_of_launched _ (List.mem_map_of_mem member))]
      exact sound.known entry member
    finite := sound.finite
    noted_nodup := sound.noted_nodup
    noted_ended := sound.noted_ended
    harmless := fun isOpen other noted failure => by
      rw [Function.update_of_ne (other_of_noted other noted)]
      exact sound.harmless isOpen other noted failure
    closed := fun failure closes => by
      rw [isOpen] at closes
      cases closes }

/-- A query may start with any outcome. -/
theorem Sound.start (sound : Sound outcome workers hasDeadline state)
    (may : state.mayStart workers query = true) (found : Outcome) :
    Sound (Function.update outcome query found) workers hasDeadline (state.start query found) := by
  obtain ⟨waits, isOpen, -⟩ := mayStart_iff.mp may
  have starts := sound_next (sound.update waits isOpen found) (.start query)
  rwa [next, if_pos may, Function.update_self] at starts

end Invariant

/-! ## What a pool has come to -/

section Result

variable {outcome : Query → Outcome} {workers : Nat} {hasDeadline : Bool} {state : State}

theorem Sound.outcome?_of_noted (sound : Sound outcome workers hasDeadline state)
    {query : Query} (noted : query ∈ state.noted) :
    state.outcome? query = some (outcome query) := by
  obtain ⟨entry, ended, rfl⟩ := List.mem_map.mp (sound.noted_ended query noted)
  have isThere : (state.outcome? entry.1).isSome = true :=
    List.lookup_isSome_iff.mpr ⟨entry, ended, by simp⟩
  obtain ⟨found, found_eq⟩ := Option.isSome_iff_exists.mp isThere
  rw [found_eq, sound.eq_outcome found_eq]

theorem mem_noted_of_isComplete (complete : state.isComplete = true) (query : Query) :
    query ∈ state.noted := by
  simpa using List.all_eq_true.mp complete query query.mem_all

/-- A pool that is complete has the outcomes of all queries, in their order. -/
theorem Sound.outcomes_of_isComplete (sound : Sound outcome workers hasDeadline state)
    (complete : state.isComplete = true) :
    state.outcomes = Query.all.map fun query => (query, outcome query) := by
  unfold State.outcomes
  rw [← List.filterMap_eq_map]
  refine List.filterMap_congr fun query _ => ?_
  rw [sound.outcome?_of_noted (mem_noted_of_isComplete complete query)]
  rfl

/-- Every query of a complete open pool has ended, and none with a failure that is fatal. -/
theorem Sound.harmless_of_isComplete (sound : Sound outcome workers hasDeadline state)
    (complete : state.isComplete = true) (isOpen : state.verdict = none) (query : Query) :
    outcome query ≠ .unfinished ∧ ∀ failure, outcome query ≠ .fatal failure := by
  have noted := mem_noted_of_isComplete complete query
  have ended := mem_ended (sound.outcome?_of_noted noted)
  exact ⟨sound.finite _ ended, sound.harmless isOpen query noted⟩

/-- **A pool that is no longer waited for.**  Without a deadline it has come to a failure that is the
fatal outcome of a query, or else no outcome is fatal and it has come to the facts of all. -/
theorem Sound.result_of_isSettled (sound : Sound outcome workers false state)
    (settled : state.isSettled = true) :
    (∃ query failure, outcome query = .fatal failure ∧ state.result = .error failure) ∨
      ((∀ query, outcome query ≠ .unfinished ∧ ∀ failure, outcome query ≠ .fatal failure) ∧
        state.result = .ok (some (Facts.ofOutcomes
          (Query.all.map fun query => (query, outcome query))))) := by
  unfold State.result
  cases verdict : state.verdict with
  | some failure =>
      rcases sound.closed failure verdict with ⟨query, isFatal⟩ | ⟨timed, -⟩
      · exact .inl ⟨query, failure, isFatal, rfl⟩
      · cases timed
  | none =>
      have complete : state.isComplete = true := by
        simpa [State.isSettled, State.isClosed, verdict] using settled
      refine .inr ⟨sound.harmless_of_isComplete complete verdict, ?_⟩
      simp only [complete, if_true, sound.outcomes_of_isComplete complete]

end Result

/-! ## Every pool gets on -/

section Progress

variable {outcome : Query → Outcome} {workers : Nat} {hasDeadline : Bool} {state : State}

/-- How many steps a pool still has before it, at most. -/
def State.remaining (state : State) : Nat :=
  2 * state.waiting.length + state.running.length +
    (Query.all.length - state.noted.length) + state.verdict.elim 1 fun _ => 0

theorem Sound.length_noted_le (sound : Sound outcome workers hasDeadline state) :
    state.noted.length ≤ Query.all.length := by
  have listed : state.noted ⊆ Query.all := fun query _ => query.mem_all
  exact (List.subperm_of_subset sound.noted_nodup listed).length_le

/-- **A step changes nothing or brings a pool on.**  So no pool changes forever. -/
theorem next_eq_or_remaining_lt (sound : Sound outcome workers hasDeadline state) (step : Step) :
    next outcome workers hasDeadline state step = state ∨
      (next outcome workers hasDeadline state step).remaining < state.remaining := by
  have bound := (sound_next sound step).length_noted_le
  cases step with
  | start query =>
      simp only [next]
      split
      · next may =>
          obtain ⟨waits, -, -⟩ := mayStart_iff.mp may
          have length_erase := List.length_erase_of_mem waits
          have length_pos := List.length_pos_of_mem waits
          right
          simp only [State.remaining, State.start, List.length_append, List.length_singleton]
          omega
      · exact .inl rfl
  | finish query =>
      rcases finish_cases state query with same | ⟨found, runs, -, finish_eq⟩
      · exact .inl same
      · have length_launched := (launched_finish sound runs).length_eq
        simp only [State.launched, List.length_append, List.length_singleton] at length_launched
        right
        simp only [next, finish_eq, State.remaining]
        omega
  | note query =>
      rcases note_cases state query with same | ⟨found, -, -, -, comes⟩
      · exact .inl same
      right
      simp only [next] at bound ⊢
      rcases comes with ⟨failure, -, note_eq⟩ | ⟨-, note_eq⟩
      · rw [note_eq] at bound ⊢
        simp only [State.remaining, List.length_append, List.length_singleton,
          Option.elim_some] at bound ⊢
        omega
      · rw [note_eq] at bound ⊢
        simp only [State.remaining, List.length_append, List.length_singleton] at bound ⊢
        omega
  | expire =>
      simp only [next]
      split
      · unfold State.expire
        split
        · exact .inl rfl
        · next waited =>
            obtain ⟨isOpen, -⟩ : state.verdict = none ∧ state.isComplete = false := by
              simpa [State.isSettled, State.isClosed] using waited
            right
            simp only [State.remaining, isOpen, Option.elim_some, Option.elim_none]
            omega
      · exact .inl rfl

theorem note_ne {query : Query} {found : Outcome} (waited : state.isSettled = false)
    (fresh : query ∉ state.noted) (ended : state.outcome? query = some found) :
    state.note query ≠ state := by
  intro same
  have noted_eq := congrArg State.noted same
  unfold State.note at noted_eq
  rw [if_neg (by simp [waited, fresh]), ended] at noted_eq
  cases found <;> simp at noted_eq

private theorem finish_ne {query : Query} {found : Outcome}
    (runs : state.running.lookup query = some found) (ends : found ≠ .unfinished) :
    state.finish query ≠ state := by
  intro same
  have ended_eq := congrArg State.ended same
  unfold State.finish at ended_eq
  rw [runs] at ended_eq
  cases found with
  | unfinished => exact ends rfl
  | _ => simp at ended_eq

private theorem start_ne {query : Query} (isOpen : state.verdict = none)
    (waits : query ∈ state.waiting) (free : state.running.length < workers) :
    next outcome workers hasDeadline state (.start query) ≠ state := by
  intro same
  have started_eq := congrArg State.started same
  simp only [next, if_pos (mayStart_iff.mpr ⟨waits, isOpen, free⟩), State.start] at started_eq
  simp at started_eq

/-- **A pool that is waited for can get on.**  Where every query comes to an end, some step changes
it. -/
theorem exists_next_ne (sound : Sound outcome workers hasDeadline state)
    (ends : ∀ query, outcome query ≠ .unfinished) (staffed : 0 < workers)
    (waited : state.isSettled = false) :
    ∃ step, next outcome workers hasDeadline state step ≠ state := by
  obtain ⟨isOpen, incomplete⟩ : state.verdict = none ∧ state.isComplete = false := by
    simpa [State.isSettled, State.isClosed] using waited
  cases running : state.running with
  | cons entry rest =>
      have isThere : (state.running.lookup entry.1).isSome = true :=
        List.lookup_isSome_iff.mpr ⟨entry, by simp [running], by simp⟩
      obtain ⟨found, runs⟩ := Option.isSome_iff_exists.mp isThere
      refine ⟨.finish entry.1, finish_ne runs ?_⟩
      obtain ⟨before, others, running_eq, -⟩ := List.lookup_eq_some_iff.mp runs
      have known : found = outcome entry.1 := sound.known (entry.1, found)
        (List.mem_append_left _ (by rw [running_eq]; simp))
      rw [known]
      exact ends entry.1
  | nil =>
      -- With nothing running, a query that has not been noted has ended, or it still waits.
      obtain ⟨query, listed, fresh⟩ := List.all_eq_false.mp incomplete
      replace fresh : query ∉ state.noted := by simpa using fresh
      cases ended : state.outcome? query with
      | some found => exact ⟨.note query, note_ne waited fresh ended⟩
      | none =>
          have notEnded : query ∉ state.launched.map Prod.fst := by
            intro member
            obtain ⟨entry, isThere, rfl⟩ := List.mem_map.mp member
            rw [State.launched, running, List.nil_append] at isThere
            have found : (state.outcome? entry.1).isSome = true :=
              List.lookup_isSome_iff.mpr ⟨entry, isThere, by simp⟩
            rw [ended] at found
            cases found
          have waits : query ∈ state.waiting :=
            (List.mem_append.mp (sound.parted.mem_iff.mpr listed)).resolve_right notEnded
          exact ⟨.start query, start_ne isOpen waits (by rw [running]; exact staffed)⟩

/-- **Every pool comes to rest.**  Where every query comes to an end, any schedule can be continued
until the pool is no longer waited for. -/
theorem exists_settling (sound : Sound outcome workers hasDeadline state)
    (ends : ∀ query, outcome query ≠ .unfinished) (staffed : 0 < workers) :
    ∃ schedule, (after outcome workers hasDeadline state schedule).isSettled = true := by
  induction measured : state.remaining using Nat.strongRecOn generalizing state with
  | _ remaining inductionHypothesis =>
      cases settled : state.isSettled with
      | true => exact ⟨[], settled⟩
      | false =>
          obtain ⟨step, changes⟩ := exists_next_ne sound ends staffed settled
          have less := (next_eq_or_remaining_lt sound step).resolve_left changes
          obtain ⟨schedule, rests⟩ :=
            inductionHypothesis _ (measured ▸ less) (sound_next sound step) rfl
          exact ⟨step :: schedule, rests⟩

end Progress

end Pool
end Provenance.Assembly
