import Provenance.Proofs.Assembly.Books
import Provenance.Proofs.Assembly.Run
import Provenance.Proofs.Assembly.Session

/-!
Contract: an assembly whose pool breaks returns no record.

Owns:
- `Service.overture`, `Service.pool` and `Service.wrapUp`, the parts of an assembly before, in and
  after its pool;
- `Service.BreaksCleanly`, what an assembly owes to whoever asked when its pool breaks, and
  when it does not;
- `Service.LeavesSession`, what is kept of it for the next assembly;
- `Service.assembleAlong_breaksCleanly`, the law that every assembly with several workers does.

Does **not** own: the books of a pool.
-/

set_option autoImplicit false

namespace Provenance.Assembly

open Failure (Problem)
open Program (Keeps)
open World (Timekeeping Call HasCalled enduring_hasCalled)
open scoped List

namespace Service

/-! ## What is made of a pool -/

section WrapUp

variable {Time : Type} (service : Service Time) (directory : String)

/-- The facts of a pool, if it has come to them. -/
def factsOf (state : Pool.State) : Program Time Facts :=
  match state.result with
  | .error failure => Program.fail failure
  | .ok (some facts) => pure facts
  | .ok none => Program.fail (.fault .unfinished)

/-- What is made of a pool: the record and its gaps, and what the service keeps. -/
def wrapUp (baseDir : String) (state : Pool.State) : Program Time (Service Time × Record) := do
  let facts ← factsOf state
  let (record, gaps) ← conclude directory baseDir facts
  gaps.forM (reportGap directory)
  pure ({ service with lastErrors := gaps }, record)

variable {service directory} {baseDir : String} {state : Pool.State}

theorem wrapUp_of_verdict {failure : Failure} (closes : state.verdict = some failure)
    (current : World Time) :
    (service.wrapUp directory baseDir state).runIn current = (.error failure, current) := by
  unfold wrapUp factsOf Pool.State.result
  rw [closes]
  rfl

theorem wrapUp_of_waited (waited : state.isSettled = false) (current : World Time) :
    (service.wrapUp directory baseDir state).runIn current =
      (.error (.fault .unfinished), current) := by
  obtain ⟨isOpen, incomplete⟩ : state.verdict = none ∧ state.isComplete = false := by
    simpa [Pool.State.isSettled, Pool.State.isClosed] using waited
  unfold wrapUp factsOf Pool.State.result
  rw [isOpen, incomplete]
  rfl

/-- A record is made only of an open and complete pool, and nothing is called for it. -/
theorem wrapUp_keeps {invariant : World Time → Prop} (stable : World.Stable invariant) :
    Keeps invariant (service.wrapUp directory baseDir state)
      (fun _ => state.verdict = none ∧ state.isComplete = true) fun _ => True := by
  have facts : Keeps invariant (factsOf state : Program Time Facts)
      (fun _ => state.verdict = none ∧ state.isComplete = true) fun _ => True := by
    unfold factsOf Pool.State.result
    cases state.verdict with
    | some failure => exact .fail trivial
    | none =>
        cases state.isComplete with
        | true => exact .pure ⟨rfl, rfl⟩
        | false => exact .fail trivial
  refine facts.bind fun found comes =>
    ((conclude_keeps directory baseDir found).weaken (fun _ _ => trivial) fun _ _ => trivial).bind
      fun (record, gaps) _ => ?_
  exact (Keeps.forM (fun _ => .log stable _ _ _) gaps).bind fun _ _ => .pure comes

end WrapUp

/-! ## The parts of an assembly -/

section Parts

variable {Time : Type} [Timekeeping Time] (service : Service Time) (schedule : Pool.Schedule)
  (directory : String)

/-- What comes before the pool: the deadline, and the root of the repository. -/
def overture (limit : Option Time) : Program Time (Option Time × String) := do
  let deadline ← deadlineAfter (limit.or service.deadlineSeconds)
  let isThere ← service.client.hasBinary
  if isThere then
    service.requireRepository directory deadline
    let baseDir ← service.rootOf directory deadline
    pure (deadline, baseDir)
  else
    Program.fail (.problem (.git .noBinary none none))

/-- The pool of an assembly along a schedule. -/
def pool (deadline : Option Time) : Program Time Pool.State :=
  Pool.run service.parallel deadline.isSome
    (ask service.client service.remote directory deadline) {} schedule

/-- An assembly with several workers is its overture, its pool, and what is made of it. -/
theorem assembleAlong_eq (parallel : 1 < service.parallel) (limit : Option Time) :
    service.assembleAlong schedule directory limit =
      service.overture directory limit >>= fun (deadline, baseDir) =>
        service.pool schedule directory deadline >>= service.wrapUp directory baseDir := by
  have collect_eq : ∀ deadline, service.collect schedule directory deadline =
      service.pool schedule directory deadline >>= factsOf := by
    intro deadline
    unfold collect Pool.collect
    simp only [if_neg (Nat.not_le.mpr parallel), bind_assoc]
    refine congrArg (service.pool schedule directory deadline >>= ·) (funext fun state => ?_)
    unfold factsOf
    cases state.result with
    | error failure => rfl
    | ok found => cases found <;> rfl
  unfold assembleAlong gather gatherUntil overture
  simp only [bind_assoc, collect_eq]
  refine congrArg (deadlineAfter _ >>= ·) (funext fun deadline =>
    congrArg (service.client.hasBinary >>= ·) (funext fun isThere => ?_))
  cases isThere with
  | true =>
    simp only [if_true, bind_assoc, pure_bind]
    rfl
  | false => rfl

end Parts

/-! ## What a broken pool owes -/

section Breaking

variable {Time : Type} [Timekeeping Time]

/-- The command of a query's call. -/
def commandOf (service : Service Time) (query : Query) : List String :=
  service.client.command (service.arguments (.fact query))

/-- An assembly raises a fatal end of one of its queries, or that its deadline is over.  It returns no
record. -/
def Raises (deadline : Option Time) (state : Pool.State)
    (result : Except Failure (Service Time × Record)) : Prop :=
  ∃ failure, result = .error failure ∧
    ((∃ query, (query, .fatal failure) ∈ state.ended) ∨
      (deadline.isSome = true ∧ failure = deadlineExceeded))

/-- What an assembly with several workers owes to whoever asked, when its pool begins in some world
and is left in some state. -/
structure BreaksCleanly (service : Service Time) (schedule : Pool.Schedule) (directory : String)
    (deadline : Option Time) (start : World Time) (state : Pool.State)
    (result : Except Failure (Service Time × Record)) (after : World Time) : Prop where
  /-- As long as the pool is waited for, the assembly does not come back. -/
  waits : state.isSettled = false → result = .error (.fault .unfinished)
  /-- After a fatal end of a query, the pool is not waited for longer than until this is noted, and
  then the assembly raises. -/
  fatal : ∀ query failure, (query, .fatal failure) ∈ state.ended →
    (state.note query).isSettled = true ∧
      (state.isSettled = true → Raises deadline state result)
  /-- Where the deadline expires before some query has ended, the assembly raises. -/
  late : ∀ before rest middle reached, schedule = before ++ .expire :: rest →
    deadline.isSome = true →
      (service.pool before directory deadline).runIn start = (.ok middle, reached) →
        (∃ query, query ∉ middle.ended.map Prod.fst) → Raises deadline state result
  /-- Once the pool is closed, no query is started and nothing is called. -/
  shut : ∀ before rest middle reached, schedule = before ++ rest →
    (service.pool before directory deadline).runIn start = (.ok middle, reached) →
      middle.isClosed = true →
        state.started = middle.started ∧
          World.calls after.trace = World.calls reached.trace
  /-- For a record that is returned, every query has been started and called just once. -/
  returns : ∀ kept record, result = .ok (kept, record) →
    state.started ~ Query.all ∧
      ∃ made, World.calls after.trace = World.calls start.trace ++ made ∧
        made.map (·.command) ~ Query.all.map service.commandOf

variable (service : Service Time) (schedule : Pool.Schedule) (directory : String)
  (deadline : Option Time)

/-- A pool never fails, and its books are kept. -/
theorem pool_hasAccounts (start : World Time) :
    ∃ state last, (service.pool schedule directory deadline).runIn start = (.ok state, last) ∧
      Pool.HasAccounts service.commandOf service.parallel deadline.isSome
        (World.calls start.trace) state last :=
  (Pool.preserves_hasAccounts fun query _ _ _ _ called asks =>
    outcomeOf_calls service directory deadline query called asks).run schedule
      (Pool.hasAccounts_initial rfl)

variable {service schedule directory deadline}

theorem pool_append {before rest : Pool.Schedule} {start reached : World Time}
    {middle : Pool.State}
    (runs : (service.pool before directory deadline).runIn start = (.ok middle, reached)) :
    (service.pool (before ++ rest) directory deadline).runIn start =
      (Pool.run service.parallel deadline.isSome
        (ask service.client service.remote directory deadline) middle rest).runIn reached := by
  unfold pool at runs ⊢
  rw [Pool.run_append, Program.runIn_bind_of_ok runs]

/-- A pool that is closed on the way is left with the same verdict. -/
theorem pool_of_isClosed {before rest : Pool.Schedule} {start reached last : World Time}
    {middle state : Pool.State}
    (begins : (service.pool before directory deadline).runIn start = (.ok middle, reached))
    (closed : middle.isClosed = true)
    (runs : (service.pool (before ++ rest) directory deadline).runIn start = (.ok state, last)) :
    state.started = middle.started ∧ state.verdict = middle.verdict ∧ last = reached := by
  rw [pool_append begins] at runs
  obtain ⟨same, ends, started, verdict⟩ := Pool.run_of_isClosed closed rest reached
  rw [ends] at runs
  obtain ⟨rfl, rfl⟩ : same = state ∧ reached = last := by
    obtain ⟨states, worlds⟩ := Prod.mk.inj runs
    exact ⟨Except.ok.inj states, worlds⟩
  exact ⟨started, verdict, rfl⟩

/-- **Of a pool with its books, an assembly makes what it owes.** -/
theorem breaksCleanly_of_accounts {start last after : World Time} {state : Pool.State}
    {baseDir : String} {result : Except Failure (Service Time × Record)}
    (pools : (service.pool schedule directory deadline).runIn start = (.ok state, last))
    (accounts : Pool.HasAccounts service.commandOf service.parallel deadline.isSome
      (World.calls start.trace) state last)
    (wraps : (service.wrapUp directory baseDir state).runIn last = (result, after)) :
    service.BreaksCleanly schedule directory deadline start state result after := by
  obtain ⟨outcome, asked, made, accounts⟩ := accounts
  have keeps : Keeps _ (service.wrapUp directory baseDir state) _ _ :=
    wrapUp_keeps (enduring_hasCalled (World.calls start.trace ++ made)).stable
  obtain ⟨silent, answers, -⟩ := keeps last accounts.called
  rw [wraps] at silent answers
  have raises : state.isClosed = true → Raises deadline state result := by
    intro closed
    obtain ⟨failure, closes⟩ := Option.isSome_iff_exists.mp closed
    rw [wrapUp_of_verdict closes] at wraps
    obtain ⟨rfl, -⟩ := Prod.mk.inj wraps
    exact ⟨failure, rfl, accounts.explained failure closes⟩
  constructor
  case waits =>
    intro waited
    rw [wrapUp_of_waited waited] at wraps
    exact (congrArg Prod.fst wraps).symm
  case fatal =>
    intro query failure ended
    exact ⟨accounts.sound.isSettled_note ended, fun settled =>
      raises (accounts.sound.isClosed_of_fatal ended settled)⟩
  case late =>
    rintro before rest middle reached rfl timed begins unfinished
    obtain ⟨same, there, runs, books⟩ := service.pool_hasAccounts before directory deadline start
    rw [begins] at runs
    obtain ⟨states, rfl⟩ := Prod.mk.inj runs
    obtain rfl := Except.ok.inj states
    obtain ⟨_, _, _, books⟩ := books
    have closed := books.sound.isClosed_expire unfinished
    have expires : (service.pool (before ++ [.expire]) directory deadline).runIn start =
        (.ok middle.expire, reached) := by
      rw [pool_append begins, timed]
      rfl
    rw [List.append_cons] at pools
    obtain ⟨-, verdict, -⟩ := pool_of_isClosed expires closed pools
    exact raises (by rw [Pool.State.isClosed, verdict]; exact closed)
  case shut =>
    rintro before rest middle reached rfl begins closed
    obtain ⟨started, verdict, rfl⟩ := pool_of_isClosed begins closed pools
    exact ⟨started, (show World.calls after.trace = _ from silent).trans
      (show World.calls last.trace = _ from accounts.called).symm⟩
  case returns =>
    rintro kept record rfl
    obtain ⟨isOpen, complete⟩ := answers _ rfl
    obtain ⟨started, asksAll⟩ := accounts.asked_all isOpen complete
    exact ⟨started, made, silent, asksAll⟩

/-- What becomes of the session in which an assembly was asked for: one that raises leaves the service
with the gaps that it had kept, and only a record that is returned changes them. -/
structure LeavesSession (service : Service Time) (result : Except Failure (Service Time × Record))
    (after : World Time) (session : Except Failure (Record × Option Problem) × Session Time) :
    Prop where
  raised : ∀ failure, result = .error failure →
    session.1 = .error failure ∧ session.2.service.lastErrors = service.lastErrors ∧
      session.2 = ⟨service, after⟩
  returned : ∀ kept record, result = .ok (kept, record) →
    session = (.ok (record, kept.warning?), ⟨kept, after⟩)

theorem leavesSession_assembleAlong {world after : World Time} {limit : Option Time}
    {result : Except Failure (Service Time × Record)}
    (runs : (service.assembleAlong schedule directory limit).runIn world = (result, after)) :
    service.LeavesSession result after
      ((Session.assembleAlong schedule directory limit).runIn ⟨service, world⟩) := by
  have session_eq := Session.assembleAlong_eq ⟨service, world⟩ schedule directory limit
  rw [runs] at session_eq
  constructor
  · rintro failure rfl
    rw [session_eq]
    exact ⟨rfl, rfl, rfl⟩
  · rintro kept record rfl
    exact session_eq

/-- **A broken pool leaks no record.**  With several workers, whatever its queries come to and in
whatever order they start and end, an assembly raises where a query ends fatally or the deadline
expires too early for one.  It starts nothing once its pool is closed, and it returns a record only
after every query has run once.  A service whose assembly raises is left with the gaps that it had
kept. -/
theorem assembleAlong_breaksCleanly (service : Service Time) (schedule : Pool.Schedule)
    (directory : String) (limit : Option Time) (world : World Time)
    (parallel : 1 < service.parallel) :
    ∃ result after,
      (service.assembleAlong schedule directory limit).runIn world = (result, after) ∧
        service.LeavesSession result after
          ((Session.assembleAlong schedule directory limit).runIn ⟨service, world⟩) ∧
        ((∃ failure, (service.overture directory limit).runIn world = (.error failure, after) ∧
            result = .error failure) ∨
          ∃ deadline baseDir start state last,
            (service.overture directory limit).runIn world = (.ok (deadline, baseDir), start) ∧
              (service.pool schedule directory deadline).runIn start = (.ok state, last) ∧
                service.BreaksCleanly schedule directory deadline start state result after) := by
  cases runs : (service.assembleAlong schedule directory limit).runIn world with
  | mk result after =>
  refine ⟨result, after, rfl, leavesSession_assembleAlong runs, ?_⟩
  rw [assembleAlong_eq service schedule directory parallel limit] at runs
  cases begins : (service.overture directory limit).runIn world with
  | mk found start =>
      cases found with
      | error failure =>
          rw [Program.runIn_bind_of_error begins] at runs
          obtain ⟨rfl, rfl⟩ := Prod.mk.inj runs
          exact .inl ⟨failure, rfl, rfl⟩
      | ok found =>
          obtain ⟨deadline, baseDir⟩ := found
          obtain ⟨state, last, pools, accounts⟩ :=
            service.pool_hasAccounts schedule directory deadline start
          rw [Program.runIn_bind_of_ok begins] at runs
          exact .inr ⟨deadline, baseDir, start, state, last, rfl, pools,
            breaksCleanly_of_accounts pools accounts
              ((Program.runIn_bind_of_ok pools _).symm.trans runs)⟩

/-- The law at work: with two workers, a first query starts and the deadline expires. -/
theorem assembleAlong_breaksCleanly_expired :
    1 < (answeredService 8 2).parallel ∧
      ∃ result after,
        ((answeredService 8 2).assembleAlong [.start .remoteUrl, .expire] "/" (some 3)).runIn
            (answeringWorld 0) = (result, after) ∧
          (answeredService 8 2).LeavesSession result after
            ((Session.assembleAlong [.start .remoteUrl, .expire] "/" (some 3)).runIn
              ⟨answeredService 8 2, answeringWorld 0⟩) ∧
          ((∃ failure, ((answeredService 8 2).overture "/" (some 3)).runIn (answeringWorld 0) =
                (.error failure, after) ∧ result = .error failure) ∨
            ∃ deadline baseDir start state last,
              ((answeredService 8 2).overture "/" (some 3)).runIn (answeringWorld 0) =
                  (.ok (deadline, baseDir), start) ∧
                ((answeredService 8 2).pool [.start .remoteUrl, .expire] "/" deadline).runIn start =
                    (.ok state, last) ∧
                  (answeredService 8 2).BreaksCleanly [.start .remoteUrl, .expire] "/" deadline
                    start state result after) :=
  ⟨by decide, assembleAlong_breaksCleanly (answeredService 8 2) [.start .remoteUrl, .expire] "/"
    (some 3) (answeringWorld 0) (by decide)⟩

example : (((answeredService 8 2).assembleAlong [.start .remoteUrl, .expire] "/" (some 3)).runIn
    (answeringWorld 0)).1.toOption.isNone := by
  decide +kernel

end Breaking
end Service
end Provenance.Assembly
