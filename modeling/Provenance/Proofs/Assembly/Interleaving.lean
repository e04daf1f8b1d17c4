import Provenance.Proofs.Assembly.Pool
import Provenance.Proofs.Assembly.Run

/-!
Contract: side by side, an assembly comes to what it comes to one by one.

Owns:
- `Steady`, questions whose outcomes do not depend on what has been asked before;
- the laws that steady questions make a pool the machine `Pool.after`, and the
  questions one by one the list `Sequential.comesTo`;
- `Service.outcomeIn`, what each question of an assembly comes to without a deadline;
- `Service.RefinesSequential`, how an interleaving agrees with one question after
  another, and `Service.assembleAlong_refines_sequential`.

Does **not** own: pools with a deadline.

## Why the outcomes are steady

Asking changes only the clock and the log.  Without a deadline neither of them
matters to what an answer amounts to, so the order of the questions does not
either.
-/

set_option autoImplicit false

namespace Provenance.Assembly

open Failure (Problem Fault)
open World (Call)

/-! ## Steady questions -/

section Steady

variable {Time : Type}

/-- Questions with known outcomes, whatever has been asked since `world`. -/
def Steady (ask : Query → Program Time Finding) (world : World Time) (outcome : Query → Outcome) :
    Prop :=
  ∀ (query : Query) (current : World Time) (made : List (Call Time)),
    world.Follows current made →
      ∃ (last : World Time) (others : List (Call Time)),
        (outcomeOf ask query).runIn current = (.ok (outcome query), last) ∧
          current.Follows last others

variable {ask : Query → Program Time Finding} {world : World Time} {outcome : Query → Outcome}

private theorem Pool.advance_runIn (steady : Steady ask world outcome) (workers : Nat)
    (hasDeadline : Bool) (state : Pool.State) (step : Pool.Step) {current : World Time}
    {made : List (Call Time)} (follows : world.Follows current made) :
    ∃ (last : World Time) (others : List (Call Time)),
      (Pool.advance workers hasDeadline ask state step).runIn current =
          (.ok (Pool.next outcome workers hasDeadline state step), last) ∧
        current.Follows last others := by
  cases step with
  | start query =>
      by_cases may : state.mayStart workers query = true
      · obtain ⟨last, others, asks, follows⟩ := steady query current made follows
        refine ⟨last, others, ?_, follows⟩
        simp only [Pool.advance, Pool.next, if_pos may]
        rw [Program.runIn_bind_of_ok asks, Program.runIn_pure]
      · refine ⟨current, [], ?_, .refl current⟩
        simp only [Pool.advance, Pool.next, if_neg may, Program.runIn_pure]
  | finish query => exact ⟨current, [], rfl, .refl current⟩
  | note query => exact ⟨current, [], rfl, .refl current⟩
  | expire => exact ⟨current, [], rfl, .refl current⟩

/-- **A pool of steady questions is the machine.** -/
theorem Pool.run_runIn (steady : Steady ask world outcome) (workers : Nat) (hasDeadline : Bool)
    (schedule : Pool.Schedule) (state : Pool.State) {current : World Time}
    {made : List (Call Time)} (follows : world.Follows current made) :
    ∃ (last : World Time) (others : List (Call Time)),
      (Pool.run workers hasDeadline ask state schedule).runIn current =
          (.ok (Pool.after outcome workers hasDeadline state schedule), last) ∧
        current.Follows last others := by
  -- Asking moves the world on, so the induction is for every world that follows `world`.
  induction schedule generalizing state current made with
  | nil => exact ⟨current, [], rfl, .refl current⟩
  | cons step rest inductionHypothesis =>
      obtain ⟨middle, first, advances, followsFirst⟩ :=
        Pool.advance_runIn steady workers hasDeadline state step follows
      obtain ⟨last, others, runs, followsRest⟩ :=
        inductionHypothesis (Pool.next outcome workers hasDeadline state step)
          (follows.trans followsFirst)
      refine ⟨last, first ++ others, ?_, followsFirst.trans followsRest⟩
      exact (Program.runIn_bind_of_ok advances _).trans runs

/-- What steady questions come to one after another. -/
def Sequential.comesTo (outcome : Query → Outcome) :
    List Query → Except Failure (List (Query × Outcome))
  | [] => .ok []
  | query :: rest =>
    match (outcome query).stop? with
    | some failure => .error failure
    | none => (comesTo outcome rest).map fun others => (query, outcome query) :: others

/-- **Steady questions one after another come to a list of outcomes.** -/
theorem Sequential.outcomes_runIn (steady : Steady ask world outcome) (queries : List Query)
    {current : World Time} {made : List (Call Time)} (follows : world.Follows current made) :
    ∃ (last : World Time) (others : List (Call Time)),
      (Sequential.outcomes ask queries).runIn current =
          (Sequential.comesTo outcome queries, last) ∧
        current.Follows last others := by
  induction queries generalizing current made with
  | nil => exact ⟨current, [], rfl, .refl current⟩
  | cons query rest inductionHypothesis =>
      obtain ⟨middle, first, asks, followsFirst⟩ := steady query current made follows
      rw [Sequential.outcomes_cons, Program.runIn_bind_of_ok asks, Sequential.comesTo]
      cases stops : (outcome query).stop? with
      | some failure => exact ⟨middle, first, rfl, followsFirst⟩
      | none =>
          obtain ⟨last, others, runs, followsRest⟩ :=
            inductionHypothesis (follows.trans followsFirst)
          refine ⟨last, first ++ others, ?_, followsFirst.trans followsRest⟩
          rw [Program.runIn_map, runs]

/-- They come to all outcomes just if none of these ends the assembly. -/
theorem Sequential.comesTo_of_harmless {queries : List Query}
    (harmless : ∀ query ∈ queries, (outcome query).stop? = none) :
    Sequential.comesTo outcome queries =
      .ok (queries.map fun query => (query, outcome query)) := by
  induction queries with
  | nil => rfl
  | cons query rest inductionHypothesis =>
      rw [Sequential.comesTo, harmless query List.mem_cons_self,
        inductionHypothesis fun other member => harmless other (List.mem_cons_of_mem _ member)]
      rfl

/-- One outcome that ends the assembly is enough. -/
theorem Sequential.comesTo_of_stops {queries : List Query} {query : Query} {failure : Failure}
    (member : query ∈ queries) (stops : (outcome query).stop? = some failure) :
    ∃ first, Sequential.comesTo outcome queries = .error first := by
  induction queries with
  | nil => cases member
  | cons next rest inductionHypothesis =>
      rw [Sequential.comesTo]
      cases nextStops : (outcome next).stop? with
      | some first => exact ⟨first, rfl⟩
      | none =>
          rcases List.mem_cons.mp member with rfl | later
          · rw [stops] at nextStops
            cases nextStops
          · obtain ⟨first, fails⟩ := inductionHypothesis later
            exact ⟨first, by rw [fails]; rfl⟩

end Steady

/-! ## The questions of an assembly -/

namespace Service

section Collecting

variable (service : Service Rat) (world : World Rat) (directory : String)

/-- What asking comes to without a deadline: by the answer to the query's call, unless something keeps
that from being made. -/
def outcomeIn (query : Query) : Outcome :=
  .ofResult <|
    match service.fault? (.fact query) directory with
    | some fault => .error (.fault fault)
    | none =>
      (service.client.reply world (service.arguments (.fact query)) directory
        service.client.timeout).bind (service.read query)

/-- **Without a deadline, the questions of an assembly are steady.** -/
theorem steady_ask :
    Steady (ask service.client service.remote directory none) world
      (service.outcomeIn world directory) := by
  intro query current made follows
  have notPast : isPast none current.clock = false := rfl
  unfold outcomeIn
  rw [outcomeOf_runIn, ask_eq,
    Program.runIn_bind_read fun printed reached => Program.runIn_ofResult _ reached]
  cases spoken : service.fault? (.fact query) directory with
  | some fault =>
      obtain ⟨last, calls, announced, -⟩ :=
        call_runIn_of_fault service _ directory notPast spoken
      rw [calls]
      exact ⟨last, [], rfl, announced⟩
  | none =>
      obtain ⟨last, calls, called, -⟩ := call_runIn service _ directory notPast spoken
      rw [calls, Git.Client.reply_of_follows _ _ _ _ follows]
      exact ⟨last, _, rfl, called⟩

private theorem fault?_ne_unfinished (service : Service Rat) (stage : Stage) (directory : String) :
    service.fault? stage directory ≠ some .unfinished := by
  have unwritten_ne : service.unwritten? stage ≠ some .unfinished := by
    unfold unwritten?
    split
    · split <;> simp
    · split <;> simp
    · simp
  have unspoken_ne : service.client.fault? (service.arguments stage) directory ≠
      some .unfinished := by
    unfold Git.Client.fault? Git.Client.unnamed?
    split
    · split <;> simp
    · simp
  unfold fault?
  cases unwritten : service.unwritten? stage with
  | some fault =>
      rw [Option.some_or, ← unwritten]
      exact unwritten_ne
  | none =>
      rw [Option.none_or]
      exact unspoken_ne

private theorem reply_ne_unfinished {client : Git.Client Rat} {world : World Rat}
    {arguments : List String} {directory : String} {limit : Rat}
    (returns : (world.script.answer arguments).hangs = false) :
    client.reply world arguments directory limit ≠ .error (.fault .unfinished) := by
  have trouble_ne (trouble : Git.Trouble) :
      client.troubleFailure world arguments directory trouble ≠ .fault .unfinished := by
    intro same
    cases trouble with
    | missing =>
        simp only [Git.Client.troubleFailure] at same
        split at same <;> cases same
    | _ => cases same
  intro unfinished
  unfold Git.Client.reply at unfinished
  split at unfinished
  · next failure fails =>
      obtain rfl := Except.error.inj unfinished
      unfold Git.Client.failure? at fails
      simp only [returns, Bool.false_eq_true, if_false] at fails
      split at fails
      · cases Option.some.inj fails
      · obtain ⟨trouble, -, same⟩ := Option.map_eq_some_iff.mp fails
        exact trouble_ne trouble same
  · cases unfinished

private theorem eq_unfinished_of_ofResult {failure : Failure}
    (unfinished : Outcome.ofResult (.error failure) = .unfinished) :
    failure = .fault .unfinished := by
  cases failure with
  | problem problem =>
      simp only [Outcome.ofResult] at unfinished
      split at unfinished <;> cases unfinished
  | fault fault => cases fault <;> first | rfl | cases unfinished

/-- A query whose call comes back comes to an end. -/
theorem outcomeIn_ne_unfinished {query : Query}
    (returns : (world.script.answer (service.arguments (.fact query))).hangs = false) :
    service.outcomeIn world directory query ≠ .unfinished := by
  unfold outcomeIn
  intro unfinished
  cases spoken : service.fault? (.fact query) directory with
  | some fault =>
      rw [spoken] at unfinished
      rw [Failure.fault.inj (eq_unfinished_of_ofResult unfinished)] at spoken
      exact fault?_ne_unfinished service _ directory spoken
  | none =>
      rw [spoken] at unfinished
      cases replies : service.client.reply world (service.arguments (.fact query)) directory
          service.client.timeout with
      | error failure =>
          simp only [replies] at unfinished
          rw [eq_unfinished_of_ofResult unfinished] at replies
          exact reply_ne_unfinished returns replies
      | ok printed =>
          simp only [replies] at unfinished
          have goesOn := stop?_ofResult_read service query printed
          rw [show Outcome.ofResult (service.read query printed) = .unfinished from unfinished]
            at goesOn
          cases goesOn

/-- What the questions side by side come to when a pool has come to some result. -/
def pooled (result : Except Failure (Option Facts)) : Except Failure Facts :=
  result.bind fun
    | some facts => .ok facts
    | none => .error (.fault .unfinished)

/-- The pool of a service with several workers after a schedule. -/
def poolAfter (schedule : Pool.Schedule) : Pool.State :=
  Pool.after (service.outcomeIn world directory) service.parallel false {} schedule

variable {service world directory} {schedule : Pool.Schedule} {current : World Rat}
  {made : List (Call Rat)}

/-- Side by side, the facts are those that the pool has come to. -/
theorem collect_runIn_of_parallel (parallel : 1 < service.parallel)
    (follows : world.Follows current made) :
    ∃ (last : World Rat) (others : List (Call Rat)),
      (service.collect schedule directory none).runIn current =
          (pooled (service.poolAfter world directory schedule).result, last) ∧
        current.Follows last others := by
  obtain ⟨last, others, runs, followsRun⟩ :=
    Pool.run_runIn (service.steady_ask world directory) service.parallel false schedule {} follows
  refine ⟨last, others, ?_, followsRun⟩
  unfold collect Pool.collect
  simp only [if_neg (Nat.not_le.mpr parallel), Option.isSome_none, bind_assoc]
  rw [Program.runIn_bind_of_ok runs]
  change _ = (pooled (Pool.after (service.outcomeIn world directory) service.parallel false {}
    schedule).result, last)
  cases (Pool.after (service.outcomeIn world directory) service.parallel false {}
    schedule).result with
  | error failure => rfl
  | ok facts? => cases facts? <;> rfl

theorem collect_runIn_of_sequential (sequential : service.parallel ≤ 1)
    (follows : world.Follows current made) :
    ∃ (last : World Rat) (others : List (Call Rat)),
      (service.collect schedule directory none).runIn current =
          ((Sequential.comesTo (service.outcomeIn world directory) Query.all).map
            Facts.ofOutcomes, last) ∧
        current.Follows last others := by
  obtain ⟨last, others, runs, followsRun⟩ :=
    Sequential.outcomes_runIn (service.steady_ask world directory) Query.all follows
  refine ⟨last, others, ?_, followsRun⟩
  unfold collect Sequential.collect
  simp only [if_pos sequential]
  rw [Program.runIn_map, runs]

theorem sound_poolAfter :
    Pool.Sound (service.outcomeIn world directory) service.parallel false
      (service.poolAfter world directory schedule) :=
  Pool.sound_after Pool.sound_initial schedule

/-- **A pool that is no longer waited for agrees with the questions one by one.**  Either it has come
to a fatal outcome, and one by one they fail as well, or both come to the same facts. -/
theorem pooled_cases
    (settled : (service.poolAfter world directory schedule).isSettled = true) :
    (∃ query failure first, service.outcomeIn world directory query = .fatal failure ∧
        pooled (service.poolAfter world directory schedule).result = .error failure ∧
        Sequential.comesTo (service.outcomeIn world directory) Query.all = .error first) ∨
      (∃ outcomes,
        pooled (service.poolAfter world directory schedule).result =
            .ok (Facts.ofOutcomes outcomes) ∧
          Sequential.comesTo (service.outcomeIn world directory) Query.all = .ok outcomes) := by
  rcases sound_poolAfter.result_of_isSettled settled with
    ⟨query, failure, isFatal, result⟩ | ⟨harmless, result⟩
  · have stops : (service.outcomeIn world directory query).stop? = some failure := by
      rw [isFatal]
      rfl
    obtain ⟨first, fails⟩ := Sequential.comesTo_of_stops query.mem_all stops
    refine .inl ⟨query, failure, first, isFatal, ?_, fails⟩
    exact congrArg pooled result
  · have goesOn (query : Query) : (service.outcomeIn world directory query).stop? = none := by
      obtain ⟨ends, notFatal⟩ := harmless query
      cases outcome_eq : service.outcomeIn world directory query with
      | fatal failure => exact absurd outcome_eq (notFatal failure)
      | unfinished => exact absurd outcome_eq ends
      | _ => rfl
    refine .inr ⟨_, congrArg pooled result, ?_⟩
    exact Sequential.comesTo_of_harmless fun query _ => goesOn query

end Collecting

/-! ## Whole assemblies -/

section Gathering

variable (service : Service Rat) (world : World Rat) (directory : String)
  (deadline : Option Rat)

/-- What an assembly does before it asks for the facts. -/
def opening : Program Rat String := do
  service.requireRepository directory deadline
  service.rootOf directory deadline

theorem gatherUntil_eq (schedule : Pool.Schedule) :
    service.gatherUntil schedule directory deadline =
      service.opening directory deadline >>= fun baseDir =>
        service.collect schedule directory deadline >>= conclude directory baseDir := by
  unfold gatherUntil opening
  simp only [bind_assoc]

theorem call_onlyCalls (stage : Stage) :
    (service.call stage directory deadline).OnlyCalls := by
  intro current
  cases past : isPast deadline current.clock with
  | true =>
      rw [call_runIn_of_isPast service stage directory past]
      exact ⟨[], .refl current⟩
  | false =>
      cases spoken : service.fault? stage directory with
      | some fault =>
          obtain ⟨last, calls, announced, -⟩ :=
            call_runIn_of_fault service stage directory past spoken
          rw [calls]
          exact ⟨[], announced⟩
      | none =>
          obtain ⟨last, calls, called, -⟩ := call_runIn service stage directory past spoken
          rw [calls]
          exact ⟨_, called⟩

theorem opening_onlyCalls : (service.opening directory deadline).OnlyCalls := by
  unfold opening
  rw [requireRepository_eq, rootOf_eq]
  exact ((call_onlyCalls service directory deadline .status).bind fun printed => .ofResult _).bind
    fun _ => (call_onlyCalls service directory deadline .root).bind fun printed => .ofResult _

/-- What an assembly without a deadline comes to, given what its questions come to. -/
def resultWith (limit : Option Rat) (collected : Except Failure Facts) :
    Except Failure (Record × List Problem) :=
  match service.absent? world with
  | some failure => .error failure
  | none =>
    ((service.opening directory (service.deadlineFrom limit world.clock)).runIn world).1.bind
      fun baseDir => collected.bind (conclusion world directory baseDir)

variable {service world directory} {limit : Option Rat} {schedule : Pool.Schedule}
  {collected : Except Failure Facts}

/-- **An assembly without a deadline depends on its questions only through what they come to.** -/
theorem assembleAlong_result
    (unlimited : service.deadlineFrom limit world.clock = none)
    (collects : ∀ (current : World Rat) (made : List (Call Rat)), world.Follows current made →
      ∃ (last : World Rat) (others : List (Call Rat)),
        (service.collect schedule directory none).runIn current = (collected, last) ∧
          current.Follows last others) :
    ((service.assembleAlong schedule directory limit).runIn world).1 =
      (service.resultWith world directory limit collected).map service.kept := by
  have gathers : ((service.gather schedule directory limit).runIn world).1 =
      service.resultWith world directory limit collected := by
    rw [gather_runIn_eq]
    unfold resultWith
    cases service.absent? world with
    | some failure => rfl
    | none =>
        simp only [unlimited, gatherUntil_eq]
        obtain ⟨made, follows⟩ := opening_onlyCalls service directory none world
        rw [Program.runIn_bind]
        cases opens : (service.opening directory none).runIn world with
        | mk opened middle =>
            rw [opens] at follows
            cases opened with
            | error failure => rfl
            | ok baseDir =>
                obtain ⟨last, others, runs, followsRest⟩ := collects middle made follows
                simp only [Program.runIn_bind, runs]
                cases collected with
                | error failure => rfl
                | ok facts =>
                    simp only [conclude_runIn]
                    exact conclusion_of_follows world directory (follows.trans followsRest) _ _
  cases gathered : (service.gather schedule directory limit).runIn world with
  | mk result middle =>
      obtain ⟨after, assembles, -⟩ :=
        service.assembleAlong_runIn_of_gather world directory gathered
      rw [gathered] at gathers
      rw [assembles, ← gathers]

end Gathering

/-! ## Side by side and one by one -/

section Refinement

/-- The service with its questions asked one by one. -/
def oneByOne (service : Service Rat) : Service Rat :=
  { service with parallel := 1 }

/-- What an assembly hands out: its record, the gaps that it keeps, and the warning. -/
def handedOut (result : Except Failure (Service Rat × Record)) :
    Except Failure (Record × List Problem × Option Problem) :=
  result.map fun (kept, record) => (record, kept.lastErrors, kept.warning?)

/-- How an assembly side by side agrees with the one that asks one by one. -/
structure RefinesSequential (service : Service Rat) (world : World Rat) (directory : String)
    (limit : Option Rat) (schedule : Pool.Schedule) : Prop where
  /-- Both collect the same facts, with the same gaps, or neither collects any. -/
  collects : ∀ facts : Facts,
    ((service.collect schedule directory none).runIn world).1 = .ok facts ↔
      ((service.oneByOne.collect schedule directory none).runIn world).1 = .ok facts
  /-- What is raised is the fatal outcome of a query, and never a mere gap. -/
  raises : ∀ failure : Failure,
    ((service.collect schedule directory none).runIn world).1 = .error failure →
      (∃ query, service.outcomeIn world directory query = .fatal failure) ∧
        leavesGap failure = false
  /-- Both hand out the same, or neither hands out anything. -/
  assembles : ∀ answer : Record × List Problem × Option Problem,
    handedOut ((service.assembleAlong schedule directory limit).runIn world).1 = .ok answer ↔
      handedOut ((service.oneByOne.assemble directory limit).runIn world).1 = .ok answer
  /-- Where they fail, it is with the same failure or with the fatal outcome of a query. -/
  fails : ∀ failure : Failure,
    ((service.assembleAlong schedule directory limit).runIn world).1 = .error failure →
      ((service.oneByOne.assemble directory limit).runIn world).1 = .error failure ∨
        ∃ query, service.outcomeIn world directory query = .fatal failure

variable {service : Service Rat} {world : World Rat} {directory : String} {limit : Option Rat}
  {schedule : Pool.Schedule}

/-- A fatal outcome is no gap: what leaves one never becomes fatal. -/
private theorem leavesGap_of_ofResult {result : Except Failure Finding} {failure : Failure}
    (isFatal : Outcome.ofResult result = .fatal failure) : leavesGap failure = false := by
  cases result with
  | ok finding => cases isFatal
  | error other =>
      cases severe : leavesGap other with
      | false =>
          have stops := stop?_ofResult_error severe
          rw [isFatal] at stops
          rw [← Option.some.inj stops] at severe
          exact severe
      | true =>
          cases other with
          | problem problem =>
              have isGap : problem.isGap = true := severe
              simp [Outcome.ofResult, isGap] at isFatal
          | fault fault => cases severe

theorem leavesGap_of_fatal {query : Query} {failure : Failure}
    (isFatal : service.outcomeIn world directory query = .fatal failure) :
    leavesGap failure = false :=
  leavesGap_of_ofResult isFatal

/-- An assembly fails before it asks for the facts, or what it comes to is concluded from them. -/
private theorem resultWith_cases (service : Service Rat) (world : World Rat) (directory : String)
    (limit : Option Rat) :
    (∃ failure, ∀ collected,
        service.resultWith world directory limit collected = .error failure) ∨
      (∃ baseDir, ∀ collected,
        service.resultWith world directory limit collected =
          collected.bind (conclusion world directory baseDir)) := by
  unfold resultWith
  cases service.absent? world with
  | some failure => exact .inl ⟨failure, fun collected => rfl⟩
  | none =>
      simp only
      cases ((service.opening directory
          (service.deadlineFrom limit world.clock)).runIn world).1 with
      | error failure => exact .inl ⟨failure, fun collected => rfl⟩
      | ok baseDir => exact .inr ⟨baseDir, fun collected => rfl⟩

private theorem handedOut_kept (service : Service Rat)
    (result : Except Failure (Record × List Problem)) :
    handedOut (result.map service.kept) =
      result.map fun (record, gaps) => (record, gaps, gaps.getLast?) := by
  cases result <;> rfl

private theorem map_eq_error {α β : Type} {change : α → β} {result : Except Failure α}
    {failure : Failure} : result.map change = .error failure ↔ result = .error failure := by
  cases result <;> simp [Except.map]

private theorem assembleAlong_result_of_parallel (parallel : 1 < service.parallel)
    (unlimited : service.deadlineFrom limit world.clock = none) :
    ((service.assembleAlong schedule directory limit).runIn world).1 =
      (service.resultWith world directory limit
        (pooled (service.poolAfter world directory schedule).result)).map service.kept :=
  assembleAlong_result unlimited fun _ _ follows => collect_runIn_of_parallel parallel follows

private theorem assemble_result_of_oneByOne
    (unlimited : service.deadlineFrom limit world.clock = none) :
    ((service.oneByOne.assemble directory limit).runIn world).1 =
      (service.resultWith world directory limit
        ((Sequential.comesTo (service.outcomeIn world directory) Query.all).map
          Facts.ofOutcomes)).map service.oneByOne.kept := by
  have unlimited : service.oneByOne.deadlineFrom limit world.clock = none := unlimited
  exact assembleAlong_result unlimited fun _ _ follows =>
    collect_runIn_of_sequential (Nat.le_refl 1) follows

private theorem refinesSequential_of_settled (parallel : 1 < service.parallel)
    (unlimited : service.deadlineFrom limit world.clock = none)
    (settled : (service.poolAfter world directory schedule).isSettled = true) :
    RefinesSequential service world directory limit schedule := by
  have collects_pooled : ((service.collect schedule directory none).runIn world).1 =
      pooled (service.poolAfter world directory schedule).result := by
    obtain ⟨last, others, runs, -⟩ := collect_runIn_of_parallel parallel (.refl world)
    rw [runs]
  have collects_inTurn : ((service.oneByOne.collect schedule directory none).runIn world).1 =
      (Sequential.comesTo (service.outcomeIn world directory) Query.all).map
        Facts.ofOutcomes := by
    have sequential : service.oneByOne.parallel ≤ 1 := Nat.le_refl 1
    obtain ⟨last, others, runs, -⟩ := collect_runIn_of_sequential sequential (.refl world)
    rw [runs]
    rfl
  constructor
  case collects =>
    intro facts
    rw [collects_pooled, collects_inTurn]
    rcases pooled_cases settled with ⟨query, failure, first, -, side, turn⟩ | ⟨outcomes, side, turn⟩
    · rw [side, turn]
      simp [Except.map]
    · rw [side, turn]
      simp [Except.map]
  case raises =>
    intro failure raised
    rw [collects_pooled] at raised
    rcases pooled_cases settled with ⟨query, other, first, isFatal, side, -⟩ | ⟨outcomes, side, -⟩
    · rw [side] at raised
      obtain rfl := Except.error.inj raised
      exact ⟨⟨query, isFatal⟩, leavesGap_of_fatal isFatal⟩
    · rw [side] at raised
      cases raised
  case assembles =>
    -- Only what is concluded from the facts is left to compare; the two services play no part in it.
    intro answer
    rw [assembleAlong_result_of_parallel parallel unlimited,
      assemble_result_of_oneByOne unlimited, handedOut_kept, handedOut_kept]
    rcases pooled_cases settled with ⟨query, failure, first, -, side, turn⟩ | ⟨outcomes, side, turn⟩
    · rw [side, turn]
      rcases resultWith_cases service world directory limit with ⟨early, always⟩ | ⟨baseDir, ends⟩
      · simp [always, Except.map]
      · simp [ends, Except.map, Except.bind]
    · rw [side, turn]
      rfl
  case fails =>
    intro failure failed
    rw [assembleAlong_result_of_parallel parallel unlimited, map_eq_error] at failed
    rw [assemble_result_of_oneByOne unlimited, map_eq_error]
    rcases pooled_cases settled with ⟨query, other, first, isFatal, side, turn⟩ | ⟨outcomes, side, turn⟩
    · rw [side] at failed
      rcases resultWith_cases service world directory limit with ⟨early, always⟩ | ⟨baseDir, ends⟩
      · rw [always] at failed ⊢
        exact .inl failed
      · rw [ends] at failed
        obtain rfl : other = failure := Except.error.inj failed
        exact .inr ⟨query, isFatal⟩
    · rw [side] at failed
      rw [turn]
      exact .inl failed

/-- **Side by side refines one by one.**  Without a deadline, a pool that is no longer waited for
makes an assembly agree with one that asks one by one, in whatever order its queries have started,
ended and been noted; and as long as every call comes back, any schedule can be continued until the
pool is no longer waited for. -/
theorem assembleAlong_refines_sequential (service : Service Rat) (world : World Rat)
    (directory : String) (limit : Option Rat)
    (parallel : 1 < service.parallel)
    (unlimited : service.deadlineFrom limit world.clock = none) :
    (∀ schedule, (service.poolAfter world directory schedule).isSettled = true →
        RefinesSequential service world directory limit schedule) ∧
      ((∀ query, (world.script.answer (service.arguments (.fact query))).hangs = false) →
        ∀ schedule, ∃ rest,
          (service.poolAfter world directory (schedule ++ rest)).isSettled = true) := by
  refine ⟨fun schedule settled => refinesSequential_of_settled parallel unlimited settled, ?_⟩
  intro returns schedule
  have ends (query : Query) :=
    outcomeIn_ne_unfinished service world directory (returns query)
  have staffed : 0 < service.parallel := Nat.zero_lt_of_lt parallel
  obtain ⟨rest, settles⟩ := Pool.exists_settling
    (sound_poolAfter : Pool.Sound _ _ _ (service.poolAfter world directory schedule)) ends staffed
  refine ⟨rest, ?_⟩
  unfold poolAfter Pool.after at settles ⊢
  rwa [List.foldl_append]

/-- The law at work: with two workers, some schedule makes the assemblies agree. -/
theorem assembleAlong_refines_sequential_answered :
    1 < (answeredService 8 2).parallel ∧
      (answeredService 8 2).deadlineFrom none (answeringWorld 0).clock = none ∧
        ∃ schedule,
          ((answeredService 8 2).poolAfter (answeringWorld 0) "/" schedule).isSettled = true ∧
            RefinesSequential (answeredService 8 2) (answeringWorld 0) "/" none schedule := by
  obtain ⟨refines, settles⟩ :=
    assembleAlong_refines_sequential (answeredService 8 2) (answeringWorld 0) "/" none (by decide)
      rfl
  obtain ⟨schedule, settled⟩ := settles (fun query => rfl) []
  exact ⟨by decide, rfl, schedule, settled, refines schedule settled⟩

end Refinement

end Service
end Provenance.Assembly
