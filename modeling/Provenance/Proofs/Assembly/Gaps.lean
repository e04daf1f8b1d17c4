import Provenance.Proofs.Assembly.Told

/-!
Contract: the empty fields of a record beside the gaps that are reported.

Owns:
- `Facts.get`, the facts by query, and `Service.get_factsBy`, each by its own answer alone;
- `Service.Overlooks`, answers of which nothing is read though they leave no gap;
- `ReportsGaps` and `reportsGaps_of_isToldBy`: an empty field is reported, unless its answer is
  overlooked.

Does **not** own: how a run ends with gaps.

## Overlooked answers

Whether an answer says anything is asked of the whole output, and what it says is read off the first
line.  So an output that begins with a blank line leaves neither a fact nor a gap.  Branches are read
off all lines, and no one asks there whether any has content.
-/

set_option autoImplicit false

namespace Provenance

open Failure (Problem GapField)

variable {Time : Type}

/-! ## Facts by query -/

namespace Assembly

def queryOf : GapField → Query
  | .remoteUrl => .remoteUrl
  | .hash => .hash
  | .shortHash => .shortHash
  | .branch => .branch

def Finding.isEmpty : Finding → Bool
  | .line text => text.isEmpty
  | .list texts => texts.isEmpty

def Facts.get (facts : Facts) : Query → Finding
  | .remoteUrl => .line facts.remoteUrl
  | .hash => .line facts.hash
  | .shortHash => .line facts.shortHash
  | .branch => .list facts.branch
  | .tags => .list facts.tags
  | .timestamp => .line facts.timestamp

variable {facts : Facts} {query other : Query} {finding : Finding} {field : GapField}

theorem queryOf_injective {field other : GapField} (same : queryOf field = queryOf other) :
    field = other := by
  cases field <;> cases other <;> first | rfl | cases same

theorem name_injective {field other : GapField} (same : field.name = other.name) :
    field = other := by
  revert same
  cases field <;> cases other <;> decide

theorem lacks_toRecord (facts : Facts) (baseDir relDir gitUrl : String) (field : GapField) :
    (facts.toRecord baseDir relDir gitUrl).lacks field = (facts.get (queryOf field)).isEmpty := by
  cases field <;> rfl

theorem Facts.get_set_of_ne (different : other ≠ query) :
    (facts.set query finding).get other = facts.get other := by
  cases query <;> cases other <;> first | rfl | exact absurd rfl different

theorem Facts.get_set_fallback :
    (facts.set query (.fallback query)).get query = .fallback query := by
  cases query <;> rfl

theorem Facts.get_set_branch (texts : List String) :
    (facts.set .branch (.list texts)).get .branch = .list texts := rfl

namespace Service

variable {service : Service Time} {script : Git.Script Time}

/-- What stands in the facts for a query. -/
def findingFor (service : Service Time) (script : Git.Script Time) (query : Query) : Finding :=
  match service.told script query with
  | .ok finding => finding
  | .error _ => .fallback query

/-- The gap that a query leaves. -/
def gap? (service : Service Time) (script : Git.Script Time) (query : Query) : Option Problem :=
  match service.told script query with
  | .error (.problem problem) => some problem
  | _ => none

/-- What is told fits the query, or it is the gap of the query's field. -/
theorem told_cases (service : Service Time) (script : Git.Script Time) (query : Query) :
    (∃ finding, service.told script query = .ok finding ∧
        ∀ facts : Facts, (facts.set query finding).get query = finding) ∨
      ∃ field detail, queryOf field = query ∧
        service.told script query = .error (Failure.git (.gap field) detail) := by
  have line : ∀ (field : GapField) (arguments : List String) (silence : String)
      (printed : String × Int),
      (∃ text, (service.client.readLine arguments field silence printed).map Finding.line =
          .ok (.line text)) ∨
        ∃ detail, (service.client.readLine arguments field silence printed).map Finding.line =
          .error (Failure.git (.gap field) detail) := by
    intro field arguments silence printed
    unfold Git.Client.readLine
    split
    · exact .inr ⟨_, rfl⟩
    · split
      · exact .inr ⟨_, rfl⟩
      · exact .inl ⟨_, rfl⟩
  unfold told read
  cases query with
  | remoteUrl =>
      exact (line .remoteUrl _ _ _).imp (fun ⟨_, reads⟩ => ⟨_, reads, fun _ => rfl⟩)
        fun ⟨detail, reads⟩ => ⟨.remoteUrl, detail, rfl, reads⟩
  | hash =>
      exact (line .hash _ _ _).imp (fun ⟨_, reads⟩ => ⟨_, reads, fun _ => rfl⟩)
        fun ⟨detail, reads⟩ => ⟨.hash, detail, rfl, reads⟩
  | shortHash =>
      exact (line .shortHash _ _ _).imp (fun ⟨_, reads⟩ => ⟨_, reads, fun _ => rfl⟩)
        fun ⟨detail, reads⟩ => ⟨.shortHash, detail, rfl, reads⟩
  | branch =>
      simp only [Git.Client.readBranches]
      split
      · exact .inr ⟨.branch, _, rfl, rfl⟩
      · exact .inl ⟨_, rfl, fun _ => Facts.get_set_branch _⟩
  | tags => exact .inl ⟨_, rfl, fun _ => rfl⟩
  | timestamp => exact .inl ⟨_, rfl, fun _ => rfl⟩

/-- What one outcome adds to the facts: the finding at its query, and its gap at the end. -/
theorem add_told (facts : Facts) (query : Query) :
    (∀ other, (facts.add query (.ofResult (service.told script query))).get other =
        if other = query then service.findingFor script query else facts.get other) ∧
      (facts.add query (.ofResult (service.told script query))).gaps =
        facts.gaps ++ (service.gap? script query).toList := by
  have others : ∀ finding other, (facts.set query finding).get query = finding →
      (facts.set query finding).get other = if other = query then finding else facts.get other := by
    intro finding other fits
    split
    · next same => rw [same, fits]
    · next different => exact Facts.get_set_of_ne different
  unfold findingFor gap?
  rcases told_cases service script query with ⟨finding, told, fits⟩ | ⟨field, detail, isQuery, told⟩
  · rw [told]
    refine ⟨fun other => others finding other (fits facts), ?_⟩
    cases query <;> exact (List.append_nil _).symm
  · rw [told]
    subst isQuery
    constructor
    · intro other
      rw [← others (.fallback (queryOf field)) other Facts.get_set_fallback]
      cases field <;> rfl
    · cases field <;> rfl

theorem factsBy_eq_foldl :
    service.factsBy script = Query.all.foldl
      (fun facts query => facts.add query (.ofResult (service.told script query))) {} := by
  rw [factsBy, Facts.ofOutcomes, List.foldl_map]

/-- Each fact is what its own answer says. -/
theorem get_factsBy (query : Query) :
    (service.factsBy script).get query = service.findingFor script query := by
  have folded : ∀ (queries : List Query) (facts : Facts),
      (queries.foldl (fun facts query => facts.add query (.ofResult (service.told script query)))
          facts).get query =
        if query ∈ queries then service.findingFor script query else facts.get query := by
    intro queries
    induction queries with
    | nil => exact fun facts => rfl
    | cons next rest inductionHypothesis =>
        intro facts
        rw [List.foldl_cons, inductionHypothesis, (add_told facts next).1 query]
        by_cases isNext : query = next
        · simp [isNext]
        · simp [isNext]
  rw [factsBy_eq_foldl, folded, if_pos query.mem_all]

/-- The gaps of the facts are those of the answers, in the order of the queries. -/
theorem gaps_factsBy :
    (service.factsBy script).gaps = Query.all.filterMap (service.gap? script) := by
  have folded : ∀ (queries : List Query) (facts : Facts),
      (queries.foldl (fun facts query => facts.add query (.ofResult (service.told script query)))
          facts).gaps = facts.gaps ++ queries.filterMap (service.gap? script) := by
    intro queries
    induction queries with
    | nil => exact fun facts => (List.append_nil _).symm
    | cons next rest inductionHypothesis =>
        intro facts
        rw [List.foldl_cons, inductionHypothesis, (add_told facts next).2, List.append_assoc]
        cases gap : service.gap? script next <;> simp [gap]
  rw [factsBy_eq_foldl, folded]
  rfl

/-- Every gap is one of a field. -/
theorem exists_field_of_mem_gaps {problem : Problem}
    (member : problem ∈ (service.factsBy script).gaps) :
    ∃ field failure, problem.fieldName? = some (GapField.name field) ∧
      service.told script (queryOf field) = .error failure := by
  rw [gaps_factsBy] at member
  obtain ⟨query, -, isGap⟩ := List.mem_filterMap.mp member
  unfold gap? at isGap
  rcases told_cases service script query with ⟨finding, told, -⟩ | ⟨field, detail, rfl, told⟩
  · rw [told] at isGap
    cases isGap
  · rw [told] at isGap
    obtain rfl := Option.some.inj isGap
    exact ⟨field, _, rfl, told⟩

/-- A gap of a field is reported just if the answer to its query leaves one. -/
theorem exists_gap_iff (field : GapField) :
    (∃ problem ∈ (service.factsBy script).gaps, problem.fieldName? = some field.name) ↔
      ∃ failure, service.told script (queryOf field) = .error failure := by
  constructor
  · rintro ⟨problem, member, named⟩
    obtain ⟨other, failure, namedToo, fails⟩ := exists_field_of_mem_gaps member
    obtain rfl := name_injective (Option.some.inj (named.symm.trans namedToo))
    exact ⟨failure, fails⟩
  · rintro ⟨failure, fails⟩
    rw [gaps_factsBy]
    rcases told_cases service script (queryOf field) with ⟨finding, told, -⟩ |
      ⟨other, detail, isQuery, told⟩
    · rw [told] at fails
      cases fails
    · obtain rfl := queryOf_injective isQuery
      refine ⟨.ofDetail (.gap other) detail, List.mem_filterMap.mpr ⟨queryOf other, ?_, ?_⟩, rfl⟩
      · cases other <;> decide
      · rw [gap?, told]
        rfl

/-! ## Empty fields -/

/-- What is printed for a query, with the exit code. -/
def printed (service : Service Time) (script : Git.Script Time) (query : Query) : String × Int :=
  script.printed (service.arguments (.fact query))

/-- The answer to a query is a success of which nothing is read, though it is no gap: branches that
are all blank, or a blank first line with something behind it. -/
def Overlooks (service : Service Time) (script : Git.Script Time) (query : Query) : Prop :=
  (service.printed script query).2 = 0 ∧
    if query = .branch then Text.isBlankText (service.printed script query).1 = true
    else Git.beginsLate (service.printed script query).1 = true

/-- A line that is read is the first one of a success that is not blank. -/
theorem eq_firstLine_of_readLine {client : Git.Client Time} {arguments : List String}
    {field : GapField} {silence : String} {printed : String × Int} {finding : Finding}
    (reads : (client.readLine arguments field silence printed).map .line = .ok finding) :
    printed.2 = 0 ∧ Text.isBlankText printed.1 = false ∧
      finding = .line (Git.firstLine printed.1) := by
  unfold Git.Client.readLine at reads
  by_cases fails : printed.2 ≠ 0
  · rw [if_pos fails] at reads
    cases reads
  by_cases silent : Text.isBlankText printed.1 = true
  · rw [if_neg fails, if_pos silent] at reads
    cases reads
  rw [if_neg fails, if_neg silent] at reads
  exact ⟨Classical.not_not.mp fails, Bool.eq_false_iff.mpr silent, (Except.ok.inj reads).symm⟩

/-- **What is read off an answer without a gap is empty just if the answer is overlooked.** -/
theorem isEmpty_iff_overlooks {field : GapField} {finding : Finding}
    (told : service.told script (queryOf field) = .ok finding) :
    finding.isEmpty = true ↔ service.Overlooks script (queryOf field) := by
  have ofLine {query : Query} (notBranch : query ≠ .branch)
      (reads : (service.printed script query).2 = 0 ∧
        Text.isBlankText (service.printed script query).1 = false ∧
          finding = .line (Git.firstLine (service.printed script query).1)) :
      finding.isEmpty = true ↔ service.Overlooks script query := by
    obtain ⟨succeeds, spoken, rfl⟩ := reads
    rw [Overlooks, if_neg notBranch, Git.beginsLate, spoken, Bool.not_false, Bool.and_true]
    exact (and_iff_right succeeds).symm
  cases field with
  | remoteUrl => exact ofLine (by decide) (eq_firstLine_of_readLine told)
  | hash => exact ofLine (by decide) (eq_firstLine_of_readLine told)
  | shortHash => exact ofLine (by decide) (eq_firstLine_of_readLine told)
  | branch =>
      have reads : (service.client.readBranches
          (service.printed script .branch)).map .list = .ok finding := told
      unfold Git.Client.readBranches at reads
      by_cases fails : (service.printed script .branch).2 ≠ 0
      · rw [if_pos fails] at reads
        cases reads
      · rw [if_neg fails] at reads
        obtain rfl := Except.ok.inj reads
        rw [queryOf, Overlooks, if_pos rfl, Finding.isEmpty, List.isEmpty_iff,
          Git.contentLines_eq_nil_iff]
        exact (and_iff_right (Classical.not_not.mp fails)).symm

/-- An answer that is overlooked leaves no gap. -/
theorem not_told_error_of_overlooks {field : GapField} {failure : Failure}
    (overlooks : service.Overlooks script (queryOf field)) :
    service.told script (queryOf field) ≠ .error failure := by
  have line {client : Git.Client Time} {arguments : List String} {gap : GapField}
      {silence : String} {printed : String × Int} (succeeds : printed.2 = 0)
      (late : Git.beginsLate printed.1 = true) :
      (client.readLine arguments gap silence printed).map Finding.line ≠ .error failure := by
    have spoken : ¬ Text.isBlankText printed.1 = true := by
      rw [Git.beginsLate, Bool.and_eq_true, Bool.not_eq_true'] at late
      rw [late.2]
      exact Bool.false_ne_true
    rw [Git.Client.readLine, if_neg (not_not.mpr succeeds), if_neg spoken]
    exact fun fails => by cases fails
  obtain ⟨succeeds, unread⟩ := overlooks
  cases field with
  | remoteUrl => exact line succeeds unread
  | hash => exact line succeeds unread
  | shortHash => exact line succeeds unread
  | branch =>
      intro fails
      have succeeds : (service.printed script .branch).2 = 0 := succeeds
      have reads : (service.client.readBranches
          (service.printed script .branch)).map Finding.list = .error failure := fails
      rw [Git.Client.readBranches, if_neg (not_not.mpr succeeds)] at reads
      cases reads

/-- **An empty field has left a gap**, or its answer is overlooked. -/
theorem isEmpty_findingFor_iff (field : GapField) :
    (service.findingFor script (queryOf field)).isEmpty = true ↔
      (∃ failure, service.told script (queryOf field) = .error failure) ∨
        service.Overlooks script (queryOf field) := by
  unfold findingFor
  cases told : service.told script (queryOf field) with
  | error failure =>
      have empty : (Finding.fallback (queryOf field)).isEmpty = true := by cases field <;> rfl
      simp [empty]
  | ok finding =>
      have noGap : ¬ ∃ failure, (.ok finding : Except Failure Finding) = .error failure :=
        fun ⟨_, same⟩ => by cases same
      rw [or_iff_right noGap]
      exact isEmpty_iff_overlooks told

theorem timestamp_eq_empty_iff :
    (service.factsBy script).timestamp = "" ↔ service.Overlooks script .timestamp := by
  have found : Finding.line (service.factsBy script).timestamp =
      .line (Git.Client.readTimestamp (service.printed script .timestamp)) :=
    get_factsBy .timestamp
  rw [Finding.line.inj found, Git.Client.readTimestamp, Overlooks,
    if_neg (by decide : Query.timestamp ≠ .branch), Git.beginsLate]
  by_cases fails : (service.printed script .timestamp).2 ≠ 0
  · simp [fails]
  · cases silent : Text.isBlankText (service.printed script .timestamp).1 with
    | true => simp
    | false => simp [Classical.not_not.mp fails]

end Service

/-! ## Missing fields -/

theorem mem_missingFields_iff {record : Record} {field : GapField} :
    field.name ∈ record.missingFields ↔ record.lacks field = true := by
  have listed : field ∈ [GapField.remoteUrl, .hash, .shortHash, .branch] := by
    cases field <;> decide
  constructor
  · intro member
    obtain ⟨other, isGap, same⟩ := List.mem_map.mp member
    obtain rfl := name_injective same
    exact (List.mem_filter.mp isGap).2
  · intro lacks
    exact List.mem_map_of_mem (List.mem_filter.mpr ⟨listed, lacks⟩)

/-! ## What is reported -/

/-- Which empty fields of a record are reported: all whose answers are not overlooked. -/
structure ReportsGaps (service : Service Time) (script : Git.Script Time) (errors : List Problem)
    (record : Record) : Prop where
  /-- A field is empty just if a gap of it is reported, or if its answer is overlooked. -/
  fields : ∀ field : GapField, record.lacks field = true ↔
    (∃ problem ∈ errors, problem.fieldName? = some field.name) ∨
      service.Overlooks script (queryOf field)
  timestamp : record.timestamp = "" ↔ service.Overlooks script .timestamp
  /-- There is no last gap just if the answers of all missing fields are overlooked. -/
  warning : errors.getLast? = none ↔
    ∀ field : GapField, field.name ∈ record.missingFields →
      service.Overlooks script (queryOf field)

theorem reportsGaps_of_isToldBy {service : Service Time} {script : Git.Script Time}
    {record : Record} {errors : List Problem} (told : service.IsToldBy script (record, errors)) :
    ReportsGaps service script errors record := by
  obtain ⟨baseDir, relDir, gitUrl, same⟩ := told
  obtain ⟨rfl, rfl⟩ := Prod.mk.inj same
  have fields (field : GapField) :
      ((service.factsBy script).toRecord baseDir relDir gitUrl).lacks field = true ↔
        (∃ problem ∈ (service.factsBy script).gaps, problem.fieldName? = some field.name) ∨
          service.Overlooks script (queryOf field) := by
    rw [lacks_toRecord, Service.get_factsBy, Service.isEmpty_findingFor_iff, Service.exists_gap_iff]
  refine ⟨fields, Service.timestamp_eq_empty_iff, ?_⟩
  simp only [List.getLast?_eq_none_iff, mem_missingFields_iff]
  constructor
  · intro noGaps field lacks
    rcases (fields field).mp lacks with ⟨problem, member, -⟩ | overlooks
    · rw [noGaps] at member
      cases member
    · exact overlooks
  · intro overlooked
    refine List.eq_nil_iff_forall_not_mem.mpr fun problem member => ?_
    obtain ⟨field, failure, named, fails⟩ := Service.exists_field_of_mem_gaps member
    have lacks := (fields field).mpr (.inl ⟨problem, member, named⟩)
    exact Service.not_told_error_of_overlooks (overlooked field lacks) fails

end Assembly
end Provenance
