import Provenance.Proofs.Assembly.Gaps
import Provenance.Proofs.CommandLine.Course
import Provenance.Proofs.Reference.Pinned
import Provenance.Proofs.Reference.Remote
import Provenance.Proofs.World.Location

/-!
Contract: the credentials in a remote URL have no say in what is pinned.

Owns:
- `World.DifferInCredentials`, two worlds whose version control names one place, each with
  credentials of its own, and that such worlds are attuned;
- `Service.assembleAlong_located`, what a record holds of the place;
- `Request.cases_pin` and `Request.cases_located`, the requests that show nothing but locations;
- `credentials_have_no_say`, for assemblies and command lines.

Does **not** own: where credentials end, and why only the first line of an answer counts.
-/

set_option autoImplicit false

namespace Provenance

open Program (Agree Alike)
open Remote (AreCredentials IsPlace signed)
open World (Timekeeping)

variable {Time : Type} {remote place : String}

/-! ## Answers with credentials -/

/-- An answer that prints a URL of a place with credentials on its first line. -/
def Git.Answer.Names (place : String) (answer : Git.Answer Time) : Prop :=
  ∃ transport user, AreCredentials transport user ∧
    (Git.outputText answer.output).toList.takeWhile (· ≠ '\n') = (signed transport user place).toList

/-- Scripts that answer one question with URLs of one place, each with credentials of its own, and
that are otherwise the same.  What an answer prints behind its first line is of no
account. -/
structure Git.Script.DifferInCredentials (remote place : String) (left right : Git.Script Time) :
    Prop where
  others : ∀ arguments,
    Git.Script.key arguments ≠ Git.Script.key (Git.Client.Arguments.remoteUrl remote) →
      left.answer arguments = right.answer arguments
  same : { left.answer (Git.Client.Arguments.remoteUrl remote) with
    output := (right.answer (Git.Client.Arguments.remoteUrl remote)).output } =
      right.answer (Git.Client.Arguments.remoteUrl remote)
  leftNames : (left.answer (Git.Client.Arguments.remoteUrl remote)).Names place
  rightNames : (right.answer (Git.Client.Arguments.remoteUrl remote)).Names place

/-- Worlds that differ in such scripts alone. -/
def World.DifferInCredentials (remote place : String) (left right : World Time) : Prop :=
  ∃ script, right = { left with script := script } ∧
    left.script.DifferInCredentials remote place script

/-- What is asked for by one name is answered alike, whatever asks for it. -/
theorem Git.Script.answer_congr (script : Git.Script Time) {arguments others : List String}
    (same : Git.Script.key arguments = Git.Script.key others) :
    script.answer arguments = script.answer others := by
  unfold Git.Script.answer
  rw [same]

/-- A question begins with its first word. -/
theorem Git.Script.head?_key {word : String} (given : word ≠ "") (rest : List String) :
    (Git.Script.key (word :: rest)).toList.head? = word.toList.head? := by
  have nonempty : word.toList ≠ [] := fun empty => given (String.toList_eq_nil_iff.mp empty)
  have blank : (" " : String).toList = [' '] := rfl
  rw [Git.Script.key, Text.toList_intercalate blank]
  cases rest with
  | nil => rfl
  | cons next others =>
      rw [List.map_cons, Text.joinWith_cons (by simp)]
      exact List.head?_append_of_ne_nil _ nonempty

namespace Assembly

/-- Only the question for a remote begins like one. -/
theorem Stage.eq_remoteUrl_of_key {stage : Stage} {name length : String}
    (same : Git.Script.key (stage.arguments name length) =
      Git.Script.key (Git.Client.Arguments.remoteUrl remote)) : stage = .fact .remoteUrl := by
  have begins (word : String) (rest : List String) (given : word ≠ "")
      (arguments : stage.arguments name length = word :: rest) : word.toList.head? = some 'c' := by
    have heads := congrArg (fun key => key.toList.head?) same
    rw [arguments, Git.Client.Arguments.remoteUrl] at heads
    rw [Git.Script.head?_key given, Git.Script.head?_key (by decide)] at heads
    exact heads
  cases stage with
  | status => exact absurd (begins _ _ (by decide) rfl) (by decide)
  | root => exact absurd (begins _ _ (by decide) rfl) (by decide)
  | fact query =>
      cases query with
      | remoteUrl => rfl
      | _ => exact absurd (begins _ _ (by decide) rfl) (by decide)

/-- **Worlds that differ in credentials answer the questions of an assembly alike.** -/
theorem attuned_differInCredentials (isPlace : IsPlace place) :
    Attuned (World.DifferInCredentials remote place : World Time → World Time → Prop) where
  files := by rintro left _ ⟨script, rfl, _⟩; rfl
  cwd := by rintro left _ ⟨script, rfl, _⟩; rfl
  environment := by rintro left _ ⟨script, rfl, _⟩; rfl
  isTerminal := by rintro left _ ⟨script, rfl, _⟩; rfl
  said := by rintro left _ event - ⟨script, rfl, differ⟩; exact ⟨script, rfl, differ⟩
  clock := by rintro left _ ⟨script, rfl, _⟩; rfl
  timed := by rintro left _ clock ⟨script, rfl, differ⟩; exact ⟨script, rfl, differ⟩
  called := by rintro left _ call ⟨script, rfl, differ⟩; exact ⟨script, rfl, differ⟩
  answers := by
    rintro left _ stage name length ⟨script, rfl, differ⟩
    by_cases asksRemote : Git.Script.key (stage.arguments name length) =
      Git.Script.key (Git.Client.Arguments.remoteUrl remote)
    · obtain ⟨transport, user, credentials, prints⟩ := differ.leftNames
      obtain ⟨otherTransport, otherUser, otherCredentials, otherPrints⟩ := differ.rightNames
      rw [left.script.answer_congr asksRemote, script.answer_congr asksRemote]
      refine ⟨differ.same, .inr ⟨Stage.eq_remoteUrl_of_key asksRemote, ?_, ?_, .inr ⟨?_, ?_⟩⟩⟩
      · rw [← differ.same]
      · rw [Git.isBlankText_of_signed prints, Git.isBlankText_of_signed otherPrints]
      · rw [Git.firstLine_of_signed credentials isPlace prints,
          Git.firstLine_of_signed otherCredentials isPlace otherPrints,
          Remote.canonical_signed credentials, Remote.canonical_signed otherCredentials]
      · rw [Git.firstLine_of_signed credentials isPlace prints, Remote.canonical_signed credentials]
        exact Remote.located_ne_empty isPlace
    · rw [show script.answer (stage.arguments name length) =
        left.script.answer (stage.arguments name length) from (differ.others _ asksRemote).symm]
      exact .refl stage _

/-! ## What a record says of the place -/

/-- A service is told the URL that an answer names. -/
theorem Service.factsBy_remoteUrl (service : Service Time) {script : Git.Script Time}
    {transport user : String} (credentials : AreCredentials transport user)
    (isPlace : IsPlace place)
    (prints : (Git.outputText (script.answer (service.arguments (.fact .remoteUrl))).output
      ).toList.takeWhile (· ≠ '\n') = (signed transport user place).toList)
    (succeeds : (script.answer (service.arguments (.fact .remoteUrl))).code = 0) :
    (service.factsBy script).remoteUrl = signed transport user place := by
  have told : service.told script .remoteUrl = .ok (.line (signed transport user place)) := by
    unfold Service.told Service.read Git.Client.readLine Git.Script.printed
    simp only [succeeds, ne_eq, not_true_eq_false, if_false, Git.isBlankText_of_signed prints,
      Bool.false_eq_true, Git.firstLine_of_signed credentials isPlace prints]
    rfl
  have found : (service.factsBy script).get .remoteUrl = service.findingFor script .remoteUrl :=
    Service.get_factsBy .remoteUrl
  rw [Service.findingFor, told] at found
  exact Finding.line.inj found

/-- **A record says of the place what stands behind the credentials.** -/
theorem Service.assembleAlong_located [Timekeeping Time] (service : Service Time) {world after : World Time}
    {schedule : Pool.Schedule} {directory : String} {limit : Option Time} {kept : Service Time}
    {record : Record} (isPlace : IsPlace place)
    (names : (world.script.answer (service.arguments (.fact .remoteUrl))).Names place)
    (succeeds : (world.script.answer (service.arguments (.fact .remoteUrl))).code = 0)
    (assembles : (service.assembleAlong schedule directory limit).runIn world =
      (.ok (kept, record), after)) :
    record.gitUrl = Remote.located place ∧ record.relDir ≠ "" := by
  obtain ⟨transport, user, credentials, prints⟩ := names
  have concludes : ∀ baseDir, Program.Keeps (World.HasScript world.script)
      (Service.conclude directory baseDir (service.factsBy world.script))
      (fun found => found.1.gitUrl = Remote.located place ∧ found.1.relDir ≠ "")
      Failure.Shows := by
    intro baseDir
    refine (locationOf_keeps _).bind fun gitUrl isLocation =>
      (relativeDirectory_keeps directory baseDir).bind fun relDir ⟨_, _, places⟩ => .pure ⟨?_, ?_⟩
    · exact isLocation.1.trans (by
        rw [service.factsBy_remoteUrl credentials isPlace prints succeeds,
          Remote.canonical_signed credentials])
    · exact Location.relativeTo_ne_empty places
  have keeps := service.assembleAlong_keeps_concluded (World.lasting_hasScript world.script) directory
    concludes schedule limit
  obtain ⟨-, returned, -⟩ := keeps world rfl
  exact returned (kept, record) (congrArg Prod.fst assembles)

end Assembly

namespace CommandLine

open Assembly (Service)
open Data (Value)

/-! ## Command lines -/

theorem printable_differInCredentials :
    Printable (World.DifferInCredentials remote place : World Value → World Value → Prop) := by
  rintro left _ text ⟨script, rfl, differ⟩
  exact ⟨script, rfl, differ⟩

variable {files : World.Files} {cwd : World.Place} {rest : List String} {request : Request}

/-- What the words behind the command that pins can ask for. -/
theorem Request.cases_pin (asks : Request.read files cwd .pin rest = .ok request) :
    request = .help .pin ∨
      ∃ reference directory asCommand manner, request = .pin reference directory asCommand manner := by
  refine (Request.cases_read asks).imp_right fun ⟨taken, _, asks⟩ => ?_
  unfold Request.ofWords at asks
  dsimp only at asks
  split at asks
  · cases asks
  · obtain ⟨_, -, asks⟩ := Settings.exists_of_bind_eq_ok asks
    obtain ⟨_, -, asks⟩ := Settings.exists_of_bind_eq_ok asks
    exact ⟨_, _, _, _, (Except.ok.inj asks).symm⟩

/-- What the words behind the command that describes can ask for, with the switch that leaves only
what locates a directory. -/
theorem Request.cases_located
    (located : ∀ taken, Words.read .describe rest = .ok taken → taken.has .located = true)
    (asks : Request.read files cwd .describe rest = .ok request) :
    request = .help .describe ∨
      ∃ directory strict table manner, request = .describe directory strict true table manner := by
  refine (Request.cases_read asks).imp_right fun ⟨taken, reads, asks⟩ => ?_
  unfold Request.ofWords at asks
  dsimp only at asks
  obtain ⟨_, -, asks⟩ := Settings.exists_of_bind_eq_ok asks
  obtain ⟨_, -, asks⟩ := Settings.exists_of_bind_eq_ok asks
  rw [located taken reads] at asks
  exact ⟨_, _, _, _, (Except.ok.inj asks).symm⟩

/-- **Credentials have no say in what is pinned.**

Two worlds in which version control names one place, each with credentials of its own, and is
otherwise the same: an assembly comes to the same in both, with the same calls and the same log, and
its records differ in the remote URL at most.  What is pinned to them is the location of the place,
joined with the directory.  A run that pins a reference, or that shows nothing of a directory but what
locates it, leaves the same outcome behind. -/
theorem credentials_have_no_say (isPlace : IsPlace place) :
    (∀ {Time : Type} [Timekeeping Time] (left right : World Time),
      left.DifferInCredentials remote place right →
        ∀ (service : Service Time) (schedule : Assembly.Pool.Schedule) (directory : String)
            (limit : Option Time),
          let first := (service.assembleAlong schedule directory limit).runIn left
          let second := (service.assembleAlong schedule directory limit).runIn right
          Agree (fun left right => left.1 = right.1 ∧
              right.2 = { left.2 with remoteUrl := right.2.remoteUrl }) first.1 second.1 ∧
            first.2.trace = second.2.trace ∧
            (service.remote.display = remote →
              (left.script.answer (Git.Client.Arguments.remoteUrl remote)).code = 0 →
                ∀ kept record, first.1 = .ok (kept, record) →
                  record.gitUrl = Remote.located place ∧
                    ∀ (kind : String) (reference : Reference),
                      Variant.ofKind? kind = some reference.variant →
                        ∃ pinned, reference.pin (some record) = .ok (.moved pinned) ∧
                          pinned.gitUrl =
                            Path.normalize (Path.join (Remote.located place) record.relDir))) ∧
      ∀ (left right : World Value), left.DifferInCredentials remote place right →
        ∀ (words rest : List String) (switches : Words),
          (Entry.read .root words = .ok (.command switches .pin rest) ∨
            Entry.read .root words = .ok (.command switches .describe rest) ∧
              ∀ taken, Words.read .describe rest = .ok taken → taken.has .located = true) →
            (outcomeIn left words).1 = (outcomeIn right words).1 := by
  constructor
  · intro Time _ left right differ service schedule directory limit
    have attuned : Assembly.Attuned
        (World.DifferInCredentials remote place : World Time → World Time → Prop) :=
      Assembly.attuned_differInCredentials isPlace
    obtain ⟨kept, agree⟩ :=
      service.assembleAlong_alike attuned schedule directory limit left right differ
    dsimp only
    refine ⟨agree.weaken fun _ _ same => ⟨same.1, same.2.same⟩, ?_, ?_⟩
    · obtain ⟨script, after_eq, -⟩ := kept
      rw [after_eq]
    · rintro rfl succeeds kept record returns
      obtain ⟨script, -, scripts⟩ := differ
      obtain ⟨gitUrl, relDir⟩ := service.assembleAlong_located isPlace scripts.leftNames succeeds
        (Prod.ext returns rfl)
      refine ⟨gitUrl, fun kind reference isKind => ?_⟩
      have located : record.gitUrl ≠ "" := by
        rw [gitUrl]
        exact Remote.located_ne_empty isPlace
      refine ⟨reference.moveTo record, Reference.pin_of_ofKind isKind located, ?_⟩
      change record.location = _
      rw [Record.location, gitUrl]
      exact if_neg (by simpa using relDir)
  · intro left right differ words rest switches asked
    have attuned : Assembly.Attuned
        (World.DifferInCredentials remote place : World Value → World Value → Prop) :=
      Assembly.attuned_differInCredentials isPlace
    have printable : Printable (World.DifferInCredentials remote place) :=
      printable_differInCredentials
    have alike : Alike (World.DifferInCredentials remote place) Eq (run words) (run words) := by
      rcases asked with leads | ⟨leads, located⟩
      · refine run_alike attuned.toSteady leads (by decide) fun files cwd request asks => ?_
        rcases Request.cases_pin asks with rfl | ⟨reference, directory, asCommand, manner, rfl⟩
        · exact showHelp_alike printable _
        · exact produce_alike printable attuned.toSteady
            (fun progress => pin_alike attuned reference directory asCommand progress) manner
      · refine run_alike attuned.toSteady leads (by decide) fun files cwd request asks => ?_
        rcases Request.cases_located located asks with rfl | ⟨directory, strict, table, manner, rfl⟩
        · exact showHelp_alike printable _
        · exact produce_alike printable attuned.toSteady
            (fun progress => describe_located_alike printable attuned directory strict table progress)
            manner
    refine outcomeIn_of_alike alike ?_ ?_
    · rintro left _ ⟨script, rfl, -⟩
      rfl
    · obtain ⟨script, rfl, scripts⟩ := differ
      exact ⟨script, rfl, scripts⟩

/-- A world in which version control names a remote. -/
def worldNaming (url : String) : World Value :=
  worldAnswering [("config --get remote.origin.url",
    { output := Text.Utf8.encode (url ++ "\n"), takes := .int 0 })]

/-- Worlds that name one place differ in credentials at most. -/
theorem worldNaming_differ {place url other : String}
    (names : Git.Answer.Names place
      ({ output := Text.Utf8.encode (url ++ "\n"), takes := .int 0 } : Git.Answer Value))
    (otherNames : Git.Answer.Names place
      ({ output := Text.Utf8.encode (other ++ "\n"), takes := .int 0 } : Git.Answer Value)) :
    World.DifferInCredentials "origin" place (worldNaming url) (worldNaming other) := by
  have asked : Git.Script.key (Git.Client.Arguments.remoteUrl "origin") =
      "config --get remote.origin.url" := by decide
  have answer_eq (url : String) (arguments : List String) :
      (worldNaming url).script.answer arguments =
        if Git.Script.key arguments = "config --get remote.origin.url" then
          { output := Text.Utf8.encode (url ++ "\n"), takes := .int 0 }
        else { output := [47], takes := .int 0 } := by
    simp only [worldNaming, worldAnswering, Git.Script.answer, List.lookup_cons, List.lookup_nil]
    split <;> simp_all
  refine ⟨(worldNaming other).script, rfl, ?_, ?_, ?_, ?_⟩
  · intro arguments others
    rw [asked] at others
    rw [answer_eq, answer_eq, if_neg others, if_neg others]
  all_goals rw [answer_eq, if_pos asked]
  · rw [answer_eq, if_pos asked]
  · exact names
  · exact otherNames

/-- Two users of one repository, one of them with slashes and colons in the password. -/
theorem credentials_have_no_say_two_users :
    IsPlace "host:team/repo.git" ∧
      World.DifferInCredentials "origin" "host:team/repo.git"
        (worldNaming "https://me:p://q@host:team/repo.git")
        (worldNaming "ssh://git@host:team/repo.git") ∧
      (outcomeIn (worldNaming "https://me:p://q@host:team/repo.git") ["rewrite", "./a+b"]).1 =
        (outcomeIn (worldNaming "ssh://git@host:team/repo.git") ["rewrite", "./a+b"]).1 ∧
      (outcomeIn (worldNaming "https://me:p://q@host:team/repo.git") ["meta", "--clone"]).1 =
        (outcomeIn (worldNaming "ssh://git@host:team/repo.git") ["meta", "--clone"]).1 := by
  have isPlace : IsPlace "host:team/repo.git" := by
    refine ⟨by decide, by decide, fun last isLast => ?_⟩
    obtain rfl := Option.some.inj isLast
    decide
  have differ : World.DifferInCredentials "origin" "host:team/repo.git"
      (worldNaming "https://me:p://q@host:team/repo.git")
      (worldNaming "ssh://git@host:team/repo.git") :=
    worldNaming_differ
      ⟨"https", "me:p://q", ⟨by decide, by decide, List.forall_iff_forall_mem.mp (by decide)⟩,
        by decide +kernel⟩
      ⟨"ssh", "git", ⟨by decide, by decide, List.forall_iff_forall_mem.mp (by decide)⟩,
        by decide +kernel⟩
  have same := (credentials_have_no_say isPlace).2 _ _ differ
  refine ⟨isPlace, differ, same _ ["./a+b"] ⟨[], ["rewrite", "./a+b"]⟩ (.inl rfl),
    same _ ["--clone"] ⟨[], ["meta", "--clone"]⟩ (.inr ⟨rfl, fun taken reads => ?_⟩)⟩
  obtain rfl := Except.ok.inj reads
  rfl

end CommandLine
end Provenance
