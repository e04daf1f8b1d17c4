import Provenance.CommandLine.Request
import Provenance.Proofs.Settings.Load

/-!
Contract: a switch that is put between the words of a command line.

Owns:
- `Entry.exists_front`: what follows the word of a command may be replaced by anything;
- `Words.isOpen`, where a word between others is read as a switch;
- `Words.Adds`, readings of which one has a switch more, and `Words.adds_readAfter`;
- `Request.hushed` and `Request.read_of_adds`: what is asked for when the switch is the quiet one.

Does **not** own: what a quiet run does.

## Where a switch can be put

A word behind a switch that waits for its value is that value, and behind two strokes
alone every word is an operand.  Anywhere else a switch is read as one, whatever is wrong
with the words before or behind it.
-/

set_option autoImplicit false

namespace Provenance.CommandLine

open Settings (exists_of_bind_eq_ok exists_of_map_eq_ok)
open World (Files Place)

namespace Words

variable {command : Command} {waiting : Option (Switch × String)}

/-! ## The front of a command line -/

/-- A command that holds others reads the words before its first operand alone. -/
theorem exists_front (isGroup : command.isGroup = true) {words rest : List String} {taken : Words}
    {word : String} (reads : readAfter command waiting words = .ok taken)
    (operands : taken.operands = word :: rest) :
    ∃ front, words = front ++ word :: rest ∧
      ∀ others, readAfter command waiting (front ++ word :: others) =
        .ok { taken with operands := word :: others } := by
  fun_induction readAfter command waiting words generalizing taken with
  | case1 =>
      obtain rfl := Except.ok.inj reads
      cases operands
  | case2 => cases reads
  | case3 switch name next others inductionHypothesis =>
      obtain ⟨found, readsRest, rfl⟩ := exists_of_map_eq_ok reads
      obtain ⟨front, rfl, replaced⟩ := inductionHypothesis readsRest operands
      refine ⟨next :: front, rfl, fun others => ?_⟩
      rw [List.cons_append, readAfter, replaced]
      rfl
  | case4 others =>
      obtain rfl := Except.ok.inj reads
      obtain rfl : others = word :: rest := operands
      exact ⟨["--"], rfl, fun others => rfl⟩
  | case5 => cases reads
  | case6 next others notEnd isSwitch reading readsSwitch inductionHypothesis =>
      obtain ⟨found, readsRest, rfl⟩ := exists_of_map_eq_ok reads
      obtain ⟨front, rfl, replaced⟩ := inductionHypothesis readsRest operands
      refine ⟨next :: front, rfl, fun others => ?_⟩
      rw [List.cons_append, readAfter, if_neg notEnd, if_pos isSwitch, readsSwitch]
      dsimp only
      rw [replaced]
      rfl
  | case7 next others notEnd notSwitch isGroup =>
      obtain rfl := Except.ok.inj reads
      obtain ⟨rfl, rfl⟩ := List.cons.inj operands
      refine ⟨[], rfl, fun others => ?_⟩
      rw [List.nil_append, readAfter, if_neg notEnd, if_neg notSwitch, if_pos isGroup]
  | case8 next others notEnd notSwitch noGroup => exact absurd isGroup noGroup

/-! ## A switch between other words -/

/-- Whether a word behind some words is read by itself: no switch waits for its value, and switches
have not ended. -/
def isOpen (command : Command) : Option (Switch × String) → List String → Bool
  | none, [] => true
  | some _, [] => false
  | some _, _ :: rest => isOpen command none rest
  | none, word :: rest =>
    if word = "--" then false
    else if isSwitch word then
      match readSwitch command word with
      | .error _ => true
      | .ok reading => isOpen command reading.waiting rest
    else !command.isGroup && isOpen command none rest

/-- Readings of which the second has a switch more, unless both are refused alike. -/
inductive Adds (given : Given) : Except UsageError Words → Except UsageError Words → Prop where
  | refused (error : UsageError) : Adds given (.error error) (.error error)
  | read (before after : List Given) (operands : List String) :
      Adds given (.ok ⟨before ++ after, operands⟩) (.ok ⟨before ++ given :: after, operands⟩)

variable {given : Given} {reading other : Except UsageError Words}

theorem Adds.map_addGiven (adds : Adds given reading other) (earlier : List Given) :
    Adds given (reading.map (addGiven earlier)) (other.map (addGiven earlier)) := by
  cases adds with
  | refused error => exact .refused error
  | read before after operands =>
      have added : Adds given _ _ := .read (earlier ++ before) after operands
      rw [List.append_assoc, List.append_assoc] at added
      exact added

theorem Adds.map_addOperand (adds : Adds given reading other) (operand : String) :
    Adds given (reading.map (addOperand operand)) (other.map (addOperand operand)) := by
  cases adds with
  | refused error => exact .refused error
  | read before after operands => exact .read before after (operand :: operands)

/-- **A switch at an open place is read as one, and nothing else is read differently.** -/
theorem adds_readAfter {word : String} (notEnd : word ≠ "--") (written : isSwitch word = true)
    (reads : readSwitch command word = .ok { given := [given] }) {before : List String}
    (isOpen : isOpen command waiting before = true) (after : List String) :
    Adds given (readAfter command waiting (before ++ after))
      (readAfter command waiting (before ++ word :: after)) := by
  fun_induction Words.isOpen command waiting before with
  | case1 =>
      rw [List.nil_append, List.nil_append, readAfter.eq_4, if_neg notEnd, if_pos written, reads]
      dsimp only
      cases readAfter command none after with
      | error error => exact .refused error
      | ok taken => exact .read [] taken.given taken.operands
  | case2 => cases isOpen
  | case3 switch next rest inductionHypothesis =>
      exact (inductionHypothesis isOpen).map_addGiven _
  | case4 => cases isOpen
  | case5 next rest notLast isSwitch error refused =>
      rw [List.cons_append, List.cons_append, readAfter, readAfter, if_neg notLast, if_pos isSwitch,
        refused, if_neg notLast, if_pos isSwitch]
      exact .refused error
  | case6 next rest notLast isSwitch reading readsNext inductionHypothesis =>
      rw [List.cons_append, List.cons_append, readAfter, readAfter, if_neg notLast, if_pos isSwitch,
        readsNext, if_neg notLast, if_pos isSwitch]
      exact (inductionHypothesis isOpen).map_addGiven _
  | case7 next rest notLast notSwitch inductionHypothesis =>
      obtain ⟨noGroup, isOpen⟩ := Bool.and_eq_true_iff.mp isOpen
      have noGroup : ¬ command.isGroup = true := by simpa using noGroup
      rw [List.cons_append, List.cons_append, readAfter, readAfter, if_neg notLast, if_neg notSwitch,
        if_neg noGroup, if_neg notLast, if_neg notSwitch, if_neg noGroup]
      exact (inductionHypothesis isOpen).map_addOperand _

/-! ## What words come to with a switch more -/

theorem has_added (before after : List Given) (operands : List String) (switch : Switch) :
    has ⟨before ++ given :: after, operands⟩ switch =
      (given.switch == switch || has ⟨before ++ after, operands⟩ switch) := by
  simp only [has, List.any_append, List.any_cons, Bool.or_left_comm]

theorem value?_added (before after : List Given) (operands : List String) {switch : Switch}
    (other : given.switch ≠ switch) :
    value? ⟨before ++ given :: after, operands⟩ switch = value? ⟨before ++ after, operands⟩ switch := by
  simp only [value?, List.filter_append, List.filter_cons, beq_false_of_ne other, Bool.false_eq_true,
    if_false]

theorem isSome_eager?_added {before after : List Given} {operands : List String}
    (patient : given.switch.isEager = false) :
    (eager? ⟨before ++ given :: after, operands⟩).isSome =
      (eager? ⟨before ++ after, operands⟩).isSome := by
  have any_eq (given : List Given) : (eager? ⟨given, operands⟩).isSome =
      given.any fun given => given.switch.isEager := by
    rw [Bool.eq_iff_iff]
    simp [eager?, order]
  rw [any_eq, any_eq, List.any_append, List.any_append, List.any_cons, patient, Bool.false_or]

/-- Switches that pass a check may be left out of it. -/
theorem forM_filter (check : Switch → Except UsageError Unit) {keep : Switch → Bool}
    {switches : List Switch}
    (pass : ∀ switch ∈ switches, keep switch = false → check switch = .ok ()) :
    forM (switches.filter keep) check = forM switches check := by
  induction switches with
  | nil => rfl
  | cons switch rest inductionHypothesis =>
      obtain ⟨passes, passRest⟩ := List.forall_mem_cons.mp pass
      rw [List.filter_cons]
      split
      · rw [List.forM_cons, List.forM_cons, inductionHypothesis passRest]
      · next dropped =>
          rw [List.forM_cons, passes (Bool.eq_false_iff.mpr dropped), inductionHypothesis passRest]
          rfl

/-- A switch that is given twice need not be checked twice. -/
theorem forM_eraseDups (check : Switch → Except UsageError Unit) (switches : List Switch) :
    forM switches.eraseDups check = forM switches check := by
  match switches with
  | [] => rfl
  | switch :: rest =>
      have shorter : (rest.filter fun other => !other == switch).length < rest.length + 1 :=
        Nat.lt_add_one_of_le (List.length_filter_le _ rest)
      rw [List.eraseDups_cons, List.forM_cons, List.forM_cons,
        forM_eraseDups check (rest.filter fun other => !other == switch)]
      cases passes : check switch with
      | error error => rfl
      | ok _ =>
          rw [forM_filter check fun other _ dropped => ?_]
          rw [show other = switch by simpa using dropped, passes]
termination_by switches.length

theorem checks_added {before after : List Given} {operands : List String}
    (check : Switch → Except UsageError Unit) (passes : check given.switch = .ok ()) :
    (order ⟨before ++ given :: after, operands⟩).forM check =
      (order ⟨before ++ after, operands⟩).forM check := by
  have all_eq (given : List Given) : (order ⟨given, operands⟩).forM check =
      forM (given.map Given.switch) check := forM_eraseDups check _
  rw [all_eq, all_eq, List.map_append, List.map_cons, List.map_append, List.forM_append,
    List.forM_append, List.forM_cons, passes]
  rfl

end Words

/-! ## What is asked for -/

theorem eagerEntry?_ne_command {command chosen : Command} {words switches : Words}
    {rest : List String} : eagerEntry? command words ≠ some (.command switches chosen rest) := by
  intro eager
  obtain ⟨switch, -, isEntry⟩ := Option.map_eq_some_iff.mp eager
  split at isEntry
  all_goals cases isEntry

/-- **What follows the word of a command may be replaced by anything**, and leads to the same command
after the same switches. -/
theorem Entry.exists_front {command chosen : Command} (isGroup : command.isGroup = true)
    {words rest : List String} {switches : Words}
    (leads : Entry.read command words = .ok (.command switches chosen rest)) :
    ∃ front, words = front ++ rest ∧ ∀ others, ∃ replaced : Words,
      replaced.given = switches.given ∧
        Entry.read command (front ++ others) = .ok (.command replaced chosen others) := by
  unfold Entry.read at leads
  split at leads
  · cases leads
  obtain ⟨taken, reads, leads⟩ := exists_of_bind_eq_ok leads
  split at leads
  · next entry eager =>
      obtain rfl := Except.ok.inj leads
      exact absurd eager eagerEntry?_ne_command
  next notEager =>
  split at leads
  · cases leads
  next word others operands =>
  split at leads
  · next found isCommand =>
      obtain ⟨rfl, rfl, rfl⟩ := Entry.command.inj (Except.ok.inj leads)
      obtain ⟨front, rfl, replaced⟩ := Words.exists_front isGroup reads operands
      refine ⟨front ++ [word], by rw [List.append_assoc]; rfl, fun others => ?_⟩
      refine ⟨{ taken with operands := word :: others }, rfl, ?_⟩
      have notEmpty : ¬ (front ++ [word] ++ others).isEmpty = true := by simp
      have notEager : eagerEntry? command { taken with operands := word :: others } = none := notEager
      unfold Entry.read
      rw [if_neg notEmpty, List.append_assoc, List.singleton_append, Words.read, replaced others]
      change (Except.ok { taken with operands := word :: others } >>= _) = _
      dsimp only [bind, Except.bind]
      rw [notEager]
      dsimp only
      rw [isCommand]
      rfl
  · split at leads
    · obtain ⟨again, -, leads⟩ := exists_of_bind_eq_ok leads
      split at leads
      · next entry eager =>
          obtain rfl := Except.ok.inj leads
          exact absurd eager eagerEntry?_ne_command
      · cases leads
    · cases leads

namespace Request

/-- What is asked for, without any data being shown. -/
def hushed : Request → Request
  | .describe directory strict located table manner =>
    .describe directory strict located table { manner with quiet := true }
  | .normalize urls manner => .normalize urls { manner with quiet := true }
  | .pin reference directory asCommand manner =>
    .pin reference directory asCommand { manner with quiet := true }
  | request => request

variable {command : Command} (files : Files) (cwd : Place)

theorem mannerOf_added (before after : List Given) (operands : List String) :
    mannerOf ⟨before ++ ⟨.quiet, none⟩ :: after, operands⟩ =
      { mannerOf ⟨before ++ after, operands⟩ with quiet := true } := by
  have format : Words.value? ⟨before ++ ⟨.quiet, none⟩ :: after, operands⟩ .format =
      Words.value? ⟨before ++ after, operands⟩ .format :=
    Words.value?_added before after operands (by decide)
  simp only [mannerOf, Words.has_added, format]
  rfl

theorem ofWords_added (takes : .quiet ∈ command.switches) (before after : List Given)
    (operands : List String) :
    ofWords files cwd command ⟨before ++ ⟨.quiet, none⟩ :: after, operands⟩ =
      (ofWords files cwd command ⟨before ++ after, operands⟩).map hushed := by
  have has (switch : Switch) (other : (Switch.quiet == switch) = false) :
      Words.has ⟨before ++ ⟨.quiet, none⟩ :: after, operands⟩ switch =
        Words.has ⟨before ++ after, operands⟩ switch := by
    rw [Words.has_added, other, Bool.false_or]
  have value : Words.value? ⟨before ++ ⟨.quiet, none⟩ :: after, operands⟩ .directory =
      Words.value? ⟨before ++ after, operands⟩ .directory :=
    Words.value?_added before after operands (by decide)
  cases command with
  | describe =>
      simp only [ofWords, mannerOf_added, has .strict rfl, has .located rfl, has .table rfl]
      cases checkDirectory files cwd .describe "'[DIRECTORY]'" (operands.head?.getD ".") with
      | error error => rfl
      | ok _ => cases checkNone .describe (operands.drop 1) <;> rfl
  | normalize =>
      simp only [ofWords, mannerOf_added]
      split <;> rfl
  | pin =>
      simp only [ofWords, mannerOf_added, has .asCommand rfl, value]
      cases operands with
      | nil => rfl
      | cons reference rest =>
          dsimp only
          cases checkDirectory files cwd .pin Switch.directory.hint
              ((Words.value? ⟨before ++ after, reference :: rest⟩ .directory).getD ".") with
          | error error => rfl
          | ok _ => cases checkNone .pin rest <;> rfl
  | _ => exact absurd takes (by decide)

/-- **The quiet switch asks for the same without data, or is refused for the same reason.** -/
theorem read_of_adds (takes : .quiet ∈ command.switches) {words quietWords : List String}
    (adds : Words.Adds ⟨.quiet, none⟩ (Words.read command words) (Words.read command quietWords)) :
    read files cwd command quietWords = (read files cwd command words).map hushed := by
  unfold read
  generalize Words.read command words = reading at adds ⊢
  generalize Words.read command quietWords = other at adds ⊢
  cases adds with
  | refused error => rfl
  | read before after operands =>
      have check_eq : checkSwitch files cwd command ⟨before ++ ⟨.quiet, none⟩ :: after, operands⟩ =
          checkSwitch files cwd command ⟨before ++ after, operands⟩ := by
        funext switch
        unfold checkSwitch
        cases switch with
        | format => rw [Words.value?_added _ _ _ (by decide)]
        | directory => rw [Words.value?_added _ _ _ (by decide)]
        | _ => rfl
      change (if (Words.eager? ⟨before ++ ⟨.quiet, none⟩ :: after, operands⟩).isSome then _ else _) =
        Except.map hushed (if (Words.eager? ⟨before ++ after, operands⟩).isSome then _ else _)
      rw [Words.isSome_eager?_added rfl, check_eq, Words.checks_added _ rfl, ofWords_added files cwd takes]
      split
      · rfl
      · cases (Words.order ⟨before ++ after, operands⟩).forM
            (checkSwitch files cwd command ⟨before ++ after, operands⟩) <;> rfl

end Request
end Provenance.CommandLine
