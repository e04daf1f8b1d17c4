import Provenance.CommandLine.UsageError

/-!
Contract: the words of a command line taken apart.

Owns:
- `Words`, the switches in order and the operands;
- `Words.read`, the reading of words for a command.

Does **not** own: whether values are good, and what they are for.

## The shapes of switches

A switch is written by its long name or by its letter.  Letters may be joined
after one stroke.  A value follows as the next word, after an equals sign behind
a long name, or directly behind a letter.  Two strokes alone end the switches.  A
command that holds others takes no switches after its first operand.
-/

set_option autoImplicit false

namespace Provenance.CommandLine

/-- A switch as it is given. -/
structure Given where
  switch : Switch
  value : Option String
  deriving DecidableEq, Repr

/-- The words of a command line taken apart. -/
structure Words where
  given : List Given := []
  operands : List String := []
  deriving DecidableEq, Repr

namespace Words

def addGiven (given : List Given) (words : Words) : Words :=
  { words with given := given ++ words.given }

def addOperand (operand : String) (words : Words) : Words :=
  { words with operands := operand :: words.operands }

/-- What one word comes to: switches, and one that waits for the next word, with its name. -/
structure Reading where
  given : List Given := []
  waiting : Option (Switch × String) := none

/-- The reading of a switch by its name, with the value that is written behind it. -/
def readNamed (switch : Switch) (name : String) (value : Option String) :
    Except UsageError Reading :=
  if switch.takesValue then
    match value with
    | some value => .ok { given := [⟨switch, some value⟩] }
    | none => .ok { waiting := some (switch, name) }
  else
    match value with
    | some _ => .error (.valueUnwanted name)
    | none => .ok { given := [⟨switch, none⟩] }

def readLetters (command : Command) : List Char → Except UsageError Reading
  | [] => .ok {}
  | letter :: rest =>
    let name := String.ofList ['-', letter]
    match command.findLetter? letter with
    | none => .error (.noSuchSwitch command name)
    | some switch =>
      if switch.takesValue then
        readNamed switch name (if rest.isEmpty then none else some (String.ofList rest))
      else
        match readLetters command rest with
        | .ok reading => .ok { reading with given := ⟨switch, none⟩ :: reading.given }
        | .error error => .error error

/-- The reading of a word that begins with a stroke. -/
def readSwitch (command : Command) (word : String) : Except UsageError Reading :=
  let (name, value) :=
    match Text.cutFirst? ['='] word.toList with
    | some (before, after) => (String.ofList before, some (String.ofList after))
    | none => (word, none)
  match command.findLong? name with
  | some switch => readNamed switch name value
  | none =>
    if Text.startsWith "--" word then .error (.noSuchSwitch command name)
    else readLetters command (word.toList.drop 1)

/-- Whether a word is written like a switch; a stroke alone is an operand. -/
def isSwitch (word : String) : Bool :=
  Text.startsWith "-" word && word ≠ "-"

/-- The reading of words after a switch that may wait for its value. -/
def readAfter (command : Command) :
    Option (Switch × String) → List String → Except UsageError Words
  | none, [] => .ok {}
  | some (_, name), [] => .error (.valueMissing name)
  | some (switch, _), word :: rest =>
    (readAfter command none rest).map (addGiven [⟨switch, some word⟩])
  | none, word :: rest =>
    if word = "--" then .ok { operands := rest }
    else if isSwitch word then
      match readSwitch command word with
      | .error error => .error error
      | .ok reading => (readAfter command reading.waiting rest).map (addGiven reading.given)
    else if command.isGroup then .ok { operands := word :: rest }
    else (readAfter command none rest).map (addOperand word)

def read (command : Command) (words : List String) : Except UsageError Words :=
  readAfter command none words

def has (words : Words) (switch : Switch) : Bool :=
  words.given.any fun given => given.switch == switch

/-- The value of a switch: the last one that is given. -/
def value? (words : Words) (switch : Switch) : Option String :=
  (words.given.filter fun given => given.switch == switch).getLast?.bind Given.value

/-- The switches in the order in which they are first given. -/
def order (words : Words) : List Switch :=
  (words.given.map Given.switch).eraseDups

/-- The first of the switches that are obeyed before all others. -/
def eager? (words : Words) : Option Switch :=
  words.order.find? Switch.isEager

end Words
end Provenance.CommandLine
