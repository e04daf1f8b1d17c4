import Provenance.Settings.Defaults
import Provenance.Settings.Dialect
import Provenance.Settings.Merge
import Provenance.Settings.Override

/-!
Contract: the settings file.

Owns:
- `locate`, where the file is or would be;
- `load`, the settings that hold: defaults, file, environment;
- `save`, which writes a file.

Does **not** own: the three forms of a file, which `Provenance.Settings.Dialect`
knows.

## Unusable files

A file that cannot be read or is no document is reported in the log, and the
defaults hold.  A document that is no dictionary is a fault.
-/

set_option autoImplicit false

namespace Provenance.Settings

open Data (Value Shared)
open Failure (Fault)
open World (Environment)

def loggerName : String := "gitmeta"

/-- The names of settings files, in the order in which they are sought. -/
def fileNames : List String := ["config.json", "config.toml", "config.yaml", "config.yml"]

def superuserHome : String := "/root"

/-- The home directory: without slashes at its end, the root for an empty one. -/
def homeDirectory (environment : Environment) : Except Fault String :=
  let named := (environment.get? "HOME").getD superuserHome
  let trimmed := String.ofList (Text.dropTrailing '/' named.toList)
  let home := if trimmed.isEmpty then "/" else trimmed
  if Text.startsWith "~" home then .error .noHome else .ok home

def settingsDirectory (environment : Environment) : Except Fault String :=
  (homeDirectory environment).map fun home => Path.tidy (Path.join home ".gitmeta")

section Programs

variable {Time : Type}

/-- The first of some paths that leads to something. -/
def firstExisting? : List String → Program Time (Option String)
  | [] => pure none
  | path :: rest => do
    if ← World.Disk.doesExist path then pure (some path) else firstExisting? rest

/-- The file that the environment names, if it is there. -/
def namedFile? : Program Time (Option String) := do
  let world ← Program.world
  match world.environment.get? fileVariable with
  | none => pure none
  | some path => firstExisting? [Path.tidy path]

/-- Where the settings file is; without one, where it would be made. -/
def locate : Program Time String := do
  match ← namedFile? with
  | some path => pure path
  | none =>
    let world ← Program.world
    let directory ← Program.ofFault (settingsDirectory world.environment)
    let found ← firstExisting? (fileNames.map (Path.join directory))
    pure (found.getD (Path.join directory "config.json"))

def readFrom (path : String) : Program Time Shared := do
  let octets ← World.Disk.readOctets path
  Program.ofFault ((Dialect.ofPath path).read octets)

/-- Whether a failure only says that a file is unusable. -/
def saysUnusable : Failure → Bool
  | .fault (.notYaml ..) => true
  | .fault fault => fault.isRefusal || fault.isBadData
  | .problem _ => false

def withFile (path : String) : Program Time Shared := do
  let result ← Program.attempt do
    let settings ← readFrom path
    Program.ofFault (mergeShared defaults settings)
  match result with
  | .ok settings => pure settings
  | .error failure =>
    if saysUnusable failure then
      Program.log World.Level.error loggerName
        ("Error loading config from " ++ path ++ ": " ++ failure.message)
      pure (.plain defaults)
    else
      Program.fail failure

/-- The settings that hold: defaults under the file under the environment. -/
def load : Program Time Shared := do
  let path ← locate
  let settings ← if ← World.Disk.doesExist path then withFile path else pure (.plain defaults)
  let world ← Program.world
  Program.ofFault (override world.environment settings)

/-- The file that settings are saved to: the one that is named, else the settings file. -/
def target (path : Option String) : Program Time String :=
  match path with
  | none => locate
  | some "" => locate
  | some path => pure (Path.tidy path)

/-- Writes settings to a file, and the directories above it, and returns where.

The file is emptied before it is written, so settings that have no written form
leave the beginning of one behind. -/
def save (settings : Value) (path : Option String) : Program Time String := do
  let path ← target path
  World.Disk.makeDirectories (Path.parent path)
  World.Disk.writeText path ""
  let draft := (Dialect.ofPath path).draft settings
  World.Disk.writeText path (String.ofList draft.text)
  match draft.fault with
  | some fault => Program.fail (.fault fault)
  | none =>
    Program.log World.Level.info loggerName ("Configuration saved to " ++ path)
    pure path

end Programs
end Provenance.Settings
