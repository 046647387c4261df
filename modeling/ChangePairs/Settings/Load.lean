import ChangePairs.FileSystem
import ChangePairs.Settings.Basic
import ChangePairs.Yaml.Reader

/-!
Finding and reading the settings file.  A file that is named is the only one considered, and
otherwise the present directory is searched before the home directory.  A file that cannot be
opened, that the reader of YAML finds malformed, or that holds anything but a mapping says nothing.
Where the reader comes to octets that are no text, or fails in any other way, there are no settings.
-/

namespace ChangePairs

structure Directories where
  present : Path
  home : Path

inductive SettingsError (ε : Type) where
  | encoding (fault : Octets.Fault)
  | yaml (e : ε)
  | conversion (e : ConversionError)
deriving DecidableEq, Repr

def SettingsError.message {ε : Type} (yamlMessage : ε → Text) : SettingsError ε → Text
  | .encoding fault => fault.message
  | .yaml e => yamlMessage e
  | .conversion e => e.message

namespace SettingsFile

def names : List Text := [".codemod-learn.yaml".toList, ".codemod-learn.yml".toList]

def candidates (d : Directories) : Option Path → List Path
  | some (c :: named) => [Path.absolute d.present (c :: named)]
  | _ => [d.present, d.home].flatMap fun directory => names.map (Path.join directory)

def mapping {ε : Type} (yaml : Yaml.Reader ε) (parts : List Octets) :
    Except (SettingsError ε) Mapping := do
  match ← (yaml.read (.ofParts parts)).mapError .encoding with
  | .ok (.mapping m) => return m
  | .ok _ => return []
  | .error .malformed => return []
  | .error (.failed e) => throw (.yaml e)

end SettingsFile

namespace Settings

variable {m : Type → Type} [Monad m] {ε : Type}

def firstFile? (files : FileSystem m) : List Path → m (Option Path)
  | [] => return none
  | p :: rest => do if ← files.isFile p then return some p else firstFile? files rest

def load (yaml : Yaml.Reader ε) (files : FileSystem m) (d : Directories)
    (environment : Environment) (named : Option Path) : m (Except (SettingsError ε) Settings) := do
  let parts? ← match ← firstFile? files (SettingsFile.candidates d named) with
    | some p => files.readParts p
    | none => pure none
  return do
    let file ← match parts? with
      | some parts => SettingsFile.mapping yaml parts
      | none => pure []
    (ofLayers ⟨environment, file⟩).mapError .conversion

end Settings
end ChangePairs
