import LateBinding.Path
import LateBinding.Settings.Json
import LateBinding.Settings.Overrides
import LateBinding.Settings.Toml
import LateBinding.Settings.Yaml

/-!
# Settings from a file

The extension of a file's path decides its format. What a file gives is checked like all
settings.
-/

namespace LateBinding.Settings

/-- The formats of settings files. -/
inductive Format
  | toml
  | yaml
  | json
deriving DecidableEq

def Format.word : Format → String
  | toml => "TOML"
  | yaml => "YAML"
  | json => "JSON"

def Format.ofExtension? : String → Option Format
  | "toml" => some .toml
  | "yaml" => some .yaml
  | "yml" => some .yaml
  | "json" => some .json
  | _ => none

def Format.read? : Format → String → Option Settings
  | toml => ofToml?
  | yaml => ofYaml?
  | json => ofJson?

/-- The settings in a file of the given content, before they are checked. -/
def ofContent (path content : String) : Except Failure Settings :=
  let extension := Path.extension path
  match Format.ofExtension? extension with
  | none => .error (.ofFault (.unknownFormat extension path))
  | some format =>
    match format.read? content with
    | some s => .ok s
    | none =>
      .error ((Failure.ofFault .malformed).within ("invalid " ++ format.word ++ " in " ++ path))

def ofFile (read : String → Except ReadFault String) (path : String) :
    Except Failure Settings :=
  match read path with
  | .error f => .error ((Failure.ofFault (.unread f)).within ("failed to read config " ++ path))
  | .ok content =>
    match ofContent path content with
    | .error f => .error f
    | .ok s => s.checked

end LateBinding.Settings
