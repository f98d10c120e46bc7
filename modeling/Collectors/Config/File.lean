import Collectors.Config.Yaml
import Collectors.Text.Split

/-!
# Configuration files

A configuration file is read as a whole before anything else is looked at. The extension of its
name says how it is written; the configuration in it has to be valid.
-/

namespace Collectors

/-- Why a file cannot be read. -/
inductive FileFailure where
  | missing
  | isDirectory
  | notText
  /-- The system refuses with a text of its own. -/
  | refused (text : String)
  deriving DecidableEq

/-- The wording of a failure. -/
def FileFailure.message : FileFailure → String
  | missing => "No such file or directory (os error 2)"
  | isDirectory => "Is a directory (os error 21)"
  | notText => "stream did not contain valid UTF-8"
  | refused text => text

/-- How a configuration is written. -/
inductive ConfigFormat where
  | json
  | yaml
  deriving DecidableEq

namespace ConfigFormat

/-- The last part of a path that names something: dots alone and slashes at the end do not. -/
def fileName? (path : List Char) : Option (List Char) :=
  match ((pieces '/' path).filter fun part => part ≠ [] ∧ part ≠ ['.']).getLast? with
  | some name => if name = ['.', '.'] then none else some name
  | none => none

/-- What is behind the last dot of a file name, unless the name starts with that dot. -/
def extension? (name : List Char) : Option (List Char) :=
  let behind := name.reverse.takeWhile (· ≠ '.')
  if behind.length + 1 < name.length then some behind.reverse else none

/-- The format of the file at a path. -/
def ofPath? (path : String) : Option ConfigFormat :=
  match (fileName? path.toList).bind extension? with
  | some e =>
    if e = "yaml".toList ∨ e = "yml".toList then some yaml
    else if e = "json".toList then some json
    else none
  | none => none

end ConfigFormat

namespace ServerConfig

/-- The configuration in a text. -/
def ofText (format : ConfigFormat) (text : String) : Except Error ServerConfig :=
  match format with
  | .json => (codec.read text).mapError fun fault => .jsonParse fault
  | .yaml =>
    match ofYaml? text with
    | some c => .ok c
    | none => .error .yamlParse

/-- The valid configuration in the file at a path, which was found to hold `content`. -/
def ofFile (path : String) (content : Except FileFailure ByteArray) :
    Except Error ServerConfig := do
  let bytes ← content.mapError fun e => .io e.message
  let some text := String.fromUTF8? bytes | .error (.io FileFailure.notText.message)
  let some format := ConfigFormat.ofPath? path
    | .error (.configuration ("unsupported config format: " ++ path))
  let config ← ofText format text
  config.validate
  return config

end ServerConfig
end Collectors
