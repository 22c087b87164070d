import TapeMachine.Files
import TapeMachine.Settings

/-!
# Settings from a file

The format of a settings file is told by its extension, in any case of letters.  The file is read first: if
it cannot be had, that is reported whatever its format.

What a file of some format says is left to a decoder, of which nothing is assumed here.
-/

set_option autoImplicit false
namespace TapeMachine.Settings

/-- The formats of settings files. -/
inductive Format where
  | toml
  | yaml
  deriving DecidableEq, Repr

/-- The format of the file with a path. -/
def Format.ofPath? (path : String) : Option Format :=
  let ext := (extension path).toLower
  if ext = ".toml" then some .toml
  else if ext = ".yaml" ∨ ext = ".yml" then some .yaml
  else none

/-- What reads files of a format.  It is given how the fields are spelt, the text of a file, and the settings
that the file is to be read over. -/
abbrev Decoder : Type :=
  (spelling : Field → String) → (file : List UInt8) → Settings → Settings × Option Error

/-- Takes over the settings of a file, given how each format is read. -/
def load (decoder : Format → Decoder) (fs : Files) (path : String) (s : Settings) :
    Settings × Option Error :=
  match fs.read path with
  | .error e => (s, some (.settings path e))
  | .ok file =>
    match Format.ofPath? path with
    | none => (s, some (.settings path (.condition .formatUnknown)))
    | some format =>
      let (s, problem) := decoder format Field.name file s
      (s, problem.map (.settings path))

end TapeMachine.Settings
