import TapeMachine.Command
import TapeMachine.Script.Bundled
import TapeMachine.Settings.Toml
import TapeMachine.Settings.Yaml

/-!
# The bundled libraries

The command runs on libraries of its own: an interpreter for scripts, and decoders for settings files in TOML and
in YAML.  Each of them knows a part of its language, and refuses what is outside.

What is shown about the command holds with any libraries, or with any that keep to some laws.  These are an
instance of both.
-/

set_option autoImplicit false
namespace TapeMachine

/-- **The bundled libraries.** -/
def Libraries.bundled : Libraries where
  script := Script.bundled
  decoder
    | .toml => Toml.decode
    | .yaml => Yaml.decode

end TapeMachine
