import TapeMachine.Machine
import TapeMachine.Text.Number

/-!
# Settings

The settings of a run are seven fields.  Wherever they come from, a settings file, the environment or the
command line, they come as a list of single assignments, which are carried out in order: the last one wins.

`validate` collects everything that is wrong with the settings, in the order of the fields.
-/

set_option autoImplicit false
namespace TapeMachine

/-- The settings of a run. -/
structure Settings where
  dataLength : Int := 1000
  extend : Int := 0
  precompute : Bool := false
  tickLimit : Int := 0
  dump : Bool := false
  color : String := "auto"
  verbose : Bool := false
  deriving DecidableEq, Repr

/-- An assignment to one of the fields. -/
inductive Setting where
  | dataLength (n : Int)
  | extend (n : Int)
  | precompute (b : Bool)
  | tickLimit (n : Int)
  | dump (b : Bool)
  | color (s : String)
  | verbose (b : Bool)
  deriving DecidableEq, Repr

/-- The name of a field. -/
inductive Field where
  | dataLength
  | extend
  | precompute
  | tickLimit
  | dump
  | color
  | verbose
  deriving DecidableEq, Repr

namespace Field

def all : List Field :=
  [dataLength, extend, precompute, tickLimit, dump, color, verbose]

/-- How the field is spelt in a settings file. -/
def name : Field → String
  | dataLength => "data_length"
  | extend => "extend"
  | precompute => "precompute"
  | tickLimit => "tick_limit"
  | dump => "dump"
  | color => "color"
  | verbose => "verbose"

/-- The field that is spelt so, given the spelling of every field. -/
def spelt? (spelling : Field → String) (s : String) : Option Field :=
  all.find? fun f => spelling f = s

end Field

/-- The field an assignment is to. -/
def Setting.field : Setting → Field
  | dataLength _ => .dataLength
  | extend _ => .extend
  | precompute _ => .precompute
  | tickLimit _ => .tickLimit
  | dump _ => .dump
  | color _ => .color
  | verbose _ => .verbose

/-- A reader for each kind of field, from values of some format. -/
structure FieldReader (α : Type) where
  int : α → Option Int
  bool : α → Option Bool
  text : α → Option String

/-- Reads the value of a field. -/
def FieldReader.read? {α : Type} (r : FieldReader α) (f : Field) (v : α) : Option Setting :=
  match f with
  | .dataLength => (r.int v).map .dataLength
  | .extend => (r.int v).map .extend
  | .precompute => (r.bool v).map .precompute
  | .tickLimit => (r.int v).map .tickLimit
  | .dump => (r.bool v).map .dump
  | .color => (r.text v).map .color
  | .verbose => (r.bool v).map .verbose

namespace Settings

/-- Carries out an assignment. -/
def assign (s : Settings) : Setting → Settings
  | .dataLength n => { s with dataLength := n }
  | .extend n => { s with extend := n }
  | .precompute b => { s with precompute := b }
  | .tickLimit n => { s with tickLimit := n }
  | .dump b => { s with dump := b }
  | .color c => { s with color := c }
  | .verbose b => { s with verbose := b }

/-- Carries out assignments in order. -/
def assignAll (s : Settings) (changes : List Setting) : Settings :=
  changes.foldl assign s

/-- The value of a field, as an assignment of it. -/
def get (s : Settings) : Field → Setting
  | .dataLength => .dataLength s.dataLength
  | .extend => .extend s.extend
  | .precompute => .precompute s.precompute
  | .tickLimit => .tickLimit s.tickLimit
  | .dump => .dump s.dump
  | .color => .color s.color
  | .verbose => .verbose s.verbose

/-- An assignment changes its own field and no other. -/
@[simp] theorem get_assign (s : Settings) (c : Setting) (f : Field) :
    (s.assign c).get f = if c.field = f then c else s.get f := by
  cases c <;> cases f <;> rfl

/-- Of several assignments to a field the last one counts. -/
theorem get_assignAll (s : Settings) (cs : List Setting) (f : Field) :
    (s.assignAll cs).get f = ((cs.filter fun c => c.field = f).getLast?).getD (s.get f) := by
  induction cs generalizing s with
  | nil => rfl
  | cons c cs ih =>
    have step : s.assignAll (c :: cs) = (s.assign c).assignAll cs := rfl
    rw [step, ih, get_assign]
    by_cases h : c.field = f
    · rw [List.filter_cons_of_pos (by simpa using h), List.getLast?_cons, if_pos h, Option.getD_some]
    · rw [List.filter_cons_of_neg (by simpa using h), if_neg h]

/-- The color modes there are. -/
def colorModes : List String :=
  ["auto", "always", "never"]

/-- What is wrong with the settings. -/
def problems (s : Settings) : List Error :=
  (if s.dataLength ≤ 0 then [.condition .dataLengthNotPositive] else []) ++
    (if s.extend < 0 then [.condition .extendNegative] else []) ++
    (if s.tickLimit < 0 then [.condition .tickLimitNegative] else []) ++
    if colorModes.contains s.color then [] else [.condition .colorUnknown]

/-- Checks the settings. -/
def validate (s : Settings) : Option Error :=
  Error.join? s.problems

/-- The options of a machine with these settings. -/
def options (s : Settings) : Options :=
  ⟨s.extend, s.precompute, s.tickLimit⟩

end Settings

end TapeMachine
