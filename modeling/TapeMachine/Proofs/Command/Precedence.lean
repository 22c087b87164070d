import TapeMachine.Bundled
import TapeMachine.Proofs.Settings.Toml
import TapeMachine.Proofs.Settings.Yaml

/-!
# Where a setting comes from

There are four layers of settings: flags, variables, the settings file, and the defaults.  A field is what the
topmost of them says that says anything about it (`mergedSettings_get`).  It does not matter whether that is the
default value of the field: a flag that is given counts because it is given.

Each layer is described by itself, without regard to how the layers are put together.

* `Invocation.given` lists the flags on a command line, each with the text of its value.  Of several flags for a
  field the last one counts (`map_lastGiven?`).
* `Settings.variableText?` is the text of a variable.
* `Invocation.fileValue?` is what a settings file has under the name of a field.  What is under a name is for
  the decoders to say, of which is assumed that they assign what is there, and nothing else
  (`get_of_fileSettings`).

That a layer says something means that what it has can be read as a value of the field.  Arguments, a file or an
environment in which something cannot be read are refused before any settings are put together.
-/

set_option autoImplicit false
namespace TapeMachine

/-! ## The settings file -/

/-- What the settings file of an invocation has for a field, given what the files of each format have under a
key. -/
def Invocation.fileValue? (valueUnder? : Settings.Format → List UInt8 → String → Field → Option Setting)
    (inv : Invocation) (fs : Files) (f : Field) : Option Setting :=
  if inv.settingsFile = "" then none
  else
    match fs.read inv.settingsFile, Settings.Format.ofPath? inv.settingsFile with
    | .ok file, some format => valueUnder? format file f.name f
    | _, _ => none

/-- **The layer of the settings file**, if there is one and it can be loaded. -/
theorem Invocation.get_of_fileSettings {libs : Libraries}
    {valueUnder? : Settings.Format → List UInt8 → String → Field → Option Setting}
    (hdecoder : ∀ format, (libs.decoder format).AssignsPresent (valueUnder? format)) {inv : Invocation}
    {fs : Files} {s : Settings} (h : inv.fileSettings libs fs = .ok s) (f : Field) :
    s.get f = (inv.fileValue? valueUnder? fs f).getD (({} : Settings).get f) := by
  rw [fileSettings] at h
  rw [fileValue?]
  by_cases hpath : inv.settingsFile = ""
  · rw [if_pos hpath] at h ⊢
    cases h
    rfl
  · rw [if_neg hpath, Settings.load] at h
    rw [if_neg hpath]
    cases hfile : fs.read inv.settingsFile with
    | error e =>
      rw [hfile] at h
      cases h
    | ok file =>
      cases hformat : Settings.Format.ofPath? inv.settingsFile with
      | none =>
        rw [hfile, hformat] at h
        cases h
      | some format =>
        obtain ⟨⟨s', problem⟩, hdecode⟩ : ∃ r, libs.decoder format Field.name file {} = r := ⟨_, rfl⟩
        simp only [hfile, hformat, hdecode] at h
        cases problem with
        | some e => cases h
        | none =>
          cases h
          exact hdecoder format hdecode f

/-! ## The command line -/

/-- The field that a flag is for. -/
def Flag.field? : Flag → Option Field
  | dataLength => some .dataLength
  | extend => some .extend
  | tickLimit => some .tickLimit
  | precompute => some .precompute
  | dump => some .dump
  | color => some .color
  | verbose => some .verbose
  | settingsFile | program | input | output => none

/-- The value of a flag, read as that of its field. -/
def Flag.setting? (f : Flag) (text : String) : Option Setting :=
  match f with
  | dataLength => (Text.literalInt text).toOption.map .dataLength
  | extend => (Text.literalInt text).toOption.map .extend
  | tickLimit => (Text.literalInt text).toOption.map .tickLimit
  | precompute => (Text.boolean? text).map .precompute
  | dump => (Text.boolean? text).map .dump
  | color => some (.color text)
  | verbose => (Text.boolean? text).map .verbose
  | settingsFile | program | input | output => none

namespace Invocation

/-- The flags that are given by some arguments, in order, each with the text of its value. -/
def given : List String → List (Flag × String)
  | [] => []
  | argument :: rest =>
    match Argument.read argument with
    | .flag name value =>
      match Flag.ofName? name, value with
      | some f, some text => (f, text) :: given rest
      | some f, none =>
        if f.kind = .toggle then (f, "true") :: given rest
        else
          match rest with
          | text :: rest => (f, text) :: given rest
          | [] => []
      | none, _ => []
    | _ => []

/-- The last flag for a field that is given. -/
def lastGiven? (arguments : List String) (f : Field) : Option (Flag × String) :=
  (given arguments).reverse.find? (·.1.field? = some f)

/-- What is given by a flag and its value, and by the arguments after them. -/
theorem given_cons {argument name text : String} {value : Option String} {rest rest' : List String}
    {f : Flag} (hargument : Argument.read argument = .flag name value) (hf : flagNamed name = .ok f)
    (hvalue : valueOf f value rest = .ok (text, rest')) :
    given (argument :: rest) = (f, text) :: given rest' ∧ rest'.length ≤ rest.length := by
  have hname : Flag.ofName? name = some f := by
    rw [flagNamed] at hf
    split at hf
    · cases hf
      assumption
    · cases hf
  rw [given, hargument]
  simp only [hname]
  cases value with
  | some text =>
    cases hvalue
    exact ⟨rfl, Nat.le_refl _⟩
  | none =>
    cases hkind : f.kind with
    | toggle =>
      simp only [valueOf, hkind] at hvalue
      cases hvalue
      exact ⟨if_pos hkind, Nat.le_refl _⟩
    | text | integer =>
      cases rest with
      | nil =>
        simp only [valueOf, hkind] at hvalue
        cases hvalue
      | cons text rest =>
        simp only [valueOf, hkind] at hvalue
        cases hvalue
        exact ⟨if_neg (by simp [hkind]), Nat.le_succ _⟩

theorem exists_of_integer {inv inv' : Invocation} {f : Flag} {text : String} {k : Int → Setting}
    (h : (integer f text).map (fun n ↦ inv.change (k n)) = .ok inv') :
    ∃ n, (Text.literalInt text).toOption = some n ∧ inv'.changes = inv.changes ++ [k n] := by
  rw [integer] at h
  cases hn : Text.literalInt text with
  | error e =>
    rw [hn] at h
    cases h
  | ok n =>
    rw [hn] at h
    cases h
    exact ⟨n, rfl, rfl⟩

theorem exists_of_toggle {inv inv' : Invocation} {f : Flag} {text : String} {k : Bool → Setting}
    (h : (toggle f text).map (fun b ↦ inv.change (k b)) = .ok inv') :
    ∃ b, Text.boolean? text = some b ∧ inv'.changes = inv.changes ++ [k b] := by
  rw [toggle] at h
  cases hb : Text.boolean? text with
  | none =>
    rw [hb] at h
    cases h
  | some b =>
    rw [hb] at h
    cases h
    exact ⟨b, rfl, rfl⟩

/-- A flag adds an assignment to its field, if it is for one. -/
theorem give_cases {inv inv' : Invocation} {f : Flag} {text : String} (h : inv.give f text = .ok inv') :
    (f.field? = none ∧ inv'.changes = inv.changes) ∨
      ∃ c, f.field? = some c.field ∧ f.setting? text = some c ∧ inv'.changes = inv.changes ++ [c] := by
  cases f with
  | settingsFile | program | input | output =>
    cases h
    exact Or.inl ⟨rfl, rfl⟩
  | color =>
    cases h
    exact Or.inr ⟨.color text, rfl, rfl, rfl⟩
  | dataLength | extend | tickLimit =>
    obtain ⟨n, hn, hchanges⟩ := exists_of_integer h
    exact Or.inr ⟨_, rfl, congrArg (Option.map _) hn, hchanges⟩
  | precompute | dump | verbose =>
    obtain ⟨b, hb, hchanges⟩ := exists_of_toggle h
    exact Or.inr ⟨_, rfl, congrArg (Option.map _) hb, hchanges⟩

/-- The assignments of an invocation are the flags that are given, as they are read. -/
theorem exists_readFor_eq {n : Nat} {inv inv' : Invocation} {arguments : List String}
    (hn : arguments.length ≤ n) (h : readFor n inv arguments = .ok inv') :
    ∃ cs, inv'.changes = inv.changes ++ cs ∧
      Setting.Layer (fun e ↦ e.1.field?) (fun e ↦ e.1.setting? e.2) (given arguments) cs := by
  induction n generalizing inv arguments with
  | zero =>
    obtain rfl : arguments = [] := List.eq_nil_of_length_eq_zero (by omega)
    cases h
    exact ⟨[], (List.append_nil _).symm, .nil⟩
  | succ n ih =>
    cases arguments with
    | nil =>
      cases h
      exact ⟨[], (List.append_nil _).symm, .nil⟩
    | cons argument rest =>
      rw [readFor] at h
      cases hargument : Argument.read argument with
      | operand | flagsEnd =>
        rw [hargument] at h
        cases h
        refine ⟨[], (List.append_nil _).symm, ?_⟩
        rw [given, hargument]
        exact .nil
      | notFlag =>
        rw [hargument] at h
        cases h
      | flag name value =>
        simp only [hargument] at h
        obtain ⟨f, hf, h⟩ := Except.exists_of_bind_eq_ok h
        obtain ⟨⟨text, rest'⟩, hvalue, h⟩ := Except.exists_of_bind_eq_ok h
        obtain ⟨inv₁, hgive, h⟩ := Except.exists_of_bind_eq_ok h
        obtain ⟨hgiven, hlength⟩ := given_cons hargument hf hvalue
        rw [List.length_cons] at hn
        obtain ⟨cs, hchanges, hlayer⟩ := ih (Nat.le_trans hlength (Nat.le_of_succ_le_succ hn)) h
        rw [hchanges, hgiven]
        rcases give_cases hgive with ⟨hfield, hkept⟩ | ⟨c, hfield, hsetting, hadded⟩
        · exact ⟨cs, by rw [hkept], .skip hfield hlayer⟩
        · refine ⟨c :: cs, ?_, .take hfield hsetting hlayer⟩
          rw [hadded, List.append_assoc, List.singleton_append]

/-- **The layer of the command line.** -/
theorem map_lastGiven? {arguments : List String} {inv : Invocation} (h : read arguments = .ok inv)
    (f : Field) :
    (lastGiven? arguments f).map (fun e ↦ e.1.setting? e.2) =
      (Setting.lastOf? f inv.changes).map some := by
  obtain ⟨cs, hchanges, hlayer⟩ := exists_readFor_eq (Nat.le_refl _) h
  rw [hchanges]
  exact hlayer.map_find? f

end Invocation

/-! ## All layers -/

/-- **Where a setting comes from.**  Take decoders that assign exactly the keys that are present, any arguments
that can be read, and surroundings in which the settings file can be loaded, if one is named, and every
variable that is set can be read.  Then there are settings to be checked, and each of their fields is

* the value of the last flag for it, if one is given;
* or else the value of its variable, if it has one and that is set;
* or else the value that the settings file has for it, if there is a file and it has one;
* or else the default. -/
theorem mergedSettings_get {libs : Libraries}
    {valueUnder? : Settings.Format → List UInt8 → String → Field → Option Setting}
    (hdecoder : ∀ format, (libs.decoder format).AssignsPresent (valueUnder? format))
    {arguments : List String} {inv : Invocation} {w : Surroundings}
    (hread : Invocation.read arguments = .ok inv)
    (hfile : ∃ s, inv.fileSettings libs w.files = .ok s)
    (henv : (({} : Settings).fromEnvironment w.environment).2 = none) :
    ∃ s, inv.mergedSettings libs w = .ok s ∧
      inv.settings libs w = (match s.validate with | none => .ok s | some e => .error e) ∧
      ∀ f,
        match Invocation.lastGiven? arguments f with
        | some (flag, text) => flag.setting? text = some (s.get f)
        | none =>
          match Settings.variableText? w.environment f with
          | some text => Settings.readVariable f text = .ok (s.get f)
          | none =>
            match inv.fileValue? valueUnder? w.files f with
            | some c => s.get f = c
            | none => s.get f = ({} : Settings).get f := by
  obtain ⟨s₀, hs₀⟩ := hfile
  have hnone : Settings.rejected (Settings.readVariables w.environment) = [] :=
    Error.join?_eq_none_iff.mp henv
  have hmerged : inv.mergedSettings libs w = .ok ((s₀.assignAll
      (Settings.accepted (Settings.readVariables w.environment))).assignAll inv.changes) := by
    rw [Invocation.mergedSettings, hs₀]
    simp only [bind, Except.bind, Settings.fromEnvironment, hnone]
    rfl
  refine ⟨_, hmerged, ?_, fun f ↦ ?_⟩
  · rw [Invocation.settings, hmerged]
    rfl
  · have hflags := Invocation.map_lastGiven? hread f
    have hvariables := Settings.map_variableText? hnone f
    rw [Settings.get_assignAll_lastOf?, Settings.get_assignAll_lastOf?]
    rcases Setting.getD_cases hflags _ with ⟨⟨flag, text⟩, hgiven, hvalue⟩ | ⟨hgiven, hkept⟩
    · rw [hgiven]
      exact hvalue
    · rw [hgiven, hkept]
      rcases Setting.getD_cases hvariables _ with ⟨text, hset, hvalue⟩ | ⟨hset, hkept⟩
      · rw [hset]
        exact hvalue
      · rw [hset, hkept, Invocation.get_of_fileSettings hdecoder hs₀ f]
        cases inv.fileValue? valueUnder? w.files f <;> rfl

/-- A file in the working directory is read. -/
theorem Files.read_settings (file : List UInt8) :
    Files.read ⟨[(["s.toml"], .file file)]⟩ "s.toml" = .ok file := by
  have hnames : ("s.toml".split (· = '/')).toStringList = ["s.toml"] := by
    rw [Std.Iter.toStringList, Std.Iter.toList_map]
    exact String.toList_split_prop.trans rfl
  have hwalk : walk ⟨[(["s.toml"], .file file)]⟩ [] ["s.toml"] = .ok (.file ["s.toml"] file) := by
    have hentry : entry? ⟨[(["s.toml"], .file file)]⟩ ["s.toml"] = some (.file file) := rfl
    rw [walk, if_neg (by decide), if_neg (by decide), if_neg (by decide)]
    simp only [List.nil_append, hentry]
  have hplace : resolve ⟨[(["s.toml"], .file file)]⟩ "s.toml" = .ok (.file ["s.toml"] file) := by
    rw [resolve, hnames, if_neg (by decide), if_neg (by decide), if_neg (by decide)]
    exact hwalk
  rw [Files.read, openInput, hplace]

/-- What a file has under a key, as the bundled decoders read it. -/
def Libraries.valueUnder? : Settings.Format → List UInt8 → String → Field → Option Setting
  | .toml => Toml.valueUnder?
  | .yaml => Yaml.valueUnder?

theorem Libraries.assignsPresent_bundled (format : Settings.Format) :
    (bundled.decoder format).AssignsPresent (valueUnder? format) := by
  cases format with
  | toml => exact Toml.assignsPresent_decode
  | yaml => exact Yaml.assignsPresent_decode

/-- A flag that is given twice, at last with its default value, wins over a variable.  Another variable wins over
the settings file, and that over the defaults. -/
theorem mergedSettings_get_layered :
    ∃ inv s,
      Invocation.read ["-x", "1", "-c", "s.toml", "-x=0"] = .ok inv ∧
      inv.mergedSettings .bundled
        { environment := [("BFVM_EXTEND", "2"), ("BFVM_DATA_LENGTH", "7")]
          files := ⟨[(["s.toml"], .file (Text.encode "data_length = 5\ntick_limit = 9\n"))]⟩ } = .ok s ∧
      s.get .extend = .extend 0 ∧ s.get .dataLength = .dataLength 7 ∧
      s.get .tickLimit = .tickLimit 9 ∧ s.get .color = .color "auto" := by
  have hsettings : Toml.settings? Field.name (Text.encode "data_length = 5\ntick_limit = 9\n") =
      some [.dataLength 5, .tickLimit 9] := by decide +kernel
  have hlimit : Toml.valueUnder? (Text.encode "data_length = 5\ntick_limit = 9\n") "tick_limit"
      .tickLimit = some (.tickLimit 9) := by decide +kernel
  have hcolor : Toml.valueUnder? (Text.encode "data_length = 5\ntick_limit = 9\n") "color"
      .color = none := by decide +kernel
  generalize Text.encode "data_length = 5\ntick_limit = 9\n" = file at hsettings hlimit hcolor ⊢
  have hformat : Settings.Format.ofPath? "s.toml" = some .toml := by decide +kernel
  have hread : Invocation.read ["-x", "1", "-c", "s.toml", "-x=0"] =
      .ok { settingsFile := "s.toml", changes := [.extend 1, .extend 0] } := rfl
  have hdecode : Libraries.bundled.decoder .toml Field.name file {} =
      (({} : Settings).assignAll [.dataLength 5, .tickLimit 9], none) := by
    change Toml.decode Field.name file {} = _
    rw [Toml.decode, hsettings]
  have hload : Invocation.fileSettings .bundled
      { settingsFile := "s.toml", changes := [.extend 1, .extend 0] }
      ⟨[(["s.toml"], .file file)]⟩ = .ok { dataLength := 5, tickLimit := 9 } := by
    rw [Invocation.fileSettings, if_neg (by decide), Settings.load]
    simp only [Files.read_settings, hformat, hdecode]
    rfl
  have hvalue : ∀ f, Invocation.fileValue? Libraries.valueUnder?
      { settingsFile := "s.toml", changes := [.extend 1, .extend 0] } ⟨[(["s.toml"], .file file)]⟩ f =
        Toml.valueUnder? file f.name f := by
    intro f
    rw [Invocation.fileValue?, if_neg (by decide), Files.read_settings, hformat]
    rfl
  obtain ⟨s, hs, -, hget⟩ := mergedSettings_get Libraries.assignsPresent_bundled
    (w := { environment := [("BFVM_EXTEND", "2"), ("BFVM_DATA_LENGTH", "7")]
            files := ⟨[(["s.toml"], .file file)]⟩ }) hread ⟨_, hload⟩ rfl
  refine ⟨_, s, hread, hs, ?_, ?_, ?_, ?_⟩
  · have hextend : Flag.setting? .extend "0" = some (s.get .extend) := hget .extend
    exact (Option.some.inj hextend).symm
  · have hlength : Settings.readVariable .dataLength "7" = .ok (s.get .dataLength) := hget .dataLength
    exact (Except.ok.inj hlength).symm
  · have hticks := hget .tickLimit
    simp only [hvalue, Field.name, hlimit] at hticks
    exact hticks
  · have hdefault := hget .color
    simp only [hvalue, Field.name, hcolor] at hdefault
    exact hdefault

end TapeMachine
