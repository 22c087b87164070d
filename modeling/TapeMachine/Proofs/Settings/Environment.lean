import Mathlib.Data.List.Forall2
import TapeMachine.Proofs.Settings.Layers
import TapeMachine.Proofs.Text.Numeral

/-!
# Every variable is taken by itself

The environment is read variable by variable.  One that is not set changes nothing, one whose text denotes a
value changes its own field to that value, and one whose text denotes none changes nothing and is reported.  All
of them are looked at, whatever is found in the others, and so the report has one entry for each variable that
was rejected (`fromEnvironment_atomic`).

What a text denotes is said here without the readers (`Setting.Denotes`).  An integer is a numeral for a word, a
truth value has six spellings, and a color is any text.
-/

set_option autoImplicit false
namespace TapeMachine

/-- The spellings of a truth value. -/
def truthSpellings : Bool → List String
  | true => ["1", "t", "T", "true", "TRUE", "True"]
  | false => ["0", "f", "F", "false", "FALSE", "False"]

theorem Text.boolean?_eq_some_iff {s : String} {b : Bool} : boolean? s = some b ↔ s ∈ truthSpellings b := by
  have hapart : ∀ t ∈ truthSpellings true, t ∉ truthSpellings false := by decide
  have hread : boolean? s =
      if (truthSpellings true).contains s then some true
      else if (truthSpellings false).contains s then some false
      else none := rfl
  rw [hread]
  simp only [List.contains_iff_mem]
  cases b with
  | true =>
    by_cases htrue : s ∈ truthSpellings true
    · simp [htrue]
    · simp [htrue]
  | false =>
    by_cases htrue : s ∈ truthSpellings true
    · simp [htrue, hapart s htrue]
    · simp [htrue]

/-- A text denotes a value, which is given as an assignment of it. -/
def Setting.Denotes (text : String) : Setting → Prop
  | dataLength n | extend n | tickLimit n => Text.Numeral text.toList n ∧ IsWord n
  | precompute b | dump b | verbose b => text ∈ truthSpellings b
  | color c => text = c

namespace Settings

theorem integerOf_eq_ok_iff {text : String} {n : Int} :
    integerOf text = .ok n ↔ Text.Numeral text.toList n ∧ IsWord n := by
  rw [← Text.decimalInt_eq_ok_iff, integerOf]
  cases Text.decimalInt text with
  | ok k => simp
  | error e => simp

theorem booleanOf_eq_ok_iff {text : String} {b : Bool} : booleanOf text = .ok b ↔ text ∈ truthSpellings b := by
  rw [← Text.boolean?_eq_some_iff, booleanOf]
  cases Text.boolean? text with
  | some b' => simp
  | none => simp

/-- A variable is read as the value of its field that its text denotes. -/
theorem readVariable_eq_ok_iff {f : Field} {text : String} {c : Setting} :
    readVariable f text = .ok c ↔ c.field = f ∧ c.Denotes text := by
  have hmap : ∀ {α : Type} {x : Except Error α} {k : α → Setting},
      x.map k = .ok c ↔ ∃ a, x = .ok a ∧ k a = c := by
    intro α x k
    cases x <;> simp [Except.map]
  cases f <;> simp only [readVariable, hmap, integerOf_eq_ok_iff, booleanOf_eq_ok_iff] <;>
    cases c <;> simp [Setting.field, Setting.Denotes]

/-! ## Variables -/

/-- The fields that can be set by a variable, in the order they are looked at, each with its key. -/
def variableKeys : List (Field × String) :=
  [(.dataLength, "DATA_LENGTH"), (.extend, "EXTEND"), (.precompute, "PRECOMPUTE"), (.tickLimit, "TICK_LIMIT"),
    (.color, "COLOR")]

theorem variableNames_eq : variableNames = variableKeys.map fun v ↦ (v.1, "BFVM_" ++ v.2) := by
  decide

/-- The variable of a key is set, and its text denotes this value of the field. -/
def Accepts (env : Environment) (v : Field × String) (c : Setting) : Prop :=
  ∃ text, env.lookup ("BFVM_" ++ v.2) = some text ∧ c.field = v.1 ∧ c.Denotes text

/-- The variable of a key is set, and its text denotes no value of the field. -/
def Rejects (env : Environment) (v : Field × String) : Prop :=
  ∃ text, env.lookup ("BFVM_" ++ v.2) = some text ∧ ∀ c : Setting, c.field = v.1 → ¬c.Denotes text

variable {env : Environment} {s : Settings} {v : Field × String}

/-! ## Fields -/

/-- A field is what its variable is read as, and otherwise what it was. -/
theorem get_fromEnvironment (f : Field) : (fromEnvironment env s).1.get f =
    ((variableText? env f).bind fun text ↦ (readVariable f text).toOption).getD (s.get f) := by
  rw [← lastOf?_accepted, ← get_assignAll_lastOf?]
  rfl

theorem variableText?_of_mem (hv : v ∈ variableKeys) :
    variableText? env v.1 = env.lookup ("BFVM_" ++ v.2) := by
  have hname : ∀ v ∈ variableKeys, variableNames.lookup v.1 = some ("BFVM_" ++ v.2) := by decide
  rw [variableText?, hname v hv, Option.bind_some]

theorem get_of_accepts (hv : v ∈ variableKeys) {c : Setting} (h : Accepts env v c) :
    (fromEnvironment env s).1.get v.1 = c := by
  obtain ⟨text, htext, hc⟩ := h
  rw [get_fromEnvironment, variableText?_of_mem hv, htext, Option.bind_some, readVariable_eq_ok_iff.mpr hc]
  rfl

theorem get_of_unset (hv : v ∈ variableKeys) (h : env.lookup ("BFVM_" ++ v.2) = none) :
    (fromEnvironment env s).1.get v.1 = s.get v.1 := by
  rw [get_fromEnvironment, variableText?_of_mem hv, h]
  rfl

/-- What is rejected is an error to the reader. -/
theorem rejects_iff : Rejects env v ↔
    ∃ text cause, env.lookup ("BFVM_" ++ v.2) = some text ∧ readVariable v.1 text = .error cause := by
  refine exists_congr fun text ↦ ?_
  simp only [← not_and, ← readVariable_eq_ok_iff]
  cases readVariable v.1 text <;> simp

theorem get_of_rejects (hv : v ∈ variableKeys) (h : Rejects env v) :
    (fromEnvironment env s).1.get v.1 = s.get v.1 := by
  obtain ⟨text, cause, htext, hcause⟩ := rejects_iff.mp h
  rw [get_fromEnvironment, variableText?_of_mem hv, htext, Option.bind_some, hcause]
  rfl

/-- The other two fields have no variable. -/
theorem get_of_no_variable {f : Field} (hf : f = .dump ∨ f = .verbose) :
    (fromEnvironment env s).1.get f = s.get f := by
  have hnone : variableNames.lookup f = none := by
    rcases hf with rfl | rfl <;> rfl
  rw [get_fromEnvironment, variableText?, hnone]
  rfl

/-! ## Errors -/

/-- An error is the report on a variable whose text is rejected for some cause. -/
def Reports (env : Environment) (v : Field × String) (e : Error) : Prop :=
  ∃ text cause, env.lookup ("BFVM_" ++ v.2) = some text ∧ readVariable v.1 text = .error cause ∧
    e = .settings ("$BFVM_" ++ v.2) cause

instance : DecidablePred (Rejects env) := fun v ↦
  match htext : env.lookup ("BFVM_" ++ v.2) with
  | none => isFalse fun h ↦ by
    obtain ⟨text, cause, h, -⟩ := rejects_iff.mp h
    cases htext.symm.trans h
  | some text =>
    match hread : readVariable v.1 text with
    | .error cause => isTrue (rejects_iff.mpr ⟨text, cause, htext, hread⟩)
    | .ok c => isFalse fun h ↦ by
      obtain ⟨text', cause, h, herror⟩ := rejects_iff.mp h
      cases htext.symm.trans h
      cases hread.symm.trans herror

/-- What the variable of a key has to say, if it is set. -/
def readKey? (env : Environment) (v : Field × String) : Option (Except Error Setting) :=
  (env.lookup ("BFVM_" ++ v.2)).map fun text ↦
    (readVariable v.1 text).mapError (.settings ("$BFVM_" ++ v.2))

theorem readVariables_eq : readVariables env = variableKeys.filterMap (readKey? env) := by
  rw [readVariables, variableNames_eq, List.filterMap_map]
  rfl

/-- **The rejected variables are reported one by one, in order.** -/
theorem forall₂_reports (env : Environment) (vs : List (Field × String)) :
    List.Forall₂ (Reports env) (vs.filter (Rejects env ·)) (rejected (vs.filterMap (readKey? env))) := by
  induction vs with
  | nil => exact .nil
  | cons v vs ih =>
    by_cases hv : Rejects env v
    · obtain ⟨text, cause, htext, hcause⟩ := rejects_iff.mp hv
      have hkey : readKey? env v = some (.error (.settings ("$BFVM_" ++ v.2) cause)) := by
        rw [readKey?, htext, Option.map_some, hcause]
        rfl
      rw [List.filter_cons, if_pos (decide_eq_true hv), List.filterMap_cons_some hkey]
      exact .cons ⟨text, cause, htext, hcause, rfl⟩ ih
    · rw [List.filter_cons, if_neg (by simpa using hv)]
      cases htext : env.lookup ("BFVM_" ++ v.2) with
      | none =>
        have hkey : readKey? env v = none := by
          rw [readKey?, htext]
          rfl
        rw [List.filterMap_cons_none hkey]
        exact ih
      | some text =>
        cases hread : readVariable v.1 text with
        | error cause => exact absurd (rejects_iff.mpr ⟨text, cause, htext, hread⟩) hv
        | ok c =>
          have hkey : readKey? env v = some (.ok c) := by
            rw [readKey?, htext, Option.map_some, hread]
            rfl
          rw [List.filterMap_cons_some hkey]
          exact ih

/-- **Each variable is taken by itself, and each failure is reported.**  This is so for all settings to begin
with, and all environments.

* A field is what the text of its variable denotes, if that is set and accepted.  It is unchanged if the
  variable is not set, or is rejected.  What the other variables hold does not matter.
* The two fields without a variable are unchanged.
* There is no error exactly if no variable is rejected.
* An error has one entry for each variable that is rejected, in the order of the keys, with the name of the
  variable and what the reader has to say about its text. -/
theorem fromEnvironment_atomic (env : Environment) (s : Settings) :
    (∀ v ∈ variableKeys,
      (∀ c, Accepts env v c → (fromEnvironment env s).1.get v.1 = c) ∧
        (env.lookup ("BFVM_" ++ v.2) = none ∨ Rejects env v →
          (fromEnvironment env s).1.get v.1 = s.get v.1)) ∧
    (fromEnvironment env s).1.dump = s.dump ∧ (fromEnvironment env s).1.verbose = s.verbose ∧
    ((fromEnvironment env s).2 = none ↔ ∀ v ∈ variableKeys, ¬Rejects env v) ∧
    ∀ e, (fromEnvironment env s).2 = some e →
      ∃ es, e = .joined es ∧ List.Forall₂ (Reports env) (variableKeys.filter (Rejects env ·)) es := by
  have hreports := forall₂_reports env variableKeys
  rw [← readVariables_eq] at hreports
  have hjoin : (fromEnvironment env s).2 = Error.join? (rejected (readVariables env)) := rfl
  have hdump : (fromEnvironment env s).1.get .dump = s.get .dump := get_of_no_variable (Or.inl rfl)
  have hverbose : (fromEnvironment env s).1.get .verbose = s.get .verbose := get_of_no_variable (Or.inr rfl)
  refine ⟨fun v hv ↦ ⟨fun c ↦ get_of_accepts hv, ?_⟩, by injection hdump, by injection hverbose, ?_, ?_⟩
  · rintro (h | h)
    · exact get_of_unset hv h
    · exact get_of_rejects hv h
  · rw [hjoin, Error.join?_eq_none_iff, ← List.length_eq_zero_iff, ← hreports.length_eq,
      List.length_eq_zero_iff]
    simp
  · intro e he
    rw [hjoin] at he
    cases hes : rejected (readVariables env) with
    | nil =>
      rw [hes] at he
      cases he
    | cons e₁ es =>
      rw [hes] at he hreports
      cases he
      exact ⟨_, rfl, hreports⟩

/-- An integer with a sign is accepted.  One that is no word, one that is none at all, and a truth value that is
spelt in another way are rejected, and are reported in the order of the keys. -/
theorem fromEnvironment_atomic_mixed :
    let env : Environment := [("BFVM_TICK_LIMIT", "soon"), ("BFVM_DATA_LENGTH", "+42"),
      ("BFVM_PRECOMPUTE", "yes"), ("BFVM_EXTEND", "9223372036854775808")]
    (fromEnvironment env {}).1.dataLength = 42 ∧ (fromEnvironment env {}).1.color = "auto" ∧
      (fromEnvironment env {}).2 ≠ none ∧
      ∀ e, (fromEnvironment env {}).2 = some e → ∃ es, e = .joined es ∧
        List.Forall₂ (Reports env)
          [(.extend, "EXTEND"), (.precompute, "PRECOMPUTE"), (.tickLimit, "TICK_LIMIT")] es := by
  intro env
  obtain ⟨hfields, -, -, hnone, hes⟩ := fromEnvironment_atomic env {}
  have hdigits : ∀ c ∈ ['4', '2'], c.isDigit := List.all_eq_true.mp rfl
  have hlength : Setting.Denotes "+42" (.dataLength 42) :=
    ⟨.plus ⟨List.cons_ne_nil '4' ['2'], hdigits, rfl⟩, by decide⟩
  have hdata : (fromEnvironment env {}).1.get .dataLength = .dataLength 42 :=
    (hfields (.dataLength, "DATA_LENGTH") (by decide)).1 _ ⟨"+42", by decide, rfl, hlength⟩
  have hcolor : (fromEnvironment env {}).1.get .color = .color "auto" :=
    (hfields (.color, "COLOR") (by decide)).2 (Or.inl (by decide))
  refine ⟨by injection hdata, by injection hcolor, fun h ↦ ?_, hes⟩
  exact hnone.mp h (.extend, "EXTEND") (by decide) (by decide)

end Settings

end TapeMachine
