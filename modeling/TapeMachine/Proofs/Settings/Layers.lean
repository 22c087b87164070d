import TapeMachine.Settings.Environment
import TapeMachine.Settings.File

/-!
# Layers of settings

Settings come in layers, one over the other, and each layer is a list of assignments.  What a field is in the
end is a matter of the last assignment to it (`Setting.lastOf?`), in the topmost layer that has one.

The assignments of a layer are made from entries of some kind: flags, keys with their values, variables.  An
entry is about one field, or about none, and is read as an assignment to that field (`Setting.Layer`).  So the
last assignment to a field is the last entry about it, as it is read (`Layer.map_find?`).  That is to say, a
field is what its entry is read as, if it has one, and otherwise what it is without the layer
(`Setting.getD_cases`).

The layer of the environment is dealt with here (`map_variableText?`).  What the layer of a settings file says is
up to a decoder, and what is assumed of one comes last (`Decoder.AssignsPresent`).
-/

set_option autoImplicit false
namespace TapeMachine

theorem Except.exists_of_bind_eq_ok {ε α β : Type} {x : Except ε α} {k : α → Except ε β} {b : β}
    (h : x >>= k = .ok b) : ∃ a, x = .ok a ∧ k a = .ok b := by
  cases x with
  | error e => cases h
  | ok a => exact ⟨a, rfl, h⟩

theorem Error.join?_eq_none_iff {causes : List Error} : join? causes = none ↔ causes = [] := by
  cases causes with
  | nil => exact ⟨fun _ ↦ rfl, fun _ ↦ rfl⟩
  | cons e es => exact ⟨nofun, nofun⟩

/-! ## The last assignment -/

/-- The last assignment to a field. -/
def Setting.lastOf? (f : Field) (cs : List Setting) : Option Setting :=
  cs.reverse.find? fun c => c.field = f

theorem Setting.lastOf?_append (f : Field) (cs ds : List Setting) :
    lastOf? f (cs ++ ds) = (lastOf? f ds).or (lastOf? f cs) := by
  rw [lastOf?, List.reverse_append, List.find?_append]
  rfl

theorem Settings.get_assignAll_lastOf? (s : Settings) (cs : List Setting) (f : Field) :
    (s.assignAll cs).get f = (Setting.lastOf? f cs).getD (s.get f) := by
  rw [get_assignAll, List.getLast?_filter]
  rfl

theorem Setting.lastOf?_cons (f : Field) (c : Setting) (cs : List Setting) :
    lastOf? f (c :: cs) = (lastOf? f cs).or (if c.field = f then some c else none) := by
  rw [lastOf?, List.reverse_cons, List.find?_append, List.find?_singleton]
  simp only [decide_eq_true_eq]
  rfl

/-- Where a layer has an entry about a field, the field is what that is read as; where it has none, the field
stays as it is without the layer. -/
theorem Setting.getD_cases {α β : Type} {found? : Option α} {read : α → β} {c? : Option Setting}
    {k : Setting → β} (h : found?.map read = c?.map k) (d : Setting) :
    (∃ e, found? = some e ∧ read e = k (c?.getD d)) ∨ (found? = none ∧ c?.getD d = d) := by
  cases found? with
  | none => exact Or.inr ⟨rfl, by rw [Option.map_eq_none_iff.mp h.symm, Option.getD_none]⟩
  | some e =>
    obtain ⟨c, rfl, hc⟩ := Option.map_eq_some_iff.mp h.symm
    exact Or.inl ⟨e, rfl, hc.symm⟩

/-- The entries of a layer, and the assignments that they are read as, in order. -/
inductive Setting.Layer {α : Type} (about : α → Option Field) (read : α → Option Setting) :
    List α → List Setting → Prop
  | nil : Layer about read [] []
  /-- An entry about no field is passed over. -/
  | skip {e : α} {l : List α} {cs : List Setting} (habout : about e = none)
      (h : Layer about read l cs) : Layer about read (e :: l) cs
  | take {e : α} {l : List α} {c : Setting} {cs : List Setting} (habout : about e = some c.field)
      (hread : read e = some c) (h : Layer about read l cs) : Layer about read (e :: l) (c :: cs)

/-- **The last assignment to a field is the last entry about it**, as it is read. -/
theorem Setting.Layer.map_find? {α : Type} {about : α → Option Field} {read : α → Option Setting}
    {l : List α} {cs : List Setting} (h : Layer about read l cs) (f : Field) :
    (l.reverse.find? (about · = some f)).map read = (lastOf? f cs).map some := by
  induction h with
  | nil => rfl
  | @skip e l cs habout _ ih =>
    rw [List.reverse_cons, List.find?_append, List.find?_singleton, habout, ← ih]
    simp
  | @take e l c cs habout hread _ ih =>
    rw [List.reverse_cons, List.find?_append, List.find?_singleton, habout, lastOf?_cons, Option.map_or,
      Option.map_or, ih]
    congr 1
    by_cases hf : c.field = f
    · simp [hf, hread]
    · simp [hf]

theorem Setting.lastOf?_toList {g : Field} {c? : Option Setting} (h : ∀ c, c? = some c → c.field = g)
    (f : Field) : lastOf? f c?.toList = if g = f then c? else none := by
  cases c? with
  | none => split <;> rfl
  | some c =>
    rw [lastOf?, Option.toList_some, List.reverse_singleton, List.find?_singleton, h c rfl]
    split <;> simp_all

/-- In a table that has one entry for a field at most, that entry is the last one. -/
theorem Setting.lastOf?_table {α : Type} {table : List (Field × α)} (hnodup : (table.map Prod.fst).Nodup)
    {read : Field → α → Option Setting} (hfield : ∀ g a c, read g a = some c → c.field = g)
    (f : Field) :
    lastOf? f (table.filterMap fun e ↦ read e.1 e.2) = (table.lookup f).bind (read f) := by
  induction table with
  | nil => rfl
  | cons e rest ih =>
    obtain ⟨g, a⟩ := e
    obtain ⟨hg, hrest⟩ := List.nodup_cons.mp hnodup
    have hcons : ((g, a) :: rest).filterMap (fun e ↦ read e.1 e.2) =
        (read g a).toList ++ rest.filterMap fun e ↦ read e.1 e.2 := by
      rw [List.filterMap_cons]
      cases read g a <;> rfl
    rw [hcons, lastOf?_append, ih hrest, lastOf?_toList (hfield g a), List.lookup_cons]
    by_cases hgf : g = f
    · subst hgf
      have hnone : rest.lookup g = none := by
        refine List.lookup_eq_none_iff.mpr fun e he ↦ bne_iff_ne.mpr fun heq ↦ hg ?_
        exact List.mem_map.mpr ⟨e, he, heq.symm⟩
      rw [hnone, if_pos rfl, beq_self_eq_true]
      rfl
    · rw [if_neg hgf, Option.or_none, beq_eq_false_iff_ne.mpr (Ne.symm hgf)]

/-! ## The environment -/

namespace Settings

/-- The text of the variable for a field, if there is such a variable and it is set. -/
def variableText? (env : Environment) (f : Field) : Option String :=
  (variableNames.lookup f).bind fun name => env.lookup name

theorem field_of_readVariable {f : Field} {text : String} {c : Setting}
    (h : readVariable f text = .ok c) : c.field = f := by
  have hmap : ∀ {α : Type} {x : Except Error α} {k : α → Setting}, (∀ a, (k a).field = f) →
      x.map k = .ok c → c.field = f := by
    intro α x k hk hx
    cases x with
    | error e => cases hx
    | ok a =>
      cases hx
      exact hk a
  cases f with
  | dataLength | extend | precompute | tickLimit | dump | verbose => exact hmap (fun _ ↦ rfl) h
  | color =>
    cases h
    rfl

/-- The last assignment to a field by the environment is the value of its variable, if that can be read. -/
theorem lastOf?_accepted (env : Environment) (f : Field) :
    Setting.lastOf? f (accepted (readVariables env)) =
      (variableText? env f).bind fun text ↦ (readVariable f text).toOption := by
  have hlist : accepted (readVariables env) = variableNames.filterMap fun e ↦
      (env.lookup e.2).bind fun text ↦ (readVariable e.1 text).toOption := by
    rw [accepted, readVariables, List.filterMap_filterMap]
    congr
    funext ⟨g, name⟩
    dsimp only
    cases env.lookup name with
    | none => rfl
    | some text =>
      rw [Option.map_some, Option.bind_some, Option.bind_some]
      cases readVariable g text <;> rfl
  have hfield : ∀ (g : Field) (name : String) (c : Setting),
      ((env.lookup name).bind fun text ↦ (readVariable g text).toOption) = some c → c.field = g := by
    intro g name c h
    obtain ⟨text, -, hc⟩ := Option.bind_eq_some_iff.mp h
    cases hr : readVariable g text with
    | error e =>
      rw [hr] at hc
      cases hc
    | ok c' =>
      rw [hr] at hc
      cases hc
      exact field_of_readVariable hr
  rw [hlist, Setting.lastOf?_table (by decide) hfield, variableText?, Option.bind_assoc]

/-- If nothing is reported, every variable that is set can be read. -/
theorem exists_readVariable_eq {env : Environment} (h : rejected (readVariables env) = []) {f : Field}
    {text : String} (ht : variableText? env f = some text) : ∃ c, readVariable f text = .ok c := by
  obtain ⟨name, hname, htext⟩ := Option.bind_eq_some_iff.mp ht
  obtain ⟨before, after, hsplit, -⟩ := List.lookup_eq_some_iff.mp hname
  have hmem : (readVariable f text).mapError (.settings ("$" ++ name)) ∈ readVariables env := by
    refine List.mem_filterMap.mpr ⟨(f, name), ?_, ?_⟩
    · rw [hsplit]
      exact List.mem_append_right _ List.mem_cons_self
    · exact congrArg (Option.map _) htext
  have hnone := List.filterMap_eq_nil_iff.mp h _ hmem
  cases hr : readVariable f text with
  | ok c => exact ⟨c, rfl⟩
  | error e =>
    rw [hr] at hnone
    cases hnone

/-- **The layer of the environment**, if nothing is reported. -/
theorem map_variableText? {env : Environment} (h : rejected (readVariables env) = []) (f : Field) :
    (variableText? env f).map (readVariable f) =
      (Setting.lastOf? f (accepted (readVariables env))).map .ok := by
  rw [lastOf?_accepted]
  cases ht : variableText? env f with
  | none => rfl
  | some text =>
    obtain ⟨c, hc⟩ := exists_readVariable_eq h ht
    rw [Option.map_some, Option.bind_some, hc]
    rfl

end Settings

/-! ## Settings files -/

/-- **What is assumed of a decoder.**  It assigns exactly the keys that are present: once it has read a file, a
field is what the file has under its name, and stays what it was if there is nothing.

`valueUnder?` says what a file has under a key, as the value of a field. -/
def Settings.Decoder.AssignsPresent (decode : Decoder)
    (valueUnder? : (file : List UInt8) → (key : String) → Field → Option Setting) : Prop :=
  ∀ {file : List UInt8} {s s' : Settings}, decode Field.name file s = (s', none) →
    ∀ f, s'.get f = (valueUnder? file f.name f).getD (s.get f)

/-- A field that is read from a file is the one that was asked for. -/
theorem FieldReader.field_of_read? {α : Type} {r : FieldReader α} {f : Field} {v : α} {c : Setting}
    (h : r.read? f v = some c) : c.field = f := by
  cases f with
  | dataLength | extend | precompute | tickLimit | dump | color | verbose =>
    obtain ⟨a, -, rfl⟩ := Option.map_eq_some_iff.mp h
    rfl

theorem Field.name_injective : Function.Injective Field.name := by
  intro f g
  cases f <;> cases g <;> decide

/-- Different spellings tell the fields apart. -/
theorem Field.spelt?_eq_some_iff {spelling : Field → String} (hspelling : Function.Injective spelling)
    {s : String} {f : Field} : spelt? spelling s = some f ↔ spelling f = s := by
  constructor
  · intro h
    simpa using List.find?_some h
  · rintro rfl
    cases h : spelt? spelling (spelling f) with
    | none =>
      have hmem : f ∈ all := by cases f <;> decide
      simpa using List.find?_eq_none.mp h f hmem
    | some g =>
      have hg : spelling g = spelling f := by simpa using List.find?_some h
      rw [hspelling hg]

end TapeMachine
