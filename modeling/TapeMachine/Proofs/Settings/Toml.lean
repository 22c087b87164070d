import TapeMachine.Proofs.Settings.Layers
import TapeMachine.Settings.Toml

/-!
# What a TOML file has under a key

The bundled decoder for TOML assigns exactly the keys that are present (`assignsPresent_decode`).  A file has
under a key what was defined last there, outside of all tables, and letters of any case make the same key.
-/

set_option autoImplicit false
namespace TapeMachine.Toml

/-- Whether an entry is under a key.  One inside a table is under none. -/
def isUnder (key : String) : List String × Value → Bool
  | ([k], _) => Text.fold key = Text.fold k
  | _ => false

/-- What a file has under a key, as the value of a field. -/
def valueUnder? (file : List UInt8) (key : String) (f : Field) : Option Setting :=
  (read? file).bind fun d => (d.entries.find? (isUnder key)).bind fun e => fieldReader.read? f e.2

/-! ## The entries of a file -/

/-- The field that an entry is about. -/
def entryField? : List String × Value → Option Field
  | ([key], _) => fieldOf? Field.name key
  | _ => none

/-- The value of an entry, read as that of its field. -/
def entrySetting? (e : List String × Value) : Option Setting :=
  (entryField? e).bind fun f => fieldReader.read? f e.2

theorem layer_of_settingsOf? {l : List (List String × Value)} {cs : List Setting}
    (h : settingsOf? Field.name l = some cs) : Setting.Layer entryField? entrySetting? l cs := by
  fun_induction settingsOf? Field.name l generalizing cs with
  | case1 =>
    cases h
    exact .nil
  | case2 key v rest hkey ih => exact .skip hkey (ih h)
  | case3 key v rest f hkey ih =>
    obtain ⟨c, hc, h⟩ := Option.bind_eq_some_iff.mp h
    obtain ⟨cs', hcs', h⟩ := Option.bind_eq_some_iff.mp h
    cases h
    have habout : entryField? ([key], v) = some c.field := by
      rw [entryField?, hkey, FieldReader.field_of_read? hc]
    refine .take habout ?_ (ih hcs')
    rw [entrySetting?, entryField?, hkey, Option.bind_some]
    exact hc
  | case4 e rest hkey ih =>
    have habout : entryField? e = none := by
      rw [entryField?]
      exact hkey
    exact .skip habout (ih h)

/-- The names of the fields are apart even without regard to case. -/
theorem fold_name_injective : Function.Injective fun f : Field ↦ Text.fold f.name := by
  have hfold : ∀ f : Field, Text.fold f.name = f.name := by
    intro f
    cases f <;> decide +kernel
  intro f g h
  simp only [hfold] at h
  exact Field.name_injective h

/-- An entry is about the field whose name it is under. -/
theorem entryField?_eq_some_iff {e : List String × Value} {f : Field} :
    entryField? e = some f ↔ isUnder f.name e = true := by
  unfold entryField? isUnder
  split
  · rw [fieldOf?, Field.spelt?_eq_some_iff fold_name_injective, decide_eq_true_eq]
  · exact ⟨nofun, nofun⟩

/-- What a file has under the name of a field is the last assignment to it. -/
theorem valueUnder?_name {file : List UInt8} {cs : List Setting}
    (h : settings? Field.name file = some cs) (f : Field) :
    valueUnder? file f.name f = Setting.lastOf? f cs := by
  obtain ⟨d, hd, hcs⟩ := Option.bind_eq_some_iff.mp h
  have hlast := (layer_of_settingsOf? hcs).map_find? f
  have hunder : (fun e ↦ decide (entryField? e = some f)) = isUnder f.name := by
    funext e
    rw [Bool.eq_iff_iff, decide_eq_true_eq, entryField?_eq_some_iff]
  rw [List.reverse_reverse, hunder] at hlast
  rw [valueUnder?, hd, Option.bind_some]
  cases he : d.entries.find? (isUnder f.name) with
  | none =>
    rw [he] at hlast
    exact (Option.map_eq_none_iff.mp hlast.symm).symm
  | some e =>
    have habout : entryField? e = some f := entryField?_eq_some_iff.mpr (List.find?_some he)
    rw [he, Option.map_some, entrySetting?, habout] at hlast
    obtain ⟨c, hc, hread⟩ := Option.map_eq_some_iff.mp hlast.symm
    rw [hc]
    exact hread.symm

/-- **The keys that are present are assigned, and no others.** -/
theorem assignsPresent_decode : Settings.Decoder.AssignsPresent decode valueUnder? := by
  intro file s s' h f
  rw [decode] at h
  cases hcs : settings? Field.name file with
  | none =>
    rw [hcs] at h
    cases h
  | some cs =>
    rw [hcs] at h
    cases h
    rw [Settings.get_assignAll_lastOf?, valueUnder?_name hcs]

end TapeMachine.Toml
