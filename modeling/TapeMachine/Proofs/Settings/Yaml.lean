import TapeMachine.Settings.Yaml
import TapeMachine.Proofs.Settings.Layers

/-!
# What a YAML file has under a key

The bundled decoder for YAML assigns exactly the keys that are present (`assignsPresent_decode`).

A mapping has a value under a name if one of its keys is that name.  If none is, it may still ask for the
entries of other mappings, and has what the first of them has that has any (`Node.lookup?`).

The assignments of a file are collected in one go over all mappings, along with the names that were mentioned so
far, and a name that was mentioned before does not count again.  That this comes to the same is a matter of
each part of the collection by itself: it gives what is under a name unless that was mentioned, and mentions the
name if there is anything under it (`Tells`).  Parts that follow one another tell what the first of them tells
(`Tells.append`), and so the argument goes by induction along the nodes (`tells_mergedChanges`).
-/

set_option autoImplicit false
namespace TapeMachine.Yaml

/-! ## Looking up a name -/

/-- Whether a node is a name. -/
def Node.isName (name : String) : Node → Bool
  | .scalar s => s.text = name
  | _ => false

/-- What is under a name in a mapping itself. -/
def own? (name : String) : List Node → Option Node
  | k :: v :: rest => if k.isName name then some v else own? name rest
  | _ => none

mutual

/-- What is under a name in a node: in a mapping, and in those that it asks for. -/
def Node.lookup? (name : String) : Node → Option Node
  | .mapping content => (own? name content).or (asked? name content)
  | .sequence items => first? name items
  | .scalar _ => none

/-- What is under a name in the first of some mappings that has any. -/
def first? (name : String) : List Node → Option Node
  | .mapping content :: rest => (Node.lookup? name (.mapping content)).or (first? name rest)
  | _ => none

/-- What is under a name in the mappings that are asked for among some entries. -/
def asked? (name : String) : List Node → Option Node
  | k :: v :: rest => if k.isMerge then v.lookup? name else asked? name rest
  | _ => none

end

/-- What a field gets from the value under its name.  A value that stands for nothing is none. -/
def held? (f : Field) (v? : Option Node) : Option (Option Setting) :=
  (v?.filter (!·.isNull)).map (fieldReader.read? f)

theorem held?_some (f : Field) (v : Node) :
    held? f (some v) = if v.isNull = true then none else some (fieldReader.read? f v) := by
  rw [held?, Option.filter_some]
  cases v.isNull <;> rfl

/-- The last assignment to a field among what some entries have to say. -/
def told? (f : Field) (cs : List (Option Setting)) : Option Setting :=
  Setting.lastOf? f (cs.filterMap id)

theorem told?_eq_none {f : Field} {cs : List (Option Setting)} (h : held? f none = (told? f cs).map some) :
    told? f cs = none :=
  Option.map_eq_none_iff.mp h.symm

theorem told?_append (f : Field) (cs ds : List (Option Setting)) :
    told? f (cs ++ ds) = (told? f ds).or (told? f cs) := by
  rw [told?, List.filterMap_append, Setting.lastOf?_append]
  rfl

theorem told?_cons_some (f : Field) (c : Setting) (cs : List (Option Setting)) :
    told? f (some c :: cs) = (told? f cs).or (if c.field = f then some c else none) :=
  Setting.lastOf?_cons f c (cs.filterMap id)

/-! ## What the collected assignments tell -/

/-- What a part of the collection tells about a field that has `v?` under its name, given the names that were
mentioned before, if everything in it can be read. -/
structure Tells (f : Field) (mentioned : List String) (v? : Option Node)
    (r : List (Option Setting) × List String) : Prop where
  value : r.1.all Option.isSome →
    held? f (if f.name ∈ mentioned then none else v?) = (told? f r.1).map some
  mentioned : r.1.all Option.isSome → (f.name ∈ r.2 ↔ f.name ∈ mentioned ∨ v?.isSome)

theorem Tells.nil (f : Field) (mentioned : List String) : Tells f mentioned none ([], mentioned) where
  value _ := by
    rw [ite_self]
    rfl
  mentioned _ := by simp

/-- What cannot be read tells nothing. -/
theorem Tells.unreadable (f : Field) (mentioned : List String) (v? : Option Node) (names : List String) :
    Tells f mentioned v? ([none], names) where
  value h := by cases h
  mentioned h := by cases h

/-- **Of two parts, the first counts** if it has anything under the name, and the second one if not. -/
theorem Tells.append {f : Field} {names names₁ names₂ : List String} {v? w? : Option Node}
    {cs ds : List (Option Setting)} (h : Tells f names v? (cs, names₁))
    (h' : Tells f names₁ w? (ds, names₂)) : Tells f names (v?.or w?) (cs ++ ds, names₂) where
  value hall := by
    rw [List.all_append, Bool.and_eq_true] at hall
    have hfirst := h.value hall.1
    have hsecond := h'.value hall.2
    have hnames := h.mentioned hall.1
    rw [told?_append, Option.map_or, ← hfirst, ← hsecond]
    by_cases hbefore : f.name ∈ names
    · have hnow : f.name ∈ names₁ := hnames.mpr (Or.inl hbefore)
      rw [if_pos hbefore, if_pos hbefore, if_pos hnow]
      rfl
    · cases v? with
      | none =>
        have hnow : f.name ∉ names₁ := by simp [hnames, hbefore]
        rw [if_neg hbefore, if_neg hbefore, if_neg hnow]
        exact (Option.or_none).symm
      | some v =>
        have hnow : f.name ∈ names₁ := hnames.mpr (Or.inr rfl)
        rw [if_neg hbefore, if_neg hbefore, if_pos hnow]
        rfl
  mentioned hall := by
    rw [List.all_append, Bool.and_eq_true] at hall
    rw [h'.mentioned hall.2, h.mentioned hall.1, Option.isSome_or, Bool.or_eq_true, or_assoc]

/-! ## The entries of a mapping -/

/-- The names of fields are no words for null, and do not ask for other mappings. -/
theorem isName_eq_false {k : Node} (h : (k.isMerge || k.isNull) = true) (f : Field) :
    k.isName f.name = false := by
  cases k with
  | scalar s =>
    have hwords : ∀ word ∈ ["<<", "", "~", "null", "Null", "NULL"], word ≠ f.name := by
      cases f <;> decide
    simp only [Node.isMerge, Node.isNull, Scalar.isNull, Bool.or_eq_true, Bool.and_eq_true,
      decide_eq_true_eq, List.contains_iff_mem] at h
    refine decide_eq_false (hwords s.text ?_)
    rcases h with ⟨-, h⟩ | ⟨-, h⟩
    · rw [h]
      exact List.mem_cons_self
    · exact List.mem_cons_of_mem _ h
  | sequence items | mapping content => rfl

theorem mem_mentionedIn_cons {name : String} {k v : Node} {rest : List Node} :
    name ∈ mentionedIn (k :: v :: rest) ↔ k.isName name = true ∨ name ∈ mentionedIn rest := by
  cases k with
  | scalar s => simp [mentionedIn, keysOf, Node.isName, eq_comm]
  | sequence items | mapping content => simp [mentionedIn, keysOf, Node.isName]

theorem mem_mentionedIn {name : String} {content : List Node} :
    name ∈ mentionedIn content ↔ (own? name content).isSome := by
  fun_induction own? name content with
  | case1 k v rest hk => simp [mem_mentionedIn_cons, hk]
  | case2 k v rest hk ih => rw [mem_mentionedIn_cons, ih, or_iff_right hk]
  | case3 content hpair =>
    rw [mentionedIn, keysOf]
    · simp
    · exact hpair

theorem label_of_isName {name : String} {k : Node} (hk : k.isName name = true) : k.label = (0, name) := by
  cases k with
  | scalar s => exact congrArg (Prod.mk 0) (of_decide_eq_true hk)
  | sequence items | mapping content => cases hk

/-- A key that stands first does not stand again. -/
theorem own?_eq_none_of_distinct {name : String} {k v : Node} {rest : List Node} (hk : k.isName name = true)
    (hdistinct : allDistinct ((keysOf (k :: v :: rest)).map Node.label)) : own? name rest = none := by
  rw [keysOf, List.map_cons, allDistinct, label_of_isName hk, Bool.and_eq_true] at hdistinct
  obtain ⟨hnew, -⟩ := hdistinct
  clear hk
  fun_induction own? name rest with
  | case1 k' v' rest hk' => simp [keysOf, label_of_isName hk'] at hnew
  | case2 k' v' rest hk' ih =>
    rw [keysOf, List.map_cons, List.contains_cons, Bool.not_or, Bool.and_eq_true] at hnew
    exact ih hnew.2
  | case3 => rfl

theorem allDistinct_rest {k v : Node} {rest : List Node}
    (h : allDistinct ((keysOf (k :: v :: rest)).map Node.label)) :
    allDistinct ((keysOf rest).map Node.label) := by
  rw [keysOf, List.map_cons, allDistinct, Bool.and_eq_true] at h
  exact h.2

/-- An entry under the name of a field says what the field gets from its value. -/
theorem held?_of_isName {f : Field} {k : Node} (hk : k.isName f.name = true) (names : List String)
    (v : Node) : held? f (if f.name ∈ names then none else some v) = entryChange? Field.name names k v := by
  cases k with
  | scalar s =>
    have htext : s.text = f.name := of_decide_eq_true hk
    have hfield : Field.spelt? Field.name f.name = some f :=
      (Field.spelt?_eq_some_iff Field.name_injective).mpr rfl
    simp only [entryChange?, htext, hfield, Option.map_some, Bool.or_eq_true, List.contains_iff_mem]
    by_cases hnames : f.name ∈ names
    · rw [if_pos hnames, if_pos (Or.inl hnames)]
      rfl
    · rw [if_neg hnames, held?_some]
      simp only [hnames, false_or]
  | sequence items | mapping content => cases hk

/-- An entry is about the field whose name it is under, and about no other. -/
theorem field_eq_iff_of_entryChange? {names : List String} {k v : Node} {c : Setting}
    (h : entryChange? Field.name names k v = some (some c)) (f : Field) :
    c.field = f ↔ k.isName f.name = true := by
  cases k with
  | scalar s =>
    rw [entryChange?] at h
    split at h
    · cases h
    · obtain ⟨g, hg, hc⟩ := Option.map_eq_some_iff.mp h
      calc c.field = f
        _ ↔ g = f := by rw [FieldReader.field_of_read? hc]
        _ ↔ Field.spelt? Field.name s.text = some f := by rw [hg, Option.some_inj]
        _ ↔ f.name = s.text := Field.spelt?_eq_some_iff Field.name_injective
        _ ↔ Node.isName f.name (.scalar s) = true := by rw [Node.isName, decide_eq_true_eq, eq_comm]
  | sequence items | mapping content => cases h

/-- What the entries of a mapping tell. -/
theorem held?_own? {f : Field} {names : List String} {content : List Node}
    (hdistinct : allDistinct ((keysOf content).map Node.label))
    (hall : (entryChanges Field.name names content).all Option.isSome) :
    held? f (if f.name ∈ names then none else own? f.name content) =
      (told? f (entryChanges Field.name names content)).map some := by
  fun_induction entryChanges Field.name names content with
  | case1 k v rest others hk ih =>
    rw [own?, isName_eq_false hk f]
    exact ih (allDistinct_rest hdistinct) hall
  | case2 k v rest others hk c hc ih =>
    rw [List.all_cons, Bool.and_eq_true] at hall
    obtain ⟨c, rfl⟩ := Option.isSome_iff_exists.mp hall.1
    have hrest := ih (allDistinct_rest hdistinct) hall.2
    rw [told?_cons_some, own?]
    by_cases hname : k.isName f.name = true
    · -- the key does not stand again, so the rest tells nothing about the field
      rw [own?_eq_none_of_distinct hname hdistinct, ite_self] at hrest
      rw [if_pos hname, held?_of_isName hname, hc, if_pos ((field_eq_iff_of_entryChange? hc f).mpr hname),
        show told? f others = none from told?_eq_none hrest]
      rfl
    · rw [if_neg hname, if_neg (mt (field_eq_iff_of_entryChange? hc f).mp hname), Option.or_none]
      exact hrest
  | case3 k v rest others hk hc ih =>
    have hrest := ih (allDistinct_rest hdistinct) hall
    rw [own?]
    by_cases hname : k.isName f.name = true
    · rw [own?_eq_none_of_distinct hname hdistinct, ite_self] at hrest
      rw [if_pos hname, held?_of_isName hname, hc]
      exact hrest
    · rw [if_neg hname]
      exact hrest
  | case4 content hpair =>
    rw [own?, ite_self]
    · rfl
    · exact hpair

theorem tells_entryChanges {f : Field} {names : List String} {content : List Node}
    (hdistinct : allDistinct ((keysOf content).map Node.label)) :
    Tells f names (own? f.name content)
      (entryChanges Field.name names content, mentionedIn content ++ names) where
  value := held?_own? hdistinct
  mentioned _ := by
    rw [List.mem_append, mem_mentionedIn]
    exact or_comm

/-! ## All mappings -/

mutual

/-- **What is under the name of a field is what is told about it.** -/
theorem tells_mergedChanges (f : Field) (names : List String) (node : Node) :
    Tells f names (node.lookup? f.name) (mergedChanges Field.name names node) := by
  cases node with
  | mapping content =>
    rw [mergedChanges, Node.lookup?]
    split
    · rename_i hdistinct
      exact (tells_entryChanges hdistinct).append (tells_askedChanges f _ content)
    · exact .unreadable f names _ _
  | sequence items =>
    rw [mergedChanges, Node.lookup?]
    exact tells_allMergedChanges f names items
  | scalar s =>
    rw [mergedChanges]
    exact .unreadable f names _ _

theorem tells_allMergedChanges (f : Field) (names : List String) (items : List Node) :
    Tells f names (first? f.name items) (allMergedChanges Field.name names items) := by
  match items with
  | [] =>
    rw [first?, allMergedChanges]
    · exact .nil f names
    · exact nofun
  | .mapping content :: rest =>
    rw [first?, allMergedChanges]
    exact (tells_mergedChanges f names (.mapping content)).append (tells_allMergedChanges f _ rest)
  | .scalar s :: rest =>
    rw [allMergedChanges]
    · exact .unreadable f names _ _
    · exact nofun
    · exact nofun
  | .sequence items :: rest =>
    rw [allMergedChanges]
    · exact .unreadable f names _ _
    · exact nofun
    · exact nofun

theorem tells_askedChanges (f : Field) (names : List String) (content : List Node) :
    Tells f names (asked? f.name content) (askedChanges Field.name names content) := by
  match content with
  | [] => exact .nil f names
  | [k] => exact .nil f names
  | k :: v :: rest =>
    rw [asked?, askedChanges]
    split
    · exact tells_mergedChanges f names v
    · exact tells_askedChanges f names rest

end

/-- **The layer of a YAML file** in which everything can be read. -/
theorem held?_lookup? {file : List UInt8} {cs : List (Option Setting)}
    (h : changes? Field.name file = some cs)
    (hall : cs.all Option.isSome) :
    ∃ node, Node.ofFile? file = some node ∧
      ∀ f, held? f (node.lookup? f.name) = (told? f cs).map some := by
  obtain ⟨node, hnode, h⟩ := Option.bind_eq_some_iff.mp h
  refine ⟨node, hnode, fun f ↦ ?_⟩
  cases node with
  | mapping content =>
    obtain ⟨-, -, h⟩ := Option.bind_eq_some_iff.mp h
    cases h
    have hvalue := (tells_mergedChanges f [] (.mapping content)).value hall
    rwa [if_neg List.not_mem_nil] at hvalue
  | scalar s =>
    dsimp only at h
    split at h
    · cases h
      rw [Node.lookup?]
      rfl
    · cases h
  | sequence items => cases h

/-- What a file has under a key, as the value of a field. -/
def valueUnder? (file : List UInt8) (key : String) (f : Field) : Option Setting :=
  (Node.ofFile? file).bind fun node => (held? f (node.lookup? key)).join

/-- **The keys that are present are assigned, and no others.** -/
theorem assignsPresent_decode : Settings.Decoder.AssignsPresent decode valueUnder? := by
  intro file s s' h f
  rw [decode] at h
  cases hcs : changes? Field.name file with
  | none =>
    rw [hcs] at h
    cases h
  | some cs =>
    rw [hcs] at h
    obtain ⟨rfl, hproblem⟩ := Prod.mk.inj h
    have hall : cs.all Option.isSome = true := by
      split at hproblem
      · assumption
      · cases hproblem
    obtain ⟨node, hnode, hvalue⟩ := held?_lookup? hcs hall
    have hjoin : ((told? f cs).map some).join = told? f cs := by
      cases told? f cs <;> rfl
    rw [Settings.get_assignAll_lastOf?, valueUnder?, hnode, Option.bind_some, hvalue, hjoin]
    rfl

end TapeMachine.Yaml
