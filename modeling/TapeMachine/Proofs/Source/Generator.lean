import TapeMachine.Proofs.Structured.Silent
import TapeMachine.Source

/-!
# Programs that are generated by helper functions

A script has three helpers that write program text: `add` and `move` repeat an operator, and `loop` puts
brackets around a text.  A generator is an expression of these three and of sums, of any depth.  What it is
meant to write is plain (`Generator.text`), and this file shows that a script of it writes that, unless a
count is beyond the limit.

Scripts are carried out by a library, and what is assumed of the library is stated as laws
(`Semantics.Lawful`).  They say that it evaluates generators as one would expect (`Generator.eval`), whatever
the helpers do, and that the error of a helper is found below its own.  What the helpers do is no part of
them: that is what is shown here.

* A count is compared with the limit before its sign is looked at (`Repeater.helperNamed_int`).
* The value of a generator is its text (`Generator.eval_of_within`), and a count beyond the limit decides on
  the whole of it (`Generator.eval_of_exceeds`).
* So a script gives the program that is meant (`ofScript_of_within`), or it fails because of the limit
  (`ofScript_of_exceeds`).
* What is written is balanced, and does not speak to the channel (`Generated.balanced_text`,
  `Generated.isSilent_text`).
-/

set_option autoImplicit false
namespace TapeMachine.Script

open Operator (loopByte againByte)

/-! ## Generators -/

/-- A helper that repeats an operator. -/
inductive Repeater where
  | add
  | move

namespace Repeater

def name : Repeater → String
  | add => "add"
  | move => "move"

/-- The operator that is repeated for positive counts. -/
def up : Repeater → UInt8
  | add => 0x2b
  | move => 0x3e

/-- The operator that is repeated for negative counts. -/
def down : Repeater → UInt8
  | add => 0x2d
  | move => 0x3c

end Repeater

/-- The name of the helper that puts brackets around a text. -/
def loopName : String :=
  "loop"

/-- The names of all helpers. -/
def helperNames : List String :=
  [Repeater.add.name, Repeater.move.name, loopName]

theorem Repeater.name_mem_helperNames (f : Repeater) : f.name ∈ helperNames := by
  cases f <;> decide

theorem loopName_mem_helperNames : loopName ∈ helperNames := by
  decide

/-- An expression of helpers and sums. -/
inductive Generator where
  | run (f : Repeater) (n : Int) (hn : IsWord n)
  | loop (body : Generator)
  | concat (l r : Generator)

/-- A count that the helpers accept. -/
def WithinLimit (n : Int) : Prop :=
  -1048576 ≤ n ∧ n ≤ 1048576

instance : DecidablePred WithinLimit :=
  fun n ↦ inferInstanceAs (Decidable (-1048576 ≤ n ∧ n ≤ 1048576))

namespace Generator

/-- The program text that is meant. -/
def text : Generator → List UInt8
  | run f n _ => List.replicate n.natAbs (if n < 0 then f.down else f.up)
  | loop body => loopByte :: (body.text ++ [againByte])
  | concat l r => l.text ++ r.text

/-- All counts, from left to right. -/
def counts : Generator → List Int
  | run _ n _ => [n]
  | loop body => body.counts
  | concat l r => l.counts ++ r.counts

theorem balanced_text (g : Generator) : Balanced loopByte againByte g.text := by
  induction g with
  | run f n hn =>
    obtain ⟨hloop, hagain⟩ :
        (if n < 0 then f.down else f.up) ≠ loopByte ∧ (if n < 0 then f.down else f.up) ≠ againByte := by
      cases f <;> split <;> decide
    rw [text]
    induction n.natAbs with
    | zero => exact .nil
    | succ k ih => exact ih.cons hloop hagain
  | loop body ih => exact ih.nest .nil
  | concat l r ihl ihr => exact ihl.append ihr

theorem isSilent_text (g : Generator) : IsSilent g.text := by
  induction g with
  | run f n hn =>
    intro b hb
    obtain ⟨-, rfl⟩ := List.mem_replicate.mp hb
    cases f <;> split <;> decide
  | loop body ih =>
    intro b hb
    simp only [text, List.mem_cons, List.mem_append, List.not_mem_nil, or_false] at hb
    rcases hb with rfl | hb | rfl
    · decide
    · exact ih b hb
    · decide
  | concat l r ihl ihr =>
    intro b hb
    exact (List.mem_append.mp hb).elim (ihl b) (ihr b)

end Generator

/-- What is bound to `program`: a generator, or a list of them. -/
inductive Generated where
  | one (g : Generator)
  | several (gs : List Generator)

namespace Generated

/-- The program text that is meant. -/
def text : Generated → List UInt8
  | one g => g.text
  | several gs => gs.flatMap Generator.text

/-- All counts, from left to right. -/
def counts : Generated → List Int
  | one g => g.counts
  | several gs => gs.flatMap Generator.counts

theorem balanced_text (p : Generated) : Balanced loopByte againByte p.text := by
  cases p with
  | one g => exact g.balanced_text
  | several gs =>
    induction gs with
    | nil => exact .nil
    | cons g gs ih => exact g.balanced_text.append ih

theorem isSilent_text (p : Generated) : IsSilent p.text := by
  cases p with
  | one g => exact g.isSilent_text
  | several gs =>
    intro b hb
    obtain ⟨g, -, hb⟩ := List.mem_flatMap.mp hb
    exact g.isSilent_text b hb

end Generated

/-! ## Generators as scripts -/

/-- A count as it is written: a sign before the digits. -/
def countChars (n : Int) : List Char :=
  if n < 0 then '-' :: Nat.toDigits 10 n.natAbs else Nat.toDigits 10 n.natAbs

/-- The name of a helper with the bracket behind it. -/
def callChars (name : String) : List Char :=
  name.toList ++ ['(']

/-- The text of a generator in a script.  A sum stands in brackets. -/
def Generator.chars : Generator → List Char
  | run f n _ => callChars f.name ++ (countChars n ++ [')'])
  | loop body => callChars loopName ++ (body.chars ++ [')'])
  | concat l r => '(' :: (l.chars ++ ([' ', '+', ' '] ++ (r.chars ++ [')'])))

/-- The text of an item of a list, with the comma behind it. -/
def Generator.itemChars (g : Generator) : List Char :=
  g.chars ++ [',', ' ']

namespace Generated

def exprChars : Generated → List Char
  | one g => g.chars
  | several gs => '[' :: (gs.flatMap Generator.itemChars ++ [']'])

/-- The text of a script that binds `program`. -/
def chars (p : Generated) : List Char :=
  "program = ".toList ++ (p.exprChars ++ ['\n'])

/-- The script that binds `program`. -/
def source (p : Generated) : List UInt8 :=
  p.chars.map Char.toUInt8

end Generated

/-! ## What is assumed of a library -/

/-- How a library computes: what it has besides its interface, and what it takes a script for. -/
structure Semantics (lib : Library) where
  /-- The value of a number. -/
  int : Int → lib.Value
  /-- The value of a list. -/
  list : List lib.Value → lib.Value
  /-- What `+` makes of two values. -/
  sum : lib.Value → lib.Value → Except Error lib.Value
  /-- Whether a script is taken for one that binds `program` to what is generated. -/
  binds : (script : List UInt8) → Generated → Prop

section

variable {lib : Library}

/-- The value of a generator, evaluated from left to right.  `call` says what the names of the helpers stand
for. -/
def Generator.eval (S : Semantics lib) (call : String → Helper lib.Value) :
    Generator → Except Error lib.Value
  | run f n _ => call f.name [S.int n] []
  | loop body => do
    let v ← body.eval S call
    call loopName [v] []
  | concat l r => do
    let u ← l.eval S call
    let v ← r.eval S call
    S.sum u v

/-- The value of a generator, or of a list of them. -/
def Generated.eval (S : Semantics lib) (call : String → Helper lib.Value) :
    Generated → Except Error lib.Value
  | one g => g.eval S call
  | several gs => S.list <$> gs.mapM (Generator.eval S call)

/-- Some helpers are there under all the names that generators use. -/
def Provides (helpers : List (String × Helper lib.Value)) (call : String → Helper lib.Value) : Prop :=
  ∀ x ∈ helperNames, helpers.lookup x = some (call x)

/-- **What is assumed of a script library.**  Calls, sums of texts and displays of lists are evaluated in the
usual way, and an error that ends the evaluation is not lost. -/
structure Semantics.Lawful (S : Semantics lib) : Prop where
  /-- A text is a value that can be told to be one. -/
  text?_ofText : ∀ bs, lib.text? (lib.ofText bs) = some bs
  /-- A list is no text. -/
  text?_list : ∀ vs, lib.text? (S.list vs) = none
  /-- A list has the items that stand in its display. -/
  items?_list : ∀ vs, lib.items? (S.list vs) = some vs
  /-- A helper that takes a word can be given any word. -/
  wordArgument_int : ∀ helper n, IsWord n → lib.wordArgument helper [S.int n] [] = .ok n
  /-- A helper that takes a text can be given any text. -/
  textArgument_ofText : ∀ helper bs, lib.textArgument helper [lib.ofText bs] [] = .ok bs
  /-- The sum of two texts is one after the other. -/
  sum_ofText : ∀ bs cs, S.sum (lib.ofText bs) (lib.ofText cs) = .ok (lib.ofText (bs ++ cs))
  /-- A script is taken for what is written in it. -/
  binds_source : ∀ p : Generated, S.binds p.source p
  /-- A script that binds `program` to something that has a value is carried out, and that is the value
  of the global. -/
  exec_of_eval_ok : ∀ {helpers call script p v}, Provides helpers call → S.binds script p →
    p.eval S call = .ok v →
      ∀ name, ∃ globals, lib.exec helpers name script = .ok globals ∧ globals "program" = some v
  /-- If the evaluation fails, so does the script.  Its error wraps the one that has ended the
  evaluation. -/
  exec_of_eval_error : ∀ {helpers call script p e}, Provides helpers call → S.binds script p →
    p.eval S call = .error e →
      ∀ name, ∃ e', lib.exec helpers name script = .error e' ∧ e.chain ⊆ e'.chain

/-! ## Evaluation -/

/-- The helper of a name, where there is one. -/
def helperNamed (lib : Library) (x : String) : Helper lib.Value :=
  ((Program.helpers lib).lookup x).getD fun _ _ ↦ .error .malformed

theorem provides_helperNamed : Provides (Program.helpers lib) (helperNamed lib) := by
  intro x hx
  simp only [helperNames, List.mem_cons, List.not_mem_nil, or_false] at hx
  rcases hx with rfl | rfl | rfl
  · rfl
  · rfl
  · rfl

variable {S : Semantics lib}

/-- A count is compared with the limit before its sign is looked at, so that the lowest word does not slip
through. -/
theorem runHelper_int (hS : S.Lawful) {n : Int} (hn : IsWord n) (up down : UInt8) (name : String) :
    Program.runHelper lib up down name [S.int n] [] =
      if WithinLimit n then .ok (lib.ofText (List.replicate n.natAbs (if n < 0 then down else up)))
      else .error (.call name Condition.repeatLimit) := by
  have hlimit : (Program.repeatLimit < n ∨ n < -Program.repeatLimit) ↔ ¬WithinLimit n := by
    unfold WithinLimit Program.repeatLimit
    omega
  simp only [Program.runHelper, hS.wordArgument_int name n hn, bind, Except.bind, hlimit]
  by_cases h : WithinLimit n
  · -- only now the sign counts, and within the limit a change of sign is exact
    rw [if_neg (not_not_intro h), if_pos h]
    by_cases hneg : n < 0
    · have hsize : (-n).toNat = n.natAbs := by omega
      simp only [if_pos hneg, hsize]
      rfl
    · have hsize : n.toNat = n.natAbs := by omega
      simp only [if_neg hneg, hsize]
      rfl
  · rw [if_pos h, if_neg h]
    rfl

theorem Repeater.helperNamed_int (hS : S.Lawful) (f : Repeater) {n : Int} (hn : IsWord n) :
    helperNamed lib f.name [S.int n] [] =
      if WithinLimit n then .ok (lib.ofText (List.replicate n.natAbs (if n < 0 then f.down else f.up)))
      else .error (.call f.name Condition.repeatLimit) := by
  cases f with
  | add => exact runHelper_int hS hn _ _ _
  | move => exact runHelper_int hS hn _ _ _

theorem helperNamed_loop (hS : S.Lawful) (body : List UInt8) :
    helperNamed lib loopName [lib.ofText body] [] =
      .ok (lib.ofText (loopByte :: (body ++ [againByte]))) := by
  change Program.loopHelper lib "loop" [lib.ofText body] [] = _
  rw [Program.loopHelper, hS.textArgument_ofText]
  rfl

namespace Generator

/-- **The value of a generator is its text**, if no count is beyond the limit. -/
theorem eval_of_within (hS : S.Lawful) {g : Generator} (h : ∀ n ∈ g.counts, WithinLimit n) :
    g.eval S (helperNamed lib) = .ok (lib.ofText g.text) := by
  induction g with
  | run f n hn => rw [eval, f.helperNamed_int hS hn, if_pos (h n (List.mem_singleton_self n)), text]
  | loop body ih =>
    rw [eval, ih h]
    exact helperNamed_loop hS body.text
  | concat l r ihl ihr =>
    obtain ⟨hl, hr⟩ := List.forall_mem_append.mp h
    rw [eval, ihl hl, ihr hr]
    exact hS.sum_ofText l.text r.text

/-- **A single count beyond the limit decides on the whole**, however deep it stands. -/
theorem eval_of_exceeds (hS : S.Lawful) {g : Generator} (h : ¬∀ n ∈ g.counts, WithinLimit n) :
    ∃ x, g.eval S (helperNamed lib) = .error (.call x Condition.repeatLimit) := by
  induction g with
  | run f n hn =>
    have hn' : ¬WithinLimit n := fun hin ↦ h (List.forall_mem_singleton.mpr hin)
    exact ⟨f.name, by rw [eval, f.helperNamed_int hS hn, if_neg hn']⟩
  | loop body ih =>
    obtain ⟨x, hx⟩ := ih h
    exact ⟨x, by rw [eval, hx]; rfl⟩
  | concat l r ihl ihr =>
    -- the left term is evaluated first, so if it fails the right one is not looked at
    by_cases hl : ∀ n ∈ l.counts, WithinLimit n
    · have hr : ¬∀ n ∈ r.counts, WithinLimit n := fun hr ↦ h (List.forall_mem_append.mpr ⟨hl, hr⟩)
      obtain ⟨x, hx⟩ := ihr hr
      exact ⟨x, by rw [eval, eval_of_within hS hl, hx]; rfl⟩
    · obtain ⟨x, hx⟩ := ihl hl
      exact ⟨x, by rw [eval, hx]; rfl⟩

end Generator

namespace Generated

/-- What `program` is bound to. -/
def value (S : Semantics lib) : Generated → lib.Value
  | one g => lib.ofText g.text
  | several gs => S.list (gs.map fun g ↦ lib.ofText g.text)

theorem eval_of_within (hS : S.Lawful) {p : Generated} (h : ∀ n ∈ p.counts, WithinLimit n) :
    p.eval S (helperNamed lib) = .ok (p.value S) := by
  cases p with
  | one g => exact g.eval_of_within hS h
  | several gs =>
    have hall : gs.mapM (Generator.eval S (helperNamed lib)) = .ok (gs.map fun g ↦ lib.ofText g.text) := by
      induction gs with
      | nil => rfl
      | cons g gs ih =>
        obtain ⟨hg, hgs⟩ := List.forall_mem_append.mp h
        rw [List.mapM_cons, g.eval_of_within hS hg, ih hgs]
        rfl
    rw [eval, hall]
    rfl

theorem eval_of_exceeds (hS : S.Lawful) {p : Generated} (h : ¬∀ n ∈ p.counts, WithinLimit n) :
    ∃ x, p.eval S (helperNamed lib) = .error (.call x Condition.repeatLimit) := by
  cases p with
  | one g => exact g.eval_of_exceeds hS h
  | several gs =>
    have hall : ∃ x, gs.mapM (Generator.eval S (helperNamed lib)) =
        .error (.call x Condition.repeatLimit) := by
      induction gs with
      | nil => exact absurd (List.forall_mem_nil _) h
      | cons g gs ih =>
        rw [List.mapM_cons]
        by_cases hg : ∀ n ∈ g.counts, WithinLimit n
        · obtain ⟨x, hx⟩ := ih fun hgs ↦ h (List.forall_mem_append.mpr ⟨hg, hgs⟩)
          exact ⟨x, by rw [g.eval_of_within hS hg, hx]; rfl⟩
        · obtain ⟨x, hx⟩ := g.eval_of_exceeds hS hg
          exact ⟨x, by rw [hx]; rfl⟩
    obtain ⟨x, hx⟩ := hall
    exact ⟨x, by rw [eval, hx]; rfl⟩

/-- The texts of a list are written one after the other. -/
theorem textOfItems_map (hS : S.Lawful) (gs : List Generator) : ∀ before : List UInt8,
    Program.textOfItems lib before (gs.map fun g ↦ lib.ofText g.text) =
      .ok (before.reverse ++ gs.flatMap Generator.text) := by
  induction gs with
  | nil =>
    intro before
    rw [List.flatMap_nil, List.append_nil]
    rfl
  | cons g gs ih =>
    intro before
    rw [List.map_cons, Program.textOfItems, hS.text?_ofText]
    dsimp only
    rw [ih]
    simp

theorem textOfValue_value (hS : S.Lawful) (p : Generated) :
    Program.textOfValue lib (p.value S) = .ok p.text := by
  cases p with
  | one g =>
    rw [Program.textOfValue, value, hS.text?_ofText]
    rfl
  | several gs =>
    rw [Program.textOfValue, value, hS.text?_list, hS.items?_list]
    exact textOfItems_map hS gs []

end Generated

/-! ## Scripts -/

variable {p : Generated} {script : List UInt8}

/-- **A script gives the program that is meant**, if no count is beyond the limit. -/
theorem ofScript_of_within (hS : S.Lawful) (hscript : S.binds script p)
    (h : ∀ n ∈ p.counts, WithinLimit n) (name : String) :
    Program.ofScript lib name script = .ok ⟨.script, name, p.text⟩ := by
  obtain ⟨globals, hexec, hglobal⟩ :=
    hS.exec_of_eval_ok provides_helperNamed hscript (Generated.eval_of_within hS h) name
  simp only [Program.ofScript, Program.textOfScript, hexec, hglobal, p.textOfValue_value hS]

/-- **A script with a count beyond the limit gives no program**, and the limit is found below its error. -/
theorem ofScript_of_exceeds (hS : S.Lawful) (hscript : S.binds script p)
    (h : ¬∀ n ∈ p.counts, WithinLimit n) (name : String) :
    ∃ cause, Program.ofScript lib name script = .error (.source "starlark" name cause) ∧
      .condition .repeatLimit ∈ cause.chain := by
  obtain ⟨x, hx⟩ := Generated.eval_of_exceeds hS h
  obtain ⟨cause, hexec, hchain⟩ := hS.exec_of_eval_error provides_helperNamed hscript hx name
  refine ⟨cause, ?_, hchain (by simp [Error.chain])⟩
  simp only [Program.ofScript, Program.textOfScript, hexec]
  rfl

end

end TapeMachine.Script
