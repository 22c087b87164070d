import TapeMachine.Proofs.Script.Parsing
import TapeMachine.Proofs.Text.Numeral

/-!
# Generators are read back from their text

The text of a generator is cut into the tokens that it should be (`Generated.read?_source`).  Together with the
reading of tokens this says that the bundled library takes the script of a generator for what is written in
it.

A reader takes one step for a token, for a blank and for the beginning of a line, and is given more steps than
there are characters.  How many steps are left does not matter as long as there is one for every character, so
what is shown of a piece of text only says that (`Lexes`), and pieces can be put together (`Lexes.append`).
-/

set_option autoImplicit false
namespace TapeMachine.Script

open Token

/-! ## Pieces of text -/

/-- Inside a line, at some depth of brackets. -/
def inside (depth : Nat) (before : List Token) : Position :=
  ⟨false, depth, [], before⟩

/-- A piece of text leads from one position to another, whatever follows, in a step for each character at
most. -/
def Lexes (cs : List Char) (p p' : Position) : Prop :=
  ∀ n rest, ∃ n', n ≤ n' ∧ readFor (n + cs.length) p (cs ++ rest) = readFor n' p' rest

theorem Lexes.append {cs cs' : List Char} {p p₁ p' : Position} (h : Lexes cs p p₁) (h' : Lexes cs' p₁ p') :
    Lexes (cs ++ cs') p p' := by
  intro n rest
  obtain ⟨k, hk, hread⟩ := h (n + cs'.length) (cs' ++ rest)
  obtain ⟨j, rfl⟩ : ∃ j, k = j + cs'.length := ⟨k - cs'.length, by omega⟩
  obtain ⟨n', hn', hread'⟩ := h' j rest
  refine ⟨n', by omega, ?_⟩
  rw [List.length_append, Nat.add_comm cs.length, ← Nat.add_assoc, List.append_assoc, hread, hread']

variable (d : Nat) (before : List Token)

theorem lexes_call {x : String} (hx : x ∈ helperNames) :
    Lexes (callChars x) (inside d before) (inside (d + 1) (.symbol "(" :: .name x :: before)) := by
  simp only [helperNames, List.mem_cons, List.not_mem_nil, or_false] at hx
  rcases hx with rfl | rfl | rfl
  · exact fun n rest ↦ ⟨n + 2, by omega, rfl⟩
  · exact fun n rest ↦ ⟨n + 3, by omega, rfl⟩
  · exact fun n rest ↦ ⟨n + 3, by omega, rfl⟩

theorem lexes_open : Lexes ['('] (inside d before) (inside (d + 1) (.symbol "(" :: before)) :=
  fun n _ ↦ ⟨n, Nat.le_refl n, rfl⟩

theorem lexes_close : Lexes [')'] (inside (d + 1) before) (inside d (.symbol ")" :: before)) :=
  fun n _ ↦ ⟨n, Nat.le_refl n, rfl⟩

theorem lexes_plus : Lexes [' ', '+', ' '] (inside d before) (inside d (.symbol "+" :: before)) :=
  fun n _ ↦ ⟨n, Nat.le_refl n, rfl⟩

theorem lexes_comma : Lexes [',', ' '] (inside d before) (inside d (.symbol "," :: before)) :=
  fun n _ ↦ ⟨n, Nat.le_refl n, rfl⟩

theorem lexes_openList : Lexes ['['] (inside d before) (inside (d + 1) (.symbol "[" :: before)) :=
  fun n _ ↦ ⟨n, Nat.le_refl n, rfl⟩

theorem lexes_closeList : Lexes [']'] (inside (d + 1) before) (inside d (.symbol "]" :: before)) :=
  fun n _ ↦ ⟨n, Nat.le_refl n, rfl⟩

theorem lexes_program : Lexes "program = ".toList {} (inside 0 [.symbol "=", .name "program"]) :=
  fun n _ ↦ ⟨n + 5, by omega, rfl⟩

/-! ## Numbers -/

theorem eq_of_isDigit {c : Char} (hc : c.isDigit) : c = '0' ∨ c = '1' ∨ c = '2' ∨ c = '3' ∨ c = '4' ∨
    c = '5' ∨ c = '6' ∨ c = '7' ∨ c = '8' ∨ c = '9' := by
  obtain ⟨hlow, hhigh⟩ := Char.isDigit_iff_toNat.mp hc
  have hzero : '0'.toNat = 48 := rfl
  have hnine : '9'.toNat = 57 := rfl
  have hsame : ∀ {c' : Char}, c.toNat = c'.toNat → c = c' := Char.toNat_inj.mp
  have hcode : c.toNat = 48 ∨ c.toNat = 49 ∨ c.toNat = 50 ∨ c.toNat = 51 ∨ c.toNat = 52 ∨
      c.toNat = 53 ∨ c.toNat = 54 ∨ c.toNat = 55 ∨ c.toNat = 56 ∨ c.toNat = 57 := by omega
  exact hcode.imp hsame (.imp hsame (.imp hsame (.imp hsame (.imp hsame (.imp hsame (.imp hsame (.imp hsame
    (.imp hsame hsame))))))))

/-- A character at which a token begins, in the middle of a line. -/
def BeginsToken (c : Char) : Prop :=
  c ≠ '\x00' ∧ c ≠ ' ' ∧ c ≠ '\t' ∧ c ≠ '#' ∧ c ≠ '\n' ∧ c ≠ '\\'

theorem beginsToken_of_isDigit {c : Char} (hc : c.isDigit) : BeginsToken c := by
  refine ⟨?_, ?_, ?_, ?_, ?_, ?_⟩
  all_goals
    rintro rfl
    cases hc

/-- A token takes one step. -/
theorem readFor_token {c : Char} (hc : BeginsToken c) {n : Nat} {cs after : List Char} {token : Token} {d' : Nat}
    (hnext : next? (n + 1) (c :: cs) = some (token, after)) (hdepth : depthAfter? d token = some d') :
    readFor (n + 1) (inside d before) (c :: cs) = readFor n (inside d' (token :: before)) after := by
  obtain ⟨hend, hspace, htab, hcomment, hline, hslash⟩ := hc
  simp [readFor, inside, hnext, hdepth, hend, hspace, htab, hcomment, hline, hslash]

/-- A digit begins a number. -/
theorem next?_digit {c : Char} (hc : c.isDigit) (n : Nat) (cs : List Char) :
    next? (n + 1) (c :: cs) = number? (c :: cs) := by
  rcases eq_of_isDigit hc with rfl | rfl | rfl | rfl | rfl | rfl | rfl | rfl | rfl | rfl <;> rfl

/-- A sign before a digit is a token of its own. -/
theorem next?_minus {c : Char} (hc : c.isDigit) (n : Nat) (cs : List Char) :
    next? (n + 1) ('-' :: c :: cs) = some (.symbol "-", c :: cs) := by
  rcases eq_of_isDigit hc with rfl | rfl | rfl | rfl | rfl | rfl | rfl | rfl | rfl | rfl <;> rfl

/-- The digits of a number are read up to the bracket behind them. -/
theorem number?_toDigits (k : Nat) (rest : List Char) :
    number? (Nat.toDigits 10 k ++ ')' :: rest) = some (.int k, ')' :: rest) := by
  rcases Nat.eq_zero_or_pos k with rfl | hpos
  · rfl
  · obtain ⟨hne, hds, -⟩ := Text.digitRow_toDigits k
    have hvalue := (Text.digitRow_toDigits k).numberIn_eq
    have hhead := Text.head?_toDigits (Nat.ne_of_gt hpos)
    generalize Nat.toDigits 10 k = ds at *
    have hdecimal : number? (ds ++ ')' :: rest) = decimal? (ds ++ ')' :: rest) := by
      obtain ⟨c, cs, rfl⟩ := List.exists_cons_of_ne_nil hne
      have hc : c ≠ '0' := fun heq ↦ hhead (congrArg some heq)
      unfold number?
      split <;> simp_all
    have htake : (ds ++ ')' :: rest).takeWhile Char.isDigit = ds := by
      rw [List.takeWhile_append_of_pos hds]
      simp
    have hfraction : fractionLength (')' :: rest) = 0 := rfl
    have hexponent : exponentLength (')' :: rest) = 0 := rfl
    rw [hdecimal, decimal?, htake, List.drop_left, hfraction, Nat.add_zero, List.drop_left, hexponent,
      if_neg (Nat.lt_irrefl 0), if_neg fun h ↦ hhead h.1, hvalue]

/-- The digits of a number are read together with the bracket behind them. -/
theorem lexes_toDigits (k : Nat) : Lexes (Nat.toDigits 10 k ++ [')']) (inside (d + 1) before)
    (inside d (.symbol ")" :: .int k :: before)) := by
  intro n rest
  have hnumber := number?_toDigits k rest
  obtain ⟨hne, hds, -⟩ := Text.digitRow_toDigits k
  obtain ⟨c, cs, hcs⟩ := List.exists_cons_of_ne_nil hne
  rw [hcs] at hnumber hds ⊢
  refine ⟨n + cs.length, by omega, ?_⟩
  have hdigit := hds c List.mem_cons_self
  have hread := readFor_token (d + 1) before (beginsToken_of_isDigit hdigit)
    ((next?_digit hdigit (n + cs.length + 1) _).trans hnumber) rfl
  have hclose : readFor (n + cs.length + 1) (inside (d + 1) (.int k :: before)) (')' :: rest) =
      readFor (n + cs.length) (inside d (.symbol ")" :: .int k :: before)) rest := rfl
  rw [List.length_append, List.length_cons, List.append_assoc, ← hclose, ← hread]
  rfl

/-- A count is read together with the bracket behind it. -/
theorem lexes_count (m : Int) : Lexes (countChars m ++ [')']) (inside (d + 1) before)
    (inside d (.symbol ")" :: ((countTokens m).reverse ++ before))) := by
  unfold countChars countTokens
  split
  · intro n rest
    obtain ⟨n', hn', hread⟩ := lexes_toDigits d (.symbol "-" :: before) m.natAbs n rest
    refine ⟨n', hn', ?_⟩
    obtain ⟨hne, hds, -⟩ := Text.digitRow_toDigits m.natAbs
    obtain ⟨c, cs, hcs⟩ := List.exists_cons_of_ne_nil hne
    rw [hcs] at hread hds ⊢
    have hminus : BeginsToken '-' := by
      unfold BeginsToken
      decide
    exact (readFor_token (d + 1) before hminus (next?_minus (hds c List.mem_cons_self) _ _) rfl).trans hread
  · exact lexes_toDigits d before m.natAbs

/-! ## Generators -/

/-- **The text of a generator is cut into its tokens.** -/
theorem Generator.lexes_chars (g : Generator) : ∀ (d : Nat) (before : List Token),
    Lexes g.chars (inside d before) (inside d (g.tokens.reverse ++ before)) := by
  induction g with
  | run f n hn =>
    intro d before
    have h := (lexes_call d before f.name_mem_helperNames).append (lexes_count d _ n)
    simpa [chars, tokens] using h
  | loop body ih =>
    intro d before
    have h := (lexes_call d before loopName_mem_helperNames).append ((ih (d + 1) _).append (lexes_close d _))
    simpa [chars, tokens] using h
  | concat l r ihl ihr =>
    intro d before
    have h := (lexes_open d before).append ((ihl (d + 1) _).append ((lexes_plus (d + 1) _).append
      ((ihr (d + 1) _).append (lexes_close d _))))
    simpa [chars, tokens] using h

theorem Generator.lexes_itemChars (g : Generator) (d : Nat) (before : List Token) :
    Lexes g.itemChars (inside d before) (inside d (g.itemTokens.reverse ++ before)) := by
  have h := (g.lexes_chars d before).append (lexes_comma d _)
  simpa [itemChars, itemTokens] using h

theorem lexes_flatMap (gs : List Generator) : ∀ (d : Nat) (before : List Token),
    Lexes (gs.flatMap Generator.itemChars) (inside d before)
      (inside d ((gs.flatMap Generator.itemTokens).reverse ++ before)) := by
  induction gs with
  | nil => exact fun d before n rest ↦ ⟨n, Nat.le_refl n, rfl⟩
  | cons g gs ih =>
    intro d before
    have h := (g.lexes_itemChars d before).append (ih d _)
    simpa using h

theorem Generated.lexes_exprChars (p : Generated) (d : Nat) (before : List Token) :
    Lexes p.exprChars (inside d before) (inside d (p.exprTokens.reverse ++ before)) := by
  cases p with
  | one g => exact g.lexes_chars d before
  | several gs =>
    have h := (lexes_openList d before).append ((lexes_flatMap gs (d + 1) _).append (lexes_closeList d _))
    simpa [exprChars, exprTokens] using h

/-- The text of a script is cut into its tokens, in any number of steps that is enough. -/
theorem Generated.readFor_chars (p : Generated) {n : Nat} (hn : p.chars.length + 1 ≤ n) :
    readFor n {} p.chars = some p.tokens := by
  have hline := lexes_program.append (p.lexes_exprChars 0 _)
  have hchars : p.chars = ("program = ".toList ++ p.exprChars) ++ ['\n'] := (List.append_assoc ..).symm
  rw [hchars, List.length_append, List.length_singleton] at hn
  rw [hchars]
  generalize "program = ".toList ++ p.exprChars = line at hline hn ⊢
  obtain ⟨k, rfl⟩ : ∃ k, n = k + 2 + line.length := ⟨n - 2 - line.length, by omega⟩
  obtain ⟨n', hn', hread⟩ := hline (k + 2) ['\n']
  obtain ⟨j, rfl⟩ : ∃ j, n' = j + 2 := ⟨n' - 2, by omega⟩
  have hend : ∀ before, readFor (j + 2) (inside 0 before) ['\n'] = some (before.reverse ++ [.newline]) := by
    intro before
    change some (finish { lineStart := true, before := .newline :: before }) = _
    simp [finish]
  rw [hread, hend]
  simp [tokens]

/-! ## Bytes -/

/-- A character that is a byte by itself, and that is none of those that end a line in another way. -/
def isPlain (c : Char) : Bool :=
  decide (c.toNat < 128) && c != '\r'

theorem isPlain_of_isDigit {c : Char} (hc : c.isDigit) : isPlain c := by
  rcases eq_of_isDigit hc with rfl | rfl | rfl | rfl | rfl | rfl | rfl | rfl | rfl | rfl <;> rfl

theorem isPlain_countChars (n : Int) : (countChars n).all isPlain := by
  have hdigits : (Nat.toDigits 10 n.natAbs).all isPlain :=
    List.all_eq_true.mpr fun c hc ↦ isPlain_of_isDigit ((Text.digitRow_toDigits n.natAbs).isDigit c hc)
  unfold countChars
  split
  · exact hdigits
  · exact hdigits

theorem isPlain_callChars {x : String} (hx : x ∈ helperNames) :
    (callChars x).all isPlain := by
  simp only [helperNames, List.mem_cons, List.not_mem_nil, or_false] at hx
  rcases hx with rfl | rfl | rfl
  all_goals rfl

theorem Generator.isPlain_chars (g : Generator) : g.chars.all isPlain := by
  have hclose : [')'].all isPlain := rfl
  have hplus : [' ', '+', ' '].all isPlain := rfl
  induction g with
  | run f n hn =>
    rw [chars, List.all_append, List.all_append, isPlain_callChars f.name_mem_helperNames,
      isPlain_countChars, hclose]
    rfl
  | loop body ih =>
    rw [chars, List.all_append, List.all_append, isPlain_callChars loopName_mem_helperNames, ih, hclose]
    rfl
  | concat l r ihl ihr =>
    rw [chars, List.all_cons, List.all_append, List.all_append, List.all_append, ihl, hplus, ihr, hclose]
    rfl

theorem isPlain_program : "program = ".toList.all isPlain := by
  decide

theorem Generated.isPlain_chars (p : Generated) : p.chars.all isPlain := by
  have hnewline : ['\n'].all isPlain := rfl
  have hexpr : p.exprChars.all isPlain := by
    cases p with
    | one g => exact g.isPlain_chars
    | several gs =>
      have hcomma : [',', ' '].all isPlain := rfl
      have hclose : [']'].all isPlain := rfl
      have hitems : (gs.flatMap Generator.itemChars).all isPlain := by
        rw [List.all_flatMap, List.all_eq_true]
        intro g _
        rw [Generator.itemChars, List.all_append, g.isPlain_chars, hcomma]
        rfl
      rw [exprChars, List.all_cons, List.all_append, hitems, hclose]
      rfl
  unfold chars
  rw [List.all_append, isPlain_program, List.all_append, hexpr, hnewline]
  rfl

theorem toNat_toUInt8 {c : Char} (h : c.toNat < 128) : c.toUInt8.toNat = c.toNat :=
  (UInt32.toNat_toUInt8 c.val).trans (Nat.mod_eq_of_lt (Nat.lt_trans h (by decide)))

theorem decodeFor_map_toUInt8 {cs : List Char} (h : cs.all isPlain) :
    Text.decodeFor cs.length (cs.map Char.toUInt8) = cs.map some := by
  induction cs with
  | nil => rfl
  | cons c cs ih =>
    simp only [List.all_cons, isPlain, Bool.and_eq_true, decide_eq_true_eq] at h
    obtain ⟨⟨hc, -⟩, hcs⟩ := h
    have hlt : c.toUInt8 < 0x80 := UInt8.lt_iff_toNat_lt.mpr (by rw [toNat_toUInt8 hc]; exact hc)
    have hread : Text.decodeChar? (c.toUInt8 :: cs.map Char.toUInt8) =
        some (Char.ofNat c.toUInt8.toNat, cs.map Char.toUInt8) := if_pos hlt
    rw [List.map_cons, List.length_cons, Text.decodeFor, hread, toNat_toUInt8 hc, Char.ofNat_toNat]
    exact congrArg (some c :: ·) (ih hcs)

theorem unixLines_eq_self {cs : List Char} (h : cs.all isPlain) : Text.unixLines cs = cs := by
  induction cs with
  | nil => rfl
  | cons c cs ih =>
    simp only [List.all_cons, isPlain, Bool.and_eq_true, bne_iff_ne] at h
    obtain ⟨⟨-, hc⟩, hcs⟩ := h
    rw [Text.unixLines, ih hcs]
    · exact fun _ heq _ ↦ hc heq
    · exact hc

/-- **A script is cut into its tokens.** -/
theorem Generated.read?_source (p : Generated) : read? p.source = some p.tokens := by
  have hdecode : (Text.decode p.source).map (fun c ↦ c.getD '\ufffd') = p.chars := by
    rw [Text.decode, source, List.length_map, decodeFor_map_toUInt8 p.isPlain_chars, List.map_map]
    exact List.map_id _
  rw [read?, hdecode, unixLines_eq_self p.isPlain_chars]
  exact p.readFor_chars (by omega)

end TapeMachine.Script
