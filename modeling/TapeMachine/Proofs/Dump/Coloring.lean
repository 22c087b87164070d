import TapeMachine.Proofs.Dump.Rendering
import TapeMachine.Proofs.Tape.Reads

/-!
# Colors only decorate

With color a dump is the same text, with escape sequences in it.  Two readers look at such a text.  One takes
the sequences away (`withoutEscapes`), and the other keeps with each character the style codes that are in
force where it stands (`paint`), so that what the first one sees is the second one's view without the codes
(`map_fst_paint`).

A program can hold any bytes, also those of which escape sequences are made.  But it cannot forge one: nothing
that is shown for a byte begins a sequence, since the character that does is not printable
(`escape_ne_of_printable`).  And each styled text switches its style off before it ends, so that texts can be
looked at one after the other (`Paints`).
-/

set_option autoImplicit false
namespace TapeMachine.Dump

/-! ## Readers of escape sequences -/

/-- The character that begins an escape sequence. -/
def escape : Char :=
  Char.ofNat 27

/-- A text without its escape sequences: from an escape character in front of a bracket up to the next `m`.
The text may begin inside of one. -/
def withoutEscapes : (inside : Bool) → List Char → List Char
  | _, [] => []
  | true, c :: cs => withoutEscapes (c ≠ 'm') cs
  | false, c :: cs =>
    if c = escape ∧ cs.head? = some '[' then withoutEscapes true cs
    else c :: withoutEscapes false cs

/-- The style codes in force after another one.  Zero switches all of them off. -/
def switch (codes : List String) (code : List Char) : List String :=
  if code = ['0'] then [] else codes ++ [String.ofList code]

/-- The style codes in force after an escape sequence, of which all between the escape character and the `m`
is given: a bracket, and codes set apart by semicolons. -/
def switched (codes : List String) (sequence : List Char) : List String :=
  (sequence.tail.splitOn ';').foldl switch codes

/-- The characters of a text, each with the style codes that are in force for it.  The text may begin inside
an escape sequence. -/
def paint : (codes : List String) → (sequence : Option (List Char)) → List Char →
    List (Char × List String)
  | _, _, [] => []
  | codes, some sequence, c :: cs =>
    if c = 'm' then paint (switched codes sequence) none cs
    else paint codes (some (sequence ++ [c])) cs
  | codes, none, c :: cs =>
    if c = escape ∧ cs.head? = some '[' then paint codes (some []) cs
    else (c, codes) :: paint codes none cs

/-- The two readers see the same characters. -/
theorem map_fst_paint (codes : List String) (sequence : Option (List Char)) (cs : List Char) :
    (paint codes sequence cs).map Prod.fst = withoutEscapes sequence.isSome cs := by
  induction cs generalizing codes sequence with
  | nil => cases sequence <;> rfl
  | cons c cs ih =>
    cases sequence with
    | some sequence =>
      rw [paint, Option.isSome_some, withoutEscapes]
      by_cases hm : c = 'm' <;> simp [hm, ih]
    | none =>
      rw [paint, Option.isSome_none, withoutEscapes]
      split <;> simp [ih]

/-- A text with the same codes for all of its characters. -/
def marked (codes : List String) (cs : List Char) : List (Char × List String) :=
  cs.map fun c ↦ (c, codes)

theorem paint_append (codes : List String) {cs : List Char} (h : escape ∉ cs) (rest : List Char) :
    paint codes none (cs ++ rest) = marked codes cs ++ paint codes none rest := by
  induction cs with
  | nil => rfl
  | cons c cs ih =>
    have hc : escape ≠ c := List.ne_of_not_mem_cons h
    rw [List.cons_append, paint, if_neg fun hescape ↦ hc hescape.1.symm,
      ih (List.not_mem_of_not_mem_cons h)]
    rfl

theorem paint_escape (codes : List String) (cs : List Char) :
    paint codes none (escape :: '[' :: cs) = paint codes (some ['[']) cs := by
  rw [paint, if_pos ⟨rfl, rfl⟩, paint, if_neg (by decide), List.nil_append]

theorem paint_sequence (codes : List String) (sequence : List Char) {cs : List Char} (h : 'm' ∉ cs)
    (rest : List Char) :
    paint codes (some sequence) (cs ++ 'm' :: rest) =
      paint (switched codes (sequence ++ cs)) none rest := by
  induction cs generalizing sequence with
  | nil => rw [List.nil_append, paint, if_pos rfl, List.append_nil]
  | cons c cs ih =>
    have hc : 'm' ≠ c := List.ne_of_not_mem_cons h
    rw [List.cons_append, paint, if_neg hc.symm, ih _ (List.not_mem_of_not_mem_cons h),
      List.append_assoc, List.singleton_append]

/-! ## Styles -/

/-- What a style code may be: any text that neither ends the sequence it is part of, nor stands for two codes,
nor switches anything off. -/
structure IsCode (code : String) : Prop where
  ends : 'm' ∉ code.toList
  parts : ';' ∉ code.toList
  reset : code.toList ≠ ['0']

theorem not_mem_intercalate {c sep : Char} (hsep : c ≠ sep) {texts : List (List Char)}
    (h : ∀ text ∈ texts, c ∉ text) : c ∉ [sep].intercalate texts := by
  induction texts with
  | nil => exact List.not_mem_nil
  | cons text texts ih =>
    have htext : c ∉ text := h text List.mem_cons_self
    cases texts with
    | nil => simpa using htext
    | cons next texts =>
      have hrest := ih fun text' h' ↦ h text' (List.mem_cons_of_mem _ h')
      rw [List.intercalate_cons_cons]
      simp [htext, hsep, hrest]

theorem foldl_switch (before : List String) {codes : List String} (h : ∀ code ∈ codes, IsCode code) :
    (codes.map String.toList).foldl switch before = before ++ codes := by
  induction codes generalizing before with
  | nil => exact (List.append_nil before).symm
  | cons code codes ih =>
    rw [List.map_cons, List.foldl_cons, switch, if_neg (h code List.mem_cons_self).reset,
      ih _ fun code' h' ↦ h code' (List.mem_cons_of_mem _ h'), String.ofList_toList,
      List.append_assoc, List.singleton_append]

/-- Codes that are joined by semicolons are told apart again. -/
theorem switched_intercalate {codes : List String} (hne : codes ≠ [])
    (h : ∀ code ∈ codes, IsCode code) :
    switched [] ('[' :: (";".intercalate codes).toList) = codes := by
  have hsplit : (";".intercalate codes).toList.splitOn ';' = codes.map String.toList := by
    rw [String.toList_intercalate]
    refine List.splitOn_intercalate ';' (fun text htext ↦ ?_) (by simpa using hne)
    obtain ⟨code, hcode, rfl⟩ := List.mem_map.mp htext
    exact (h code hcode).parts
  rw [switched, List.tail_cons, hsplit, foldl_switch [] h, List.nil_append]

theorem switched_zero (codes : List String) : switched codes ['[', '0'] = [] := by
  have hsplit : ['0'].splitOn ';' = [['0']] := List.splitOn_eq_singleton (by decide)
  rw [switched, List.tail_cons, hsplit]
  rfl

/-- A text is painted like this, and what comes after it has no style. -/
def Paints (cs : List Char) (out : List (Char × List String)) : Prop :=
  ∀ rest, paint [] none (cs ++ rest) = out ++ paint [] none rest

theorem Paints.append {cs cs' : List Char} {out out' : List (Char × List String)} (h : Paints cs out)
    (h' : Paints cs' out') : Paints (cs ++ cs') (out ++ out') :=
  fun rest ↦ by rw [List.append_assoc, h, h', List.append_assoc]

theorem paints_flatMap {f : Nat → List Char} {out : Nat → List (Char × List String)}
    (h : ∀ i, Paints (f i) (out i)) (is : List Nat) : Paints (is.flatMap f) (is.flatMap out) := by
  induction is with
  | nil => exact fun rest ↦ rfl
  | cons i is ih => exact (h i).append ih

theorem Paints.paint_eq {cs : List Char} {out : List (Char × List String)} (h : Paints cs out) :
    paint [] none cs = out := by
  simpa [paint] using h []

theorem paints_plain {cs : List Char} (h : escape ∉ cs) : Paints cs (marked [] cs) :=
  paint_append [] h

/-- A styled text is painted in its style. -/
theorem paints_styled {codes : List String} (hcodes : ∀ code ∈ codes, IsCode code) {text : List Char}
    (h : escape ∉ text) : Paints (styled codes text) (marked codes text) := by
  cases codes with
  | nil => exact paints_plain h
  | cons code codes =>
    intro rest
    have hends : 'm' ∉ (";".intercalate (code :: codes)).toList := by
      rw [String.toList_intercalate]
      refine not_mem_intercalate (by decide) fun text htext ↦ ?_
      obtain ⟨code', hcode, rfl⟩ := List.mem_map.mp htext
      exact (hcodes code' hcode).ends
    have hstyled : styled (code :: codes) text ++ rest =
        escape :: '[' :: ((";".intercalate (code :: codes)).toList ++
          'm' :: (text ++ escape :: '[' :: (['0'] ++ 'm' :: rest))) := by
      simp [styled, escape]
    rw [hstyled, paint_escape, paint_sequence _ _ hends, List.singleton_append,
      switched_intercalate (List.cons_ne_nil _ _) hcodes, paint_append _ h, paint_escape,
      paint_sequence _ _ (by decide), List.singleton_append, switched_zero]

/-! ## Rows -/

/-- The colors of the regions: red, bright blue and green. -/
def regionCode : Region → String
  | .storage => "31"
  | .code => "94"
  | _ => "32"

/-- The style codes for a tape index: the color of its region, and the underline if it is the index of the
data address.  Where the tape has ended there are none. -/
def codesAt (t : Tape) (a : Tape.Address) (i : Nat) : List String :=
  if i < t.size then regionCode (t.region i) :: if (i : Int) = t.index a then ["4"] else [] else []

/-- Row `k` of a dump with color: both texts for an index carry its style codes, and nothing else carries
any. -/
def paintedRow (t : Tape) (a : Tape.Address) (k : Nat) : List (Char × List String) :=
  marked [] (Text.paddedHex 8 (16 * k : Nat) ++ [' ']) ++
    (places k).flatMap (fun i ↦
      marked [] [' '] ++ marked (codesAt t a i) (Text.upperHexByte (byteAt t i))) ++
    marked [] [' ', ' ', '|'] ++
    (places k).flatMap (fun i ↦ marked (codesAt t a i) [shown (byteAt t i)]) ++
    marked [] ['|', '\n']

theorem mem_codesAt {t : Tape} {a : Tape.Address} {i : Nat} {code : String} :
    code ∈ codesAt t a i ↔
      i < t.size ∧ (code = regionCode (t.region i) ∨ code = "4" ∧ (i : Int) = t.index a) := by
  by_cases hsize : i < t.size <;> by_cases hptr : (i : Int) = t.index a <;> simp [codesAt, hsize, hptr]

theorem isCode_regionCode (region : Region) : IsCode (regionCode region) := by
  have hgreen : IsCode "32" := ⟨by decide, by decide, by decide⟩
  cases region with
  | storage | code => exact ⟨by decide, by decide, by decide⟩
  | data | unknown => exact hgreen

theorem isCode_of_mem_codesAt {t : Tape} {a : Tape.Address} {i : Nat} {code : String}
    (h : code ∈ codesAt t a i) : IsCode code := by
  obtain ⟨-, rfl | ⟨rfl, -⟩⟩ := mem_codesAt.mp h
  · exact isCode_regionCode _
  · exact ⟨by decide, by decide, by decide⟩

/-- A byte of the tape is styled with the codes for its index. -/
theorem styleCodes_cellAt (t : Tape) (a : Tape.Address) {i : Nat} (h : i < t.size) :
    styleCodes (t.cellAt i) (t.index a) = codesAt t a i := by
  rw [styleCodes, codesAt, if_pos h, Tape.cellAt, underlineCode, Tape.region]
  split
  · rfl
  · split <;> rfl

theorem placed_true (t : Tape) (a : Tape.Address) (i : Nat) (text : List Char) :
    placed true t a i text = styled (codesAt t a i) text := by
  rcases Nat.lt_or_ge i t.size with h | h
  · rw [placed_of_lt true h, cellText, if_pos rfl, styleCodes_cellAt t a h]
  · rw [placed_of_le true h, codesAt, if_neg (Nat.not_lt.mpr h)]
    rfl

theorem escape_ne_of_printable {c : Char} (h : Printable c) : escape ≠ c := by
  rintro rfl
  exact absurd h (by decide)

theorem escape_not_mem {cs : List Char} (h : ∀ c ∈ cs, Printable c) : escape ∉ cs :=
  fun hmem ↦ escape_ne_of_printable (h _ hmem) rfl

theorem paints_rowAt (t : Tape) (a : Tape.Address) (k : Nat) :
    Paints (rowAt true t a k) (paintedRow t a k) := by
  have hhex (b : UInt8) : escape ∉ Text.upperHexByte b :=
    escape_not_mem fun _ ↦ printable_of_isHex (Text.isHex_upperHexByte b)
  have hshown (b : UInt8) : escape ∉ [shown b] :=
    escape_not_mem fun c hc ↦ List.mem_singleton.mp hc ▸ printable_shown b
  have hoffset : escape ∉ Text.paddedHex 8 (16 * k : Nat) :=
    escape_not_mem fun _ ↦ printable_of_isHex (Text.isHex_paddedHex 8 _)
  have hcodes (i : Nat) : ∀ code ∈ codesAt t a i, IsCode code := fun _ ↦ isCode_of_mem_codesAt
  have hspace : Paints [' '] (marked [] [' ']) := paints_plain (by decide)
  simp only [rowAt, paintedRow, placed_true]
  refine ((((Paints.append ?_ ?_).append ?_).append ?_).append ?_)
  · exact paints_plain (by simpa using ⟨hoffset, by decide⟩)
  · exact paints_flatMap (fun i ↦ hspace.append (paints_styled (hcodes i) (hhex _))) _
  · exact paints_plain (by decide)
  · exact paints_flatMap (fun i ↦ paints_styled (hcodes i) (hshown _)) _
  · exact paints_plain (by decide)

theorem map_fst_marked (codes : List String) (cs : List Char) : (marked codes cs).map Prod.fst = cs := by
  rw [marked, List.map_map]
  exact List.map_id _

/-- Without its codes a row is the row without color. -/
theorem map_fst_paintedRow (t : Tape) (a : Tape.Address) (k : Nat) :
    (paintedRow t a k).map Prod.fst = rowAt false t a k := by
  simp [paintedRow, rowAt, placed_false, map_fst_marked, List.map_flatMap]

/-! ## The underline -/

theorem underline_mem_codesAt_iff {t : Tape} {a : Tape.Address} {p : Nat} (hp : t.index a = p)
    (hsize : p < t.size) {i : Nat} : "4" ∈ codesAt t a i ↔ i = p := by
  have hcolor : "4" ≠ regionCode (t.region i) := by
    cases t.region i with
    | storage | code => decide
    | data | unknown => exact show "4" ≠ "32" by decide
  rw [mem_codesAt, hp]
  constructor
  · rintro ⟨-, h | ⟨-, h⟩⟩
    · exact absurd h hcolor
    · omega
  · rintro rfl
    exact ⟨hsize, Or.inr ⟨rfl, rfl⟩⟩

theorem flatMap_ite_eq {α : Type} {is : List Nat} (h : is.Nodup) (p : Nat) (xs : List α) :
    (is.flatMap fun i ↦ if i = p then xs else []) = if p ∈ is then xs else [] := by
  induction is with
  | nil => rfl
  | cons i is ih =>
    obtain ⟨hi, his⟩ := List.nodup_cons.mp h
    rw [List.flatMap_cons, ih his]
    by_cases hip : i = p
    · subst hip
      simp [hi]
    · simp [hip, Ne.symm hip]

theorem filter_marked (codes : List String) (cs : List Char) :
    (marked codes cs).filter (·.2.contains "4") = if "4" ∈ codes then marked codes cs else [] := by
  split <;> rename_i h
  · exact List.filter_eq_self.mpr fun x hx ↦ by
      obtain ⟨c, -, rfl⟩ := List.mem_map.mp hx
      simpa using h
  · exact List.filter_eq_nil_iff.mpr fun x hx ↦ by
      obtain ⟨c, -, rfl⟩ := List.mem_map.mp hx
      simpa using h

/-- What is underlined in a row: if the data address is in it, its byte in both columns, and else nothing. -/
theorem filter_paintedRow {t : Tape} {a : Tape.Address} {p : Nat} (hp : t.index a = p)
    (hsize : p < t.size) (k : Nat) :
    (paintedRow t a k).filter (·.2.contains "4") =
      if k = p / 16 then
        marked (codesAt t a p) (Text.upperHexByte (byteAt t p) ++ [shown (byteAt t p)])
      else [] := by
  have hcolumn (text : Nat → List Char) :
      ((places k).flatMap fun i ↦ (marked (codesAt t a i) (text i)).filter (·.2.contains "4")) =
        if k = p / 16 then marked (codesAt t a p) (text p) else [] := by
    have hplace : ∀ i, (marked (codesAt t a i) (text i)).filter (·.2.contains "4") =
        if i = p then marked (codesAt t a p) (text p) else [] := by
      intro i
      have hunderline := underline_mem_codesAt_iff hp hsize (i := i)
      rw [filter_marked]
      by_cases hi : i = p
      · rw [if_pos (hunderline.mpr hi), if_pos hi, hi]
      · rw [if_neg (mt hunderline.mp hi), if_neg hi]
    simp only [hplace, flatMap_ite_eq (nodup_places k) p, mem_places]
  have hplain : ∀ cs, (marked [] cs).filter (·.2.contains "4") = [] := fun cs ↦ by
    rw [filter_marked, if_neg List.not_mem_nil]
  simp only [paintedRow, List.filter_append, List.filter_flatMap, hplain, List.nil_append,
    List.append_nil]
  rw [hcolumn fun i ↦ Text.upperHexByte (byteAt t i), hcolumn fun i ↦ [shown (byteAt t i)]]
  split
  · exact List.map_append.symm
  · rfl

/-! ## The dump of a tape -/

/-- The dump with color, as it is painted. -/
theorem paint_text? (t : Tape) (a : Tape.Address) :
    ∃ colored, text? true (t.snapshot a) = some colored ∧
      paint [] none colored.toList = (List.range (rowCount t.size)).flatMap (paintedRow t a) := by
  refine ⟨_, text?_snapshot true t a, ?_⟩
  rw [String.toList_ofList]
  exact (paints_flatMap (paints_rowAt t a) _).paint_eq

/-- **Colors only decorate.**  The dumps of a tape with and without color are written in full to every output
that does not fail.  Without its escape sequences the first is the second.  In the first, both texts for
an index carry the color of its region, and the underline if it is that of the data address, while offsets,
signs and padding carry nothing.

So for an address in the data region a single byte is underlined, once in each column. -/
theorem coloring_decorates (t : Tape) (a : Tape.Address) :
    ∃ colored plain : String,
      text? true (t.snapshot a) = some colored ∧ Renders true (t.snapshot a) colored ∧
      text? false (t.snapshot a) = some plain ∧ Renders false (t.snapshot a) plain ∧
      withoutEscapes false colored.toList = plain.toList ∧
      paint [] none colored.toList =
        (List.range ((t.size + 15) / 16)).flatMap (paintedRow t a) ∧
      (0 ≤ a.offset → a.offset < t.dataLength →
        ∃ b, t.cell? a = some b ∧
          ((paint [] none colored.toList).filter (·.2.contains "4")).map Prod.fst =
            Text.upperHexByte b ++ [shown b]) := by
  obtain ⟨colored, hcolored, hpaint⟩ := paint_text? t a
  have hplain := text?_snapshot false t a
  refine ⟨colored, _, hcolored, renders_of_text? hcolored, hplain, renders_of_text? hplain, ?_,
    hpaint, fun hlow hhigh ↦ ?_⟩
  · have hstripped := map_fst_paint [] none colored.toList
    rw [hpaint, List.map_flatMap] at hstripped
    simpa [map_fst_paintedRow] using hstripped.symm
  · -- the index of the address is on the tape, and so it has a place in one of the rows
    obtain ⟨p, hp⟩ : ∃ p : Nat, t.index a = p :=
      Int.eq_ofNat_of_zero_le (by simp only [Tape.index]; omega)
    have hsize : p < t.size := by
      simp only [Tape.index, Tape.dataLength] at hp hhigh
      omega
    have hrow : p / 16 ∈ List.range (rowCount t.size) := by
      rw [List.mem_range, rowCount]
      omega
    refine ⟨byteAt t p, by rw [Tape.cell?, hp, t.get?_eq_getD hsize, byteAt], ?_⟩
    rw [hpaint, List.filter_flatMap]
    simp only [filter_paintedRow hp hsize, flatMap_ite_eq List.nodup_range, if_pos hrow,
      map_fst_marked]

/-- A program that is itself an escape sequence, and underlines nothing. -/
theorem coloring_decorates_sequence :
    let t := Tape.ofProgram [0x1b, 0x5b, 0x34, 0x6d] 2
    ∃ colored : String, text? true (t.snapshot ⟨1⟩) = some colored ∧ t.cell? ⟨1⟩ = some 0 ∧
      ((paint [] none colored.toList).filter (·.2.contains "4")).map Prod.fst = ['0', '0', '.'] := by
  intro t
  obtain ⟨colored, plain, hcolored, -, -, -, -, -, hunderlined⟩ := coloring_decorates t ⟨1⟩
  obtain ⟨b, hb, hchars⟩ := hunderlined (by decide) (by decide)
  obtain rfl : (0 : UInt8) = b := Option.some.inj (Eq.trans (by decide) hb)
  exact ⟨colored, hcolored, hb, hchars.trans (by decide)⟩

end TapeMachine.Dump
