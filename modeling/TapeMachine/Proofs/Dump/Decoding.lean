import TapeMachine.Proofs.Dump.Rendering

/-!
# Reading a dump

A dump without color can be read back.  Its text is cut into lines, and a line is read by its second column
alone: the offset ends at the first space, and then each field of a space and two digits is a byte, up to the
second of the two spaces in front of the third column (`readLine?`).

Neither the characters of the third column nor the padding are in the way.  A byte is never shown as a line
end, so each row is one line (`text?_plain`), and the padding is read as zeros.  These are all that is read
beyond the bytes of the tape (`map_byteAt`), so that the length of a tape and its dump determine its bytes.
Where its regions begin is not in the dump.
-/

set_option autoImplicit false
namespace TapeMachine.Dump

/-! ## A reader of dumps -/

/-- Reads the fields at the front of a text, each of them a space and two digits, up to the first thing that
is no field. -/
def readFields : List Char → List UInt8
  | ' ' :: c :: d :: rest =>
    match Text.hexNumber? [c, d] with
    | some n => UInt8.ofNat n :: readFields rest
    | none => []
  | _ => []

/-- Reads the offset of a line and its bytes. -/
def readLine? (line : List Char) : Option (Nat × List UInt8) :=
  (Text.hexNumber? (line.takeWhile (· ≠ ' '))).map fun offset ↦
    (offset, readFields (line.dropWhile (· ≠ ' ')).tail)

/-- Reads all lines of a dump, each of which has a line end. -/
def readDump? (text : String) : Option (List (Nat × List UInt8)) :=
  (text.toList.splitOn '\n').dropLast.mapM readLine?

/-! ## Plain lines -/

/-- Line `k` of a dump without color, which shows sixteen bytes: the offset, a field for each byte, and a
character for each byte. -/
def plainLine (k : Nat) (bytes : List UInt8) : List Char :=
  Text.paddedHex 8 (16 * k : Nat) ++ [' '] ++
    bytes.flatMap (fun b ↦ ' ' :: Text.upperHexByte b) ++
    [' ', ' ', '|'] ++
    bytes.map shown ++
    ['|']

/-- The bytes that row `k` shows for a tape. -/
def groupAt (t : Tape) (k : Nat) : List UInt8 :=
  (places k).map (byteAt t)

/-- Without color a row is a plain line. -/
theorem rowAt_false (t : Tape) (a : Tape.Address) (k : Nat) :
    rowAt false t a k = plainLine k (groupAt t k) ++ ['\n'] := by
  simp [rowAt, plainLine, groupAt, placed_false, List.flatMap_map, ← List.map_eq_flatMap]

/-- A plain line can be printed. -/
theorem printable_plainLine (k : Nat) (bytes : List UInt8) : ∀ c ∈ plainLine k bytes, Printable c := by
  have hspace : Printable ' ' := by decide
  have hbar : Printable '|' := by decide
  intro c hc
  simp only [plainLine, List.mem_append] at hc
  rcases hc with ((((hc | hc) | hc) | hc) | hc) | hc
  · exact printable_of_isHex (Text.isHex_paddedHex 8 _) hc
  · exact List.mem_singleton.mp hc ▸ hspace
  · obtain ⟨b, -, hc⟩ := List.mem_flatMap.mp hc
    rcases List.mem_cons.mp hc with rfl | hc
    · exact hspace
    · exact printable_of_isHex (Text.isHex_upperHexByte b) hc
  · simp only [List.mem_cons, List.not_mem_nil, or_false] at hc
    rcases hc with rfl | rfl | rfl <;> assumption
  · obtain ⟨b, -, rfl⟩ := List.mem_map.mp hc
    exact printable_shown b
  · exact List.mem_singleton.mp hc ▸ hbar

theorem newline_not_mem_plainLine (k : Nat) (bytes : List UInt8) : '\n' ∉ plainLine k bytes :=
  fun h ↦ absurd (printable_plainLine k bytes _ h) (by decide)

/-! ## Reading plain lines -/

/-- A space is no digit, so the fields end at the second of two spaces. -/
theorem readFields_spaces (d : Char) (rest : List Char) : readFields (' ' :: ' ' :: d :: rest) = [] := by
  have hdigit : Text.isDigitIn 16 ' ' = false := by decide
  have hnone : Text.hexNumber? [' ', d] = none := by
    rw [Text.hexNumber?, if_neg (by simp [hdigit])]
  rw [readFields, hnone]

theorem readFields_append (bytes : List UInt8) (d : Char) (rest : List Char) :
    readFields (bytes.flatMap (fun b ↦ ' ' :: Text.upperHexByte b) ++ ' ' :: ' ' :: d :: rest) =
      bytes := by
  induction bytes with
  | nil => exact readFields_spaces d rest
  | cons b bytes ih =>
    have hbyte := Text.hexNumber?_upperHexByte b
    rw [Text.upperHexByte] at hbyte
    rw [List.flatMap_cons, Text.upperHexByte, List.append_assoc, List.cons_append, List.cons_append,
      List.cons_append, List.nil_append, readFields, hbyte, ih]
    exact congrArg (· :: bytes) UInt8.ofNat_toNat

/-- **A plain line is read as its offset and its bytes.** -/
theorem readLine?_plainLine (k : Nat) (bytes : List UInt8) :
    readLine? (plainLine k bytes) = some (16 * k, bytes) := by
  have hshape : plainLine k bytes = Text.paddedHex 8 (16 * k : Nat) ++
      ' ' :: (bytes.flatMap (fun b ↦ ' ' :: Text.upperHexByte b) ++
        ' ' :: ' ' :: '|' :: (bytes.map shown ++ ['|'])) := by
    simp [plainLine]
  have hoffset : ∀ c ∈ Text.paddedHex 8 (16 * k : Nat), decide (c ≠ ' ') = true := by
    intro c hc
    obtain ⟨d, hd, rfl⟩ := Text.isHex_paddedHex 8 _ c hc
    refine decide_eq_true fun hspace ↦ ?_
    have hdigit := (Text.toNat_upperHexDigit hd).1
    rw [hspace] at hdigit
    exact absurd hdigit (by decide)
  have htake : ∀ cs, (' ' :: cs).takeWhile (· ≠ ' ') = [] := fun _ ↦ rfl
  have hdrop : ∀ cs, (' ' :: cs).dropWhile (· ≠ ' ') = ' ' :: cs := fun _ ↦ rfl
  rw [readLine?, hshape, List.takeWhile_append_of_pos hoffset, htake, List.append_nil,
    List.dropWhile_append_of_pos hoffset, hdrop, Text.hexNumber?_paddedHex, List.tail_cons,
    readFields_append, Option.map_some]

/-! ## Reading the dump of a tape -/

/-- Texts that hold no line end, each with a line end behind it, are the lines of what they make up. -/
theorem splitOn_flatMap {line : Nat → List Char} (h : ∀ k, '\n' ∉ line k) (ks : List Nat) :
    (ks.flatMap fun k ↦ line k ++ ['\n']).splitOn '\n' = ks.map line ++ [[]] := by
  induction ks with
  | nil => simp
  | cons k ks ih =>
    rw [List.flatMap_cons, List.append_assoc, List.singleton_append,
      List.splitOn_append_cons_self_of_not_mem (h k), ih, List.map_cons, List.cons_append]

/-- The bytes at the indices up to the end of a tape and beyond: those of the tape, and then zeros. -/
theorem map_byteAt (t : Tape) {n : Nat} (h : t.size ≤ n) :
    (List.range n).map (byteAt t) = t.bytes.toList ++ List.replicate (n - t.size) 0 := by
  obtain ⟨z, rfl⟩ : ∃ z, n = t.size + z := ⟨n - t.size, by omega⟩
  rw [List.range_add, List.map_append, List.map_map, Nat.add_sub_cancel_left]
  congr 1
  · refine List.ext_getElem (by simp) fun i hi _ ↦ ?_
    have hsize : i < t.bytes.size := by simpa using hi
    simp [byteAt, hsize]
  · have hzero := List.map_eq_replicate_iff (l := List.range z) (f := byteAt t ∘ (t.size + ·)) (b := 0)
    rw [hzero.mpr fun i _ ↦ byteAt_of_le (Nat.le_add_right _ _), List.length_range]

theorem flatMap_groupAt (t : Tape) :
    (List.range (rowCount t.size)).flatMap (groupAt t) =
      t.bytes.toList ++ List.replicate (16 * rowCount t.size - t.size) 0 := by
  have hplaces : (List.range (rowCount t.size)).flatMap (groupAt t) =
      ((List.range (rowCount t.size)).flatMap places).map (byteAt t) := by
    rw [List.map_flatMap]
    rfl
  rw [hplaces, flatMap_places, map_byteAt t (by simp only [rowCount]; omega)]

/-- The lines of the dump of a tape. -/
theorem text?_plain (t : Tape) (a : Tape.Address) :
    ∃ text, text? false (t.snapshot a) = some text ∧
      text.toList.splitOn '\n' =
        (List.range (rowCount t.size)).map (fun k ↦ plainLine k (groupAt t k)) ++ [[]] := by
  refine ⟨_, text?_snapshot false t a, ?_⟩
  rw [String.toList_ofList, show rowAt false t a = _ from funext (rowAt_false t a)]
  exact splitOn_flatMap (fun k ↦ newline_not_mem_plainLine k _) _

theorem readDump?_of_lines {text : String} {n : Nat} {group : Nat → List UInt8}
    (h : text.toList.splitOn '\n' = (List.range n).map (fun k ↦ plainLine k (group k)) ++ [[]]) :
    readDump? text = some ((List.range n).map fun k ↦ (16 * k, group k)) := by
  rw [readDump?, h, List.dropLast_concat]
  induction List.range n with
  | nil => rfl
  | cons k ks ih =>
    rw [List.map_cons, List.mapM_cons, readLine?_plainLine, ih]
    rfl

/-- Tapes of one length that have the same dump hold the same bytes. -/
theorem bytes_eq_of_text? {t t' : Tape} {a a' : Tape.Address} (hsize : t.size = t'.size)
    (h : text? false (t.snapshot a) = text? false (t'.snapshot a')) : t.bytes = t'.bytes := by
  obtain ⟨text, htext, hlines⟩ := text?_plain t a
  obtain ⟨text', htext', hlines'⟩ := text?_plain t' a'
  obtain rfl : text = text' := Option.some.inj (htext.symm.trans (h.trans htext'))
  have hread := (readDump?_of_lines hlines).symm.trans (readDump?_of_lines hlines')
  have hgroups := congrArg (·.flatMap Prod.snd) (Option.some.inj hread)
  simp only [List.flatMap_map] at hgroups
  have hbytes := (flatMap_groupAt t).symm.trans (hgroups.trans (flatMap_groupAt t'))
  exact Array.toList_inj.mp (List.append_inj_left hbytes (by simpa using hsize))

/-- **A dump without color can be read back.**  The dump of a tape is written in full to every output that
does not fail.  It has a line for every sixteen bytes: the offset in eight digits or more and a space,
sixteen fields of a space and two digits, two spaces, and between bars the same sixteen bytes as characters,
where those that cannot be printed are dots.  Read back, the lines give their offsets and their groups of
sixteen bytes, and these together are the bytes of the tape, followed by fewer than sixteen zeros.

So the bytes of a tape are determined by their number and by the dump, and with them the whole tape, if it is
known where the data begin. -/
theorem dump_readable :
    (∀ (t : Tape) (a : Tape.Address), ∃ (text : String) (group : Nat → List UInt8) (padding : Nat),
      text? false (t.snapshot a) = some text ∧
      Renders false (t.snapshot a) text ∧
      text.toList.splitOn '\n' =
        ((List.range ((t.size + 15) / 16)).map fun k ↦
          Text.paddedHex 8 (16 * k : Nat) ++ [' '] ++
            (group k).flatMap (fun b ↦ ' ' :: Text.upperHexByte b) ++
            [' ', ' ', '|'] ++
            (group k).map (fun b ↦
              if 32 ≤ b.toNat ∧ b.toNat ≤ 126 then Char.ofNat b.toNat else '.') ++
            ['|']) ++ [[]] ∧
      readDump? text = some ((List.range ((t.size + 15) / 16)).map fun k ↦ (16 * k, group k)) ∧
      (∀ k, (group k).length = 16) ∧
      (List.range ((t.size + 15) / 16)).flatMap group =
        t.bytes.toList ++ List.replicate padding 0 ∧
      padding < 16) ∧
    ∀ (t t' : Tape) (a a' : Tape.Address), t.size = t'.size →
      text? false (t.snapshot a) = text? false (t'.snapshot a') →
      t.bytes = t'.bytes ∧ (t.dataStart = t'.dataStart → t = t') := by
  refine ⟨fun t a ↦ ?_, fun t t' a a' hsize h ↦ ?_⟩
  · obtain ⟨text, htext, hlines⟩ := text?_plain t a
    refine ⟨text, groupAt t, 16 * rowCount t.size - t.size, htext, renders_of_text? htext, hlines,
      readDump?_of_lines hlines, fun k ↦ ?_, flatMap_groupAt t, ?_⟩
    · simp [groupAt, places]
    · simp only [rowCount]
      omega
  · have hbytes := bytes_eq_of_text? hsize h
    refine ⟨hbytes, fun hstart ↦ ?_⟩
    cases t
    cases t'
    cases hbytes
    cases hstart
    rfl

/-- A tape that was written to, and one that was built with these bytes. -/
theorem dump_readable_written :
    let t := (Tape.ofProgram [0x41, 0x42] 15).put 2 0x7f
    let t' := Tape.ofProgram [0x41, 0x7f] 15
    t.size = t'.size ∧ text? false (t.snapshot ⟨0⟩) = text? false (t'.snapshot ⟨14⟩) ∧ t = t' := by
  intro t t'
  have hsize : t.size = t'.size := rfl
  have htext : text? false (t.snapshot ⟨0⟩) = text? false (t'.snapshot ⟨14⟩) := by decide +kernel
  obtain ⟨-, heq⟩ := dump_readable.2 t t' ⟨0⟩ ⟨14⟩ hsize htext
  exact ⟨hsize, htext, heq rfl⟩

end TapeMachine.Dump
