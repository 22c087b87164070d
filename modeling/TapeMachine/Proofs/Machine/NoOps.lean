import TapeMachine.Proofs.Machine.View
import TapeMachine.Proofs.Tape.Marks

/-!
# Bytes that do nothing

Most bytes do nothing at a given level, and a program may be full of them.  `strip` takes them out, and
`endsMatch_strip` says that no run can tell: it ends in the same way, with the same cells, the same halt flag
and the same calls to the channel, and if it ends with a fault, it is the same operator that failed, from
the same cause.

The relation that holds all along a run is `Follows`.  Both machines show the same view, and they stand at
the same cut of the marked tape; so the machine on the full program may be in front of a byte that the
other one does not have.  There are then two things to know.

* In front of such a byte the first machine moves on alone, and as there are finitely many of them it
  catches up (`Follows.exists_synced`).
* In front of any other byte the two do the same (`Follows.tick`): the operator is the same, its effect on
  the view is the same, and a scan leads to the same cut, wherever on the tape that may be.
-/

set_option autoImplicit false
namespace TapeMachine

open Operator (loopByte againByte decode)

/-- Whether a byte does something at an extend level. -/
def acts (extend : Int) (b : UInt8) : Bool :=
  decode extend b ≠ .nop

/-- A program without the bytes that do nothing at an extend level. -/
def strip (extend : Int) (program : List UInt8) : List UInt8 :=
  program.filter (acts extend)

theorem decode_of_not_acts {extend : Int} {b : UInt8} (h : acts extend b = false) :
    decode extend b = .nop := by
  simpa [acts] using h

theorem keepsBrackets_marks (extend : Int) (t : Tape) : KeepsBrackets (t.marks (acts extend)) := by
  intro x hx hkept
  have hnop := decode_of_not_acts (Tape.keep_of_mem_marks hx hkept)
  constructor
  · intro hb
    rw [hb, Operator.decode_of_core rfl] at hnop
    cases hnop
  · intro hb
    rw [hb, Operator.decode_of_core rfl] at hnop
    cases hnop

/-! ## Cuts -/

section Cuts

variable {k l u w : List Bool}

/-- Behind the end of a region of the full tape is behind the end of it on the short tape. -/
theorem count_le_count_of_append (h : k ++ l = u ++ w) (hle : k.length ≤ u.length) :
    k.count true ≤ u.count true :=
  (List.prefix_of_prefix_length_le ⟨l, h⟩ ⟨w, rfl⟩ hle).sublist.count_le true

/-- A byte that is kept lies inside the same regions on both tapes. -/
theorem count_lt_count_of_append (h : k ++ l = u ++ true :: w) (hlt : u.length < k.length) :
    u.count true < k.count true := by
  have hsub : (u ++ [true]).Sublist k := by
    have hcut : u ++ [true] ++ w = k ++ l := by
      rw [h, List.append_assoc]
      rfl
    refine (List.prefix_of_prefix_length_le ⟨w, hcut⟩ ⟨l, rfl⟩ ?_).sublist
    rw [List.length_append, List.length_singleton]
    omega
  have hcount := hsub.count_le true
  rw [List.count_append, List.count_singleton_self] at hcount
  omega

end Cuts

namespace Machine

/-! ## The relation -/

/-- Two machines show the same view and stand at the same cut of the tape, the one with all bytes of its
program and the other without those that do nothing. -/
structure Follows (v : View) (u w : List Bool) (m s : Machine) : Prop where
  bare : m.Bare
  bare' : s.Bare
  shows : m.Shows v
  shows' : s.Shows v
  extend : s.options.extend = m.options.extend
  code : s.tape.code = strip m.options.extend m.tape.code
  keeps : m.tape.keeps (acts m.options.extend) = u ++ w
  ip : m.ip = u.length
  ip' : s.ip = u.count true

namespace Follows

variable {v v₁ : View} {u w : List Bool} {m s m₁ s₁ : Machine}

/-- What operators other than brackets do to both machines at once. -/
theorem kept (h : Follows v u w m s) (hk : Kept m m₁) (hk' : Kept s s₁) (hs : m₁.Shows v₁)
    (hs' : s₁.Shows v₁) : Follows v₁ u w m₁ s₁ := by
  have hlen : m₁.tape.data.length = m.tape.data.length := by
    have hsize := m₁.tape.size_eq
    rw [hk.size, hk.code, m.tape.size_eq] at hsize
    omega
  refine ⟨h.bare.kept hk, h.bare'.kept hk', hs, hs', ?_, ?_, ?_, hk.ip.trans h.ip,
    hk'.ip.trans h.ip'⟩
  · rw [hk.options, hk'.options]
    exact h.extend
  · rw [hk.options, hk.code, hk'.code]
    exact h.code
  · rw [hk.options, Tape.keeps, hk.code, hlen]
    exact h.keeps

/-- Both machines at another cut, whatever they have counted. -/
theorem place {u₁ w₁ : List Bool} (h : Follows v u w m s) (hcut : u ++ w = u₁ ++ w₁) {i j : Int}
    (hi : i = u₁.length) (hj : j = u₁.count true) (a b : Nat) :
    Follows v u₁ w₁ { m with ip := i, ticks := a } { s with ip := j, ticks := b } where
  bare := ⟨h.bare.tickLimit, h.bare.jumps, h.bare.isWord⟩
  bare' := ⟨h.bare'.tickLimit, h.bare'.jumps, h.bare'.isWord⟩
  shows := ⟨h.shows.storage, h.shows.data, h.shows.ptr, h.shows.halted⟩
  shows' := ⟨h.shows'.storage, h.shows'.data, h.shows'.ptr, h.shows'.halted⟩
  extend := h.extend
  code := h.code
  keeps := h.keeps.trans hcut
  ip := hi
  ip' := hj

theorem data (h : Follows v u w m s) : s.tape.data = m.tape.data :=
  h.shows'.data.trans h.shows.data.symm

theorem storage (h : Follows v u w m s) : s.tape.storage = m.tape.storage :=
  h.shows'.storage.trans h.shows.storage.symm

theorem size (h : Follows v u w m s) : m.tape.size = u.length + w.length := by
  rw [← Tape.length_keeps (acts m.options.extend), h.keeps, List.length_append]

theorem size' (h : Follows v u w m s) : s.tape.size = u.count true + w.count true := by
  rw [← Tape.count_keeps h.code h.data, h.keeps, List.count_append]

theorem ip_advance {b : Bool} (h : Follows v u (b :: w) m s) :
    m.advance.ip = ((u ++ [b]).length : Nat) := by
  have hsize := h.size
  rw [List.length_cons] at hsize
  rw [List.length_append, List.length_singleton, Machine.advance, h.ip]
  exact h.bare.wrap_succ (by omega)

/-- Both machines move on from a byte that both have. -/
theorem advance (h : Follows v u (true :: w) m s) :
    Follows v (u ++ [true]) w m.advance s.advance := by
  refine h.place (List.append_cons u true w) h.ip_advance ?_ _ _
  have hsize := h.size'
  rw [List.count_cons_self] at hsize
  rw [h.ip', List.count_append, List.count_singleton_self]
  exact h.bare'.wrap_succ (by omega)

/-- The machine on the full program moves on from a byte that the other one does not have. -/
theorem advance_left (h : Follows v u (false :: w) m s) :
    Follows v (u ++ [false]) w m.advance s := by
  refine h.place (List.append_cons u false w) h.ip_advance ?_ _ s.ticks
  rw [List.count_append]
  exact h.ip'

/-! ## Stopping -/

/-- A machine runs while it is inside one part of its tape, which is all of it or all but the data cells,
and the part is the same for both. -/
theorem exists_region (h : Follows v u w m s) : ∃ (k l : List Bool) (awake : Prop),
    k ++ l = u ++ w ∧ (m.isRunning = true ↔ awake ∧ u.length < k.length) ∧
      (s.isRunning = true ↔ awake ∧ u.count true < k.count true) := by
  have hhalted : s.halted = m.halted := h.shows'.halted.trans h.shows.halted.symm
  by_cases he : 1 ≤ m.options.extend
  · refine ⟨m.tape.keeps (acts m.options.extend), [], m.halted = false, ?_, ?_, ?_⟩
    · rw [List.append_nil]
      exact h.keeps
    · rw [isRunning, if_pos he, Tape.length_keeps, h.ip]
      simp
    · rw [isRunning, h.extend, if_pos he, hhalted, Tape.count_keeps h.code h.data, h.ip']
      simp
  · refine ⟨true :: m.tape.code.map (acts m.options.extend), _, True, h.keeps, ?_, ?_⟩
    · rw [isRunning, if_neg he, h.ip, m.tape.dataStart_eq, List.length_cons, List.length_map,
        decide_eq_true_iff, true_and]
      omega
    · rw [isRunning, h.extend, if_neg he, h.ip', s.tape.dataStart_eq, h.code, List.count_cons_self,
        Tape.count_map_keep, strip, decide_eq_true_iff, true_and]
      omega

/-- Where the machine on the full program stops, the other one does. -/
theorem stopped (h : Follows v u w m s) (hr : m.isRunning = false) : s.isRunning = false := by
  obtain ⟨k, l, awake, hcut, hm, hs⟩ := h.exists_region
  rw [← Bool.not_eq_true, hm] at hr
  rw [← Bool.not_eq_true, hs]
  rintro ⟨hawake, hlt⟩
  have hle : k.length ≤ u.length := Nat.le_of_not_lt fun h ↦ hr ⟨hawake, h⟩
  have hcount := count_le_count_of_append hcut hle
  omega

/-- In front of a byte that both have, both run. -/
theorem running (h : Follows v u (true :: w) m s) (hr : m.isRunning = true) :
    s.isRunning = true := by
  obtain ⟨k, l, awake, hcut, hm, hs⟩ := h.exists_region
  obtain ⟨hawake, hlt⟩ := hm.1 hr
  exact hs.2 ⟨hawake, count_lt_count_of_append hcut hlt⟩

/-! ## The byte at the cut -/

/-- The byte that the cut is in front of, on both tapes. -/
theorem exists_mark {b : Bool} (h : Follows v u (b :: w) m s) : ∃ p x q,
    m.tape.marks (acts m.options.extend) = p ++ x :: q ∧ x.kept = b ∧
      m.tape.bytes.toList = allBytes (p ++ x :: q) ∧ s.tape.bytes.toList = keptBytes (p ++ x :: q) ∧
      m.ip = p.length ∧ s.ip = (keptBytes p).length := by
  obtain ⟨p, x, q, hmarks, hx, hlen, hcount⟩ := Tape.exists_marks h.keeps
  refine ⟨p, x, q, hmarks, hx, ?_, ?_, ?_, ?_⟩
  · rw [← hmarks, Tape.allBytes_marks]
  · rw [← hmarks, Tape.keptBytes_marks h.storage h.code h.data]
  · rw [h.ip, hlen]
  · rw [h.ip', hcount]

/-- A byte that only the full program has does nothing. -/
theorem opcode_eq_nop (h : Follows v u (false :: w) m s) : m.opcode = .nop := by
  obtain ⟨p, x, q, hmarks, hx, hm, -, hip, -⟩ := h.exists_mark
  rw [allBytes_append, allBytes_cons] at hm
  have hmem : x ∈ m.tape.marks (acts m.options.extend) := by
    rw [hmarks]
    simp
  rw [opcode, hip, ← length_allBytes p, Tape.get?_of_toList hm, Option.getD_some]
  exact decode_of_not_acts (Tape.keep_of_mem_marks hmem hx)

/-- A byte that both programs have is the same operator. -/
theorem opcode_eq (h : Follows v u (true :: w) m s) : s.opcode = m.opcode := by
  obtain ⟨p, x, q, -, hx, hm, hs, hip, hip'⟩ := h.exists_mark
  rw [allBytes_append, allBytes_cons] at hm
  rw [keptBytes_append, keptBytes_cons_of_kept hx] at hs
  rw [opcode, opcode, hip, hip', h.extend, ← length_allBytes p, Tape.get?_of_toList hm,
    Tape.get?_of_toList hs]

/-- A scan from it comes to the same on both tapes. -/
theorem sameScan (h : Follows v u (true :: w) m s) (d : Direction) :
    SameScan (m.tape.marks (acts m.options.extend)) (d.scan m.tape m.ip) (d.scan s.tape s.ip) := by
  obtain ⟨p, x, q, hmarks, hx, hm, hs, hip, hip'⟩ := h.exists_mark
  have hbrackets := keepsBrackets_marks m.options.extend m.tape
  rw [hmarks] at hbrackets ⊢
  cases d with
  | forward =>
    rw [Direction.scan, hip, hip']
    exact Tape.scanForward_kept h.bare.isWord h.bare'.isWord hm hs hx hbrackets
  | backward =>
    rw [Direction.scan, hip, hip']
    exact Tape.scanBackward_kept h.bare.isWord h.bare'.isWord hm hs hx hbrackets

end Follows

/-! ## One step -/

variable {σ : Type}

/-- What two ticks come to that go alike. -/
inductive TickAlike : Step σ Bool → Step σ Bool → Prop
  | ok {v : View} {u w : List Bool} {m s : Machine} {c : σ} {b b' : Bool} (h : Follows v u w m s) :
      TickAlike ⟨m, c, .ok b⟩ ⟨s, c, .ok b'⟩
  | fault {v : View} {m s : Machine} {c : σ} {i j : Int} {op : Operator} {e : Error}
      (h : m.Shows v) (h' : s.Shows v) :
      TickAlike ⟨m, c, .error (.fault i op e)⟩ ⟨s, c, .error (.fault j op e)⟩

namespace Follows

variable [Channel σ] {v : View} {u w : List Bool} {m s : Machine}

/-- A bracket that both programs have. -/
theorem tick_bracket (h : Follows v u (true :: w) m s) (hr : m.isRunning = true) {d : Direction}
    (hop : m.opcode = d.operator) (c : σ) : TickAlike (m.tick c) (s.tick c) := by
  have hr' := h.running hr
  have hop' := h.opcode_eq.trans hop
  cases ht : d.takes v.memory.cell with
  | false =>
    rw [h.bare.tick_pass h.shows hr hop ht, h.bare'.tick_pass h.shows' hr' hop' ht]
    exact .ok h.advance
  | true =>
    rw [h.bare.tick_jump h.shows hr hop ht, h.bare'.tick_jump h.shows' hr' hop' ht]
    have hscan := h.sameScan d
    generalize d.scan m.tape m.ip = r at hscan
    generalize d.scan s.tape s.ip = r' at hscan
    cases hscan with
    | unmatched => exact .fault h.shows h.shows'
    | @found p q x hmarks hx =>
      -- this cut may be anywhere on the tape, also among the data cells or before the program
      have hcut : u ++ true :: w = p.map Mark.kept ++ true :: q.map Mark.kept := by
        rw [← h.keeps, ← Tape.map_kept_marks, hmarks, List.map_append, List.map_cons, hx]
      have hm := h.place hcut (i := p.length) (j := (keptBytes p).length)
        (by rw [List.length_map]) (by rw [length_keptBytes]) m.ticks s.ticks
      exact .ok hm.advance

/-- **In front of a byte that both programs have, both machines do the same.** -/
theorem tick (h : Follows v u (true :: w) m s) (hr : m.isRunning = true) (c : σ) :
    TickAlike (m.tick c) (s.tick c) := by
  by_cases hloop : m.opcode = .loop
  · exact h.tick_bracket (d := .forward) hr hloop c
  · by_cases hagain : m.opcode = .again
    · exact h.tick_bracket (d := .backward) hr hagain c
    · obtain ⟨m₁, hs, hk, ht⟩ := h.bare.tick_act h.shows hr hloop hagain c
      have hop := h.opcode_eq
      rw [← hop] at hloop hagain
      obtain ⟨s₁, hs', hk', ht'⟩ := h.bare'.tick_act h.shows' (h.running hr) hloop hagain c
      rw [hop] at hs' ht'
      rw [ht, ht']
      generalize v.act m.opcode c = r at hs hs'
      obtain ⟨v₁, c₁, o⟩ := r
      cases o with
      | ok => exact .ok (h.kept hk hk' hs hs').advance
      | error e => exact .fault hs hs'

theorem tick_of_not_kept (h : Follows v u (false :: w) m s) (hr : m.isRunning = true) (c : σ) :
    m.tick c = ⟨m.advance, c, .ok (!m.advance.isRunning)⟩ := by
  rw [h.bare.tick hr, h.opcode_eq_nop]
  rfl

theorem stopped_of_nil (h : Follows v u [] m s) : m.isRunning = false := by
  obtain ⟨k, l, awake, hcut, hm, -⟩ := h.exists_region
  have hlen := congrArg List.length hcut
  rw [List.length_append, List.append_nil] at hlen
  rw [← Bool.not_eq_true, hm]
  omega

/-- **The machine on the full program catches up**: it stops, or it comes to a byte that both have. -/
theorem exists_synced (c : σ) (h : Follows v u w m s) : ∃ n m₁, Runs n m c m₁ c ∧
    ((m₁.isRunning = false ∧ ∃ u w, Follows v u w m₁ s) ∨
      (m₁.isRunning = true ∧ ∃ u w, Follows v u (true :: w) m₁ s)) := by
  induction w generalizing u m with
  | nil => exact ⟨0, m, .refl, Or.inl ⟨h.stopped_of_nil, u, [], h⟩⟩
  | cons b w ih =>
    cases hr : m.isRunning with
    | false => exact ⟨0, m, .refl, Or.inl ⟨hr, u, b :: w, h⟩⟩
    | true =>
      cases b with
      | true => exact ⟨0, m, .refl, Or.inr ⟨hr, u, w, h⟩⟩
      | false =>
        -- the other machine stands still, and less of the tape is left
        obtain ⟨n, m₁, hruns, hsynced⟩ := ih h.advance_left
        exact ⟨n + 1, m₁, .tick hr (h.tick_of_not_kept hr c) hruns, hsynced⟩

end Follows

/-! ## Whole runs -/

/-- Two machines agree in everything that does not depend on their programs. -/
structure Alike (m s : Machine) : Prop where
  data : m.tape.data = s.tape.data
  ptr : m.ptr = s.ptr
  storage : m.tape.storage = s.tape.storage
  halted : m.halted = s.halted

theorem Alike.symm {m s : Machine} (h : Alike m s) : Alike s m :=
  ⟨h.data.symm, h.ptr.symm, h.storage.symm, h.halted.symm⟩

theorem Shows.alike {m s : Machine} {v : View} (h : m.Shows v) (h' : s.Shows v) : Alike m s :=
  ⟨h.data.trans h'.data.symm, h.ptr.trans h'.ptr.symm, h.storage.trans h'.storage.symm,
    h.halted.trans h'.halted.symm⟩

variable [Channel σ]

/-- Two runs end alike: both succeed, or both end with the same operator failing from the same cause. -/
inductive EndAlike (m s : Machine) (c : σ) : Prop
  | ok {m' s' : Machine} {c' : σ} (h : m.Returns c m' c' (.ok ()))
      (h' : s.Returns c s' c' (.ok ())) (halike : Alike m' s')
  | fault {m' s' : Machine} {c' : σ} {i j : Int} {op : Operator} {e : Error}
      (h : m.Returns c m' c' (.error (.fault i op e)))
      (h' : s.Returns c s' c' (.error (.fault j op e))) (halike : Alike m' s')

namespace EndAlike

variable {m s m₁ s₁ : Machine} {c c₁ : σ}

theorem symm (h : EndAlike m s c) : EndAlike s m c := by
  cases h with
  | ok h h' halike => exact .ok h' h halike.symm
  | fault h h' halike => exact .fault h' h halike.symm

theorem of_runs {n k : Nat} (h : EndAlike m₁ s₁ c₁) (hm : Runs n m c m₁ c₁)
    (hs : Runs k s c s₁ c₁) : EndAlike m s c := by
  cases h with
  | ok h h' halike => exact .ok (hm.returns h) (hs.returns h') halike
  | fault h h' halike => exact .fault (hm.returns h) (hs.returns h') halike

/-- Jump tables make no difference. -/
theorem of_plain (h : EndAlike m.plain s.plain c) (hm : m.Sound) (hs : s.Sound) :
    EndAlike m s c := by
  cases h with
  | ok h h' halike =>
    obtain ⟨m', hret, rfl⟩ := (returns_plain_iff hm).mp h
    obtain ⟨s', hret', rfl⟩ := (returns_plain_iff hs).mp h'
    exact .ok hret hret' ⟨halike.data, halike.ptr, halike.storage, halike.halted⟩
  | fault h h' halike =>
    obtain ⟨m', hret, rfl⟩ := (returns_plain_iff hm).mp h
    obtain ⟨s', hret', rfl⟩ := (returns_plain_iff hs).mp h'
    exact .fault hret hret' ⟨halike.data, halike.ptr, halike.storage, halike.halted⟩

end EndAlike

namespace Follows

variable {v : View} {u w : List Bool} {m s : Machine}

/-- Either both runs are over, or there is one more byte that both programs have. -/
theorem next (h : Follows v u w m s) (c : σ) : EndAlike m s c ∨
    ∃ n m₁ s₁ c₁ v₁ u₁ w₁, Runs (n + 1) m c m₁ c₁ ∧ Runs 1 s c s₁ c₁ ∧
      Follows v₁ u₁ w₁ m₁ s₁ := by
  obtain ⟨n, m₁, hruns, ⟨hstop, u₁, w₁, h₁⟩ | ⟨hr, u₁, w₁, h₁⟩⟩ := h.exists_synced c
  · have hend : EndAlike m₁ s c := .ok (Ends.stop hstop).returns
      (Ends.stop (h₁.stopped hstop)).returns (h₁.shows.alike h₁.shows')
    exact Or.inl (hend.of_runs hruns .refl)
  · have htick := h₁.tick hr c
    have hr' := h₁.running hr
    obtain ⟨t, ht⟩ : ∃ t, m₁.tick c = t := ⟨_, rfl⟩
    obtain ⟨t', ht'⟩ : ∃ t', s.tick c = t' := ⟨_, rfl⟩
    rw [ht, ht'] at htick
    cases htick with
    | ok h₂ =>
      exact Or.inr ⟨n, _, _, _, _, _, _, hruns.trans (.single hr ht), .single hr' ht', h₂⟩
    | fault hs hs' =>
      have hend : EndAlike m₁ s c := .fault (Ends.error ht).returns (Ends.error ht').returns
        (hs.alike hs')
      exact Or.inl (hend.of_runs hruns .refl)

/-- **If one of the two runs ends, they end alike.** -/
theorem endAlike_of_ends (k : Nat) : ∀ {v : View} {u w : List Bool} {m s m' : Machine} {c c' : σ}
    {o : Outcome Unit}, Follows v u w m s → Ends k m c m' c' o ∨ Ends k s c m' c' o →
      EndAlike m s c := by
  induction k using Nat.strongRecOn with
  | ind k ih =>
    intro v u w m s m' c c' o h hends
    rcases h.next c with hend | ⟨n, m₁, s₁, c₁, v₁, u₁, w₁, hm, hs, h₁⟩
    · exact hend
    · rcases hends with hends | hends
      · obtain ⟨j, hj, hends₁⟩ := hm.ends_of_ends hends
        exact (ih j (by omega) h₁ (Or.inl hends₁)).of_runs hm hs
      · obtain ⟨j, hj, hends₁⟩ := hs.ends_of_ends hends
        exact (ih j (by omega) h₁ (Or.inr hends₁)).of_runs hm hs

end Follows

/-- Every end of a run of `m` that is a success or a fault is matched by a run of `s`: it leaves the same
data cells, data pointer, storage cell, halt flag and channel and, if it is a fault, it is one of the same
operator, from the same cause. -/
def EndsMatch (m s : Machine) (c : σ) : Prop :=
  (∀ m' c', m.Returns c m' c' (.ok ()) → ∃ s', s.Returns c s' c' (.ok ()) ∧ Alike m' s') ∧
    ∀ m' c' ip op e, m.Returns c m' c' (.error (.fault ip op e)) →
      ∃ s' ip', s.Returns c s' c' (.error (.fault ip' op e)) ∧ Alike m' s'

theorem endsMatch_of_endAlike {m s : Machine} {c : σ}
    (h : ∀ {m' c' o}, m.Returns c m' c' o → EndAlike m s c) : EndsMatch m s c := by
  constructor
  · intro m' c' hret
    cases h hret with
    | ok h₁ h₂ halike =>
      obtain ⟨rfl, rfl, -⟩ := hret.unique h₁
      exact ⟨_, h₂, halike⟩
    | fault h₁ _ _ =>
      obtain ⟨-, -, ho⟩ := hret.unique h₁
      cases ho
  · intro m' c' ip op e hret
    cases h hret with
    | ok h₁ _ _ =>
      obtain ⟨-, -, ho⟩ := hret.unique h₁
      cases ho
    | fault h₁ h₂ halike =>
      obtain ⟨rfl, rfl, ho⟩ := hret.unique h₁
      cases ho
      exact ⟨_, _, h₂, halike⟩

/-- What is left of a program fits on a tape if the program does. -/
theorem isWord_strip {program : List UInt8} {dataLength : Int} (hd : 1 ≤ dataLength)
    (hsize : IsWord (1 + program.length + dataLength)) (extend : Int) :
    IsWord (1 + (strip extend program).length + dataLength) := by
  have hle : (strip extend program).length ≤ program.length := List.length_filter_le _ _
  simp only [IsWord] at *
  omega

/-- Machines that were just built on a program and on what is left of it stand at the same cut. -/
theorem follows_fresh (program : List UInt8) {dataLength : Int} (hd : 1 ≤ dataLength)
    (hsize : IsWord (1 + program.length + dataLength)) (options : Options)
    (hlimit : options.tickLimit ≤ 0) :
    ∃ w, Follows ⟨0, Memory.blank hd, false⟩ [true] w (fresh program dataLength options).plain
      (fresh (strip options.extend program) dataLength options).plain := by
  have hsize' := isWord_strip hd hsize options.extend
  have hshows : ∀ p : List UInt8,
      (fresh p dataLength options).plain.Shows ⟨0, Memory.blank hd, false⟩ :=
    fun p ↦ ⟨Tape.storage_ofProgram _ _, Tape.data_ofProgram _ _, rfl, rfl⟩
  exact ⟨_,
    { bare := ⟨hlimit, rfl, (sound_fresh program hd hsize options).isWord⟩
      bare' := ⟨hlimit, rfl, (sound_fresh _ hd hsize' options).isWord⟩
      shows := hshows program
      shows' := hshows _
      extend := rfl
      code := by
        rw [plain, plain, fresh, fresh, Tape.code_ofProgram, Tape.code_ofProgram]
      keeps := rfl
      ip := rfl
      ip' := rfl }⟩

end Machine

open Machine

variable {σ : Type} [Channel σ]

/-- **Bytes that do nothing can be taken out of a program.**  Of two machines built alike, the one on a
program and the other on what is left of it without the bytes that do nothing at its level, the runs end
alike, whether or not the brackets of the programs are balanced.  The length of the tape is taken to be a
word. -/
theorem endsMatch_strip (program : List UInt8) {dataLength extend tickLimit : Int}
    (hd : 1 ≤ dataLength) (he : 0 ≤ extend) (hsize : IsWord (1 + program.length + dataLength))
    (precompute : Bool) (hlimit : tickLimit ≤ 0) (c : σ) :
    ∃ m s, build program dataLength ⟨extend, precompute, tickLimit⟩ = .ok m ∧
      build (strip extend program) dataLength ⟨extend, precompute, tickLimit⟩ = .ok s ∧
      EndsMatch m s (Recording.start c) ∧ EndsMatch s m (Recording.start c) := by
  obtain ⟨w, hfollows⟩ := follows_fresh program hd hsize ⟨extend, precompute, tickLimit⟩ hlimit
  have hm := sound_fresh program hd hsize ⟨extend, precompute, tickLimit⟩
  have hs := sound_fresh _ hd (isWord_strip hd hsize extend) ⟨extend, precompute, tickLimit⟩
  refine ⟨_, _, build_eq_ok_iff.mpr ⟨he, hd, rfl⟩, build_eq_ok_iff.mpr ⟨he, hd, rfl⟩, ?_, ?_⟩
  · refine endsMatch_of_endAlike fun hret ↦ ?_
    obtain ⟨k, hends⟩ := exists_ends_iff_returns.mpr ((returns_plain_iff hm).mpr ⟨_, hret, rfl⟩)
    exact (hfollows.endAlike_of_ends k (Or.inl hends)).of_plain hm hs
  · refine endsMatch_of_endAlike fun hret ↦ ?_
    obtain ⟨k, hends⟩ := exists_ends_iff_returns.mpr ((returns_plain_iff hs).mpr ⟨_, hret, rfl⟩)
    exact ((hfollows.endAlike_of_ends k (Or.inr hends)).of_plain hm hs).symm

/-- The program `a+]` is `+]` at level one, and its last bracket fails on both. -/
theorem endsMatch_strip_unbalanced :
    strip 1 [0x61, 0x2b, 0x5d] = [0x2b, 0x5d] ∧
      ∃ m s, build [0x61, 0x2b, 0x5d] 1 ⟨1, true, 0⟩ = .ok m ∧
        build [0x2b, 0x5d] 1 ⟨1, true, 0⟩ = .ok s ∧
        EndsMatch m s (Recording.start (none : Option Console)) ∧
        EndsMatch s m (Recording.start (none : Option Console)) := by
  have hstrip : strip 1 [0x61, 0x2b, 0x5d] = [0x2b, 0x5d] := by decide
  have hd : (1 : Int) ≤ 1 := by decide
  have he : (0 : Int) ≤ 1 := by decide
  obtain ⟨m, s, hm, hs, hms, hsm⟩ := endsMatch_strip [0x61, 0x2b, 0x5d] hd he (by decide) true
    (Int.le_refl 0) (none : Option Console)
  rw [hstrip] at hs
  exact ⟨hstrip, m, s, hm, hs, hms, hsm⟩

end TapeMachine
