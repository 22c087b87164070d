import TapeMachine.Proofs.Machine.Run

/-!
# Channels that cannot be told apart

A machine sees of its channel only the answers it gets.  So if two channels, perhaps of different types,
always answer alike, a machine does the same on both (`agree_tick`, `agree_runFor`).  Whether two channels
answer alike is a matter of the states they are in, and `Channel.Agrees` is about a relation between such
states: related states give the same answers, and the states after that are related again.  Whatever else
the relation says is then known of the states in which the machine leaves the two channels.

A single tick needs less than that.  It speaks to the channel at most once, and it asks for a byte only if
it executes a `,` (`asks`); so it is enough if the two channels answer alike at that one time
(`agree_tick_of_alike`).
-/

set_option autoImplicit false
namespace TapeMachine

variable {σ τ : Type}

/-- The same answer twice, and states behind it that are related by `R`. -/
def Channel.Alike {α : Type} (R : σ → τ → Prop) (a : Except Error α × σ) (b : Except Error α × τ) :
    Prop :=
  a.1 = b.1 ∧ R a.2 b.2

/-- States that are related by `R` answer alike, and go on being related. -/
structure Channel.Agrees [Channel σ] [Channel τ] (R : σ → τ → Prop) : Prop where
  receive : ∀ {c : σ} {d : τ}, R c d → Alike R (Channel.receive c) (Channel.receive d)
  send : ∀ (b : UInt8) {c : σ} {d : τ}, R c d → Alike R (Channel.send b c) (Channel.send b d)

/-- Steps that differ in the channel they leave at most, and there only within `R`. -/
structure Step.Agree {α : Type} (R : σ → τ → Prop) (s : Step σ α) (t : Step τ α) : Prop where
  machine : s.machine = t.machine
  channel : R s.channel t.channel
  outcome : s.outcome = t.outcome

/-- Runs that differ in the channel they leave at most, and there only within `R`. -/
structure Run.Agree (R : σ → τ → Prop) (r : Run σ) (s : Run τ) : Prop where
  machine : r.machine = s.machine
  channel : R r.channel s.channel
  outcome : r.outcome = s.outcome

namespace Machine

variable {R : σ → τ → Prop} {c : σ} {d : τ}

theorem agree_onCell (m : Machine) (h : R c d) {k : UInt8 → Step σ Unit} {l : UInt8 → Step τ Unit}
    (hk : ∀ v, (k v).Agree R (l v)) : (m.onCell c k).Agree R (m.onCell d l) := by
  rw [onCell, onCell]
  split
  · exact hk _
  · exact ⟨rfl, h, rfl⟩

theorem agree_mapCell (m : Machine) (h : R c d) (f : UInt8 → UInt8) :
    (m.mapCell c f).Agree R (m.mapCell d f) :=
  m.agree_onCell h fun _ ↦ ⟨rfl, h, rfl⟩

theorem agree_jump (m : Machine) (h : R c d) (way : Direction) :
    (m.jump c way).Agree R (m.jump d way) := by
  rw [jump, jump]
  split
  · exact ⟨rfl, h, rfl⟩
  · exact ⟨rfl, h, rfl⟩
  · exact ⟨rfl, h, rfl⟩

variable [Channel σ] [Channel τ]

theorem agree_sendCell (m : Machine) (h : R c d)
    (hsend : ∀ v, Channel.Alike R (Channel.send v c) (Channel.send v d)) :
    (m.sendCell c).Agree R (m.sendCell d) := by
  refine m.agree_onCell h fun v ↦ ?_
  obtain ⟨hanswer, hrest⟩ := hsend v
  generalize Channel.send v c = s at hanswer hrest
  generalize Channel.send v d = t at hanswer hrest
  obtain ⟨a, c'⟩ := s
  obtain ⟨b, d'⟩ := t
  obtain rfl : a = b := hanswer
  cases a with
  | ok => exact ⟨rfl, hrest, rfl⟩
  | error e => exact ⟨rfl, hrest, rfl⟩

theorem agree_receiveCell (m : Machine)
    (hreceive : Channel.Alike R (Channel.receive c) (Channel.receive d)) :
    (m.receiveCell c).Agree R (m.receiveCell d) := by
  rw [receiveCell, receiveCell]
  obtain ⟨hanswer, hrest⟩ := hreceive
  generalize Channel.receive c = s at hanswer hrest
  generalize Channel.receive d = t at hanswer hrest
  obtain ⟨a, c'⟩ := s
  obtain ⟨b, d'⟩ := t
  obtain rfl : a = b := hanswer
  cases a with
  | ok b => exact m.agree_mapCell hrest _
  | error e => exact ⟨rfl, hrest, rfl⟩

/-- An operator does the same on both channels, if they take a byte alike and, should it be the one that
asks for a byte, give one alike. -/
theorem agree_execute (op : Operator) (m : Machine) (h : R c d)
    (hsend : ∀ v, Channel.Alike R (Channel.send v c) (Channel.send v d))
    (hreceive : op = .input → Channel.Alike R (Channel.receive c) (Channel.receive d)) :
    (m.execute op c).Agree R (m.execute op d) := by
  cases op with
  | nop | right | left | halt | other b => exact ⟨rfl, h, rfl⟩
  | inc | dec | load | shl | shr | not | xor | and | or => exact m.agree_mapCell h _
  | store => exact m.agree_onCell h fun _ ↦ ⟨rfl, h, rfl⟩
  | output => exact m.agree_sendCell h hsend
  | input => exact m.agree_receiveCell (hreceive rfl)
  | loop =>
    refine m.agree_onCell h fun v ↦ ?_
    split
    · exact m.agree_jump h .forward
    · exact ⟨rfl, h, rfl⟩
  | again =>
    refine m.agree_onCell h fun v ↦ ?_
    split
    · exact ⟨rfl, h, rfl⟩
    · exact m.agree_jump h .backward

/-- Whether the next tick asks the channel for a byte. -/
def asks (m : Machine) : Bool :=
  m.isRunning && !m.atTickLimit && m.opcode = .input

/-- A tick does the same on channels that answer alike this once. -/
theorem agree_tick_of_alike (m : Machine) (h : R c d)
    (hsend : ∀ v, Channel.Alike R (Channel.send v c) (Channel.send v d))
    (hreceive : m.asks = true → Channel.Alike R (Channel.receive c) (Channel.receive d)) :
    (m.tick c).Agree R (m.tick d) := by
  rcases tick_cases m c with ⟨hr, ht⟩ | ⟨hr, hl, ht⟩ | ⟨hr, hl, ht⟩
  · rw [ht, tick_of_stopped hr]
    exact ⟨rfl, h, rfl⟩
  · rw [ht, tick_of_atTickLimit hr hl]
    exact ⟨rfl, h, rfl⟩
  · have hasks : m.opcode = .input → m.asks = true := fun hop ↦ by simp [asks, hr, hl, hop]
    rw [ht, tick_of_running hr hl]
    obtain ⟨hmachine, hchannel, houtcome⟩ :=
      agree_execute m.opcode m h hsend fun hop ↦ hreceive (hasks hop)
    generalize m.execute m.opcode c = s at hmachine hchannel houtcome
    generalize m.execute m.opcode d = t at hmachine hchannel houtcome
    obtain ⟨m', c', o⟩ := s
    obtain ⟨m'', d', o'⟩ := t
    obtain ⟨rfl, rfl⟩ : m' = m'' ∧ o = o' := ⟨hmachine, houtcome⟩
    cases o with
    | ok => exact ⟨rfl, hchannel, rfl⟩
    | error e => exact ⟨rfl, hchannel, rfl⟩
    | offTape => exact ⟨rfl, hchannel, rfl⟩

/-- **A tick does the same on both channels.** -/
theorem agree_tick (hR : Channel.Agrees R) (m : Machine) (h : R c d) :
    (m.tick c).Agree R (m.tick d) :=
  m.agree_tick_of_alike h (fun v ↦ hR.send v h) fun _ ↦ hR.receive h

/-- What ticks do alike, runs do alike: it is enough that a tick keeps the channels related, as long as
`P` holds of where the run on the first one is going. -/
theorem agree_runFor_of_tick {P : Nat → Machine → σ → Prop}
    (htick : ∀ {n : Nat} {m : Machine} {c : σ} {d : τ}, R c d → P (n + 1) m c →
      (m.tick c).Agree R (m.tick d))
    (hnext : ∀ {n : Nat} {m m' : Machine} {c c' : σ}, m.tick c = ⟨m', c', .ok false⟩ →
      P (n + 1) m c → P n m' c')
    (n : Nat) (m : Machine) (h : R c d) (hP : P n m c) :
    (m.runFor n c).Agree R (m.runFor n d) := by
  induction n generalizing m c d with
  | zero => exact ⟨rfl, h, rfl⟩
  | succ n ih =>
    obtain ⟨hmachine, hchannel, houtcome⟩ := htick h hP
    obtain ⟨⟨m', c', o⟩, hs⟩ : ∃ s, m.tick c = s := ⟨_, rfl⟩
    obtain ⟨⟨m'', d', o'⟩, ht⟩ : ∃ t, m.tick d = t := ⟨_, rfl⟩
    rw [hs, ht] at hmachine hchannel houtcome
    obtain ⟨rfl, rfl⟩ : m' = m'' ∧ o = o' := ⟨hmachine, houtcome⟩
    rw [runFor, runFor, hs, ht]
    rcases o with (_ | _) | e | _
    · exact ih m' hchannel (hnext hs hP)
    · exact ⟨rfl, hchannel, rfl⟩
    · exact ⟨rfl, hchannel, rfl⟩
    · exact ⟨rfl, hchannel, rfl⟩

/-- **A run does the same on both channels**, however long it is looked at. -/
theorem agree_runFor (hR : Channel.Agrees R) (n : Nat) (m : Machine) (h : R c d) :
    (m.runFor n c).Agree R (m.runFor n d) :=
  agree_runFor_of_tick (P := fun _ _ _ ↦ True) (fun h _ ↦ agree_tick hR _ h) (fun _ _ ↦ trivial) n m
    h trivial

end Machine
end TapeMachine
