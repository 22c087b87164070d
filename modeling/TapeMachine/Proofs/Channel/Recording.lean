import TapeMachine.Channel

/-!
# Channels that remember

A machine can be told apart from another by what it says to its channel.  `Recording` is a channel that
answers like the one inside it and writes down every call that is made to it, with its answer.  A statement
about a machine on a recording is a statement about its input and output history.
-/

set_option autoImplicit false
namespace TapeMachine

/-- A call that was made to a channel, and what the channel answered. -/
inductive Call where
  | send (value : UInt8) (answer : Except Error Unit)
  | receive (answer : Except Error UInt8)

/-- A channel with the calls made to it so far, in order. -/
structure Recording (σ : Type) where
  channel : σ
  calls : List Call

/-- A channel to which no calls have been made. -/
def Recording.start {σ : Type} (c : σ) : Recording σ :=
  ⟨c, []⟩

instance {σ : Type} [Channel σ] : Channel (Recording σ) where
  receive r :=
    let (answer, c) := Channel.receive r.channel
    (answer, ⟨c, r.calls ++ [.receive answer]⟩)
  send v r :=
    let (answer, c) := Channel.send v r.channel
    (answer, ⟨c, r.calls ++ [.send v answer]⟩)

end TapeMachine
