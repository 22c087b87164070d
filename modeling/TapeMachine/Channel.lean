import TapeMachine.Error

/-!
# Channels

The input and output operators of a machine speak to a *channel*, which gives one byte at a time and
takes one byte at a time.  Either may fail, with an error of the channel's own.  A channel is a state
that each operation replaces, also when the operation fails.

A machine that was given no channel has `none` for one; it refuses every operation.
-/

set_option autoImplicit false
namespace TapeMachine

/-- A byte stream in each direction. -/
class Channel (σ : Type) where
  /-- Takes the next input byte. -/
  receive : σ → Except Error UInt8 × σ
  /-- Sends one output byte. -/
  send : UInt8 → σ → Except Error Unit × σ

instance {σ : Type} [Channel σ] : Channel (Option σ) where
  receive
    | some s => (Channel.receive s).map id some
    | none => (.error Condition.channelInvalid, none)
  send b
    | some s => (Channel.send b s).map id some
    | none => (.error Condition.channelInvalid, none)

end TapeMachine
