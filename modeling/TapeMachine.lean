import TapeMachine.Main
import TapeMachine.Proofs.Tape.Brackets
import TapeMachine.Proofs.Tape.Pairing
import TapeMachine.Proofs.Machine.Regions
import TapeMachine.Proofs.Channel.Recording
import TapeMachine.Proofs.Machine.Precompute
import TapeMachine.Proofs.Machine.View
import TapeMachine.Proofs.Structured.Tree
import TapeMachine.Proofs.Structured.Simulation
import TapeMachine.Proofs.Tape.Marks
import TapeMachine.Proofs.Machine.NoOps
import TapeMachine.Proofs.Console.Accounting
import TapeMachine.Proofs.Machine.Faults
import TapeMachine.Proofs.Machine.Bounds
import TapeMachine.Proofs.Emulator.Refinement
import TapeMachine.Proofs.Machine.History
import TapeMachine.Proofs.Machine.Levels
import TapeMachine.Proofs.Machine.Rerun
import TapeMachine.Proofs.Emulator.Session
import TapeMachine.Proofs.Channel.Agreement
import TapeMachine.Proofs.Emulator.Buffering
import TapeMachine.Proofs.Machine.TwoPass
import TapeMachine.Proofs.Machine.Causality
import TapeMachine.Proofs.Dump.Rendering
import TapeMachine.Proofs.Command.Output
import TapeMachine.Proofs.Settings.Layers
import TapeMachine.Proofs.Settings.Toml
import TapeMachine.Proofs.Settings.Yaml
import TapeMachine.Proofs.Command.Precedence
import TapeMachine.Proofs.Tape.Counting
import TapeMachine.Proofs.Tape.Table
import TapeMachine.Proofs.Machine.TickLimit
import TapeMachine.Proofs.Tape.Strays
import TapeMachine.Proofs.Machine.Strays
import TapeMachine.Proofs.Tape.Nesting
import TapeMachine.Proofs.Machine.Moves
import TapeMachine.Proofs.Structured.StraightLine
import TapeMachine.Proofs.Machine.Termination
import TapeMachine.Proofs.Emulator.Trace
import TapeMachine.Proofs.Tape.Snapshot
import TapeMachine.Proofs.Text.Hex
import TapeMachine.Proofs.Dump.Decoding
import TapeMachine.Proofs.Dump.Coloring
import TapeMachine.Proofs.Console.Willing
import TapeMachine.Proofs.Structured.Product
import TapeMachine.Proofs.Structured.Echo
import TapeMachine.Proofs.Settings.Environment
import TapeMachine.Proofs.Text.Numeral
import TapeMachine.Proofs.Source.Generator
import TapeMachine.Proofs.Script.Generator
import TapeMachine.Proofs.Script.Parsing
import TapeMachine.Proofs.Script.Lexing
import TapeMachine.Proofs.Structured.Silent
import TapeMachine.Proofs.Script.Generation
import TapeMachine.Proofs.Walk.EarlyStop
