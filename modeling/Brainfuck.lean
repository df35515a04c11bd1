import Brainfuck.Symbol
import Brainfuck.Program
import Brainfuck.Modular
import Brainfuck.Overflow
import Brainfuck.Tape
import Brainfuck.Device
import Brainfuck.Device.Buffer
import Brainfuck.Device.Streams
import Brainfuck.Device.Script
import Brainfuck.Execution
import Brainfuck.Execution.BigStep
import Brainfuck.Proofs.Tape.Settle
import Brainfuck.Proofs.Tape.Operations
import Brainfuck.Proofs.Tape.Sequences
import Brainfuck.Proofs.Execution.Actions
import Brainfuck.Proofs.Execution.Moves
import Brainfuck.Proofs.Execution.Failures
import Brainfuck.Proofs.Execution.Structure
import Brainfuck.Proofs.Execution.Calls
import Brainfuck.Proofs.Execution.Answers
import Brainfuck.Proofs.Execution.Invariants
import Brainfuck.Proofs.Execution.StreamCalls
import Brainfuck.Proofs.Execution.Unread
import Brainfuck.Proofs.Execution.Interruption
import Brainfuck.Proofs.Execution.Symmetry
import Brainfuck.Proofs.Execution.Rotation
import Brainfuck.Proofs.Execution.Bounds
import Brainfuck.Proofs.Execution.Interchange
import Brainfuck.Proofs.Execution.Sequence
import Brainfuck.Proofs.Execution.Composition
import Brainfuck.Program.Fusion
import Brainfuck.Program.Normal
import Brainfuck.Program.Runs
import Brainfuck.Proofs.Fusion.Pass
import Brainfuck.Proofs.Fusion.Simulation
import Brainfuck.Proofs.Fusion.Soundness
import Brainfuck.Proofs.Fusion.Termination
import Brainfuck.Proofs.Fusion.Shrinking
import Brainfuck.Proofs.Fusion.Iteration
import Brainfuck.Proofs.Program.Nodes
import Brainfuck.Proofs.Fusion.Normal
import Brainfuck.Proofs.Fusion.Canonical
import Brainfuck.Proofs.Fusion.Outline
import Brainfuck.Proofs.Fusion.Runs
import Brainfuck.Proofs.Fusion.Walk
import Brainfuck.Source
import Brainfuck.Program.Parse
import Brainfuck.Program.Grammar
import Brainfuck.Proofs.Parse.Feed
import Brainfuck.Proofs.Parse.Derivation
import Brainfuck.Proofs.Parse.Acceptance
import Brainfuck.Proofs.Parse.Depth
import Brainfuck.Proofs.Parse.Unmatched
import Brainfuck.Proofs.Source.Reading
import Brainfuck.Proofs.Source.Operations
import Brainfuck.Proofs.Printing.Units
import Brainfuck.Proofs.Printing.Length
import Brainfuck.Proofs.Fusion.Savings
import Brainfuck.Proofs.Printing.Erasure
import Brainfuck.Proofs.Printing.RoundTrip
import Brainfuck.Proofs.Execution.Following
import Brainfuck.Proofs.Printing.Effect
import Brainfuck.Proofs.Printing.Meaning
import Brainfuck.Proofs.Printing.Regrouping
import Brainfuck.Text.Printable
import Brainfuck.Text.Digit
import Brainfuck.Text.Integer
import Brainfuck.Proofs.Text.Integer
import Brainfuck.Text.Quoted
import Brainfuck.Text.Split
import Brainfuck.Text.Utf8
import Brainfuck.Text.Encoding
import Brainfuck.Proofs.Text.Lines
import Brainfuck.Dump
import Brainfuck.Proofs.Dump
import Brainfuck.Proofs.Dump.Reading
import Brainfuck.Diagnostic
import Brainfuck.Proofs.Diagnostic.Context
import Brainfuck.Options
import Brainfuck.Proofs.Options
import Brainfuck.Disk
import Brainfuck.Proofs.Disk
import Brainfuck.CommandLine.Arguments
import Brainfuck.CommandLine.Usage
import Brainfuck.CommandLine.Log
import Brainfuck.CommandLine.Run
import Brainfuck.Proofs.CommandLine.Arguments
import Brainfuck.Proofs.CommandLine.Optimizing
import Brainfuck.Proofs.CommandLine.Stages
import Brainfuck.Proofs.CommandLine.Calls
import Brainfuck.Proofs.CommandLine.Notes
import Brainfuck.Proofs.CommandLine.View
import Brainfuck.Proofs.CommandLine.Reporting
import Brainfuck.Proofs.CommandLine.AllOrNothing
import Brainfuck.Main
