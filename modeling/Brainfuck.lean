import Brainfuck.CommandLine.Run
import Brainfuck.Main
import Brainfuck.Proofs.Block.Refinement
import Brainfuck.Proofs.Bracket.Append
import Brainfuck.Proofs.Bracket.Matching
import Brainfuck.Proofs.Collector.Pieces
import Brainfuck.Proofs.Collector.Stream
import Brainfuck.Proofs.Comment.Erasure
import Brainfuck.Proofs.Machine.Safety
import Brainfuck.Proofs.Machine.Sequence
import Brainfuck.Proofs.Machine.Simulation
import Brainfuck.Proofs.Run.Agreement
import Brainfuck.Run
import Brainfuck.Proofs.Bracket.Unmatched
import Brainfuck.Proofs.Machine.Streams
import Brainfuck.Proofs.CommandLine.Options
import Brainfuck.Proofs.CommandLine.Program
import Brainfuck.Proofs.CommandLine.Agreement
import Brainfuck.Proofs.CommandLine.Status
import Brainfuck.Proofs.Machine.Trace
import Brainfuck.Proofs.Machine.Failure
import Brainfuck.Proofs.Machine.Account
import Brainfuck.Proofs.Machine.Break
import Brainfuck.Proofs.Machine.Reading
import Brainfuck.Proofs.Machine.Tape
import Brainfuck.Proofs.Machine.Ring
import Brainfuck.Proofs.Machine.Extent
import Brainfuck.Proofs.Machine.Pointer
import Brainfuck.Proofs.Machine.Consumption
import Brainfuck.Proofs.Collector.Filter
import Brainfuck.Proofs.Machine.LinearLoop
import Brainfuck.Proofs.Run.Truncation
import Brainfuck.Proofs.Run.Echo
import Brainfuck.Proofs.Bracket.Excerpt
import Brainfuck.Proofs.Text.Numeral
import Brainfuck.Proofs.Settings.Precedence
