import Brainfuck.CommandLine.Arguments
/-!
# The help of the command line

The texts that the command line prints about itself: the usage, the help,
and the report of refused arguments, which repeats the usage.
-/

namespace Brainfuck.CommandLine

/-- The name that the command goes by. -/
def programName : String := "bfrun"

/-- How the command is used. -/
def usage : String :=
  "usage: bfrun [-h] [-s SIZE] [-O COUNT] [--clamp-tape] [--clamp-cells] [--emit]\n" ++
  "             [--binary | --hex | --decimal] [--output FILE] [-v]\n" ++
  "             [file]\n"

/-- What the command does, and what its switches are for. -/
def help : String :=
  usage ++ "\n" ++
  "Brainfuck interpreter with a peephole optimizer.\n" ++
  "\n" ++
  "positional arguments:\n" ++
  "  file                  Source file to run\n" ++
  "\n" ++
  "options:\n" ++
  "  -h, --help            show this help message and exit\n" ++
  "  -s SIZE, --size SIZE  Number of cells on the tape (default 30000)\n" ++
  "  -O COUNT, --optimize COUNT\n" ++
  "                        Optimizer passes to run. 0 disables the optimizer, a\n" ++
  "                        negative value runs it until the code stops changing.\n" ++
  "  --clamp-tape          Stop the cursor at the tape ends instead of wrapping\n" ++
  "                        around\n" ++
  "  --clamp-cells         Saturate cell values at 0 and 255 instead of wrapping\n" ++
  "                        around\n" ++
  "  --emit                Print the (optimized) program as Brainfuck and exit\n" ++
  "                        without running it\n" ++
  "  --binary              Write the tape as binary digits. Exclusive with --hex\n" ++
  "                        and --decimal.\n" ++
  "  --hex                 Write the tape as hex. Exclusive with --binary and\n" ++
  "                        --decimal.\n" ++
  "  --decimal             Write the tape as decimal numbers. Exclusive with\n" ++
  "                        --binary and --hex.\n" ++
  "  --output FILE         Write the final tape to FILE (raw bytes unless a\n" ++
  "                        format flag is given)\n" ++
  "  -v, --verbose         Log pipeline diagnostics to stderr\n"

/-- The report of refused arguments. -/
def UsageError.report (e : UsageError) : String :=
  usage ++ programName ++ ": error: " ++ e.message

end Brainfuck.CommandLine
