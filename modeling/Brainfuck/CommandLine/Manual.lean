import Brainfuck.CommandLine.UsageError

/-! The texts that explain the command line. -/

namespace Brainfuck.CommandLine.Manual

/-- Lines, each with its line feed. -/
def lines (ls : List String) : Text :=
  ls.flatMap fun l => Text.ofString l ++ [Text.newline]

def usage : Text := lines [
  "usage: bfi [-h] [--tape-size TAPE_SIZE] [--program-max PROGRAM_MAX] [--strict]",
  "           [-v]",
  "           [program]"]

def help : Text := usage ++ lines [
  "",
  "Brainfuck interpreter. Runs PROGRAM, or the program read from stdin if it is",
  "omitted.",
  "",
  "positional arguments:",
  "  program               literal Brainfuck program text",
  "",
  "options:",
  "  -h, --help            show this help message and exit",
  "  --tape-size TAPE_SIZE",
  "                        number of tape cells (default 30000)",
  "  --program-max PROGRAM_MAX",
  "                        maximum instructions kept after filtering (default",
  "                        65536)",
  "  --strict              fail instead of truncating programs over --program-max",
  "  -v, --verbose         debug logging on stderr"]

def refusal (e : UsageError) : Text :=
  usage ++ Text.ofString "bfi: error: " ++ e.message ++ [Text.newline]

end Brainfuck.CommandLine.Manual
