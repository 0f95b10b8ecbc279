import TilePuzzle.CommandLine.Request

/-! The help texts, line by line. -/
namespace TilePuzzle.CommandLine

def programHelp : List String := [
  "usage: patternfall [-h] [--verbose] \x7bvalidate,levels,play\x7d ...",
  "",
  "Patternfall - Tile Puzzle Simulation Kernel",
  "",
  "positional arguments:",
  "  \x7bvalidate,levels,play\x7d",
  "                        Commands",
  "    validate            Validate level descriptors",
  "    levels              List the level set",
  "    play                Run a headless scripted session",
  "",
  "options:",
  "  -h, --help            show this help message and exit",
  "  --verbose, -v         Debug logging"]

def Command.help : Command → List String
  | validate => [
    "usage: patternfall validate [-h] level_files [level_files ...]",
    "",
    "positional arguments:",
    "  level_files  Level JSON files",
    "",
    "options:",
    "  -h, --help   show this help message and exit"]
  | levels => [
    "usage: patternfall levels [-h] [--levels-dir LEVELS_DIR]",
    "",
    "options:",
    "  -h, --help            show this help message and exit",
    "  --levels-dir LEVELS_DIR",
    "                        Level directory (default: built-in levels)"]
  | play => [
    "usage: patternfall play [-h] [--levels-dir LEVELS_DIR] [--level LEVEL]",
    "                        [--moves MOVES] [--ticks TICKS]",
    "",
    "options:",
    "  -h, --help            show this help message and exit",
    "  --levels-dir LEVELS_DIR",
    "                        Level directory (default: built-in levels)",
    "  --level LEVEL         Level index to start on",
    "  --moves MOVES         Comma-separated directions, e.g. right,down",
    "  --ticks TICKS         Maximum ticks to run"]

end TilePuzzle.CommandLine
