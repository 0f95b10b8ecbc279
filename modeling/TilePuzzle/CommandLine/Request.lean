import TilePuzzle.CommandLine.Arguments

/-! What the arguments of the program ask for. -/
namespace TilePuzzle.CommandLine

inductive Command
  | validate
  | levels
  | play
  deriving DecidableEq

namespace Command

def ofName? : String → Option Command
  | "validate" => some validate
  | "levels" => some levels
  | "play" => some play
  | _ => none

def helpFlags : Flags := [("-h", ⟨"help", .help⟩), ("--help", ⟨"help", .help⟩)]

def folderFlags : Flags := helpFlags ++ [("--levels-dir", ⟨"levels-dir", .text⟩)]

def flags : Command → Flags
  | validate => helpFlags
  | levels => folderFlags
  | play => folderFlags ++
    [("--level", ⟨"level", .whole⟩), ("--moves", ⟨"moves", .text⟩),
     ("--ticks", ⟨"ticks", .whole⟩)]

def takesOperands (c : Command) : Bool := c == validate

end Command

structure PlayRequest where
  /-- The folder of the levels; the built-in campaign if it is empty. -/
  folder : String
  level : Int
  moves : List String
  ticks : Int

inductive Request
  /-- The help text of a command, or of the whole program. -/
  | help (about : Option Command)
  | misuse
  /-- Nothing in particular: the help text of the whole program, as a failure. -/
  | nothing
  | validate (paths : List String)
  | levels (folder : String)
  | play (r : PlayRequest)

namespace Request

def programFlags : Flags :=
  Command.helpFlags ++ [("--verbose", ⟨"verbose", .switch⟩), ("-v", ⟨"verbose", .switch⟩)]

abbrev Invocation := String × List String

def readProgram (g : Given) : List (String × Word) →
    Except Stop (Given × Option Invocation)
  | [] => .ok (g, none)
  | (name, .operand _) :: rest => .ok (g, some (name, rest.map (·.1)))
  | [(_, .separator)] => .ok ({ g with extra := true }, none)
  | (_, .separator) :: _ => .error .misuse
  | (_, .unknown _) :: rest => readProgram { g with extra := true } rest
  | (_, .option use) :: rest =>
    let result := match use.attached with
      | some value => g.attach programFlags use value
      | none => g.switch use.flag
    match result with
    | .error e => .error e
    | .ok g => readProgram g rest

def movesOf (s : String) : List String := ((s.splitOn ",").map Text.trim).filter (· != "")

def textOr (g : Given) (key default : String) : String := (g.options.lookup key).getD default

def wholeOr (g : Given) (key : String) (default : Int) : Int :=
  ((g.options.lookup key).bind Given.wholeNumber?).getD default

def ofGiven (g : Given) : Command → Request
  | .validate => validate g.operands
  | .levels => levels (textOr g "levels-dir" "")
  | .play => play {
      folder := textOr g "levels-dir" "", level := wholeOr g "level" 0
      moves := movesOf (textOr g "moves" ""), ticks := wholeOr g "ticks" 600 }

/-- What a command is asked to do. A help text is given even if something before the command has
no meaning. -/
def ofCommand (extra : Bool) (c : Command) (arguments : List String) : Request :=
  match readArguments c.flags c.takesOperands arguments with
  | .error .help => help (some c)
  | .error .misuse => misuse
  | .ok g => if extra || g.extra then misuse else ofGiven g c

def ofArguments (arguments : List String) : Request :=
  match sortWords programFlags arguments with
  | .error _ => misuse
  | .ok words =>
    match readProgram {} (arguments.zip words) with
    | .error .help => help none
    | .error .misuse => misuse
    | .ok (g, none) => if g.extra then misuse else nothing
    | .ok (g, some (name, rest)) =>
      match Command.ofName? name with
      | none => misuse
      | some c => ofCommand g.extra c rest

end Request
end TilePuzzle.CommandLine
