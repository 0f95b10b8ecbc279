import TilePuzzle.CommandLine.Basic

/-! The outer layer of the program: it reads the files that a request needs, prints what the
request gives, and ends with its exit code. -/
namespace TilePuzzle.CommandLine

abbrev FileTable := List (List UInt8 × Except ReadProblem (List UInt8))

def FileTable.read (t : FileTable) : FileReader := fun path =>
  (t.lookup path).getD (.error .missing)

def readProblem : IO.Error → ReadProblem
  | .noFileOrDirectory .. => .missing
  | .inappropriateType _ code _ => if code = 21 then .isFolder else .notFolder
  | .invalidArgument .. => .nameTooLong
  | _ => .denied

/-- Reads a file, or finds out why it cannot be read. Bytes that are no text name no file. -/
def readFile (path : List UInt8) : IO (Except ReadProblem (List UInt8)) :=
  match String.fromUTF8? ⟨path.toArray⟩ with
  | none => return .error .missing
  | some name =>
    try return .ok (← IO.FS.readBinFile name).toList
    catch e => return .error (readProblem e)

def readPaths (paths : List String) : IO FileTable :=
  (paths.filterMap fun path => (pathBytes path).toOption).mapM fun path =>
    return (path, ← readFile path)

/-- Reads the files that a request needs: those known from the start, then those that the first
ones name. -/
def readFiles (request : Request) : IO FileTable := do
  let first ← readPaths request.paths
  let more ← readPaths (request.levelPaths (FileTable.read first))
  return first ++ more

def finish (outcome : Outcome) : IO UInt32 := do
  IO.print (String.ofList (Text.toPlain outcome.output))
  match outcome.ending with
  | .ok code => return code.toUInt32
  | .error f => throw (IO.userError (String.ofList (Text.toPlain f.message)))

end TilePuzzle.CommandLine

open TilePuzzle CommandLine in
def main (arguments : List String) : IO UInt32 := do
  let request := Request.ofArguments (arguments.map fun s => Text.ofPlain s.toList)
  let files ← readFiles request
  finish (run (FileTable.read files) request)
