import TilePuzzle.Json.Reader

/-! Files: what reading one by its path can give, and a tree of files held in memory. -/
namespace TilePuzzle

inductive ReadProblem
  | missing
  | notFolder
  | isFolder
  | nameTooLong
  | denied
  deriving DecidableEq

namespace ReadProblem

def code : ReadProblem → Nat
  | missing => 2
  | denied => 13
  | notFolder => 20
  | isFolder => 21
  | nameTooLong => 36

def reason : ReadProblem → String
  | missing => "No such file or directory"
  | denied => "Permission denied"
  | notFolder => "Not a directory"
  | isFolder => "Is a directory"
  | nameTooLong => "File name too long"

def message (p : ReadProblem) (path : String) : String :=
  "[Errno " ++ toString p.code ++ "] " ++ p.reason ++ ": " ++ Text.quoted path

end ReadProblem

abbrev FileReader := List UInt8 → Except ReadProblem (List UInt8)

/-- Why a file gave no value. A path or an encoding that is unusable is a fault. -/
inductive LoadProblem
  | unreadable (problem : ReadProblem)
  | malformed (complaint : Json.Complaint) (text : List Char)

def LoadProblem.message (path : String) : LoadProblem → String
  | unreadable problem => problem.message path
  | malformed complaint text => complaint.message text

/-- The bytes of a path. Only once a path has bytes it is asked whether one of them is null. -/
def pathBytes (path : String) : Except Fault (List UInt8) :=
  match Text.Utf8.encode path with
  | .error failure => .error (.unencodable failure)
  | .ok bytes => if bytes.contains 0 then .error .nullInPath else .ok bytes

def decodeText (text : List Char) : Except Fault (Except LoadProblem Value) :=
  match Json.read text with
  | .ok v => .ok (.ok v)
  | .error (.complaint complaint) => .ok (.error (.malformed complaint text))
  | .error (.tooManyDigits digits) => .error (.tooManyDigits digits)

def decodeFile (bytes : List UInt8) : Except Fault (Except LoadProblem Value) :=
  match Text.Utf8.decode bytes with
  | .error failure => .error (.undecodable failure)
  | .ok chars => decodeText (Text.unifyNewlines chars)

def loadFile (read : FileReader) (path : String) : Except Fault (Except LoadProblem Value) :=
  match pathBytes path with
  | .error f => .error f
  | .ok name =>
    match read name with
    | .error problem => .ok (.error (.unreadable problem))
    | .ok bytes => decodeFile bytes

/-- The parts of a path between its slashes; nothing and a single dot are no parts. -/
def pathParts (path : String) : List String :=
  ((path.toList.splitOn '/').map String.ofList).filter fun part => part != "" && part != "."

/-- The slashes at the front of a path that count: two are kept, more stand for one. -/
def pathRoot (path : String) : String :=
  match (path.toList.takeWhile (· == '/')).length with
  | 0 => ""
  | 2 => "//"
  | _ => "/"

def pathBelow (folder name : String) : String :=
  pathRoot folder ++ "/".intercalate (pathParts folder ++ pathParts name)

/-- A folder with all that is below it, or the content of a file. -/
inductive FileTree
  | file (bytes : List UInt8)
  | folder (entries : List (String × FileTree))

namespace FileTree

instance : Inhabited FileTree := ⟨.folder []⟩

def setEntry (name : String) (t : FileTree) :
    List (String × FileTree) → List (String × FileTree)
  | [] => [(name, t)]
  | (other, u) :: rest =>
    if other = name then (name, t) :: rest else (other, u) :: setEntry name t rest

def entries : FileTree → List (String × FileTree)
  | file _ => []
  | folder entries => entries

def insert (bytes : List UInt8) : List String → FileTree → FileTree
  | [], _ => file bytes
  | name :: rest, t =>
    let below := (t.entries.lookup name).getD (folder [])
    folder (setEntry name (insert bytes rest below) t.entries)

def find? (name : List UInt8) (entries : List (String × FileTree)) : Option FileTree :=
  (entries.find? fun entry => (Text.Utf8.encode entry.1).toOption == some name).map (·.2)

/-- Names longer than this many bytes do not exist. -/
def longestName : Nat := 255

/-- Paths of this many bytes or more do not exist. -/
def longestPath : Nat := 4096

def dot : UInt8 := 0x2e

def slash : UInt8 := 0x2f

/-- Follows the names of a path from folder to folder; `above` holds the folders on the way. -/
def walk (above : List FileTree) (here : FileTree) :
    List (List UInt8) → Except ReadProblem FileTree
  | [] => .ok here
  | name :: rest =>
    match here with
    | file _ => .error .notFolder
    | folder entries =>
      if name = [] || name = [dot] then walk above here rest
      else if name = [dot, dot] then
        match above with
        | [] => walk [] (folder []) rest
        | parent :: above => walk above parent rest
      else if longestName < name.length then .error .nameTooLong
      else match find? name entries with
        | none => .error .missing
        | some t => walk (here :: above) t rest

def read (root : FileTree) : FileReader := fun path =>
  if path = [] then .error .missing
  else if longestPath ≤ path.length then .error .nameTooLong
  else
    let start := if path.head? = some slash then folder [] else root
    match walk [] start (path.splitOn slash) with
    | .error problem => .error problem
    | .ok (file bytes) => .ok bytes
    | .ok (folder _) => .error .isFolder

end FileTree
end TilePuzzle
