import TilePuzzle.Text.Numeral

/-! Reading command-line arguments: options by name or by an unambiguous beginning of it, their
values beside or behind them, and operands between them. -/
namespace TilePuzzle.CommandLine

inductive Role
  /-- Asks for help; nothing else counts then. -/
  | help
  | switch
  | text
  | whole
  deriving DecidableEq

structure Flag where
  key : String
  role : Role
  deriving DecidableEq

def Flag.takesValue (f : Flag) : Bool := f.role == .text || f.role == .whole

abbrev Flags := List (String × Flag)

inductive Stop
  | help
  | misuse

structure Use where
  name : String
  flag : Flag
  attached : Option String
  byEquals : Bool

inductive Word
  | operand (s : String)
  /-- Two dashes alone: only operands follow. -/
  | separator
  | option (use : Use)
  /-- Looks like an option and is none. -/
  | unknown (s : String)

def splitEquals (s : String) : String × Option String :=
  match s.toList.span (· != '=') with
  | (name, _ :: value) => (String.ofList name, some (String.ofList value))
  | (name, []) => (String.ofList name, none)

def isLong (s : String) : Bool := s.startsWith "--"

def longMatches (flags : Flags) (s : String) : List Use :=
  let (name, value) := splitEquals s
  (flags.filter fun f => f.1.startsWith name).map fun f => ⟨f.1, f.2, value, value.isSome⟩

def shortMatches (flags : Flags) (s : String) : List Use :=
  let short := String.ofList (s.toList.take 2)
  let rest := String.ofList (s.toList.drop 2)
  flags.filterMap fun f =>
    if f.1 = short then some ⟨f.1, f.2, some rest, false⟩
    else if f.1.startsWith s then some ⟨f.1, f.2, none, false⟩
    else none

def isDigit (c : Char) : Bool := c.isDigit || (Text.decimalDigit? c).isSome

def isPlainNumber (s : List Char) : Bool :=
  match s.dropWhile isDigit with
  | [] => !s.isEmpty
  | '.' :: rest => !rest.isEmpty && rest.all isDigit
  | _ => false

/-- A negative number is an operand; a line feed after it does not count. -/
def isNegativeNumber (s : String) : Bool :=
  match s.toList with
  | '-' :: rest =>
    isPlainNumber (match rest.getLast? with
      | some '\n' => rest.dropLast
      | _ => rest)
  | _ => false

def exactUse? (flags : Flags) (s : String) : Option Use :=
  match flags.lookup s with
  | some flag => some ⟨s, flag, none, false⟩
  | none =>
    match splitEquals s with
    | (name, some value) => (flags.lookup name).map fun flag => ⟨name, flag, some value, true⟩
    | _ => none

def sortDashed (flags : Flags) (s : String) : Except Stop Word :=
  match if isLong s then longMatches flags s else shortMatches flags s with
  | [use] => .ok (.option use)
  | _ :: _ :: _ => .error .misuse
  | [] =>
    if isNegativeNumber s || s.toList.contains ' ' then .ok (.operand s) else .ok (.unknown s)

/-- Tells an option from an operand. Texts with a blank and negative numbers are operands. -/
def sortWord (flags : Flags) (s : String) : Except Stop Word :=
  if !s.startsWith "-" || s = "-" then .ok (.operand s)
  else match exactUse? flags s with
    | some use => .ok (.option use)
    | none => sortDashed flags s

/-- Sorts all words; behind the separator every word is an operand. -/
def sortWords (flags : Flags) : List String → Except Stop (List Word)
  | [] => .ok []
  | s :: rest =>
    if s = "--" then .ok (.separator :: rest.map .operand)
    else do
      let first ← sortWord flags s
      return first :: (← sortWords flags rest)

structure Given where
  /-- The options and their values, the last one first. -/
  options : List (String × String) := []
  operands : List String := []
  /-- Whether there was something that has no meaning. -/
  extra : Bool := false

namespace Given

def switch (g : Given) (flag : Flag) : Except Stop Given :=
  match flag.role with
  | .help => .error .help
  | _ => .ok { g with options := (flag.key, "") :: g.options }

def switchAll (g : Given) : List Flag → Except Stop Given
  | [] => .ok g
  | flag :: rest =>
    match g.switch flag with
    | .error e => .error e
    | .ok g => switchAll g rest

/-- A whole number: blanks around it, a sign, digits of any script with single underscores. -/
def wholeNumber? (s : String) : Option Int :=
  (Text.plain? s.toList).bind fun plain =>
    if Text.longestWhole < plain.countP Char.isDigit then none
    else Text.signed? Text.decimal? plain

def take (g : Given) (flag : Flag) (value : String) : Except Stop Given :=
  if flag.role = .whole && (wholeNumber? value).isNone then .error .misuse
  else .ok { g with options := (flag.key, value) :: g.options }

/-- The short options behind another one in the same word, and whether they end with something
that is none. -/
def clustered (flags : Flags) : List Char → Except Stop (List Flag × Bool)
  | [] => .ok ([], false)
  | '-' :: _ | '=' :: _ => .error .misuse
  | c :: rest =>
    match flags.lookup (String.ofList ['-', c]) with
    | none => .ok ([], true)
    | some flag => (clustered flags rest).map fun (more, extra) => (flag :: more, extra)

def attach (g : Given) (flags : Flags) (use : Use) (value : String) : Except Stop Given :=
  if use.flag.takesValue then g.take use.flag value
  else if isLong use.name || use.byEquals || value = "" then .error .misuse
  else
    match clustered flags value.toList with
    | .error e => .error e
    | .ok (more, extra) => { g with extra := g.extra || extra }.switchAll (use.flag :: more)

end Given

inductive OperandState
  | wanted
  | coming
  | closed

/-- Reads sorted words. Operands count where they are wanted, up to the next option. -/
def readWords (flags : Flags) (state : OperandState) (g : Given) : List Word → Except Stop Given
  | [] => .ok g
  | .unknown _ :: rest =>
    readWords flags (match state with
      | .wanted => .wanted
      | _ => .closed) { g with extra := true } rest
  | .operand s :: rest =>
    match state with
    | .closed => readWords flags .closed { g with extra := true } rest
    | _ => readWords flags .coming { g with operands := g.operands ++ [s] } rest
  | .separator :: rest =>
    match state, rest with
    | .closed, _ | .wanted, [] => readWords flags .closed { g with extra := true } rest
    | .wanted, _ | .coming, _ => readWords flags .coming g rest
  | .option use :: rest =>
    let state := match state with
      | .wanted => OperandState.wanted
      | _ => .closed
    match use.attached, use.flag.takesValue, rest with
    | none, true, .operand value :: rest =>
      match g.take use.flag value with
      | .error e => .error e
      | .ok g => readWords flags state g rest
    | none, true, _ => .error .misuse
    | none, false, rest =>
      match g.switch use.flag with
      | .error e => .error e
      | .ok g => readWords flags state g rest
    | some value, _, rest =>
      match g.attach flags use value with
      | .error e => .error e
      | .ok g => readWords flags state g rest

def readArguments (flags : Flags) (operands : Bool) (args : List String) : Except Stop Given := do
  let words ← sortWords flags args
  let g ← readWords flags (if operands then .wanted else .closed) {} words
  if operands && g.operands.isEmpty then .error .misuse else return g

end TilePuzzle.CommandLine
