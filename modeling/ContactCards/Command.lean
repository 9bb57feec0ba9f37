import ContactCards.Report
import ContactCards.Settings
import ContactCards.Variables

/-!
The command: its arguments, and a whole run over its input files. Everything outside the program is
given to a run as a value.
-/

namespace ContactCards

/-- What the command is asked to do. -/
inductive Request where
  | version
  | help
  | print (files : List String) (limit : Option Nat) (quiet : Bool)
  deriving DecidableEq, Repr

namespace Request

/-- The limit that an argument gives. -/
def readLimit? (s : String) : Option Nat :=
  (Numeral.readSigned 10 Numeral.max64 s.toList).toOption.filter (0 < ·)

/-- A long option's name, and its value if that is attached. -/
def splitOption (cs : List Char) : String × Option String :=
  match cs.dropWhile (· != '=') with
  | [] => (String.ofList cs, none)
  | _ :: value => (String.ofList (cs.takeWhile (· != '=')), some (String.ofList value))

/-- Files at the end of the arguments; no name of a file is empty. -/
def withFiles? (files : List String) (limit : Option Nat) (quiet : Bool) : Option Request :=
  if files.isEmpty ∨ files.any (·.isEmpty) then none else some (.print files limit quiet)

/-- Reads the arguments that are left, from left to right: the first mistake, or the first request
for the version or for help, decides. -/
def readFrom? (files : List String) (limit : Option Nat) (quiet : Bool) :
    List String → Option Request
  | [] => withFiles? files limit quiet
  | arg :: args =>
    match arg.toList with
    | ['-', '-'] => withFiles? (files ++ args) limit quiet
    | '-' :: '-' :: cs =>
      match splitOption cs, args with
      | ("version", none), _ => some .version
      | ("help", none), _ => some .help
      | ("no-warnings", none), args => if quiet then none else readFrom? files limit true args
      | ("max-cards", some value), args =>
        if limit.isSome then none
        else (readLimit? value).bind fun most => readFrom? files (some most) quiet args
      | ("max-cards", none), value :: args =>
        if limit.isSome then none
        else (readLimit? value).bind fun most => readFrom? files (some most) quiet args
      | _, _ => none
    | '-' :: 'V' :: _ => some .version
    | '-' :: 'h' :: _ => some .help
    | '-' :: _ :: _ => none
    | [] => none
    | _ => readFrom? (files ++ [arg]) limit quiet args

/-- The request that arguments make, if they make one. -/
def ofArguments? (args : List String) : Option Request :=
  readFrom? [] none false args

end Request

/-- What can be read of a file that is open: its bytes, or those before a failure of reading. -/
structure Source where
  bytes : List UInt8
  failure : Option String := none
  deriving DecidableEq, Repr

instance : Coe (List UInt8) Source where
  coe bytes := ⟨bytes, none⟩

/-- A source as an input. -/
def Source.input (source : Source) : Input :=
  match source.failure with
  | none => .document source.bytes
  | some reason => .interrupted source.bytes reason

@[simp] theorem Source.input_ofBytes (bytes : List UInt8) :
    Source.input bytes = .document bytes := rfl

/-- What a run finds around it. -/
structure Surroundings where
  /-- What can be read of a file, or why it cannot be opened. -/
  file : String → Except String Source
  standardInput : Source
  /-- The text of the settings file, if there is one. -/
  settingsFile : Option String
  environment : List (String × String)
  /-- The bytes of the file of variables, none if there is no such file. -/
  variablesFile : List UInt8 := []

/-- The variables that a run sees. -/
def Surroundings.variables (around : Surroundings) : List (String × String) :=
  Variables.load around.variablesFile around.environment

/-- What a run leaves behind. -/
structure RunResult where
  code : Nat
  output : List UInt8
  report : Option String
  deriving DecidableEq, Repr

namespace Command

def versionText : String := "xcard 0.1.0\n"

def helpText : String :=
  "Read xCard (RFC 6351) files and print their cards\n\n" ++
  "Usage: xcard [OPTIONS] <FILES>...\n\n" ++
  "Arguments:\n" ++
  "  <FILES>...  xCard files to read ('-' reads standard input)\n\n" ++
  "Options:\n" ++
  "      --max-cards <MAX_CARDS>  Stop after this many cards per file " ++
  "(overrides reader.max_cards)\n" ++
  "      --no-warnings            Do not print parse warnings (overrides reader.show_warnings)\n" ++
  "  -h, --help                   Print help\n" ++
  "  -V, --version                Print version\n"

/-- The lines of a text after the first, indented. -/
def indentRest (indent : String) (s : String) : String :=
  ("\n" ++ indent).intercalate ((s.toList.splitOn '\n').map String.ofList)

/-- A text after as many spaces as make it `width` characters long. -/
def rightAligned (width : Nat) (s : String) : String :=
  String.ofList (List.replicate (width - s.length) ' ') ++ s

/-- The causes of an error, numbered if there are several. -/
def causeLines : List String → List String
  | [] => []
  | [cause] => ["    " ++ indentRest "    " cause]
  | causes => causes.mapIdx fun i cause =>
    rightAligned 5 (toString i) ++ ": " ++ indentRest "       " cause

/-- The text without blanks at its end. -/
def trimEnd (s : String) : String :=
  String.ofList (dropBlanks s.toList.reverse).reverse

/-- The report on an error and its causes, outermost first. -/
def report (top : String) (causes : List String) : String :=
  trimEnd ("Error: " ++ top ++
    if causes.isEmpty then "" else "\n\nCaused by:\n" ++ "\n".intercalate (causeLines causes))

/-- A failed run. -/
def failure (output : List UInt8) (top : String) (causes : List String) : RunResult :=
  ⟨1, output, some (report top causes)⟩

/-- Prints the cards of the files that are left. Standard input can be read once. -/
def printFiles (around : Surroundings) (limit : Option Nat) (printer : Printer) :
    (input : Source) → List String → RunResult
  | _, [] => ⟨0, printer.output.written, none⟩
  | input, file :: files =>
    match if file = "-" then .ok input else around.file file with
    | .error cause => failure printer.output.written ("failed to open " ++ file) [cause]
    | .ok source =>
      match source.input.readLimited .standard limit Printer.listener printer with
      | (printer, .error fault) =>
        failure printer.output.written ("failed to read " ++ file) fault.chain
      | (printer, .ok _) =>
        printFiles around limit printer (if file = "-" then ⟨[], none⟩ else input) files

/-- A whole run. Arguments take precedence over settings. -/
def run (around : Surroundings) (args : List String) : RunResult :=
  match Request.ofArguments? args with
  | none => ⟨2, [], none⟩
  | some .version => ⟨0, Utf8.encode versionText, none⟩
  | some .help => ⟨0, Utf8.encode helpText, none⟩
  | some (.print files limit quiet) =>
    match Settings.load around.settingsFile around.variables with
    | .error fault => failure [] fault.message []
    | .ok settings =>
      printFiles around (limit.or settings.limit)
        (Printer.start .unlimited (settings.showWarnings && ! quiet)) around.standardInput files

end Command

end ContactCards
