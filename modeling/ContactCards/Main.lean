import ContactCards.Command

/-!
The command line program: it reads the files and the variables that a run may need, and writes what
the run leaves behind.
-/

namespace ContactCards

/-- An error in the words of the system. -/
def systemText : IO.Error → String
  | .otherError code details | .resourceBusy code details | .resourceVanished code details
  | .unsupportedOperation code details | .hardwareFault code details
  | .unsatisfiedConstraints code details | .illegalOperation code details
  | .protocolError code details | .timeExpired code details
  | .alreadyExists _ code details | .interrupted _ code details
  | .noFileOrDirectory _ code details | .invalidArgument _ code details
  | .permissionDenied _ code details | .resourceExhausted _ code details
  | .inappropriateType _ code details | .noSuchThing _ code details =>
    details ++ " (os error " ++ toString code ++ ")"
  | e => toString e

/-- What can be read up to the end or to a failure, in pieces. -/
partial def readSource (read : USize → IO ByteArray) (found : ByteArray) : IO Source := do
  match ← (read 65536).toBaseIO with
  | .error e => return ⟨found.toList, some (systemText e)⟩
  | .ok piece =>
    if piece.isEmpty then return ⟨found.toList, none⟩ else readSource read (found ++ piece)

/-- What can be read of a file, or why it cannot be opened. -/
def openSource (file : String) : IO (Except IO.Error Source) := do
  match ← (IO.FS.Handle.mk file .read).toBaseIO with
  | .error e => return .error e
  | .ok handle => return .ok (← readSource handle.read .empty)

/-- The text of the settings file, if there is one. -/
def readSettingsFile : IO (Option String) := do
  try
    return some (← IO.FS.readFile "xcard.toml")
  catch _ => return none

/-- Where a file of variables may be: in a directory or in one that it is in, the nearest first. -/
def variablesFiles (directory : String) : List String :=
  let parts := directory.splitOn "/"
  (List.range parts.length).reverse.map fun n => "/".intercalate (parts.take (n + 1) ++ [".env"])

/-- The bytes of the first of some files that is there, or none. -/
def readFirst : List String → IO (List UInt8)
  | [] => return []
  | file :: files => do
    match ← openSource file with
    | .error (.noFileOrDirectory ..) | .ok ⟨[], some _⟩ => readFirst files
    | .error _ => return []
    | .ok source => return source.bytes

/-- The variables that can hold settings. -/
def variableNames : List String :=
  ["XCARD_LOGGING", "XCARD_LOGGING__LEVEL", "XCARD_READER", "XCARD_READER__MAX_CARDS",
    "XCARD_READER__SHOW_WARNINGS"]

/-- The variables of a process, as the system lists them. -/
def listedVariables (listing : List UInt8) : List (String × String) :=
  (listing.splitOn 0).filterMap fun entry => do
    let text ← (Utf8.decode entry).toOption
    let name := text.toList.takeWhile (· != '=')
    guard (name.length < text.length)
    return (String.ofList name, String.ofList (text.toList.drop (name.length + 1)))

/-- The variables of the process. -/
def readVariables : IO (List (String × String)) := do
  match ← (IO.FS.readBinFile "/proc/self/environ").toBaseIO with
  | .ok listing => return listedVariables listing.toList
  | .error _ => variableNames.filterMapM fun name => do
    return (← IO.getEnv name).map (name, ·)

/-- A run in the surroundings of the process. -/
def runProcess (args : List String) : IO UInt32 := do
  let files := match Request.ofArguments? args with
    | some (.print files _ _) => files
    | _ => []
  let inputs ← (files.filter (· != "-")).mapM fun file => do
    return (file, (← openSource file).mapError systemText)
  let standardInput ← if files.contains "-" then readSource (← IO.getStdin).read .empty
    else pure ⟨[], none⟩
  let around : Surroundings :=
    { file := fun file => (inputs.lookup file).getD (.error "")
      standardInput
      settingsFile := ← readSettingsFile
      environment := ← readVariables
      variablesFile := ← readFirst (variablesFiles (← IO.currentDir).toString) }
  let result := Command.run around args
  (← IO.getStdout).write ⟨result.output.toArray⟩
  if let some report := result.report then
    IO.eprintln report
  return UInt32.ofNat result.code

end ContactCards

def main (args : List String) : IO UInt32 :=
  ContactCards.runProcess args
