import LogQuery.CommandLine

/-!
The program: reads what the command asks for, runs it and prints the outcome.
-/

open LogQuery.CommandLine

def readText (read : IO String) : IO (Option String) :=
  try some <$> read catch _ => pure none

def readSources (command : Command) : IO Sources := do
  let input ←
    if command.readsInput then readText (do (← IO.getStdin).readToEnd) else pure none
  let schemaFile ←
    match command.schemaPath? with
    | some path => readText (IO.FS.readFile path)
    | none => pure none
  return { input, schemaFile }

def printOutcome (outcome : Outcome) : IO UInt32 := do
  IO.print outcome.output
  if let some error := outcome.error then
    IO.eprintln error
  return outcome.exitCode.toUInt32

def main (arguments : List String) : IO UInt32 := do
  let schemaVariable ← IO.getEnv "LOGCHEF_SCHEMA"
  let timezoneVariable ← IO.getEnv "LOGCHEF_TIMEZONE"
  let lookup (name : String) : Option String :=
    if name == "LOGCHEF_SCHEMA" then schemaVariable
    else if name == "LOGCHEF_TIMEZONE" then timezoneVariable
    else none
  match Command.read? lookup arguments with
  | none => printOutcome .misused
  | some command => printOutcome (command.run (← readSources command))
