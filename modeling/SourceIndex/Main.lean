import SourceIndex.CommandLine.Run
import SourceIndex.Settings.Folder

/-! The program. Neither tokenizers nor grammars nor models come with it: texts are measured by their
estimates and cut between lines or at blank lines, and no chunk has a vector. -/

namespace SourceIndex.CommandLine

/-- The bytes of a file, if it can be read. -/
def bytesOf? (path : String) : IO (Option (List UInt8)) :=
  try
    return some (← IO.FS.readBinFile path).toList
  catch _ =>
    return none

/-- The value of a variable; one that is not set is empty. -/
def variableOf (name : String) : IO Text :=
  return ((← IO.getEnv name).getD "").toList

/-- The variables that settings and the place of their file come from. -/
def currentEnvironment : IO Settings.Environment := do
  let names := Settings.folderVariable :: Settings.Key.all.map Settings.Key.inEnvironment
  let values ← names.mapM fun name => return (name, ← variableOf name)
  return fun name => (values.lookup name).getD []

/-- How far the values in a settings file may nest. -/
def nestingLimit : Nat := 900

/-- The settings of this process. -/
def currentSettings : IO (Except Settings.LoadError Settings) := do
  let env ← currentEnvironment
  let path := Settings.filePath (← variableOf "HOME") env
  return Settings.load nestingLimit env (← bytesOf? (String.ofList path))

/-- Reads the file that a command line is about, and no other. -/
def readerFor (words : List Text) : IO FileReader := do
  match request words with
  | .error _ => return fun _ => .error .missing
  | .ok r =>
    let path := (Path.ofText r.file).text
    let bytes ← bytesOf? (String.ofList path)
    return fun p => if p.text = path then bytes.elim (.error .missing) .ok else .error .missing

/-- No model can be opened. -/
def noModel (ref : Embedding.ModelRef) : Embedding.Fault :=
  ⟨"Unavailable", (⟨ref.name, "no model is installed"⟩ : Embedding.Unavailable).message⟩

/-- What a process has at hand. -/
def currentSetup (settings : Settings) (words : List Text) : IO Setup := do
  let read ← readerFor words
  return {
    settings
    read
    tokenizer := fun _ => .error "no tokenizer is installed"
    extract := .disposed
    source := fun _ ref => .error (noModel ref)
    site := fun _ => .ok fun _ => .run }

end SourceIndex.CommandLine

open SourceIndex SourceIndex.CommandLine

def main (args : List String) : IO UInt32 := do
  let words := args.map String.toList
  match ← currentSettings with
  | .error cause =>
    IO.eprintln cause.message
    return 1
  | .ok settings =>
    match run (← currentSetup settings words) words with
    | .error message =>
      IO.eprintln message
      return 1
    | .ok report =>
      IO.print (String.ofList report.output)
      IO.eprint (String.ofList report.complaint)
      return report.exit.toUInt32
