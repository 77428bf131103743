import SourceIndex.Settings.Basic

/-! The folder of the settings file, and how settings are saved: what is saved takes the place of the
file that was there. -/

namespace SourceIndex.Settings

/-- The files that there are, by their paths. -/
abbrev Files := Text → Option (List UInt8)

/-- The variable that names the folder of the settings file. -/
def folderVariable : String := "CODEEMBED_DATA_DIR"

/-- The folder of the settings file: the named one, else one in the home folder. -/
def folder (home : Text) (env : Environment) : Text :=
  let named := env folderVariable
  if named.isEmpty then home ++ '/' :: folderName.toList else named

/-- The path of the settings file. -/
def filePath (home : Text) (env : Environment) : Text :=
  folder home env ++ '/' :: fileName.toList

/-- Settings to be saved: strings by names, both of code points, and no name twice. -/
structure Saved where
  entries : List (List Nat × List Nat)
  nodup : (entries.map Prod.fst).Nodup
  isCode : ∀ entry ∈ entries, ∀ n ∈ entry.1 ++ entry.2, n < 0x110000

namespace Saved

def members (s : Saved) : Members :=
  s.entries.map fun (name, value) => (name, .string value)

def get? (s : Saved) (key : Key) : Option (List Nat) :=
  s.entries.lookup (Json.codes key.inFile.toList)

end Saved

/-- Saves settings; the path of their file is told beside the files that there are then. -/
def save (home : Text) (env : Environment) (s : Saved) (files : Files) : Text × Files :=
  let path := filePath home env
  (path, fun p => if p = path then some (store s.members) else files p)

/-- Loads the settings that stand in the settings file, which is read with so much room. -/
def loadFrom (room : Nat) (home : Text) (env : Environment) (files : Files) :
    Except LoadError Settings :=
  load room env (files (filePath home env))

end SourceIndex.Settings
